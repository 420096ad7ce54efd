import HuntProxy.Validation.Run

/-!
# Suspended workers can be released

A worker that suspects the internet to be down marks the suspicion, clears the pause event
and asks the canary; the other workers wait for the event. When the internet is down the
suspicion stays and the hunt is paused, so that a resume releases the workers. But
`pause_hunt` refuses without a live hunt, a cancelled worker asks no canary, and `stop_hunt`
sets the event without clearing the suspicion.

## Main definitions

- `HuntState.released` — a suspension comes with the paused flag
- `CheckPc.autoPausing`, `ValidationRun.autoPausing` — an automatic pause is in progress
- `ValidationRun.owned` — the condition of this module

## Main results

- `Validation.turn_spec` — what a turn of a worker does to the flags
- `ValidationRun.Inv.step` — what a step under the condition keeps
- `ValidationRun.no_orphaned_suspension` — every suspension can be released
- `ValidationRun.orphaned_suspension` — a scheduled run while the internet is down
-/

namespace HuntProxy

variable {α : Type*}

/-- The flags of a suspension. -/
@[ext] structure PauseFlags where
  paused : Bool
  pauseEvent : Bool
  internetSuspect : Bool
  deriving DecidableEq, Repr

namespace HuntState

/-- The flags of a suspension. -/
def flags (hs : HuntState) : PauseFlags := ⟨hs.paused, hs.pauseEvent, hs.internetSuspect⟩

/-- A cleared event or a suspicion comes with the paused flag. -/
def released (hs : HuntState) : Bool := hs.paused || hs.pauseEvent && !hs.internetSuspect

theorem released_iff {hs : HuntState} :
    hs.released = true ↔
      (hs.pauseEvent = false ∨ hs.internetSuspect = true → hs.paused = true) := by
  cases hp : hs.paused <;> cases he : hs.pauseEvent <;> cases hi : hs.internetSuspect <;>
    simp [released, hp, he, hi]

theorem released_congr {hs hs' : HuntState} (h : hs'.flags = hs.flags) :
    hs'.released = hs.released := by
  simp only [flags, PauseFlags.mk.injEq] at h
  rw [released, released, h.1, h.2.1, h.2.2]

/-! ### The flags along the methods of the engine -/

theorem cancelHunt_flags (hs : HuntState) (h : ℕ) : (hs.cancelHunt h).flags = hs.flags := by
  unfold cancelHunt
  split <;> rfl

theorem skipPhase_flags (hs : HuntState) : hs.skipPhase.1.flags = hs.flags := by
  unfold skipPhase
  split
  · rfl
  · split <;> rfl

theorem CycleKept.flags {hs hs' : HuntState} (h : hs.CycleKept hs') : hs'.flags = hs.flags := by
  simp only [HuntState.flags, h.paused, h.pauseEvent, h.internetSuspect]

/-- A pause that is accepted pauses, and one that is refused changes nothing. -/
theorem pauseHunt_released {hs : HuntState} {manual : Bool}
    (h : hs.released = true ∨ hs.taskAlive = true) : (hs.pauseHunt manual).1.released = true := by
  unfold pauseHunt
  split
  · next hrefused =>
    rcases h with h | halive
    · exact h
    · simp only [halive, Bool.not_true, Bool.or_false] at hrefused
      rw [released, hrefused, Bool.true_or]
  · rfl

theorem resumeHunt_released {hs : HuntState} {manual : Bool} (h : hs.released = true) :
    (hs.resumeHunt manual).1.released = true := by
  unfold resumeHunt
  split
  · exact h
  · split
    · exact h
    · rfl

/-- A stopped hunt leaves the suspicion as it is. -/
theorem stopHunt_released {hs : HuntState} (h : hs.internetSuspect = false) :
    hs.stopHunt.released = true := by
  have hsuspect : hs.stopHunt.internetSuspect = hs.internetSuspect := by
    unfold stopHunt cancelTask cancelHunt
    dsimp only
    split
    · rfl
    · split <;> rfl
  rw [released, hsuspect, h]
  rfl

/-- The canary finds the internet up, or the hunt is paused. -/
theorem afterCanary_released {hs : HuntState} {alive : Option Bool}
    (h : hs.released = true ∨ alive = some true ∨ hs.taskAlive = true) :
    (hs.afterCanary alive).released = true := by
  unfold afterCanary
  split
  · cases hs.paused <;> simp [released]
  · next hdown => exact pauseHunt_released (h.imp_right (fun h => h.resolve_left hdown))

end HuntState

/-! ### Turns of a worker -/

namespace CheckPc

/-- The worker is in `_auto_pause_if_internet_down`. -/
def autoPausing : CheckPc α → Bool
  | .autoPause _ _ => true
  | _ => false

/-- How often the event had been set when the worker began to wait for it. -/
def waitsSince : CheckPc α → Option ℕ
  | .pauseWait _ _ since => some since
  | .suspectWait _ _ since => some since
  | .retryWait _ since => some since
  | _ => none

theorem waitsSince_of_autoPausing {pc : CheckPc α} (h : pc.autoPausing = true) :
    pc.waitsSince = none := by
  cases pc with
  | autoPause addr fastFail => rfl
  | _ => cases h

end CheckPc

namespace Validation

variable {v v₁ : Validation α} {r : Validation α × CheckPc α} {addr : α} {counted : Bool}

/-- A turn that leaves the flags alone; a worker begins to wait only for a cleared event. -/
structure Calm (v : Validation α) (r : Validation α × CheckPc α) : Prop where
  flags : r.1.host.flags = v.host.flags
  sets : r.1.sets = v.sets
  autoPausing : r.2.autoPausing = false
  waits : ∀ since, r.2.waitsSince = some since → since = v.sets ∧ v.host.pauseEvent = false

/-- A turn that begins an automatic pause. -/
structure Alarm (v : Validation α) (r : Validation α × CheckPc α) : Prop where
  sets : r.1.sets = v.sets
  pauseEvent : r.1.host.pauseEvent = false
  autoPausing : r.2.autoPausing = true

/-- Counters do not matter for the flags. -/
theorem Calm.congr (h : v₁.Calm r) (hflags : v₁.host.flags = v.host.flags)
    (hsets : v₁.sets = v.sets) : v.Calm r := by
  refine ⟨h.flags.trans hflags, h.sets.trans hsets, h.autoPausing, fun since hsince => ?_⟩
  obtain ⟨heq, hclear⟩ := h.waits since hsince
  exact ⟨heq.trans hsets, (congrArg PauseFlags.pauseEvent hflags).symm.trans hclear⟩

theorem Alarm.congr (h : v₁.Alarm r) (hsets : v₁.sets = v.sets) : v.Alarm r :=
  ⟨h.sets.trans hsets, h.pauseEvent, h.autoPausing⟩

/-- A turn whose new position waits for no event. -/
theorem calm_of_no_wait {pc : CheckPc α} (hflags : v₁.host.flags = v.host.flags)
    (hsets : v₁.sets = v.sets) (hpc : pc.autoPausing = false) (hwaits : pc.waitsSince = none) :
    v.Calm (v₁, pc) :=
  ⟨hflags, hsets, hpc, fun since hsince => by rw [hwaits] at hsince; cases hsince⟩

theorem returned_calm (v : Validation α) : v.Calm v.returned := calm_of_no_wait rfl rfl rfl rfl

theorem release_returned_calm (v : Validation α) : v.Calm v.release.returned :=
  v.release.returned_calm.congr rfl rfl

theorem repeated_calm (v : Validation α) (addr : α) : v.Calm (v.repeated addr) := by
  unfold repeated
  split
  · exact calm_of_no_wait rfl rfl rfl rfl
  · next hclear =>
    refine ⟨rfl, rfl, rfl, fun since hsince => ?_⟩
    cases hsince
    exact ⟨rfl, Bool.eq_false_iff.mpr hclear⟩

theorem afterFastFail_calm (v : Validation α) (addr : α) : v.Calm (v.afterFastFail addr) := by
  unfold afterFastFail
  split
  · exact v.repeated_calm addr
  · exact v.release_returned_calm

theorem suspect_alarm (v : Validation α) (fastFail : Bool) :
    v.Alarm (v.withHost v.host.suspect, .autoPause addr fastFail) :=
  ⟨rfl, rfl, rfl⟩

theorem handleFastFail_spec (v : Validation α) (addr : α) (counted : Bool) :
    v.Calm (v.handleFastFail addr counted) ∨ v.Alarm (v.handleFastFail addr counted) := by
  unfold handleFastFail
  split
  · exact .inl v.release_returned_calm
  · dsimp only
    split
    · exact .inr ((suspect_alarm _ true).congr rfl)
    · exact .inl ((afterFastFail_calm _ addr).congr rfl rfl)

theorem afterResult_spec (v : Validation α) (addr : α) :
    v.Calm (v.afterResult addr) ∨ v.Alarm (v.afterResult addr) := by
  unfold afterResult
  split
  · exact .inl (v.repeated_calm addr)
  · split
    · exact .inr (v.suspect_alarm false)
    · exact .inl v.release_returned_calm

theorem recordCheckResult_spec (v : Validation α) (addr : α) (r : WorkResult) :
    v.Calm (v.recordCheckResult addr r) ∨ v.Alarm (v.recordCheckResult addr r) := by
  unfold recordCheckResult
  split
  · exact .inl v.release_returned_calm
  · split
    · exact v.afterResult_spec addr
    · rcases afterResult_spec _ addr with h | h
      · exact .inl (h.congr rfl rfl)
      · exact .inr (h.congr rfl)

theorem inside_calm (v : Validation α) (addr : α) (counted : Bool) :
    v.Calm (v.inside addr counted) := by
  unfold inside
  split
  · split
    · exact calm_of_no_wait rfl rfl rfl rfl
    · next hclear =>
      refine ⟨rfl, rfl, rfl, fun since hsince => ?_⟩
      cases hsince
      exact ⟨rfl, Bool.eq_false_iff.mpr hclear⟩
  · exact calm_of_no_wait rfl rfl rfl rfl

variable [DecidableEq α]

theorem enter_calm (v : Validation α) (addr : α) (counted : Bool) :
    v.Calm (v.enter addr counted) := by
  unfold enter
  split
  · refine (returned_calm _).congr ?_ ?_
    · unfold handleBlacklisted
      split <;> rfl
    · unfold handleBlacklisted
      split <;> rfl
  · split
    · exact calm_of_no_wait rfl rfl rfl rfl
    · exact v.inside_calm addr counted

/-- **The turns of a worker**: an automatic pause begins, or ends with the verdict of the
canary; all other turns leave the flags alone. -/
theorem turn_spec {pc : CheckPc α} {inp : CheckInput} (h : v.turn pc inp = some r) :
    (pc.autoPausing = false ∧ (v.Calm r ∨ v.Alarm r)) ∨
      ∃ alive, inp = .verdict alive ∧ (v.withHost (v.host.afterCanary alive)).Calm r := by
  unfold turn at h
  split at h
  · split at h
    · cases h
      exact .inl ⟨rfl, .inl (calm_of_no_wait rfl rfl rfl rfl)⟩
    · cases h
      exact .inl ⟨rfl, .inl (calm_of_no_wait rfl rfl rfl rfl)⟩
  · split at h
    · next hpaused =>
      cases h
      refine .inl ⟨rfl, .inl ⟨rfl, rfl, rfl, fun since hsince => ?_⟩⟩
      cases hsince
      exact ⟨rfl, hpaused.2⟩
    · cases h
      exact .inl ⟨rfl, .inl (v.enter_calm _ _)⟩
  · obtain ⟨-, heq⟩ := Option.ite_none_right_eq_some.mp h
    cases heq
    exact .inl ⟨rfl, .inl (v.enter_calm _ _)⟩
  · obtain ⟨-, heq⟩ := Option.ite_none_left_eq_some.mp h
    cases heq
    exact .inl ⟨rfl, .inl (v.inside_calm _ _)⟩
  · obtain ⟨-, heq⟩ := Option.ite_none_right_eq_some.mp h
    cases heq
    exact .inl ⟨rfl, .inl (calm_of_no_wait rfl rfl rfl rfl)⟩
  · split at h
    · cases h
      exact .inl ⟨rfl, v.handleFastFail_spec _ _⟩
    · split at h
      · cases h
        exact .inl ⟨rfl, .inl (calm_of_no_wait rfl rfl rfl rfl)⟩
      · cases h
        exact .inl ⟨rfl, v.recordCheckResult_spec _ _⟩
  · cases h
    exact .inl ⟨rfl, v.recordCheckResult_spec _ _⟩
  · next addr fastFail alive =>
    cases h
    refine .inr ⟨alive, rfl, ?_⟩
    cases fastFail with
    | true => exact afterFastFail_calm _ addr
    | false => exact release_returned_calm _
  · obtain ⟨-, heq⟩ := Option.ite_none_right_eq_some.mp h
    cases heq
    exact .inl ⟨rfl, .inl (calm_of_no_wait rfl rfl rfl rfl)⟩
  · cases h

end Validation

/-! ### Runs -/

namespace ValidationRun

variable {s s' : ValidationRun α}

/-- An automatic pause is in progress. -/
def autoPausing (s : ValidationRun α) : Bool := s.nursery.states.any CheckPc.autoPausing

/-- An automatic pause is in progress in another worker than `i`. -/
def autoPausingBeside (s : ValidationRun α) (i : ℕ) : Bool :=
  (s.nursery.states.eraseIdx i).any CheckPc.autoPausing

/-- The verdict of the canary ends the suspicion or finds a hunt to pause. -/
def settledBy (s : ValidationRun α) : CheckInput → Bool
  | .verdict alive => alive == some true || s.host.taskAlive
  | _ => false

/-- The last automatic pause in progress ends by a verdict that settles it, or finds the
suspension owned already; and a hunt is stopped without a suspicion, or while an automatic
pause is in progress. -/
def owned (s : ValidationRun α) : ValidationEvent α → Bool
  | .worker i inp =>
    match s.nursery.children[i]? with
    | none => true
    | some c =>
      !c.state.autoPausing || s.autoPausingBeside i || s.host.released ||
        !c.cancelRequested && s.settledBy inp
  | .stopHunt => s.autoPausing || !s.host.internetSuspect
  | _ => true

/-- The workers that wait for the event have been woken, or the event is still cleared. -/
def Waits (v : Validation α) (pcs : List (CheckPc α)) : Prop :=
  ∀ pc ∈ pcs, ∀ since, pc.waitsSince = some since →
    since < v.sets ∨ since = v.sets ∧ v.host.pauseEvent = false

/-- Unless an automatic pause is in progress, a suspension comes with the paused flag. -/
structure Inv (s : ValidationRun α) : Prop where
  released : s.autoPausing = true ∨ s.host.released = true
  waits : Waits s.shared s.nursery.states

/-- What a suspended engine offers its workers: a cleared event or a suspicion comes with
the paused flag, and `resume_hunt` wakes every worker that waits. -/
structure Releasable (s : ValidationRun α) : Prop where
  paused : s.host.pauseEvent = false ∨ s.host.internetSuspect = true → s.host.paused = true
  wakes : ∀ pc ∈ s.nursery.states, ∀ since, pc.waitsSince = some since →
    since < s.shared.sets ∨
      (s.host.resumeHunt true).2 = true ∧
        since < (s.withHost (s.host.resumeHunt true).1).shared.sets

/-! ### Workers that wait -/

/-- The engine sets the event, or leaves it cleared. -/
theorem Waits.withHost {v : Validation α} {pcs : List (CheckPc α)} (h : Waits v pcs)
    (hs : HuntState) : Waits (v.withHost hs) pcs := by
  intro pc hpc since hsince
  simp only [Validation.withHost_sets, Validation.withHost_host]
  have hle : since ≤ v.sets := by
    rcases h pc hpc since hsince with hlt | ⟨heq, -⟩ <;> omega
  cases hset : hs.pauseEvent with
  | true =>
    rw [if_pos rfl]
    omega
  | false =>
    rw [if_neg Bool.false_ne_true]
    rcases hle.lt_or_eq with hlt | heq
    · exact .inl hlt
    · exact .inr ⟨heq, rfl⟩

theorem Waits.calm {v : Validation α} {pcs : List (CheckPc α)} {i : ℕ}
    {r : Validation α × CheckPc α} (h : Waits v pcs) (hr : v.Calm r) :
    Waits r.1 (pcs.set i r.2) := by
  have hevent : r.1.host.pauseEvent = v.host.pauseEvent :=
    congrArg PauseFlags.pauseEvent hr.flags
  intro pc hpc since hsince
  rw [hr.sets, hevent]
  rcases List.mem_or_eq_of_mem_set hpc with hpc | rfl
  · exact h pc hpc since hsince
  · exact .inr (hr.waits since hsince)

theorem Waits.alarm {v : Validation α} {pcs : List (CheckPc α)} {i : ℕ}
    {r : Validation α × CheckPc α} (h : Waits v pcs) (hr : v.Alarm r) :
    Waits r.1 (pcs.set i r.2) := by
  intro pc hpc since hsince
  rw [hr.sets, hr.pauseEvent]
  rcases List.mem_or_eq_of_mem_set hpc with hpc | rfl
  · exact (h pc hpc since hsince).imp_right (fun hw => ⟨hw.1, rfl⟩)
  · rw [CheckPc.waitsSince_of_autoPausing hr.autoPausing] at hsince
    cases hsince

theorem waits_unwind {v : Validation α} {pcs : List (CheckPc α)} {i : ℕ} {pc : CheckPc α}
    (h : Waits v pcs) : Waits (v.unwind pc).1 (pcs.set i (v.unwind pc).2) := by
  have hcalm : v.Calm (v.unwind pc) := by
    refine Validation.calm_of_no_wait ?_ ?_ rfl rfl
    · split <;> rfl
    · split <;> rfl
  exact h.calm hcalm

/-! ### Automatic pauses -/

/-- What the list of the workers says about an automatic pause, worker `i` apart. -/
theorem autoPausing_set {pcs : List (CheckPc α)} {i : ℕ} {pc pc' : CheckPc α}
    (hi : pcs[i]? = some pc) :
    (pcs.set i pc').any CheckPc.autoPausing =
      (pc'.autoPausing || (pcs.eraseIdx i).any CheckPc.autoPausing) := by
  obtain ⟨hlt, -⟩ := List.getElem?_eq_some_iff.mp hi
  rw [List.set_eq_take_append_cons_drop, if_pos hlt, List.eraseIdx_eq_take_drop_succ]
  simp only [List.any_append, List.any_cons]
  cases pc'.autoPausing <;> simp

theorem autoPausing_eq {pcs : List (CheckPc α)} {i : ℕ} {pc : CheckPc α} (hi : pcs[i]? = some pc) :
    pcs.any CheckPc.autoPausing =
      (pc.autoPausing || (pcs.eraseIdx i).any CheckPc.autoPausing) := by
  have hset : pcs.set i pc = pcs := by
    refine List.ext_getElem? (fun j => ?_)
    rw [List.getElem?_set]
    split
    · next hij =>
      subst hij
      rw [hi, if_pos (List.getElem?_eq_some_iff.mp hi).1]
    · rfl
  rw [← autoPausing_set hi, hset]

/-! ### Steps -/

/-- Methods of the engine do not move the workers. -/
theorem Inv.withHost (h : s.Inv) {hs : HuntState}
    (hreleased : s.autoPausing = true ∨ hs.released = true) : (s.withHost hs).Inv :=
  ⟨hreleased, h.waits.withHost hs⟩

theorem Inv.congr (h : s.Inv) {hs : HuntState} (hflags : hs.flags = s.host.flags) :
    (s.withHost hs).Inv :=
  h.withHost (h.released.imp_right (fun hr => (HuntState.released_congr hflags).trans hr))

theorem Inv.cancel (h : s.Inv) : s.cancel.Inv := by
  constructor
  · change s.nursery.cancel.states.any _ = true ∨ s.nursery.cancel.shared.host.released = true
    rw [Nursery.cancel_states, Nursery.cancel_shared]
    exact h.released
  · change Waits s.nursery.cancel.shared s.nursery.cancel.states
    rw [Nursery.cancel_states, Nursery.cancel_shared]
    exact h.waits

theorem leftBy_flags (hs : HuntState) (h : ℕ) : (leftBy hs h).flags = hs.flags := by
  unfold leftBy
  split
  · cases hstep : hs.cycleStep h (.done 0 0) with
    | none => rfl
    | some q => exact (HuntState.cycleStep_kept hstep).flags
  · rfl

theorem Inv.left (h : s.Inv) : s.left.Inv := by
  unfold ValidationRun.left
  dsimp only
  have hreset : (if s.skipped && !s.nursery.cancelRequested then s.host.resetSkip
      else s.host).flags = s.host.flags := by
    split <;> rfl
  generalize (if s.skipped && !s.nursery.cancelRequested then s.host.resetSkip
    else s.host) = hs at hreset
  split
  · exact h.congr hreset
  · next hunt _ => exact h.congr ((leftBy_flags hs hunt).trans hreset)

/-- Worker `i` goes on. -/
theorem Inv.put {i : ℕ} {c : Child (CheckPc α)} {r : Validation α × CheckPc α}
    (hi : s.nursery.states[i]? = some c.state)
    (hcase : s.autoPausingBeside i = true ∨ r.2.autoPausing = true ∨ r.1.host.released = true)
    (hwaits : Waits r.1 (s.nursery.states.set i r.2)) :
    Inv { s with nursery := s.nursery.putChild i c r } := by
  constructor
  · change (s.nursery.putChild i c r).states.any _ = true ∨ r.1.host.released = true
    rw [Nursery.putChild_states, autoPausing_set hi, Bool.or_eq_true]
    rcases hcase with hbeside | hpausing | hreleased
    · exact .inl (.inr hbeside)
    · exact .inl (.inl hpausing)
    · exact .inr hreleased
  · change Waits r.1 (s.nursery.putChild i c r).states
    rw [Nursery.putChild_states]
    exact hwaits

/-- Worker `i` is in no automatic pause, or not in the last one. -/
theorem Inv.beside (h : s.Inv) {i : ℕ} {pc : CheckPc α} (hi : s.nursery.states[i]? = some pc)
    (hpc : (pc.autoPausing = false ∨ s.autoPausingBeside i = true) ∨ s.host.released = true) :
    s.autoPausingBeside i = true ∨ s.host.released = true := by
  rcases hpc with (hno | hbeside) | hreleased
  · have heq : s.autoPausing = s.autoPausingBeside i := by
      rw [autoPausing, autoPausing_eq hi, hno, Bool.false_or]
      rfl
    rw [← heq]
    exact h.released
  · exact .inl hbeside
  · exact .inr hreleased

/-- A suspended engine with the paused flag releases its workers. -/
theorem Inv.releasable (h : s.Inv) (hcalm : s.autoPausing = false) : s.Releasable := by
  have hreleased : s.host.released = true :=
    h.released.resolve_left (fun hp => by rw [hcalm] at hp; cases hp)
  have hpaused := HuntState.released_iff.mp hreleased
  refine ⟨hpaused, fun pc hpc since hsince => ?_⟩
  rcases h.waits pc hpc since hsince with hwoken | ⟨heq, hclear⟩
  · exact .inl hwoken
  · have hresume : (s.host.resumeHunt true).2 = true ∧
        (s.host.resumeHunt true).1.pauseEvent = true := by
      unfold HuntState.resumeHunt
      simp [hpaused (.inl hclear)]
    refine .inr ⟨hresume.1, ?_⟩
    change since < (s.shared.withHost (s.host.resumeHunt true).1).sets
    rw [Validation.withHost_sets, if_pos hresume.2, heq]
    exact Nat.lt_succ_self _

theorem Initial.inv (h : s.Initial) (hreleased : s.host.released = true) : s.Inv := by
  refine ⟨.inr hreleased, fun pc hpc since hsince => ?_⟩
  obtain ⟨c, hc, rfl⟩ := List.mem_map.mp hpc
  rw [(h.children c hc).1] at hsince
  cases hsince

variable [DecidableEq α]

/-- A turn of worker `i`: an automatic pause begins, the last one ends, or the flags stay. -/
theorem Inv.worker (h : s.Inv) {i : ℕ} {inp : CheckInput} {n : Nursery (Validation α) (CheckPc α)}
    (howned : s.owned (.worker i inp) = true) (hn : s.nursery.childTurn checkBody i inp = some n) :
    Inv { s with nursery := n } := by
  obtain ⟨c, hc, -, ⟨hcancel, rfl⟩ | ⟨-, r, hr, rfl⟩⟩ := Nursery.childTurn_cases hn
  all_goals
    have hi : s.nursery.states[i]? = some c.state := Nursery.states_getElem? hc
    simp only [owned, hc, Bool.or_eq_true, Bool.not_eq_true', Bool.and_eq_true] at howned
  · -- the cancellation of the last automatic pause finds the suspension owned
    have hkept := h.beside hi (howned.resolve_right (fun hgo => by rw [hcancel] at hgo; cases hgo.1))
    have hflags : (s.nursery.shared.unwind c.state).1.host.flags = s.host.flags := by
      unfold Validation.unwind
      split <;> rfl
    refine Inv.put hi ?_ (waits_unwind h.waits)
    exact hkept.imp_right (fun hr => .inr ((HuntState.released_congr hflags).trans hr))
  · rcases Validation.turn_spec hr with ⟨hno, hcalm | halarm⟩ | ⟨alive, rfl, hcalm⟩
    · refine Inv.put hi ?_ (h.waits.calm hcalm)
      have hkept := h.beside hi (.inl (.inl hno))
      exact hkept.imp_right (fun hr => .inr ((HuntState.released_congr hcalm.flags).trans hr))
    · exact Inv.put hi (.inr (.inl halarm.autoPausing)) (h.waits.alarm halarm)
    · refine Inv.put hi ?_ ((h.waits.withHost _).calm hcalm)
      have hflags : r.1.host.released = (s.host.afterCanary alive).released :=
        HuntState.released_congr hcalm.flags
      rw [hflags]
      rcases howned with howned | ⟨-, hsettled⟩
      · exact (h.beside hi howned).imp_right
          (fun hr => .inr (HuntState.afterCanary_released (.inl hr)))
      · rw [settledBy, Bool.or_eq_true, beq_iff_eq] at hsettled
        exact .inr (.inr (HuntState.afterCanary_released (.inr hsettled)))

/-- **Step lemma**: what a step under the condition keeps. -/
theorem Inv.step (h : s.Inv) {ev : ValidationEvent α} (hs : s.step ev = some s')
    (howned : s.owned ev = true) : s'.Inv := by
  cases ev with
  | worker i inp =>
    obtain ⟨n, hn, rfl⟩ := Option.map_eq_some_iff.mp hs
    exact h.worker howned hn
  | parent d =>
    obtain ⟨-, hs⟩ := Option.ite_none_left_eq_some.mp hs
    obtain ⟨n, hn, rfl⟩ := Option.map_eq_some_iff.mp hs
    have hn' : Inv { s with nursery := n } := by
      constructor
      · change n.states.any _ = true ∨ n.shared.host.released = true
        rw [Nursery.parentTurn_states hn, Nursery.parentTurn_shared hn]
        exact h.released
      · change Waits n.shared n.states
        rw [Nursery.parentTurn_states hn, Nursery.parentTurn_shared hn]
        exact h.waits
    dsimp only
    split
    · exact Inv.left ⟨hn'.released, hn'.waits⟩
    · exact ⟨hn'.released, hn'.waits⟩
  | cancel =>
    simp only [ValidationRun.step] at hs
    split at hs
    · cases hs
      exact h.cancel
    · cases hs
      exact (h.congr (s.host.cancelHunt_flags _)).cancel
  | pauseHunt manual =>
    cases hs
    exact h.withHost (h.released.imp_right (fun hr => HuntState.pauseHunt_released (.inl hr)))
  | resumeHunt manual =>
    cases hs
    exact h.withHost (h.released.imp_right HuntState.resumeHunt_released)
  | stopHunt =>
    cases hs
    simp only [owned, Bool.or_eq_true, Bool.not_eq_true'] at howned
    -- the stop wakes the waiters, and then cancels the task of the hunt
    have h₁ : (s.withHost s.host.stopHunt).Inv :=
      h.withHost (howned.imp_right HuntState.stopHunt_released)
    unfold ValidationRun.stopHunt
    dsimp only
    split
    · exact h₁.cancel
    · exact h₁
  | skipPhase =>
    cases hs
    exact h.congr s.host.skipPhase_flags
  | blacklisted addr =>
    cases hs
    exact ⟨h.released, h.waits⟩
  | cycle inp =>
    obtain ⟨hunt, -, hs⟩ := Option.bind_eq_some_iff.mp hs
    obtain ⟨-, hs⟩ := Option.ite_none_right_eq_some.mp hs
    obtain ⟨q, hq, rfl⟩ := Option.map_eq_some_iff.mp hs
    exact h.congr ((HuntState.cycleStep_kept hq).flags)

/-- The condition of this module, as a guard on runs. -/
def Owned : Machine.Guard (ValidationRun α) (ValidationEvent α) := fun s ev _ => s.owned ev = true

/-- **No orphaned suspension** in every run that begins with flags that agree and whose
steps all meet the condition: unless an automatic pause is in progress, a cleared event or a
suspicion comes with the paused flag, and `resume_hunt` releases every worker that waits. -/
theorem no_orphaned_suspension (h₀ : s.Initial) (hreleased : s.host.released = true)
    (h : machine.Reaches Owned s s') (hcalm : s'.autoPausing = false) : s'.Releasable :=
  (h.invariant (I := Inv) (h₀.inv hreleased) (fun _ _ _ hi hs hg => hi.step hs hg)).releasable
    hcalm

/-- A worker takes an address and begins to check it, and the check fails fast. -/
def fastFails (i : ℕ) : List (ValidationEvent ℕ) :=
  [.worker i .go, .worker i .go, .worker i (.probed ⟨false, false, true⟩ false)]

/-- In a hunt three checks fail fast and the internet is down: the hunt is paused, and both
workers wait for the event. -/
theorem no_orphaned_suspension_down :
    ∃ s', machine.Reaches Owned (begun validating (some 0) [80, 81, 82, 83] 2) s' ∧
      s'.nursery.states = [.retryWait 82 0, .suspectWait 83 false 0] ∧ s'.Releasable := by
  have hrun : ∃ s', machine.Reaches Owned (begun validating (some 0) [80, 81, 82, 83] 2) s' ∧
      (s'.nursery.states == [.retryWait 82 0, .suspectWait 83 false 0] && !s'.autoPausing) = true :=
    Machine.exists_reaches_of_exec (g := fun s ev _ => s.owned ev)
      (l := fastFails 0 ++ fastFails 0 ++ fastFails 0 ++
        [.worker 1 .go, .worker 1 .go, .worker 0 (.verdict (some false))])
      (fun s ev _ (h : s.owned ev = true) => h) (by decide +kernel)
  obtain ⟨s', hs', hend⟩ := hrun
  rw [Bool.and_eq_true, beq_iff_eq, Bool.not_eq_true'] at hend
  exact ⟨s', hs', hend.1, no_orphaned_suspension
    (begun_initial (some 0) 2 (by decide) rfl rfl rfl) rfl hs' hend.2⟩

/-- In a scheduled run, where no hunt can be paused, three checks fail fast and the internet
is down: the event stays cleared without the paused flag. -/
theorem orphaned_suspension :
    ¬ ∀ s s' : ValidationRun ℕ, s.Initial → s.host.released = true →
      machine.Reaches Machine.anyStep s s' → s'.autoPausing = false → s'.Releasable := by
  intro hall
  have hrun : ∃ s', machine.Reaches Machine.anyStep (begun {} none [80, 81, 82] 1) s' ∧
      (!s'.autoPausing && !s'.host.pauseEvent && !s'.host.paused) = true :=
    Machine.exists_reaches_of_exec (g := fun _ _ _ => true)
      (l := fastFails 0 ++ fastFails 0 ++ fastFails 0 ++ [.worker 0 (.verdict (some false))])
      (fun _ _ _ _ => trivial) (by decide +kernel)
  obtain ⟨s', hs', hend⟩ := hrun
  simp only [Bool.and_eq_true, Bool.not_eq_true'] at hend
  obtain ⟨⟨hcalm, hclear⟩, hpaused⟩ := hend
  have hrelease := hall _ s' (begun_initial none 1 (by decide) rfl rfl rfl) rfl hs' hcalm
  rw [hrelease.paused (.inl hclear)] at hpaused
  cases hpaused

end ValidationRun

end HuntProxy
