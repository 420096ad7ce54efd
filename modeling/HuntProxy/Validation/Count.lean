import HuntProxy.Validation.Run
import Mathlib.Data.List.Perm.Subperm

/-!
# Every address is counted once

`checked`, `working` and `failed` are written by the helpers of `_check_one`, which carries
its own flag from one repetition of a check to the next. A fast fail is counted as failed
whether or not the flag is set, so a repeated check adds a second result of the address; and
a result that arrives while the internet is suspected to be down is dropped although the flag
is set after it, so that the address is never counted.

An address is in the queue, in the hand of a worker that has not counted it, in the hand of
a worker that has, or finished. In the runs of this module's condition these places and the
counters agree.

## Main definitions

- `CheckPc.fresh`, `CheckPc.flagged` — the address in a worker's hand
- `Moves` — what a turn of a worker does to the places and to the counters
- `ValidationRun.plain` — no skip, cancellation, timeout or health check
- `ValidationRun.countable` — the condition of this module

## Main results

- `Validation.turn_moves` — every turn under the condition moves one address
- `ValidationRun.Tally.step` — the places and the counters keep agreeing
- `ValidationRun.counted_once` — every address is counted exactly once
- `ValidationRun.counted_twice` — a check that fails fast before and after a pause
-/

namespace HuntProxy

variable {α : Type*}

namespace CheckPc

/-- The address in the hand of a worker, and whether it has been counted. -/
def hand : CheckPc α → Option (α × Bool)
  | .idle => none
  | .ready addr counted => some (addr, counted)
  | .pauseWait addr counted _ => some (addr, counted)
  | .slotWait addr counted => some (addr, counted)
  | .suspectWait addr counted _ => some (addr, counted)
  | .probing addr counted => some (addr, counted)
  | .measuring addr counted => some (addr, counted)
  | .autoPause addr _ => some (addr, true)
  | .retryWait addr _ => some (addr, true)
  | .stopped => none

end CheckPc

/-- The address in a hand that has not been counted. -/
def freshIn : Option (α × Bool) → List α
  | some (addr, false) => [addr]
  | _ => []

/-- The address in a hand that has been counted. -/
def flaggedIn : Option (α × Bool) → List α
  | some (addr, true) => [addr]
  | _ => []

/-- The counters of a validation, and the flag of the health checks. -/
structure Counters where
  checked : ℕ
  working : ℕ
  failed : ℕ
  healthRunning : Bool
  deriving DecidableEq, Repr

/-- The counters of a validation. -/
def HuntState.counters (hs : HuntState) : Counters :=
  ⟨hs.checked, hs.working, hs.failed, hs.healthRunning⟩

/-- A part of a turn: a worker with hand `h` goes on with hand `h'`. Addresses move between
their places, and the counters follow. -/
structure Moves (v : Validation α) (h : Option (α × Bool)) (v' : Validation α)
    (h' : Option (α × Bool)) : Prop where
  places : (v'.resulted ++ v'.queue ++ freshIn h').Subperm (v.resulted ++ v.queue ++ freshIn h)
  total : v'.queue.length + (freshIn h').length + (flaggedIn h').length + v'.processed =
    v.queue.length + (freshIn h).length + (flaggedIn h).length + v.processed
  counted : v'.counted.length + v.processed + (flaggedIn h).length =
    v.counted.length + v'.processed + (flaggedIn h').length
  resulted : v'.resulted.length + v.counted.length ≤ v.resulted.length + v'.counted.length
  checked : v'.host.checked + v.counted.length = v.host.checked + v'.counted.length
  working : v.host.working = v.ctx.okCount → v'.host.working = v'.ctx.okCount
  failed : v.host.failed = v.ctx.failCount → v'.host.failed = v'.ctx.failCount
  results : v'.ctx.okCount + v'.ctx.failCount + v.resulted.length =
    v.ctx.okCount + v.ctx.failCount + v'.resulted.length
  processed : v.processed ≤ v'.processed
  health : v'.host.healthRunning = v.host.healthRunning

namespace Moves

variable {v v' v'' : Validation α} {h h' h'' : Option (α × Bool)}

theorem trans (m : Moves v h v' h') (m' : Moves v' h' v'' h'') : Moves v h v'' h'' where
  places := m'.places.trans m.places
  total := m'.total.trans m.total
  counted := by have := m.counted; have := m'.counted; omega
  resulted := by have := m.resulted; have := m'.resulted; omega
  checked := by have := m.checked; have := m'.checked; omega
  working hworking := m'.working (m.working hworking)
  failed hfailed := m'.failed (m.failed hfailed)
  results := by have := m.results; have := m'.results; omega
  processed := m.processed.trans m'.processed
  health := m'.health.trans m.health

/-- The flags, the semaphore and the blacklist do not matter. -/
theorem of_same (hresulted : v'.resulted = v.resulted) (hqueue : v'.queue = v.queue)
    (hcounted : v'.counted = v.counted) (hctx : v'.ctx = v.ctx)
    (hprocessed : v'.processed = v.processed) (hcounters : v'.host.counters = v.host.counters) :
    Moves v h v' h := by
  simp only [HuntState.counters, Counters.mk.injEq] at hcounters
  obtain ⟨hchecked, hworking, hfailed, hhealth⟩ := hcounters
  constructor
  · rw [hresulted, hqueue]
  · rw [hqueue, hprocessed]
  · rw [hcounted, hprocessed]
  · rw [hcounted, hresulted]
  · rw [hcounted, hchecked]
  · rw [hctx, hworking]
    exact id
  · rw [hctx, hfailed]
    exact id
  · rw [hctx, hresulted]
  · rw [hprocessed]
  · exact hhealth

theorem refl (v : Validation α) (h : Option (α × Bool)) : Moves v h v h :=
  of_same rfl rfl rfl rfl rfl rfl

end Moves

namespace Validation

variable {v : Validation α} {addr : α} {counted : Bool}

theorem withHost_moves (v : Validation α) (h : Option (α × Bool)) {hs : HuntState}
    (hcounters : hs.counters = v.host.counters) : Moves v h (v.withHost hs) h :=
  .of_same rfl rfl rfl rfl rfl hcounters

theorem release_moves (v : Validation α) (h : Option (α × Bool)) : Moves v h v.release h :=
  .of_same rfl rfl rfl rfl rfl rfl

/-- A counted address is finished. -/
theorem returned_moves (v : Validation α) (addr : α) :
    Moves v (some (addr, true)) v.returned.1 v.returned.2.hand where
  places := List.Subperm.refl _
  total := by
    simp only [returned, CheckPc.hand, freshIn, flaggedIn, List.length_nil, List.length_singleton]
    omega
  counted := by
    simp only [returned, CheckPc.hand, flaggedIn, List.length_nil, List.length_singleton]
    omega
  resulted := Nat.le_refl _
  checked := rfl
  working := id
  failed := id
  results := rfl
  processed := Nat.le_succ _
  health := rfl

theorem release_returned_moves (v : Validation α) (addr : α) :
    Moves v (some (addr, true)) v.release.returned.1 v.release.returned.2.hand :=
  (v.release_moves _).trans (v.release.returned_moves addr)

theorem repeated_moves (v : Validation α) (addr : α) :
    Moves v (some (addr, true)) (v.repeated addr).1 (v.repeated addr).2.hand := by
  unfold repeated
  split
  · exact v.release_moves _
  · exact .refl v _

theorem afterFastFail_moves (v : Validation α) (addr : α) :
    Moves v (some (addr, true)) (v.afterFastFail addr).1 (v.afterFastFail addr).2.hand := by
  unfold afterFastFail
  split
  · exact v.repeated_moves addr
  · exact v.release_returned_moves addr

theorem afterResult_moves (v : Validation α) (addr : α) :
    Moves v (some (addr, true)) (v.afterResult addr).1 (v.afterResult addr).2.hand := by
  unfold afterResult
  split
  · exact v.repeated_moves addr
  · split
    · exact v.withHost_moves _ rfl
    · exact v.release_returned_moves addr

/-- An address that has not been counted leaves the hand for the results. -/
theorem resulted_subperm (resulted queue : List α) (addr : α) :
    (addr :: resulted ++ queue ++ freshIn (some (addr, true))).Subperm
      (resulted ++ queue ++ freshIn (some (addr, false))) := by
  refine List.Perm.subperm ?_
  simp only [freshIn, List.append_nil, List.cons_append]
  exact List.perm_append_singleton addr (resulted ++ queue) |>.symm

/-- An address that has not been counted gets its result. -/
theorem result_moves (v : Validation α) (addr : α) {hs : HuntState} {c : ValidationContext}
    {rated : List (α × Bool)} (hchecked : hs.checked = v.host.checked + 1)
    (hworking : v.host.working = v.ctx.okCount → hs.working = c.okCount)
    (hfailed : v.host.failed = v.ctx.failCount → hs.failed = c.failCount)
    (hresults : c.okCount + c.failCount = v.ctx.okCount + v.ctx.failCount + 1)
    (hhealth : hs.healthRunning = v.host.healthRunning) :
    Moves v (some (addr, false))
      { v with
        host := hs, ctx := c, rated := rated
        counted := addr :: v.counted, resulted := addr :: v.resulted }
      (some (addr, true)) where
  places := resulted_subperm v.resulted v.queue addr
  total := rfl
  counted := by
    simp only [flaggedIn, List.length_cons, List.length_nil]
    omega
  resulted := by
    simp only [List.length_cons]
    omega
  checked := by
    simp only [hchecked, List.length_cons]
    omega
  working := hworking
  failed := hfailed
  results := by
    simp only [hresults, List.length_cons]
    omega
  processed := Nat.le_refl _
  health := hhealth

theorem add_results (c : ValidationContext) (r : WorkResult) :
    (c.add r).okCount + (c.add r).failCount = c.okCount + c.failCount + 1 := by
  unfold ValidationContext.add
  split
  · split <;> exact Nat.add_right_comm _ _ _
  · exact (Nat.add_assoc _ _ _).symm

/-- A fast fail of an address that has not been counted. -/
theorem handleFastFail_moves (v : Validation α) (addr : α)
    (hhealth : v.host.healthRunning = false) :
    Moves v (some (addr, false)) (v.handleFastFail addr false).1
      (v.handleFastFail addr false).2.hand := by
  have hcount : Moves v (some (addr, false))
      { v with
        host := v.host.recordFastFail (v.ctx.add ⟨false, false, false⟩) false
        ctx := v.ctx.add ⟨false, false, false⟩
        counted := addr :: v.counted, resulted := addr :: v.resulted }
      (some (addr, true)) :=
    v.result_moves addr rfl (fun hworking => hworking) (fun _ => rfl) (add_results _ _) rfl
  unfold handleFastFail
  rw [if_neg (by rw [hhealth]; exact Bool.false_ne_true)]
  dsimp only
  split
  · exact hcount.trans (withHost_moves _ _ rfl)
  · exact hcount.trans (afterFastFail_moves _ addr)

/-- A result of an address that has not been counted, or, during a suspicion, of one that
has been counted. -/
theorem recordCheckResult_moves (v : Validation α) (addr : α) (ok known counted : Bool)
    (hhealth : v.host.healthRunning = false) (hcounted : v.host.internetSuspect = counted) :
    Moves v (some (addr, counted)) (v.recordCheckResult addr ⟨ok, known, counted⟩).1
      (v.recordCheckResult addr ⟨ok, known, counted⟩).2.hand := by
  unfold recordCheckResult
  rw [if_neg (by rw [hhealth]; exact Bool.false_ne_true)]
  cases counted with
  | true =>
    rw [if_pos hcounted]
    exact v.afterResult_moves addr
  | false =>
    rw [if_neg (by rw [hcounted]; exact Bool.false_ne_true)]
    have hworking : v.host.working = v.ctx.okCount →
        (v.host.recordResult (v.ctx.add ⟨ok, known, false⟩) ⟨ok, known, false⟩).working =
          (v.ctx.add ⟨ok, known, false⟩).okCount := by
      intro hworking
      cases ok with
      | true => rfl
      | false => exact hworking
    have hfailed : v.host.failed = v.ctx.failCount →
        (v.host.recordResult (v.ctx.add ⟨ok, known, false⟩) ⟨ok, known, false⟩).failed =
          (v.ctx.add ⟨ok, known, false⟩).failCount := by
      intro hfailed
      cases ok with
      | true => cases known <;> exact hfailed
      | false => rfl
    exact (v.result_moves addr rfl hworking hfailed (add_results _ _) rfl).trans
      (afterResult_moves _ addr)

theorem inside_moves (v : Validation α) (addr : α) (counted : Bool) :
    Moves v (some (addr, counted)) (v.inside addr counted).1 (v.inside addr counted).2.hand := by
  unfold inside
  split
  · split
    · exact .refl v _
    · exact .of_same rfl rfl rfl rfl rfl rfl
  · exact .of_same rfl rfl rfl rfl rfl rfl

/-- A blacklisted address is counted, unless it has been. -/
theorem handleBlacklisted_moves (v : Validation α) (addr : α) (counted : Bool)
    (hhealth : v.host.healthRunning = false) :
    Moves v (some (addr, counted)) (v.handleBlacklisted addr counted) (some (addr, true)) := by
  unfold handleBlacklisted
  rw [hhealth, Bool.false_or]
  cases counted with
  | true => exact .refl v _
  | false =>
    rw [if_neg Bool.false_ne_true]
    constructor
    · simp only [freshIn, List.append_nil]
      exact (List.sublist_append_left (v.resulted ++ v.queue) [addr]).subperm
    · rfl
    · simp only [flaggedIn, List.length_cons, List.length_nil]
      omega
    · simp only [List.length_cons]
      omega
    · simp only [List.length_cons]
      omega
    · exact id
    · exact id
    · rfl
    · exact Nat.le_refl _
    · rfl

variable [DecidableEq α]

theorem enter_moves (v : Validation α) (addr : α) (counted : Bool)
    (hhealth : v.host.healthRunning = false) :
    Moves v (some (addr, counted)) (v.enter addr counted).1 (v.enter addr counted).2.hand := by
  unfold enter
  split
  · exact (v.handleBlacklisted_moves addr counted hhealth).trans (returned_moves _ addr)
  · split
    · exact .refl v _
    · exact v.inside_moves addr counted

/-- A result is delivered for an address that has not been counted; only a result that is no
fast fail, and arrives during a suspicion, is for an address that has. -/
def countable (v : Validation α) : CheckPc α → CheckInput → Bool
  | .probing _ counted, .probed r _ =>
    if r.isFastFail then !counted else r.ok || v.host.internetSuspect == counted
  | .measuring _ counted, .measured _ => v.host.internetSuspect == counted
  | _, _ => true

theorem afterCanary_counters (hs : HuntState) (alive : Option Bool) :
    (hs.afterCanary alive).counters = hs.counters := by
  unfold HuntState.afterCanary HuntState.pauseHunt
  split
  · rfl
  · split <;> rfl

/-- **The turns of a worker** under the condition: an address moves from place to place, and
the counters follow. -/
theorem turn_moves {pc : CheckPc α} {inp : CheckInput} {r : Validation α × CheckPc α}
    (hhealth : v.host.healthRunning = false) (hcountable : v.countable pc inp = true)
    (h : v.turn pc inp = some r) : Moves v pc.hand r.1 r.2.hand := by
  unfold turn at h
  split at h
  · split at h
    · cases h
      exact .refl v none
    · next addr rest hqueue =>
      cases h
      -- the address moves from the queue into the hand
      constructor
      · rw [hqueue]
        refine List.Perm.subperm ?_
        simp only [CheckPc.hand, freshIn, List.append_nil, List.append_assoc]
        exact (List.perm_append_singleton addr rest).append_left v.resulted
      · simp only [hqueue, CheckPc.hand, freshIn, flaggedIn, List.length_cons, List.length_nil]
      · rfl
      · exact Nat.le_refl _
      · rfl
      · exact id
      · exact id
      · rfl
      · exact Nat.le_refl _
      · rfl
  · split at h
    · cases h
      exact .refl v _
    · cases h
      exact v.enter_moves _ _ hhealth
  · obtain ⟨-, heq⟩ := Option.ite_none_right_eq_some.mp h
    cases heq
    exact v.enter_moves _ _ hhealth
  · obtain ⟨-, heq⟩ := Option.ite_none_left_eq_some.mp h
    cases heq
    exact v.inside_moves _ _
  · obtain ⟨-, heq⟩ := Option.ite_none_right_eq_some.mp h
    cases heq
    exact v.release_moves _
  · next addr counted probe known =>
    simp only [countable] at hcountable
    split at h
    · next hfast =>
      rw [if_pos hfast, Bool.not_eq_true'] at hcountable
      cases hcountable
      cases h
      exact v.handleFastFail_moves addr hhealth
    · next hfast =>
      rw [if_neg hfast] at hcountable
      split at h
      · cases h
        exact .refl v _
      · next hok =>
        rw [Bool.or_eq_true, beq_iff_eq] at hcountable
        cases h
        exact v.recordCheckResult_moves addr false known counted hhealth
          (hcountable.resolve_left hok)
  · next addr counted known =>
    simp only [countable, beq_iff_eq] at hcountable
    cases h
    exact v.recordCheckResult_moves addr true known counted hhealth hcountable
  · next addr fastFail alive =>
    cases h
    refine (v.withHost_moves _ (afterCanary_counters v.host alive)).trans ?_
    cases fastFail with
    | true => exact afterFastFail_moves _ addr
    | false => exact release_returned_moves _ addr
  · obtain ⟨-, heq⟩ := Option.ite_none_right_eq_some.mp h
    cases heq
    exact v.release_moves _
  · cases h

end Validation

/-! ### Runs -/

/-- The addresses in the hands of workers that have not counted them. -/
def freshOf (pcs : List (CheckPc α)) : List α := pcs.flatMap (fun pc => freshIn pc.hand)

/-- The addresses in the hands of workers that have counted them. -/
def flaggedOf (pcs : List (CheckPc α)) : List α := pcs.flatMap (fun pc => flaggedIn pc.hand)

theorem HuntState.cycleStep_counters {hs : HuntState} {h : ℕ} {inp : CycleInput}
    {q : HuntState × Bool} (hq : hs.cycleStep h inp = some q)
    (hpc : (hs.hunts h).pc = .validating ∨ (hs.hunts h).pc = .settling) :
    q.1.counters = hs.counters := by
  unfold cycleStep at hq
  dsimp only at hq
  split at hq
  · rcases hpc with hpc | hpc
    all_goals
      rw [hpc] at hq
      cases hq
      rfl
  · rcases hpc with hpc | hpc
    · rw [hpc] at hq
      cases inp <;> cases hq <;> rfl
    · rw [hpc] at hq
      cases inp with
      | done count sources =>
        obtain ⟨-, heq⟩ := Option.ite_none_right_eq_some.mp hq
        cases heq
        rfl
      | raised => cases hq

theorem HuntState.stopHunt_counters (hs : HuntState) : hs.stopHunt.counters = hs.counters := by
  change hs.cancelTask.counters = hs.counters
  unfold cancelTask cancelHunt
  split
  · rfl
  · split <;> rfl

namespace ValidationRun

variable {s₀ s s' : ValidationRun α}

/-- The steps of a run without skip, cancellation and timeout; there is no health check. -/
def plain (s : ValidationRun α) : ValidationEvent α → Bool
  | .parent d => s.nursery.parent != .waiting || d == .gather
  | .cancel => false
  | .stopHunt => !(s.owner.isSome && s.owner == s.host.task)
  | _ => true

/-- Every address is in one place, and the counters say where. -/
structure Tally (s₀ s : ValidationRun α) : Prop where
  children : ∀ c ∈ s.nursery.children, c.cancelRequested = false
  cancelRequested : s.nursery.cancelRequested = false
  health : s.host.healthRunning = false
  places : (s.shared.resulted ++ s.shared.queue ++ freshOf s.nursery.states).Nodup
  total : s₀.total = s.shared.queue.length + (freshOf s.nursery.states).length +
    (flaggedOf s.nursery.states).length + s.shared.processed
  counted : s.shared.counted.length =
    s.shared.processed + (flaggedOf s.nursery.states).length
  resulted : s.shared.resulted.length ≤ s.shared.counted.length
  checked : s.host.checked = s₀.host.checked + s.shared.counted.length
  working : s.host.working = s.shared.ctx.okCount
  failed : s.host.failed = s.shared.ctx.failCount
  results : s.shared.ctx.okCount + s.shared.ctx.failCount = s.shared.resulted.length
  complete : s.nursery.parent ≠ .waiting → s₀.total ≤ s.shared.processed
  same : s.total = s₀.total

/-- What a run has counted since it began as `s₀`: each address has at most one result, the
results are among the addresses that `checked` counts, and these are all at the end. -/
structure CountedOnce (s₀ s : ValidationRun α) : Prop where
  once : s.shared.resulted.Nodup
  results : s.host.working + s.host.failed = s.shared.resulted.length
  le_checked : s₀.host.checked + (s.host.working + s.host.failed) ≤ s.host.checked
  le_total : s.host.checked ≤ s₀.host.checked + s₀.total
  all : s.nursery.parent = .finished → s.host.checked = s₀.host.checked + s₀.total

namespace Tally

theorem countedOnce (t : Tally s₀ s) : CountedOnce s₀ s := by
  have htotal := t.total
  have hcounted := t.counted
  have hresulted := t.resulted
  have hchecked := t.checked
  have hresults : s.host.working + s.host.failed = s.shared.resulted.length := by
    rw [t.working, t.failed, t.results]
  refine ⟨?_, hresults, by omega, by omega, fun hfin => ?_⟩
  · have hplaces := t.places
    rw [List.append_assoc] at hplaces
    exact hplaces.of_append_left
  · have hcomplete := t.complete (by rw [hfin]; decide)
    omega

/-- The engine changes no counter. -/
theorem withHost (t : Tally s₀ s) {hs : HuntState} (hcounters : hs.counters = s.host.counters) :
    Tally s₀ (s.withHost hs) := by
  simp only [HuntState.counters, Counters.mk.injEq] at hcounters
  obtain ⟨hchecked, hworking, hfailed, hhealth⟩ := hcounters
  exact { t with
    health := hhealth.trans t.health
    checked := hchecked.trans t.checked
    working := hworking.trans t.working
    failed := hfailed.trans t.failed }

/-- Worker `i` goes on with what it has in its hand. -/
theorem put (t : Tally s₀ s) {i : ℕ} {c : Child (CheckPc α)} {r : Validation α × CheckPc α}
    (hc : s.nursery.children[i]? = some c)
    (hmoves : Moves s.shared c.state.hand r.1 r.2.hand) :
    Tally s₀ { s with nursery := s.nursery.putChild i c r } := by
  -- the other workers stand around this one; only its own hand changes
  obtain ⟨l₁, l₂, hbefore, hafter⟩ := Nursery.exists_around (Nursery.states_getElem? hc)
  have hstates : (s.nursery.putChild i c r).states = l₁ ++ r.2 :: l₂ := by
    rw [Nursery.putChild_states, hafter]
  have hfresh : ∀ pc, (freshOf (l₁ ++ pc :: l₂)).length =
      (freshIn pc.hand).length + ((freshOf l₁).length + (freshOf l₂).length) := by
    intro pc
    simp only [freshOf, List.flatMap_append, List.flatMap_cons, List.length_append]
    omega
  have hflagged : ∀ pc, (flaggedOf (l₁ ++ pc :: l₂)).length =
      (flaggedIn pc.hand).length + ((flaggedOf l₁).length + (flaggedOf l₂).length) := by
    intro pc
    simp only [flaggedOf, List.flatMap_append, List.flatMap_cons, List.length_append]
    omega
  have hplaces : ∀ (l : List α) (pc : CheckPc α),
      (l ++ freshOf (l₁ ++ pc :: l₂)).Perm
        (l ++ freshIn pc.hand ++ (freshOf l₁ ++ freshOf l₂)) := by
    intro l pc
    simp only [freshOf, List.flatMap_append, List.flatMap_cons, List.append_assoc]
    exact (List.perm_append_comm_assoc _ _ _).append_left l
  have htotal := t.total
  have hcounted := t.counted
  rw [hbefore, hfresh, hflagged] at htotal
  rw [hbefore, hflagged] at hcounted
  have hm := hmoves.total
  have hm' := hmoves.counted
  constructor
  · intro c' hc'
    rcases List.mem_or_eq_of_mem_set hc' with hc' | rfl
    · exact t.children c' hc'
    · exact t.children c (List.mem_of_getElem? hc)
  · exact t.cancelRequested
  · exact hmoves.health.trans t.health
  · change (r.1.resulted ++ r.1.queue ++ freshOf (s.nursery.putChild i c r).states).Nodup
    rw [hstates, (hplaces _ _).nodup_iff]
    have hnodup := t.places
    rw [hbefore, (hplaces _ _).nodup_iff] at hnodup
    obtain ⟨l, hperm, hsub⟩ :=
      (List.subperm_append_right (freshOf l₁ ++ freshOf l₂)).mpr hmoves.places
    exact hperm.nodup_iff.mp (hnodup.sublist hsub)
  · change s₀.total = r.1.queue.length + (freshOf (s.nursery.putChild i c r).states).length +
      (flaggedOf (s.nursery.putChild i c r).states).length + r.1.processed
    rw [hstates, hfresh, hflagged]
    omega
  · change r.1.counted.length = r.1.processed + (flaggedOf (s.nursery.putChild i c r).states).length
    rw [hstates, hflagged]
    omega
  · have := hmoves.resulted
    have := t.resulted
    change r.1.resulted.length ≤ r.1.counted.length
    omega
  · have hchecked : r.1.host.checked + s.shared.counted.length =
        s.host.checked + r.1.counted.length := hmoves.checked
    have := t.checked
    change r.1.host.checked = s₀.host.checked + r.1.counted.length
    omega
  · exact hmoves.working t.working
  · exact hmoves.failed t.failed
  · have := hmoves.results
    have := t.results
    change r.1.ctx.okCount + r.1.ctx.failCount = r.1.resulted.length
    omega
  · intro hparent
    exact (t.complete hparent).trans hmoves.processed
  · exact t.same

theorem leftBy_counters (hs : HuntState) (h : ℕ) : (leftBy hs h).counters = hs.counters := by
  unfold leftBy
  split
  · next hpc =>
    cases hstep : hs.cycleStep h (.done 0 0) with
    | none => rfl
    | some q => exact HuntState.cycleStep_counters hstep (.inl hpc)
  · rfl

theorem left (t : Tally s₀ s) : Tally s₀ s.left := by
  unfold ValidationRun.left
  dsimp only
  have hreset : (if s.skipped && !s.nursery.cancelRequested then s.host.resetSkip
      else s.host).counters = s.host.counters := by
    split <;> rfl
  generalize (if s.skipped && !s.nursery.cancelRequested then s.host.resetSkip
    else s.host) = hs at hreset
  split
  · exact t.withHost hreset
  · next hunt _ => exact t.withHost ((leftBy_counters hs hunt).trans hreset)

end Tally

/-- The result that a worker is resumed with is to be counted, or to be dropped after it has
been. -/
def countable (s : ValidationRun α) : ValidationEvent α → Bool
  | .worker i inp =>
    match s.nursery.children[i]? with
    | none => true
    | some c => s.shared.countable c.state inp
  | _ => true

theorem Initial.tally (h : s.Initial) : Tally s s := by
  have hidle : ∀ pc ∈ s.nursery.states, pc = .idle := by
    intro pc hpc
    obtain ⟨c, hc, rfl⟩ := List.mem_map.mp hpc
    exact (h.children c hc).1
  have hfresh : freshOf s.nursery.states = [] := by
    refine List.flatMap_eq_nil_iff.mpr (fun pc hpc => ?_)
    rw [hidle pc hpc]
    rfl
  have hflagged : flaggedOf s.nursery.states = [] := by
    refine List.flatMap_eq_nil_iff.mpr (fun pc hpc => ?_)
    rw [hidle pc hpc]
    rfl
  constructor
  · exact fun c hc => (h.children c hc).2
  · exact h.cancelRequested
  · exact h.healthRunning
  · rw [h.resulted, hfresh, List.append_nil]
    exact h.queue
  · rw [hfresh, hflagged, h.processed]
    exact h.total
  · rw [hflagged, h.counted, h.processed]
    rfl
  · rw [h.resulted]
    exact Nat.zero_le _
  · rw [h.counted]
    rfl
  · rw [h.working, h.ctx]
  · rw [h.failed, h.ctx]
  · rw [h.ctx, h.resulted]
    rfl
  · exact fun hparent => absurd h.parent hparent
  · rfl

variable [DecidableEq α]

/-- The runs that the counters are meant for, as a guard. -/
def Plain : Machine.Guard (ValidationRun α) (ValidationEvent α) := fun s ev _ => s.plain ev = true

/-- The condition of this module, as a guard on runs. -/
def Countable : Machine.Guard (ValidationRun α) (ValidationEvent α) :=
  fun s ev _ => (s.plain ev && s.countable ev) = true

/-- The awaiting task goes on when all addresses are processed, and when the workers have
ended. -/
theorem Tally.parent (t : Tally s₀ s) {d : Decision} (hplain : s.plain (.parent d) = true)
    (hs : s.parentTurn d = some s') : Tally s₀ s' := by
  obtain ⟨hmay, hs⟩ := Option.ite_none_left_eq_some.mp hs
  obtain ⟨n, hn, rfl⟩ := Option.map_eq_some_iff.mp hs
  have hshared := Nursery.parentTurn_shared hn
  have hstates := Nursery.parentTurn_states hn
  -- the parent has left its wait because everything was processed
  have hnursery : n.children = s.nursery.children ∧ n.cancelRequested = false ∧
      s₀.total ≤ s.shared.processed := by
    unfold Nursery.parentTurn at hn
    split at hn
    · next hwait =>
      rw [t.cancelRequested, if_neg Bool.false_ne_true] at hn
      have hgather : d = .gather := by
        simpa [plain, hwait] using hplain
      subst hgather
      cases hn
      have hcomplete : s.complete = true := by
        simpa [hwait, t.cancelRequested, mayDecide] using hmay
      exact ⟨rfl, rfl, t.same ▸ of_decide_eq_true hcomplete⟩
    · next hgather =>
      obtain ⟨-, heq⟩ := Option.ite_none_right_eq_some.mp hn
      cases heq
      exact ⟨rfl, t.cancelRequested, t.complete (by rw [hgather]; decide)⟩
    · cases hn
  obtain ⟨hchildren, hcancel, hcomplete⟩ := hnursery
  have t' : ∀ skipped, Tally s₀ { s with nursery := n, skipped := skipped } := by
    intro skipped
    obtain ⟨shared, children, parent, cancelRequested⟩ := n
    subst hshared hchildren hcancel
    exact { t with cancelRequested := rfl, complete := fun _ => hcomplete }
  dsimp only
  split
  · exact (t' _).left
  · exact t' _

/-- **Step lemma**: under the condition the places and the counters keep agreeing. -/
theorem Tally.step (t : Tally s₀ s) {ev : ValidationEvent α} (hs : s.step ev = some s')
    (hg : Countable s ev s') : Tally s₀ s' := by
  obtain ⟨hplain, hcountable⟩ := Bool.and_eq_true_iff.mp hg
  cases ev with
  | worker i inp =>
    obtain ⟨n, hn, rfl⟩ := Option.map_eq_some_iff.mp hs
    obtain ⟨c, hc, -, ⟨hcancel, rfl⟩ | ⟨-, r, hr, rfl⟩⟩ := Nursery.childTurn_cases hn
    · rw [t.children c (List.mem_of_getElem? hc)] at hcancel
      cases hcancel
    · simp only [countable, hc] at hcountable
      exact t.put hc (Validation.turn_moves t.health hcountable hr)
  | parent d => exact t.parent hplain hs
  | cancel => cases hplain
  | pauseHunt manual =>
    cases hs
    refine t.withHost ?_
    unfold HuntState.pauseHunt
    split <;> rfl
  | resumeHunt manual =>
    cases hs
    refine t.withHost ?_
    unfold HuntState.resumeHunt
    split
    · rfl
    · split <;> rfl
  | stopHunt =>
    cases hs
    have hother : ¬ (s.owner.isSome ∧ s.owner = s.host.task) := by
      rintro ⟨hsome, htask⟩
      rw [plain, hsome, htask, beq_self_eq_true] at hplain
      cases hplain
    unfold stopHunt
    rw [if_neg hother]
    exact t.withHost s.host.stopHunt_counters
  | skipPhase =>
    cases hs
    refine t.withHost ?_
    unfold HuntState.skipPhase
    split
    · rfl
    · split <;> rfl
  | blacklisted addr =>
    cases hs
    exact { t with }
  | cycle inp =>
    obtain ⟨hunt, -, hs⟩ := Option.bind_eq_some_iff.mp hs
    obtain ⟨⟨-, hpc⟩, hs⟩ := Option.ite_none_right_eq_some.mp hs
    obtain ⟨q, hq, rfl⟩ := Option.map_eq_some_iff.mp hs
    exact t.withHost (HuntState.cycleStep_counters hq (.inr hpc))

/-- **Every address is counted exactly once** in every run without skip, cancellation,
timeout and health check whose steps all meet the condition. -/
theorem counted_once (h₀ : s.Initial) (h : machine.Reaches Countable s s') : CountedOnce s s' :=
  (h.invariant (I := fun s' => Tally s s') h₀.tally
    (fun _ _ _ hi hs hg => hi.step hs hg)).countedOnce

/-- A worker takes an address, begins to check it, and the check gives a result. -/
def checks (i : ℕ) (ok fastFail : Bool) : List (ValidationEvent ℕ) :=
  [.worker i .go, .worker i .go, .worker i (.probed ⟨ok, false, fastFail⟩ false)]

/-- A scheduled run of two workers over three addresses, one of which is blacklisted
meanwhile: one works, one fails, and all are counted. -/
theorem counted_once_three :
    ∃ s', machine.Reaches Countable (begun {} none [80, 81, 82] 2) s' ∧
      s'.nursery.parent = .finished ∧ s'.host.working = 1 ∧ s'.host.failed = 1 ∧
        CountedOnce (begun {} none [80, 81, 82] 2) s' := by
  have hrun : ∃ s', machine.Reaches Countable (begun {} none [80, 81, 82] 2) s' ∧
      (s'.nursery.parent == .finished && (s'.host.working == 1 && s'.host.failed == 1)) = true :=
    Machine.exists_reaches_of_exec (g := fun s ev _ => s.plain ev && s.countable ev)
      (l := checks 0 true false ++ checks 1 false true ++ [.blacklisted 82, .worker 1 .go,
        .worker 1 .go, .worker 0 (.measured false), .worker 0 .go, .worker 1 .go,
        .parent .gather, .parent .leave])
      (fun s ev _ (h : (s.plain ev && s.countable ev) = true) => h) (by decide +kernel)
  obtain ⟨s', hs', hend⟩ := hrun
  rw [Bool.and_eq_true, Bool.and_eq_true, beq_iff_eq, beq_iff_eq, beq_iff_eq] at hend
  exact ⟨s', hs', hend.1, hend.2.1, hend.2.2,
    counted_once (begun_initial none 2 (by decide) rfl rfl rfl) hs'⟩

/-- The internet goes down, and the third fast fail pauses the hunt; the address that is
checked again after the resume is counted as failed twice. -/
theorem counted_twice :
    ¬ ∀ s s' : ValidationRun ℕ, s.Initial → machine.Reaches Plain s s' → CountedOnce s s' := by
  intro hall
  have hrun : ∃ s', machine.Reaches Plain (begun validating (some 0) [80, 81, 82] 1) s' ∧
      (s'.host.checked == 3 && (s'.host.working == 0 && s'.host.failed == 4)) = true :=
    Machine.exists_reaches_of_exec (g := fun s ev _ => s.plain ev)
      (l := checks 0 false true ++ checks 0 false true ++ checks 0 false true ++
        [.worker 0 (.verdict (some false)), .resumeHunt false, .worker 0 .go, .worker 0 .go,
          .worker 0 (.probed ⟨false, false, true⟩ false)])
      (fun s ev _ (h : s.plain ev = true) => h) (by decide +kernel)
  obtain ⟨s', hs', hend⟩ := hrun
  simp only [Bool.and_eq_true, beq_iff_eq] at hend
  obtain ⟨hchecked, hworking, hfailed⟩ := hend
  have hle := (hall _ s' (begun_initial (some 0) 1 (by decide) rfl rfl rfl) hs').le_checked
  rw [hchecked, hworking, hfailed] at hle
  exact absurd hle (by decide)

end ValidationRun

end HuntProxy
