import HuntProxy.Hunt.Engine

/-!
# A health check gives the hunt back

`_health_check` saves the phase and the counters, pauses a running hunt, borrows the
counters for its own progress, and restores everything at its end. Meanwhile the hunt's
workers may finish checks of their own, and further health checks may be called or
cancelled.

For every call the machine remembers, as a ghost, what the attributes were when the call
began, together with what the hunt's workers have counted since. In the runs of this
module's condition every call ends with these values.

## Main definitions

- `Attributes` — what a health check has to give back
- `Recheck`, `Recheck.step` — health checks beside a hunt
- `Recheck.undisturbed` — the steps that let a health check restore the hunt

## Main results

- `restoreHealth_attributes` — what the restoration gives back
- `Recheck.Inv.step` — what undisturbed steps keep
- `Recheck.health_check_restores` — every call ends with the values it began with
- `Recheck.left_paused` — a call that is cancelled after it has paused the hunt
-/

namespace HuntProxy

/-- The attributes that a health check has to give back. -/
@[ext] structure Attributes where
  phase : Phase
  checkingTotal : ℕ
  checked : ℕ
  working : ℕ
  newWorking : ℕ
  confirmedWorking : ℕ
  failed : ℕ
  paused : Bool
  manualPause : Bool
  pauseEvent : Bool
  deriving DecidableEq, Repr

/-- `_ValidationContext`: the counts of a hunt's workers. -/
structure ValidationContext where
  okCount : ℕ
  failCount : ℕ
  newCount : ℕ
  confirmedCount : ℕ
  deriving DecidableEq, Repr

/-- `_HealthContext`. -/
structure HealthContext where
  okCount : ℕ
  failCount : ℕ
  deriving DecidableEq, Repr

/-- What a hunt's worker records: the result, whether a working rating of the address was
there, and whether the address has been counted before. -/
structure WorkResult where
  ok : Bool
  known : Bool
  counted : Bool
  deriving DecidableEq, Repr

/-- The counts after a result. -/
def ValidationContext.add (c : ValidationContext) (r : WorkResult) : ValidationContext :=
  if r.ok then
    if r.known then { c with okCount := c.okCount + 1, confirmedCount := c.confirmedCount + 1 }
    else { c with okCount := c.okCount + 1, newCount := c.newCount + 1 }
  else { c with failCount := c.failCount + 1 }

/-- The attributes after `_record_check_result` has counted a result. -/
def Attributes.record (a : Attributes) (c : ValidationContext) (r : WorkResult) : Attributes :=
  { a with
    checked := if r.counted then a.checked else a.checked + 1
    working := if r.ok then c.okCount else a.working
    confirmedWorking := if r.ok && r.known then c.confirmedCount else a.confirmedWorking
    newWorking := if r.ok && !r.known then c.newCount else a.newWorking
    failed := if r.ok then a.failed else c.failCount }

namespace HuntState

/-- The attributes that a health check has to give back. -/
def attributes (hs : HuntState) : Attributes where
  phase := hs.phase
  checkingTotal := hs.checkingTotal
  checked := hs.checked
  working := hs.working
  newWorking := hs.newWorking
  confirmedWorking := hs.confirmedWorking
  failed := hs.failed
  paused := hs.paused
  manualPause := hs.manualPause
  pauseEvent := hs.pauseEvent

/-- Write the attributes. -/
@[simps] def setAttributes (hs : HuntState) (a : Attributes) : HuntState :=
  { hs with
    phase := a.phase, checkingTotal := a.checkingTotal, checked := a.checked,
    working := a.working, newWorking := a.newWorking, confirmedWorking := a.confirmedWorking,
    failed := a.failed, paused := a.paused, manualPause := a.manualPause,
    pauseEvent := a.pauseEvent }

/-- The end of `_health_check_one`: a result of a health check is counted. -/
@[simps] def recordHealth (hs : HuntState) (c : HealthContext) (ok : Bool) : HuntState :=
  { hs with
    checked := hs.checked + 1
    working := if ok then c.okCount else hs.working
    confirmedWorking := if ok then c.okCount else hs.confirmedWorking
    failed := if ok then hs.failed else c.failCount }

end HuntState

/-- The counts after a result of a health check. -/
def HealthContext.add (c : HealthContext) (ok : Bool) : HealthContext :=
  if ok then { c with okCount := c.okCount + 1 } else { c with failCount := c.failCount + 1 }

/-- The engine with its health checks. `base` is the ghost: what each call has to give back. -/
structure Recheck where
  host : HuntState
  work : ValidationContext
  ctx : ℕ → HealthContext
  base : ℕ → Attributes

/-- A call of `_health_check`, its cancellation, a turn of it, a result of one of its
checks; a result of a hunt's worker, a turn of a hunt cycle; or anything else that writes
the attributes: the control calls, the auto-pause and the canary. -/
inductive RecheckEvent
  | call
  | cancel (k : ℕ)
  | health (k candidates : ℕ)
  | result (k : ℕ) (ok : Bool)
  | work (r : WorkResult)
  | cycle (h : ℕ) (inp : CycleInput)
  | other (new : HuntState)

/-- A step that is neither the health checks' nor the hunt's own. -/
def RecheckEvent.outside : RecheckEvent → Bool
  | .other _ => true
  | _ => false

/-- The call is past its first step and has not ended. -/
def HealthPc.inBody : HealthPc → Bool
  | .pausing _ _ => true
  | .checking _ _ => true
  | _ => false

namespace Recheck

/-- Where call `k` is suspended. -/
def pc (s : Recheck) (k : ℕ) : HealthPc := (s.host.healths k).pc

/-- The state after the first step of call `k`, which leaves the engine as `hs`. -/
def opened (s : Recheck) (k : ℕ) (hs : HuntState) : Recheck :=
  { s with
    host := hs
    ctx := Function.update s.ctx k ⟨0, 0⟩
    base := Function.update s.base k s.host.attributes }

theorem opened_base (s : Recheck) (k : ℕ) (hs : HuntState) :
    (s.opened k hs).base k = s.host.attributes :=
  Function.update_self _ _ _

/-- A turn of call `k`. -/
def healthTurn (s : Recheck) (k candidates : ℕ) : Option Recheck :=
  (s.host.healthStep k candidates).map (fun hs =>
    if s.pc k = .unstarted then s.opened k hs else { s with host := hs })

/-- A check of call `k` has a result. -/
def healthResult (s : Recheck) (k : ℕ) (ok : Bool) : Option Recheck :=
  match s.pc k with
  | .checking _ _ =>
    let c := (s.ctx k).add ok
    some { s with host := s.host.recordHealth c ok, ctx := Function.update s.ctx k c }
  | _ => none

/-- A worker of the hunt has a result, which it drops while a health check is running. -/
def workResult (s : Recheck) (r : WorkResult) : Recheck :=
  if s.host.healthRunning then s
  else
    let c := s.work.add r
    { s with
      host := s.host.setAttributes (s.host.attributes.record c r)
      work := c
      base := fun k => (s.base k).record c r }

/-- The transition function. -/
def step (s : Recheck) : RecheckEvent → Option Recheck
  | .call => some { s with host := s.host.spawnHealth }
  | .cancel k => some { s with host := s.host.cancelHealth k }
  | .health k candidates => s.healthTurn k candidates
  | .result k ok => s.healthResult k ok
  | .work r => some (s.workResult r)
  | .cycle h inp => (s.host.cycleStep h inp).map (fun q => { s with host := q.1 })
  | .other new =>
    some { s with
      host := { new with healths := s.host.healths, nextHealth := s.host.nextHealth } }

/-- The machine of the health checks. -/
def machine : Machine Recheck RecheckEvent := ⟨step⟩

/-- A call is past its first step and has not ended. -/
def busy (s : Recheck) : Bool := (List.range s.host.nextHealth).any (fun k => (s.pc k).inBody)

end Recheck

namespace HuntState

/-- The hunt will be paused by a health check. -/
def interruptible (hs : HuntState) : Bool := hs.taskAlive && !hs.paused

/-- The attributes agree with each other: a hunt that is not paused has its event set and no
manual mark, and no more addresses are checked than there are, unless the call ends without
having touched the counters. -/
def consistent (hs : HuntState) (candidates : ℕ) : Bool :=
  (!hs.interruptible || !hs.manualPause && hs.pauseEvent) &&
    (decide (hs.checked ≤ hs.checkingTotal) ||
      decide (candidates = 0) && !hs.interruptible && decide (hs.phase ≠ .health))

end HuntState

namespace Recheck

/-- The turn of a health check lets it restore the hunt: it begins alone and on consistent
attributes, and after the pause it goes on to check something. -/
def turnUndisturbed (s : Recheck) (k candidates : ℕ) : Bool :=
  match s.pc k with
  | .unstarted =>
    (s.host.healths k).cancelRequested || s.host.healthRunning ||
      !s.busy && s.host.consistent candidates
  | .pausing _ _ => !(s.host.healths k).cancelRequested && decide (candidates ≠ 0)
  | _ => true

/-- The cycle leaves its validation, which changes none of the attributes. -/
def settles (s : Recheck) (h : ℕ) : CycleInput → Bool
  | .done _ _ => (s.host.hunts h).pc == .validating && !(s.host.hunts h).cancelRequested
  | .raised => false

/-- The steps that let every health check restore the hunt. -/
def undisturbed (s : Recheck) : RecheckEvent → Bool
  | .health k candidates => s.turnUndisturbed k candidates
  | .work _ => s.host.healthRunning || !s.busy
  | .cycle h inp => s.settles h inp || !s.busy
  | .other _ => !s.busy
  | _ => true

/-- The condition of this module, as a guard on runs. -/
def Undisturbed : Machine.Guard Recheck RecheckEvent := fun s ev _ => s.undisturbed ev = true

/-- No health check is there. -/
def Initial (s : Recheck) : Prop := ∀ k, (s.host.healths k).alive = false

end Recheck

/-! ### The restoration -/

/-- What a call has saved gives the attributes `b` back. -/
structure HealthSaved.Gives (saved : HealthSaved) (huntActive : Bool) (b : Attributes) :
    Prop where
  phase : saved.phase = b.phase
  checkingTotal : saved.checkingTotal = b.checkingTotal
  checked : min saved.checked saved.checkingTotal = b.checked
  working : saved.working = b.working
  newWorking : saved.newWorking = b.newWorking
  confirmedWorking : saved.confirmedWorking = b.confirmedWorking
  failed : saved.failed = b.failed
  paused : saved.paused = b.paused
  resumed : huntActive = true → b.paused = false → b.manualPause = false ∧ b.pauseEvent = true

namespace HuntState

/-- The pause attributes are those of `b`, unless the call has paused the hunt. -/
def KeepsPause (hs : HuntState) (huntActive : Bool) (b : Attributes) : Prop :=
  (huntActive && !b.paused) = false →
    hs.paused = b.paused ∧ hs.manualPause = b.manualPause ∧ hs.pauseEvent = b.pauseEvent

/-- **The restoration gives the attributes back.** -/
theorem restoreHealth_attributes {hs : HuntState} {saved : HealthSaved} {huntActive : Bool}
    {b : Attributes} (hgives : saved.Gives huntActive b) (hphase : hs.phase = .health)
    (hkeeps : hs.KeepsPause huntActive b) :
    (hs.restoreHealth saved huntActive).attributes = b := by
  unfold restoreHealth restoreCounters
  rw [if_pos hphase, hgives.paused]
  split
  · next hactive =>
    rw [Bool.and_eq_true, Bool.not_eq_true'] at hactive
    obtain ⟨hmanual, hevent⟩ := hgives.resumed hactive.1 hactive.2
    exact Attributes.ext hgives.phase hgives.checkingTotal hgives.checked hgives.working
      hgives.newWorking hgives.confirmedWorking hgives.failed hactive.2.symm hmanual.symm
      hevent.symm
  · next hactive =>
    obtain ⟨hpaused, hmanual, hevent⟩ := hkeeps (Bool.eq_false_iff.mpr hactive)
    exact Attributes.ext hgives.phase hgives.checkingTotal hgives.checked hgives.working
      hgives.newWorking hgives.confirmedWorking hgives.failed hpaused hmanual hevent

end HuntState

/-! ### Runs -/

namespace Recheck

variable {s s' : Recheck} {k : ℕ}

/-- The calls are apart, and what each of them has saved gives the attributes back. -/
structure Inv (s : Recheck) : Prop where
  single : ∀ k l, (s.pc k).inBody = true → (s.pc l).inBody = true → k = l
  pausing : ∀ k saved active, s.pc k = .pausing saved active →
    saved.Gives active (s.base k) ∧ active = true ∧ (s.base k).paused = false
  checking : ∀ k saved active, s.pc k = .checking saved active →
    saved.Gives active (s.base k) ∧ s.host.phase = .health ∧ s.host.healthRunning = true ∧
      s.host.KeepsPause active (s.base k)

/-- Calls that are yet to be made have no task. -/
def Fresh (s : Recheck) : Prop := ∀ k, s.host.nextHealth ≤ k → s.pc k = .finished

theorem Fresh.idle (h : s.Fresh) (hbusy : s.busy = false) (k : ℕ) : (s.pc k).inBody = false := by
  by_cases hk : k < s.host.nextHealth
  · rw [busy, List.any_eq_false] at hbusy
    exact Bool.eq_false_iff.mpr (hbusy k (List.mem_range.mpr hk))
  · rw [h k (Nat.le_of_not_lt hk)]
    rfl

/-- Without a call in its body there is nothing to keep. -/
theorem Inv.of_idle (h : ∀ k, (s.pc k).inBody = false) : s.Inv where
  single k l hk _ := by
    rw [h k] at hk
    cases hk
  pausing k saved active hk := by
    have hidle := h k
    rw [hk] at hidle
    cases hidle
  checking k saved active hk := by
    have hidle := h k
    rw [hk] at hidle
    cases hidle

/-- Only call `k` is in its body. -/
theorem Inv.of_only (honly : ∀ l, (s.pc l).inBody = true → l = k)
    (hpausing : ∀ saved active, s.pc k = .pausing saved active →
      saved.Gives active (s.base k) ∧ active = true ∧ (s.base k).paused = false)
    (hchecking : ∀ saved active, s.pc k = .checking saved active →
      saved.Gives active (s.base k) ∧ s.host.phase = .health ∧ s.host.healthRunning = true ∧
        s.host.KeepsPause active (s.base k)) : s.Inv where
  single l m hl hm := (honly l hl).trans (honly m hm).symm
  pausing l saved active hl := by
    have hlk := honly l (by rw [hl]; rfl)
    subst hlk
    exact hpausing saved active hl
  checking l saved active hl := by
    have hlk := honly l (by rw [hl]; rfl)
    subst hlk
    exact hchecking saved active hl

/-- A change outside the calls and the phase. -/
theorem Inv.congr (h : s.Inv)
    (hpc : ∀ k, (s'.pc k).inBody = true → s'.pc k = s.pc k ∧ s'.base k = s.base k)
    (hphase : s'.host.phase = s.host.phase)
    (hrunning : s'.host.healthRunning = s.host.healthRunning)
    (hpaused : s'.host.paused = s.host.paused)
    (hmanual : s'.host.manualPause = s.host.manualPause)
    (hevent : s'.host.pauseEvent = s.host.pauseEvent) : s'.Inv where
  single k l hk hl := by
    rw [(hpc k hk).1] at hk
    rw [(hpc l hl).1] at hl
    exact h.single k l hk hl
  pausing k saved active hk := by
    obtain ⟨heq, hbase⟩ := hpc k (by rw [hk]; rfl)
    rw [hbase]
    exact h.pausing k saved active (heq ▸ hk)
  checking k saved active hk := by
    obtain ⟨heq, hbase⟩ := hpc k (by rw [hk]; rfl)
    rw [hbase, hphase, hrunning, HuntState.KeepsPause, hpaused, hmanual, hevent]
    exact h.checking k saved active (heq ▸ hk)

/-! ### The turns of a health check -/

theorem pauseHunt_of_interruptible {hs : HuntState} (h : hs.interruptible = true)
    (manual : Bool) :
    (hs.pauseHunt manual).1 = { hs with
      paused := true, manualPause := manual, pauseEvent := false,
      phaseBeforePause := hs.phase, phase := .paused } := by
  rw [HuntState.interruptible, Bool.and_eq_true, Bool.not_eq_true'] at h
  simp [HuntState.pauseHunt, h.1, h.2]

/-- What a call saves gives back the attributes it finds. -/
theorem saveHealth_gives {hs : HuntState} {candidates : ℕ}
    (hchecked : hs.checked ≤ hs.checkingTotal) (hcons : hs.consistent candidates = true) :
    hs.saveHealth.Gives hs.taskAlive hs.attributes := by
  refine ⟨rfl, rfl, min_eq_left hchecked, rfl, rfl, rfl, rfl, rfl, fun hactive hpaused => ?_⟩
  have hpaused : hs.paused = false := hpaused
  simp only [HuntState.consistent, HuntState.interruptible, hactive, hpaused, Bool.not_false,
    Bool.and_self, Bool.not_true, Bool.false_or, Bool.and_eq_true, Bool.not_eq_true'] at hcons
  exact hcons.1

theorem checked_le_of_consistent {hs : HuntState} {candidates : ℕ}
    (hcons : hs.consistent candidates = true)
    (h : candidates ≠ 0 ∨ hs.interruptible = true ∨ hs.phase = .health) :
    hs.checked ≤ hs.checkingTotal := by
  simp only [HuntState.consistent, Bool.and_eq_true, Bool.or_eq_true, Bool.not_eq_true',
    decide_eq_true_eq] at hcons
  rcases hcons.2 with hle | ⟨⟨hzero, hfree⟩, hphase⟩
  · exact hle
  · rcases h with hne | hint | hhealth
    · exact absurd hzero hne
    · rw [hfree] at hint
      cases hint
    · exact absurd hhealth hphase

/-- The end of a call gives the attributes back. -/
theorem healthEnd_attributes {hs : HuntState} {saved : HealthSaved} {active : Bool}
    {b : Attributes} (hgives : saved.Gives active b) (hphase : hs.phase = .health)
    (hkeeps : hs.KeepsPause active b) (k : ℕ) :
    (hs.healthEnd k saved active).attributes = b :=
  HuntState.restoreHealth_attributes hgives hphase hkeeps

/-- A call that ends in its first step has changed nothing. -/
theorem healthEnd_at_once {hs : HuntState} (hcons : hs.consistent 0 = true)
    (hfree : hs.interruptible = false) (k : ℕ) :
    ({ hs with healthRunning := true }.healthEnd k hs.saveHealth hs.taskAlive).attributes =
      hs.attributes := by
  by_cases hphase : hs.phase = .health
  · have hle := checked_le_of_consistent hcons (.inr (.inr hphase))
    exact @healthEnd_attributes { hs with healthRunning := true } _ _ _ (saveHealth_gives hle hcons)
      hphase (fun _ => ⟨rfl, rfl, rfl⟩) k
  · have hactive : (hs.taskAlive && !hs.saveHealth.paused) = false := hfree
    simp only [HuntState.healthEnd, HuntState.restoreHealth, hactive, Bool.false_eq_true, if_false,
      HuntState.restoreCounters, if_neg hphase]
    rfl

theorem pc_setHealth (hs : HuntState) (k l : ℕ) (t : HealthTask) :
    ((hs.setHealth k t).healths l).pc = if l = k then t.pc else (hs.healths l).pc := by
  by_cases h : l = k
  · subst h
    simp
  · simp [h]

/-- The begin of the checks, seen from the pool. -/
theorem healthBegin_pc (hs : HuntState) (k l : ℕ) (saved : HealthSaved) (active : Bool)
    (candidates : ℕ) :
    ((hs.healthBegin k saved active candidates).healths l).pc =
      if l = k then (if candidates = 0 then .finished else .checking saved active)
      else (hs.healths l).pc := by
  unfold HuntState.healthBegin
  split
  · rw [HuntState.healthEnd, pc_setHealth]
    have hsame : ((({ hs with healthRunning := true } : HuntState).restoreHealth saved
        active).healths l).pc = (hs.healths l).pc := by
      unfold HuntState.restoreHealth HuntState.restoreCounters
      split <;> split <;> rfl
    split
    · rfl
    · exact hsame
  · rw [pc_setHealth]

/-- The begin of the checks makes the call the only one in its body. -/
theorem Inv.begin {hs : HuntState} {saved : HealthSaved} {active : Bool} {candidates : ℕ}
    (hother : ∀ l, l ≠ k → ((hs.healths l).pc).inBody = false)
    (hne : candidates ≠ 0) (hgives : saved.Gives active (s.base k))
    (hkeeps : hs.KeepsPause active (s.base k))
    (heq : s.host = hs.healthBegin k saved active candidates) : s.Inv := by
  have hpc : ∀ l, s.pc l = if l = k then .checking saved active else (hs.healths l).pc := by
    intro l
    rw [pc, heq, healthBegin_pc, if_neg hne]
  have hhost : s.host.phase = .health ∧ s.host.healthRunning = true ∧
      s.host.KeepsPause active (s.base k) := by
    rw [heq, HuntState.healthBegin, if_neg hne]
    exact ⟨rfl, rfl, hkeeps⟩
  obtain ⟨hphase, hrunning, hkeeps'⟩ := hhost
  refine .of_only (k := k) ?_ ?_ ?_
  · intro l hl
    by_contra hlk
    rw [hpc, if_neg hlk, hother l hlk] at hl
    cases hl
  · intro saved' active' hpausing
    rw [hpc, if_pos rfl] at hpausing
    cases hpausing
  · intro saved' active' hchecking
    rw [hpc, if_pos rfl] at hchecking
    cases hchecking
    exact ⟨hgives, hphase, hrunning, hkeeps'⟩

/-- A call that has ended leaves nobody in its body if it was the only one. -/
theorem Inv.ended (hother : ∀ l, l ≠ k → (s.pc l).inBody = false) (hk : s.pc k = .finished) :
    s.Inv := by
  apply Inv.of_idle
  intro l
  by_cases hl : l = k
  · rw [hl, hk]
    rfl
  · exact hother l hl

/-- What a turn of a call does. -/
inductive HealthTurn (s : Recheck) (k candidates : ℕ) : Recheck → Prop
  | refused (at_ : s.pc k = .unstarted)
      (why : ((s.host.healths k).cancelRequested || s.host.healthRunning) = true) :
      HealthTurn s k candidates (s.opened k (s.host.setHealth k ⟨.finished, false⟩))
  | paused (at_ : s.pc k = .unstarted)
      (accepted : ((s.host.healths k).cancelRequested || s.host.healthRunning) = false)
      (running : s.host.interruptible = true) :
      HealthTurn s k candidates (s.opened k ((s.host.pauseHunt true).1.setHealth k
        { s.host.healths k with pc := .pausing s.host.saveHealth s.host.taskAlive }))
  | begun (at_ : s.pc k = .unstarted)
      (accepted : ((s.host.healths k).cancelRequested || s.host.healthRunning) = false)
      (idle : s.host.interruptible = false) :
      HealthTurn s k candidates
        (s.opened k (s.host.healthBegin k s.host.saveHealth s.host.taskAlive candidates))
  | resumed {saved active} (at_ : s.pc k = .pausing saved active)
      (wanted : (s.host.healths k).cancelRequested = false) :
      HealthTurn s k candidates { s with host := s.host.healthBegin k saved active candidates }
  | abandoned {saved active} (at_ : s.pc k = .pausing saved active)
      (cancelled : (s.host.healths k).cancelRequested = true) :
      HealthTurn s k candidates { s with host := s.host.setHealth k ⟨.finished, false⟩ }
  | ended {saved active} (at_ : s.pc k = .checking saved active) :
      HealthTurn s k candidates { s with host := s.host.healthEnd k saved active }

theorem healthTurn_spec {candidates : ℕ} (h : s.healthTurn k candidates = some s') :
    HealthTurn s k candidates s' := by
  simp only [healthTurn, Option.map_eq_some_iff] at h
  obtain ⟨hs, hstep, rfl⟩ := h
  unfold HuntState.healthStep at hstep
  cases hpc : (s.host.healths k).pc with
  | unstarted =>
    have hat : s.pc k = .unstarted := hpc
    simp only [hpc] at hstep
    rw [if_pos hat]
    split at hstep
    · next hwhy =>
      cases hstep
      exact .refused hat hwhy
    · next haccepted =>
      have haccepted := Bool.eq_false_iff.mpr haccepted
      split at hstep
      · next hrunning =>
        cases hstep
        exact .paused hat haccepted hrunning
      · next hidle =>
        cases hstep
        exact .begun hat haccepted (Bool.eq_false_iff.mpr hidle)
  | pausing saved active =>
    have hat : s.pc k = .pausing saved active := hpc
    have hne : s.pc k ≠ .unstarted := by simp [hat]
    simp only [hpc] at hstep
    rw [if_neg hne]
    split at hstep
    · next hcancelled =>
      cases hstep
      exact .abandoned hat hcancelled
    · next hwanted =>
      cases hstep
      exact .resumed hat (Bool.eq_false_iff.mpr hwanted)
  | checking saved active =>
    have hat : s.pc k = .checking saved active := hpc
    have hne : s.pc k ≠ .unstarted := by simp [hat]
    simp only [hpc, Option.some.injEq] at hstep
    subst hstep
    rw [if_neg hne]
    exact .ended hat
  | finished => simp [hpc] at hstep

/-- A turn of call `k` leaves the other calls where they are. -/
theorem HealthTurn.pc_other {candidates : ℕ} (h : HealthTurn s k candidates s') {l : ℕ}
    (hl : l ≠ k) : s'.pc l = s.pc l := by
  have hset : ∀ (hs : HuntState) (t : HealthTask), hs.healths = s.host.healths →
      ((hs.setHealth k t).healths l).pc = s.pc l := by
    intro hs t heq
    rw [pc_setHealth, if_neg hl, heq, pc]
  have hbegin : ∀ saved active,
      ((s.host.healthBegin k saved active candidates).healths l).pc = s.pc l := by
    intro saved active
    rw [healthBegin_pc, if_neg hl, pc]
  cases h with
  | refused => exact hset _ _ rfl
  | paused _ _ hint => exact hset _ _ (by rw [pauseHunt_of_interruptible hint])
  | begun => exact hbegin _ _
  | resumed => exact hbegin _ _
  | abandoned => exact hset _ _ rfl
  | @ended saved active _ =>
    apply hset
    unfold HuntState.restoreHealth HuntState.restoreCounters
    split <;> split <;> rfl

/-- The calls made so far are the same after a turn of one of them. -/
theorem HealthTurn.nextHealth {candidates : ℕ} (h : HealthTurn s k candidates s') :
    s'.host.nextHealth = s.host.nextHealth := by
  have hend : ∀ (hs : HuntState) saved active,
      (hs.healthEnd k saved active).nextHealth = hs.nextHealth := by
    intro hs saved active
    unfold HuntState.healthEnd HuntState.restoreHealth HuntState.restoreCounters
    split <;> split <;> rfl
  have hbegin : ∀ saved active,
      (s.host.healthBegin k saved active candidates).nextHealth = s.host.nextHealth := by
    intro saved active
    unfold HuntState.healthBegin
    split
    · exact hend _ _ _
    · rfl
  cases h with
  | refused => rfl
  | paused _ _ hint =>
    rw [opened, HuntState.setHealth_nextHealth, pauseHunt_of_interruptible hint]
  | begun => exact hbegin _ _
  | resumed => exact hbegin _ _
  | abandoned => rfl
  | ended => exact hend _ _ _

theorem pc_cancelHealth (hs : HuntState) (k l : ℕ) :
    ((hs.cancelHealth k).healths l).pc = (hs.healths l).pc := by
  unfold HuntState.cancelHealth
  split
  · by_cases hl : l = k
    · subst hl
      simp
    · simp [hl]
  · rfl

/-- **Step lemma**: calls keep being numbered. -/
theorem Fresh.step {ev : RecheckEvent} (h : s.Fresh) (hs : s.step ev = some s') : s'.Fresh := by
  intro l hl
  cases ev with
  | call =>
    cases hs
    have hl : s.host.nextHealth + 1 ≤ l := hl
    have hne : l ≠ s.host.nextHealth := (Nat.lt_of_succ_le hl).ne'
    simp only [pc, HuntState.spawnHealth, Function.update_of_ne hne]
    exact h l (Nat.le_of_succ_le hl)
  | cancel k =>
    cases hs
    have hl : s.host.nextHealth ≤ l := by
      have hnext : (s.host.cancelHealth k).nextHealth = s.host.nextHealth := by
        unfold HuntState.cancelHealth
        split <;> rfl
      exact hnext ▸ hl
    exact (pc_cancelHealth s.host k l).trans (h l hl)
  | health k candidates =>
    have ht := healthTurn_spec hs
    rw [ht.nextHealth] at hl
    have hlk : l ≠ k := by
      rintro rfl
      have hdone := h l hl
      cases ht <;> simp_all
    rw [ht.pc_other hlk]
    exact h l hl
  | result k ok =>
    simp only [Recheck.step, healthResult] at hs
    split at hs
    · cases hs
      exact h l hl
    · cases hs
  | work r =>
    cases hs
    unfold workResult at hl ⊢
    split at hl
    · next hrunning =>
      rw [if_pos hrunning]
      exact h l hl
    · next hrunning =>
      rw [if_neg hrunning]
      exact h l hl
  | cycle j inp =>
    simp only [Recheck.step, Option.map_eq_some_iff] at hs
    obtain ⟨q, hq, rfl⟩ := hs
    have hk := HuntState.cycleStep_kept hq
    have hl : q.1.nextHealth ≤ l := hl
    rw [hk.nextHealth] at hl
    rw [pc, hk.healths]
    exact h l hl
  | other new =>
    cases hs
    exact h l hl

/-- A call that begins while another one is in its body has been accepted too early. -/
theorem accepted_idle {candidates : ℕ} (hf : s.Fresh) (hat : s.pc k = .unstarted)
    (haccepted : ((s.host.healths k).cancelRequested || s.host.healthRunning) = false)
    (hu : s.turnUndisturbed k candidates = true) :
    (∀ l, (s.pc l).inBody = false) ∧ s.host.consistent candidates = true := by
  simp only [turnUndisturbed, hat, haccepted, Bool.false_or, Bool.and_eq_true,
    Bool.not_eq_true'] at hu
  exact ⟨hf.idle hu.1, hu.2⟩

/-- The turns of the health checks keep the invariant. -/
theorem Inv.turn {candidates : ℕ} (h : s.Inv) (hf : s.Fresh)
    (ht : HealthTurn s k candidates s') (hu : s.turnUndisturbed k candidates = true) :
    s'.Inv := by
  -- at most one call is in its body, so what the others hold stays
  have hother : ∀ l, l ≠ k → s'.pc l = s.pc l := fun l hl => ht.pc_other hl
  have halone : (s.pc k).inBody = true → ∀ l, l ≠ k → (s.pc l).inBody = false := by
    intro hk l hl
    by_contra hbody
    exact hl (h.single l k (Bool.not_eq_false _ ▸ hbody) hk)
  cases ht with
  | refused at_ why =>
    refine h.congr (fun l hl => ?_) rfl rfl rfl rfl rfl
    have hlk : l ≠ k := by
      rintro rfl
      rw [pc, opened, pc_setHealth, if_pos rfl] at hl
      cases hl
    exact ⟨hother l hlk, Function.update_of_ne hlk _ _⟩
  | paused at_ accepted running =>
    obtain ⟨hidle, hcons⟩ := accepted_idle hf at_ accepted hu
    have hle := checked_le_of_consistent hcons (.inr (.inl running))
    have hpc : ∀ l, l = k → (s.opened k ((s.host.pauseHunt true).1.setHealth k
        { s.host.healths k with
          pc := .pausing s.host.saveHealth s.host.taskAlive })).pc l =
        .pausing s.host.saveHealth s.host.taskAlive := by
      intro l hl
      rw [pc, opened, pc_setHealth, if_pos hl]
    refine .of_only (k := k) ?_ ?_ ?_
    · intro l hl
      by_contra hlk
      rw [hother l hlk, hidle l] at hl
      cases hl
    · intro saved active hpausing
      rw [hpc k rfl] at hpausing
      cases hpausing
      rw [HuntState.interruptible, Bool.and_eq_true, Bool.not_eq_true'] at running
      rw [opened_base]
      exact ⟨saveHealth_gives hle hcons, running.1, running.2⟩
    · intro saved active hchecking
      rw [hpc k rfl] at hchecking
      cases hchecking
  | begun at_ accepted idle =>
    obtain ⟨hidle, hcons⟩ := accepted_idle hf at_ accepted hu
    by_cases hne : candidates = 0
    · apply Inv.ended (k := k)
      · intro l hl
        rw [hother l hl]
        exact hidle l
      · rw [pc, opened, healthBegin_pc, if_pos rfl, if_pos hne]
    · have hle := checked_le_of_consistent hcons (.inl hne)
      refine Inv.begin (k := k) (fun l _ => hidle l) hne ?_ ?_ rfl
      · rw [opened_base]
        exact saveHealth_gives hle hcons
      · rw [opened_base]
        exact fun _ => ⟨rfl, rfl, rfl⟩
  | resumed at_ wanted =>
    obtain ⟨hgives, hactive, hpaused⟩ := h.pausing k _ _ at_
    have hne : candidates ≠ 0 := by
      simp only [turnUndisturbed, at_, Bool.and_eq_true, decide_eq_true_eq] at hu
      exact hu.2
    refine Inv.begin (k := k) (halone (by rw [at_]; rfl)) hne hgives (fun hfree => ?_) rfl
    rw [hactive, hpaused] at hfree
    cases hfree
  | abandoned at_ cancelled =>
    -- a cancellation in the sleep is what the condition leaves out
    simp only [turnUndisturbed, at_, cancelled, Bool.not_true, Bool.false_and] at hu
    cases hu
  | ended at_ =>
    apply Inv.ended (k := k)
    · intro l hl
      rw [hother l hl]
      exact halone (by rw [at_]; rfl) l hl
    · rw [pc, HuntState.healthEnd, pc_setHealth, if_pos rfl]

/-- **Step lemma**: undisturbed steps keep the calls apart and what they have saved. -/
theorem Inv.step {ev : RecheckEvent} (h : s.Inv) (hf : s.Fresh) (hs : s.step ev = some s')
    (hu : s.undisturbed ev = true) : s'.Inv := by
  cases ev with
  | call =>
    cases hs
    refine h.congr (fun l hl => ⟨?_, rfl⟩) rfl rfl rfl rfl rfl
    by_cases hnext : l = s.host.nextHealth
    · subst hnext
      simp [pc, HealthPc.inBody] at hl
    · simp [pc, hnext]
  | cancel k =>
    cases hs
    have hsame : ∀ l, ({ s with host := s.host.cancelHealth k } : Recheck).pc l = s.pc l :=
      pc_cancelHealth s.host k
    refine h.congr (fun l _ => ⟨hsame l, rfl⟩) ?_ ?_ ?_ ?_ ?_
    all_goals
      dsimp only [HuntState.cancelHealth]
      split <;> rfl
  | health k candidates => exact h.turn hf (healthTurn_spec hs) hu
  | result k ok =>
    simp only [Recheck.step, healthResult] at hs
    split at hs
    · cases hs
      exact h.congr (fun l _ => ⟨rfl, rfl⟩) rfl rfl rfl rfl rfl
    · cases hs
  | work r =>
    cases hs
    unfold workResult
    split
    · exact h
    · next hidle =>
      have hbusy : s.busy = false := by
        simpa [undisturbed, hidle] using hu
      exact .of_idle (hf.idle hbusy)
  | cycle j inp =>
    simp only [Recheck.step, Option.map_eq_some_iff] at hs
    obtain ⟨q, hq, rfl⟩ := hs
    have hpc : ∀ l, ({ s with host := q.1 } : Recheck).pc l = s.pc l := by
      intro l
      rw [pc, (HuntState.cycleStep_kept hq).healths, pc]
    cases hbusy : s.busy with
    | false =>
      apply Inv.of_idle
      intro l
      rw [hpc]
      exact hf.idle hbusy l
    | true =>
      -- the only turn allowed now leaves the validation
      have hsettles : s.settles j inp = true := by simpa [undisturbed, hbusy] using hu
      cases inp with
      | raised => cases hsettles
      | done count sources =>
        simp only [settles, Bool.and_eq_true, beq_iff_eq, Bool.not_eq_true'] at hsettles
        simp only [HuntState.cycleStep, hsettles.1, hsettles.2, Bool.false_eq_true, if_false,
          Option.some.injEq] at hq
        subst hq
        exact h.congr (fun l _ => ⟨hpc l, rfl⟩) rfl rfl rfl rfl rfl
  | other new =>
    cases hs
    have hbusy : s.busy = false := by simpa [undisturbed] using hu
    exact .of_idle (hf.idle hbusy)

theorem Initial.fresh (h : s.Initial) : s.Fresh := by
  intro k _
  have hdone := h k
  simp only [HealthTask.alive, decide_eq_false_iff_not, not_not] at hdone
  exact hdone

theorem Initial.inv (h : s.Initial) : s.Inv := by
  apply Inv.of_idle
  intro k
  have hdone := h k
  simp only [HealthTask.alive, decide_eq_false_iff_not, not_not] at hdone
  rw [pc, hdone]
  rfl

/-- A turn that ends a call gives the attributes back. -/
theorem HealthTurn.restores {candidates : ℕ} (ht : HealthTurn s k candidates s') (h : s.Inv)
    (hf : s.Fresh) (hu : s.turnUndisturbed k candidates = true) (hend : s'.pc k = .finished) :
    s'.host.attributes = s'.base k := by
  cases ht with
  | refused at_ why =>
    rw [opened_base]
    rfl
  | paused at_ accepted running =>
    rw [pc, opened, pc_setHealth, if_pos rfl] at hend
    cases hend
  | begun at_ accepted idle =>
    obtain ⟨-, hcons⟩ := accepted_idle hf at_ accepted hu
    by_cases hne : candidates = 0
    · subst hne
      rw [opened_base]
      exact healthEnd_at_once hcons idle k
    · rw [pc, opened, healthBegin_pc, if_pos rfl, if_neg hne] at hend
      cases hend
  | resumed at_ wanted =>
    have hne : candidates ≠ 0 := by
      simp only [turnUndisturbed, at_, Bool.and_eq_true, decide_eq_true_eq] at hu
      exact hu.2
    rw [pc, healthBegin_pc, if_pos rfl, if_neg hne] at hend
    cases hend
  | abandoned at_ cancelled =>
    simp only [turnUndisturbed, at_, cancelled, Bool.not_true, Bool.false_and] at hu
    cases hu
  | ended at_ =>
    obtain ⟨hgives, hphase, -, hkeeps⟩ := h.checking k _ _ at_
    exact healthEnd_attributes hgives hphase hkeeps k

/-- Only a turn of a call ends it. -/
theorem ended_by_turn {ev : RecheckEvent} (hs : s.step ev = some s') (hk : s.pc k ≠ .finished)
    (hend : s'.pc k = .finished) : ∃ candidates, ev = .health k candidates := by
  cases ev with
  | call =>
    cases hs
    by_cases hnext : k = s.host.nextHealth
    · subst hnext
      simp [pc] at hend
    · simp [pc, hnext] at hend
      exact absurd hend hk
  | cancel l =>
    cases hs
    exact absurd ((pc_cancelHealth s.host l k).symm.trans hend) hk
  | health l candidates =>
    by_cases hl : k = l
    · subst hl
      exact ⟨candidates, rfl⟩
    · rw [(healthTurn_spec hs).pc_other hl] at hend
      exact absurd hend hk
  | result l ok =>
    simp only [Recheck.step, healthResult] at hs
    split at hs
    · cases hs
      exact absurd hend hk
    · cases hs
  | work r =>
    cases hs
    unfold workResult at hend
    split at hend <;> exact absurd hend hk
  | cycle j inp =>
    simp only [Recheck.step, Option.map_eq_some_iff] at hs
    obtain ⟨q, hq, rfl⟩ := hs
    rw [pc, (HuntState.cycleStep_kept hq).healths] at hend
    exact absurd hend hk
  | other new =>
    cases hs
    exact absurd hend hk

/-- **A health check restores the hunt it interrupted**: in every run of undisturbed steps,
the step that ends a call leaves the attributes as they were when the call began, with what
the workers of the hunt have counted since. -/
theorem health_check_restores {s s₁ s' : Recheck} {ev : RecheckEvent} {k : ℕ} (h₀ : s.Initial)
    (h : machine.Reaches Undisturbed s s₁) (hs : s₁.step ev = some s')
    (hu : s₁.undisturbed ev = true) (hbegun : (s₁.host.healths k).alive = true)
    (hended : (s'.host.healths k).alive = false) : s'.host.attributes = s'.base k := by
  have hinv : s₁.Inv ∧ s₁.Fresh :=
    h.invariant (I := fun s => s.Inv ∧ s.Fresh) ⟨h₀.inv, h₀.fresh⟩
      (fun _ _ _ hi hs hg => ⟨hi.1.step hi.2 hs hg, hi.2.step hs⟩)
  obtain ⟨hi, hf⟩ := hinv
  simp only [HealthTask.alive, decide_eq_true_eq] at hbegun
  simp only [HealthTask.alive, decide_eq_false_iff_not, not_not] at hended
  obtain ⟨candidates, rfl⟩ := ended_by_turn hs hbegun hended
  exact (healthTurn_spec hs).restores hi hf hu hended

/-- A hunt in the middle of its validation. -/
def sampleHunt : Recheck where
  host :=
    { phase := .validating, huntRunning := true, checked := 150, checkingTotal := 200,
      working := 60, newWorking := 40, confirmedWorking := 20, failed := 90,
      hunts := fun h => if h = 0 then ⟨.validating, false, false⟩ else ⟨.finished, false, false⟩
      nextHunt := 1, task := some 0 }
  work := ⟨60, 90, 40, 20⟩
  ctx _ := ⟨0, 0⟩
  base _ := ⟨.idle, 0, 0, 0, 0, 0, 0, false, false, true⟩

theorem sampleHunt_initial : sampleHunt.Initial := fun _ => rfl

/-- A health check of two proxies, during which a worker of the hunt drops a result. -/
theorem health_check_restores_validating :
    ∃ s₁ s' : Recheck, machine.Reaches Undisturbed sampleHunt s₁ ∧
      s₁.step (.health 0 2) = some s' ∧ s'.host.attributes = s'.base 0 ∧
      s'.host.attributes = sampleHunt.host.attributes := by
  have hrun : ∃ s₁, machine.Reaches Undisturbed sampleHunt s₁ ∧
      decide ((s₁.host.healths 0).alive = true ∧
        (s₁.step (.health 0 2)).any (fun s' => !(s'.host.healths 0).alive &&
          decide (s'.host.attributes = sampleHunt.host.attributes)) = true ∧
        s₁.undisturbed (.health 0 2) = true) = true :=
    Machine.exists_reaches_of_exec (g := fun s ev _ => s.undisturbed ev)
      (l := [.call, .health 0 2, .health 0 2, .result 0 true, .work ⟨true, false, false⟩,
        .result 0 false])
      (fun s ev _ (h : s.undisturbed ev = true) => h) (by decide +kernel)
  obtain ⟨s₁, hs₁, hend⟩ := hrun
  obtain ⟨hbegun, hany, hu⟩ := of_decide_eq_true hend
  obtain ⟨s', hs', hafter⟩ := (Option.any_eq_true _ _).mp hany
  simp only [Bool.and_eq_true, Bool.not_eq_true', decide_eq_true_eq] at hafter
  exact ⟨s₁, s', hs₁, hs',
    health_check_restores sampleHunt_initial hs₁ hs' hu hbegun hafter.1, hafter.2⟩

/-- The call is cancelled in its short sleep after it has paused the hunt: the hunt is left
in phase PAUSED, paused by hand. -/
theorem left_paused :
    ¬ ∀ (s s₁ s' : Recheck) (ev : RecheckEvent) (k : ℕ), s.Initial →
      machine.Reaches (fun _ ev _ => ev.outside = false) s s₁ → s₁.step ev = some s' →
        ev.outside = false → (s₁.host.healths k).alive = true →
          (s'.host.healths k).alive = false → s'.host.attributes = s'.base k := by
  intro hall
  have hrun : ∃ s₁, machine.Reaches (fun _ ev _ => ev.outside = false) sampleHunt s₁ ∧
      decide ((s₁.host.healths 0).alive = true ∧
        (s₁.step (.health 0 1)).any (fun s' => !(s'.host.healths 0).alive &&
          decide (s'.host.attributes.phase = .paused) &&
            decide ((s'.base 0).phase = .validating)) = true) = true :=
    Machine.exists_reaches_of_exec (g := fun _ ev _ => !ev.outside)
      (l := [.call, .health 0 1, .cancel 0])
      (fun _ ev _ (h : (!ev.outside) = true) => (Bool.not_eq_true' _).mp h) (by decide +kernel)
  obtain ⟨s₁, hs₁, hend⟩ := hrun
  obtain ⟨hbegun, hany⟩ := of_decide_eq_true hend
  obtain ⟨s', hs', hafter⟩ := (Option.any_eq_true _ _).mp hany
  simp only [Bool.and_eq_true, Bool.not_eq_true', decide_eq_true_eq] at hafter
  obtain ⟨⟨hended, hpaused⟩, hvalidating⟩ := hafter
  rw [hall _ s₁ s' _ 0 sampleHunt_initial hs₁ hs' rfl hbegun hended, hvalidating] at hpaused
  cases hpaused

end Recheck

end HuntProxy
