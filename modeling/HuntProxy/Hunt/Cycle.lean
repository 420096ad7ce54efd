import HuntProxy.Hunt.State

/-!
# The hunt cycle and the health check

The two coroutines that run a hunt: `_hunt_cycle`, from phase to phase, and
`_health_check`, which pauses a running hunt, borrows its counters and gives them back.
A cancellation is delivered at the next await; a task that is cancelled before its first
step never enters its body, so its `finally` does not run either.

## Main definitions

- `HuntState.cycleStep` — `_hunt_cycle` up to its next await
- `HuntState.CycleKept`, `cycleStep_kept` — what a turn of the cycle leaves to others
- `HuntState.healthStep` — `_health_check` up to its next await
-/

namespace HuntProxy

/-- What a hunt cycle is resumed with: its phase has ended, with the number of addresses
it worked on and the number of enabled blacklist sources, or it has raised. -/
inductive CycleInput
  | done (count sources : ℕ)
  | raised
  deriving DecidableEq, Repr

namespace HuntState

/-- Write a hunt task. -/
@[simps] def setHunt (hs : HuntState) (h : ℕ) (t : HuntTask) : HuntState :=
  { hs with hunts := Function.update hs.hunts h t }

/-- Write a health-check task. -/
@[simps] def setHealth (hs : HuntState) (k : ℕ) (t : HealthTask) : HuntState :=
  { hs with healths := Function.update hs.healths k t }

/-! ### The hunt cycle -/

/-- The `finally` of `_hunt_cycle`, apart from the release of the scheduler. -/
@[simps] def cycleEnd (hs : HuntState) (h : ℕ) : HuntState :=
  { hs with
    huntRunning := false
    canaryAlive := false
    phase := if hs.phase = .done ∨ hs.phase = .idle then hs.phase else .done
    hunts := Function.update hs.hunts h { hs.hunts h with pc := .finished } }

/-- The beginning of `_hunt_blacklist_phase`. -/
@[simps] def enterBlacklists (hs : HuntState) (count sources : ℕ) : HuntState :=
  { hs with
    downloaded := count, phase := .blacklists, blSourcesTotal := sources, blSourcesDone := 0 }

/-- The beginning of `_hunt_validate_phase`. -/
@[simps] def enterValidation (hs : HuntState) (count : ℕ) : HuntState :=
  { hs with
    phase := .validating, checkingTotal := count, checked := 0, working := 0, newWorking := 0,
    confirmedWorking := 0, failed := 0 }

/-- A hunt begins to wait for the pause event. -/
@[simps] def awaitPause (hs : HuntState) (h : ℕ) : HuntState :=
  { hs with woken := Function.update hs.woken h hs.pauseEvent }

/-- `_hunt_cycle` up to its next await. The second component says that the `finally` has
run, which then ends the manual hunt. -/
def cycleStep (hs : HuntState) (h : ℕ) (inp : CycleInput) : Option (HuntState × Bool) :=
  let t := hs.hunts h
  if t.cancelRequested then
    match t.pc with
    | .finished => none
    | .unstarted => some (hs.setHunt h { t with pc := .finished }, false)
    | _ => some (hs.cycleEnd h, true)
  else
    match t.pc, inp with
    | .unstarted, .done _ _ =>
      some ({ hs with canaryAlive := true, phase := .downloading }.setHunt h
        { t with pc := .downloading }, false)
    | .downloading, .done count sources =>
      some ((hs.enterBlacklists count sources).setHunt h { t with pc := .blacklists }, false)
    | .blacklists, .done count _ =>
      some ((hs.enterValidation count).setHunt h { t with pc := .validating }, false)
    | .validating, .done _ _ => some ((hs.awaitPause h).setHunt h { t with pc := .settling }, false)
    | .settling, .done _ _ =>
      -- a hunt that has been woken goes on, also if the event has been cleared again
      if hs.pauseEvent || hs.woken h then some ({ hs with phase := .done }.cycleEnd h, true) else none
    | .downloading, .raised => some ({ hs with phase := .done }.cycleEnd h, true)
    | .blacklists, .raised => some ({ hs with phase := .done }.cycleEnd h, true)
    | .validating, .raised => some ({ hs with phase := .done }.cycleEnd h, true)
    | _, _ => none

/-- What a hunt cycle leaves to others: the marks of a pause, the mark of a skip and the
health checks. -/
structure CycleKept (hs hs' : HuntState) : Prop where
  paused : hs'.paused = hs.paused
  pauseEvent : hs'.pauseEvent = hs.pauseEvent
  internetSuspect : hs'.internetSuspect = hs.internetSuspect
  skipEvent : hs'.skipEvent = hs.skipEvent
  healths : hs'.healths = hs.healths
  nextHealth : hs'.nextHealth = hs.nextHealth

theorem cycleStep_kept {hs : HuntState} {h : ℕ} {inp : CycleInput} {q : HuntState × Bool}
    (hq : hs.cycleStep h inp = some q) : hs.CycleKept q.1 := by
  unfold cycleStep at hq
  dsimp only at hq
  split at hq
  · split at hq <;> cases hq <;> exact ⟨rfl, rfl, rfl, rfl, rfl, rfl⟩
  · split at hq
    all_goals first
      | (cases hq; done)
      | (cases hq; exact ⟨rfl, rfl, rfl, rfl, rfl, rfl⟩)
      -- the hunt that has settled goes on once it is not paused
      | (split at hq <;> cases hq; exact ⟨rfl, rfl, rfl, rfl, rfl, rfl⟩)

/-! ### The health check -/

/-- `_save_health_state`. -/
def saveHealth (hs : HuntState) : HealthSaved where
  phase := hs.phase
  checkingTotal := hs.checkingTotal
  checked := hs.checked
  working := hs.working
  newWorking := hs.newWorking
  confirmedWorking := hs.confirmedWorking
  failed := hs.failed
  downloaded := hs.downloaded
  sourcesTotal := hs.sourcesTotal
  sourcesDone := hs.sourcesDone
  blTotal := hs.blSourcesTotal
  blDone := hs.blSourcesDone
  paused := hs.paused
  manualPause := hs.manualPause

/-- The counters and the phase of `_restore_health_state`, which writes them only when the
phase is still the health check's. -/
def restoreCounters (hs : HuntState) (saved : HealthSaved) : HuntState :=
  if hs.phase = .health then
    { hs with
      checkingTotal := saved.checkingTotal
      checked := min saved.checked saved.checkingTotal
      working := saved.working
      newWorking := saved.newWorking
      confirmedWorking := saved.confirmedWorking
      failed := saved.failed
      downloaded := saved.downloaded
      sourcesTotal := saved.sourcesTotal
      sourcesDone := saved.sourcesDone
      blSourcesTotal := saved.blTotal
      blSourcesDone := saved.blDone
      phase := saved.phase }
  else hs

/-- `_restore_health_state`. -/
def restoreHealth (hs : HuntState) (saved : HealthSaved) (huntActive : Bool) : HuntState :=
  if huntActive && !saved.paused then
    { hs.restoreCounters saved with
      paused := false, manualPause := false, internetSuspect := false, failStreak := 0,
      checkStreak := 0, pauseEvent := true, woken := fun _ => true }
  else hs.restoreCounters saved

/-- The `finally` of `_health_check`. -/
def healthEnd (hs : HuntState) (k : ℕ) (saved : HealthSaved) (huntActive : Bool) : HuntState :=
  { hs.restoreHealth saved huntActive with healthRunning := false }.setHealth k ⟨.finished, false⟩

/-- `_health_check` from the moment it marks itself as running, up to the await in
`_run_health_checks`. -/
def healthBegin (hs : HuntState) (k : ℕ) (saved : HealthSaved) (huntActive : Bool)
    (candidates : ℕ) : HuntState :=
  if candidates = 0 then { hs with healthRunning := true }.healthEnd k saved huntActive
  else
    { hs with
      healthRunning := true, phase := .health, checkingTotal := candidates, checked := 0,
      working := 0, newWorking := 0, confirmedWorking := 0, failed := 0, failStreak := 0,
      checkStreak := 0 }.setHealth k { hs.healths k with pc := .checking saved huntActive }

/-- `_health_check` up to its next await. -/
def healthStep (hs : HuntState) (k : ℕ) (candidates : ℕ) : Option HuntState :=
  let t := hs.healths k
  match t.pc with
  | .unstarted =>
    if t.cancelRequested || hs.healthRunning then some (hs.setHealth k ⟨.finished, false⟩)
    else
      let saved := hs.saveHealth
      let huntActive := hs.taskAlive
      if huntActive && !hs.paused then
        some ((hs.pauseHunt true).1.setHealth k { t with pc := .pausing saved huntActive })
      else some (hs.healthBegin k saved huntActive candidates)
  | .pausing saved huntActive =>
    if t.cancelRequested then some (hs.setHealth k ⟨.finished, false⟩)
    else some (hs.healthBegin k saved huntActive candidates)
  | .checking saved huntActive => some (hs.healthEnd k saved huntActive)
  | .finished => none

end HuntState

end HuntProxy
