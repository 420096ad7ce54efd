import Mathlib.Data.Nat.Notation
import Mathlib.Logic.Function.Basic
import Mathlib.Tactic.Simps.Basic

/-!
# The state of the hunt engine

The attributes of `HuntState` that hunts, health checks, the validation pipeline and
the scheduler's guards read or write, together with the tasks created for hunt cycles
and health checks. A task is an index into a pool; the slots `self.task` and
`self._health_task` hold such an index, so that a slot can be overwritten while the
task it held is still alive.

## Main definitions

- `Phase`, `HuntTask`, `HealthTask` — phases and the tasks' suspension points
- `HuntState` — the engine's attributes
- `HuntState.startHunt`, `stopHunt`, `pauseHunt`, `resumeHunt`, `skipPhase` — the
  methods of `hunt_control.py`
-/

namespace HuntProxy

/-- The values of `self.phase`. -/
inductive Phase
  | idle
  | downloading
  | blacklists
  | validating
  | health
  | done
  | paused
  deriving DecidableEq, Repr

/-- Where a `_hunt_cycle` task is suspended: before its first step, inside one of the
phases, at the wait for the pause event after validation, or ended. -/
inductive HuntPc
  | unstarted
  | downloading
  | blacklists
  | validating
  | settling
  | finished
  deriving DecidableEq, Repr

/-- A task created for `_hunt_cycle`. `manual` records that `manual_start_hunt` created it. -/
structure HuntTask where
  pc : HuntPc
  cancelRequested : Bool := false
  manual : Bool := false
  deriving DecidableEq, Repr

/-- A task that has not ended. -/
def HuntTask.alive (t : HuntTask) : Bool := t.pc ≠ .finished

/-- What `_save_health_state` remembers. -/
structure HealthSaved where
  phase : Phase
  checkingTotal : ℕ
  checked : ℕ
  working : ℕ
  newWorking : ℕ
  confirmedWorking : ℕ
  failed : ℕ
  downloaded : ℕ
  sourcesTotal : ℕ
  sourcesDone : ℕ
  blTotal : ℕ
  blDone : ℕ
  paused : Bool
  manualPause : Bool
  deriving DecidableEq, Repr

/-- Where a `_health_check` task is suspended: before its first step, in the short sleep
after it paused the hunt, in the checks themselves, or ended. -/
inductive HealthPc
  | unstarted
  | pausing (saved : HealthSaved) (huntActive : Bool)
  | checking (saved : HealthSaved) (huntActive : Bool)
  | finished
  deriving DecidableEq, Repr

/-- A task created for `_health_check`. -/
structure HealthTask where
  pc : HealthPc
  cancelRequested : Bool := false
  deriving DecidableEq, Repr

/-- A task that has not ended. -/
def HealthTask.alive (t : HealthTask) : Bool := t.pc ≠ .finished

/-- The attributes of the engine. `startupAlive` and `canaryAlive` say whether the tasks
in `_startup_task` and `_canary_task` are there and not done, and `woken` whether the pause event
has been set since a hunt began to wait for it. -/
structure HuntState where
  phase : Phase := .idle
  phaseBeforePause : Phase := .done
  paused : Bool := false
  manualPause : Bool := false
  pauseEvent : Bool := true
  woken : ℕ → Bool := fun _ => false
  internetSuspect : Bool := false
  failStreak : ℕ := 0
  checkStreak : ℕ := 0
  healthRunning : Bool := false
  huntRunning : Bool := false
  fetchingIpBlacklists : Bool := false
  fetchingBlocklists : Bool := false
  skipRequested : Bool := false
  skipEvent : Bool := false
  schedulerPausedByHunt : Bool := false
  startupAlive : Bool := false
  canaryAlive : Bool := false
  checked : ℕ := 0
  checkingTotal : ℕ := 0
  working : ℕ := 0
  newWorking : ℕ := 0
  confirmedWorking : ℕ := 0
  failed : ℕ := 0
  downloaded : ℕ := 0
  sourcesTotal : ℕ := 0
  sourcesDone : ℕ := 0
  blSourcesTotal : ℕ := 0
  blSourcesDone : ℕ := 0
  hunts : ℕ → HuntTask := fun _ => ⟨.finished, false, false⟩
  nextHunt : ℕ := 0
  task : Option ℕ := none
  healths : ℕ → HealthTask := fun _ => ⟨.finished, false⟩
  nextHealth : ℕ := 0
  healthTask : Option ℕ := none

instance : Inhabited HuntState := ⟨{}⟩

namespace HuntState

/-- `self.task is not None and not self.task.done()`. -/
def taskAlive (hs : HuntState) : Bool :=
  match hs.task with
  | none => false
  | some h => (hs.hunts h).alive

/-- `self._health_task is not None and not self._health_task.done()`. -/
def healthTaskAlive (hs : HuntState) : Bool :=
  match hs.healthTask with
  | none => false
  | some k => (hs.healths k).alive

/-- `task.cancel()` on a hunt task; a task that is done ignores it. -/
def cancelHunt (hs : HuntState) (h : ℕ) : HuntState :=
  if (hs.hunts h).alive then
    { hs with hunts := Function.update hs.hunts h { hs.hunts h with cancelRequested := true } }
  else hs

/-- `task.cancel()` on a health-check task. -/
def cancelHealth (hs : HuntState) (k : ℕ) : HuntState :=
  if (hs.healths k).alive then
    { hs with
      healths := Function.update hs.healths k { hs.healths k with cancelRequested := true } }
  else hs

/-- `_reset_skip`. -/
@[simps] def resetSkip (hs : HuntState) : HuntState :=
  { hs with skipRequested := false, skipEvent := false }

/-- `_reset_progress`, without the per-source lists that only the page shows. -/
@[simps] def resetProgress (hs : HuntState) : HuntState :=
  { hs with
    checked := 0, checkingTotal := 0, working := 0, newWorking := 0, confirmedWorking := 0,
    failed := 0, downloaded := 0, sourcesTotal := 0, sourcesDone := 0, blSourcesTotal := 0,
    blSourcesDone := 0, failStreak := 0, checkStreak := 0, skipRequested := false,
    skipEvent := false }

/-- `start_hunt`. The hunt loop is always running where it is called, so creating the
task cannot fail. -/
def startHunt (hs : HuntState) (manual : Bool) : HuntState × Bool :=
  if hs.phase ≠ .idle ∧ hs.phase ≠ .done then (hs, false)
  else if hs.healthRunning then (hs, false)
  else
    ({ hs with
        paused := false, manualPause := false, internetSuspect := false,
        failStreak := 0, checkStreak := 0, pauseEvent := true, woken := fun _ => true,
        huntRunning := true,
        hunts := Function.update hs.hunts hs.nextHunt ⟨.unstarted, false, manual⟩,
        nextHunt := hs.nextHunt + 1, task := some hs.nextHunt }, true)

/-- The task that `stop_hunt` cancels. -/
def cancelTask (hs : HuntState) : HuntState :=
  match hs.task with
  | none => hs
  | some h => hs.cancelHunt h

/-- `stop_hunt`. -/
def stopHunt (hs : HuntState) : HuntState :=
  { hs.cancelTask with
    canaryAlive := false, paused := false, manualPause := false, pauseEvent := true,
    woken := fun _ => true, phase := .idle, huntRunning := false }

/-- `stop_health`. -/
def stopHealth (hs : HuntState) : HuntState :=
  match hs.healthTask with
  | none => hs
  | some k => { hs.cancelHealth k with healthTask := none }

/-- `pause_hunt`: refused without a live hunt task. -/
def pauseHunt (hs : HuntState) (manual : Bool) : HuntState × Bool :=
  if hs.paused || !hs.taskAlive then (hs, false)
  else
    ({ hs with
        paused := true, manualPause := manual, pauseEvent := false,
        phaseBeforePause := hs.phase, phase := .paused }, true)

/-- `resume_hunt`: an automatic resume leaves a manual pause alone. -/
def resumeHunt (hs : HuntState) (manual : Bool) : HuntState × Bool :=
  if !hs.paused then (hs, false)
  else if hs.manualPause && !manual then (hs, false)
  else
    ({ hs with
        paused := false, manualPause := false, internetSuspect := false,
        failStreak := 0, checkStreak := 0, pauseEvent := true, woken := fun _ => true,
        phase := if hs.phase = .paused then hs.phaseBeforePause else hs.phase }, true)

/-- `skip_phase`: accepted in a phase that downloads or validates. -/
def skipPhase (hs : HuntState) : HuntState × Bool :=
  if !hs.taskAlive then (hs, false)
  else if hs.phase = .downloading ∨ hs.phase = .blacklists ∨ hs.phase = .validating then
    ({ hs with skipRequested := true, skipEvent := true }, true)
  else (hs, false)

end HuntState

end HuntProxy
