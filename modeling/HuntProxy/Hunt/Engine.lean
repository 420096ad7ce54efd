import HuntProxy.Hunt.Cycle
import HuntProxy.Scheduler.Step

/-!
# Manual hunts and the engine as a machine

`manual_start_hunt` interrupts everything that runs, pauses the scheduler and starts a
hunt; the end of the hunt resumes the scheduler. The call awaits the internet check, the
health check and the hunt it has cancelled, and the scheduler's `cancel_all`, and at each
of these awaits other tasks run: further calls, the handlers, the scheduler's tasks.

The engine is the scheduler together with the calls of `manual_start_hunt`; the
attributes of `HuntState` are the scheduler's `state`. An event is a turn of one task or
one call of a synchronous method.

## Main definitions

- `SchedulerEngine.manualStep` — `manual_start_hunt` up to its next await
- `SchedulerEngine.endManualHunt` — `_end_manual_hunt`
- `Engine`, `Engine.step`, `Engine.machine` — the transition function
-/

namespace HuntProxy

/-- The awaits of `manual_start_hunt`: the internet check, the cancelled health check, the
cancelled hunt, and `cancel_all` as task `c` of the scheduler's pool. A call that has
returned remembers the hunt it started. -/
inductive ManualPc
  | internet
  | health (k : ℕ)
  | hunt (h : ℕ)
  | cancelling (c : TaskId)
  | returned (hunt : Option ℕ)
  deriving DecidableEq, Repr

/-- The call has not returned. -/
def ManualPc.inProgress : ManualPc → Bool
  | .returned _ => false
  | _ => true

/-- What `manual_start_hunt` resets before it starts the hunt. -/
@[simps!] def HuntState.resetForHunt (hs : HuntState) : HuntState :=
  { hs.resetProgress with
    schedulerPausedByHunt := true, phase := .idle, paused := false, manualPause := false,
    internetSuspect := false, pauseEvent := true, woken := fun _ => true, huntRunning := false }

namespace SchedulerEngine

/-- Replace the attributes of the host. -/
@[simps] def setHost (s : SchedulerEngine) (hs : HuntState) : SchedulerEngine :=
  { s with state := hs }

/-- `_end_manual_hunt`. -/
def endManualHunt (s : SchedulerEngine) : SchedulerEngine :=
  if s.state.schedulerPausedByHunt then
    (s.setHost { s.state with schedulerPausedByHunt := false }).resumeAll
  else s

/-- `manual_start_hunt` after its `cancel_all`. -/
def manualBegin (s : SchedulerEngine) : SchedulerEngine × ManualPc :=
  let started := s.state.resetForHunt.startHunt true
  (s.setHost started.1, .returned (if started.2 then some s.state.nextHunt else none))

/-- `manual_start_hunt` after the previous hunt: pause the scheduler, cancel its tasks, and
start the hunt if there is nothing to wait for. -/
def manualPause (s : SchedulerEngine) (now : Time) : Option (SchedulerEngine × ManualPc) :=
  let c := s.nextTask
  let s₁ := ((s.setHost { s.state with task := none }).pauseAll).spawn
    (.cancelAll "manual hunt" .start)
  (s₁.resume now c .wake).map
    (fun s₂ => if (s₂.tasks c).code.isDone then s₂.manualBegin else (s₂, .cancelling c))

/-- `manual_start_hunt` after the health check: cancel a live hunt and wait for it. -/
def manualInterrupt (s : SchedulerEngine) (now : Time) : Option (SchedulerEngine × ManualPc) :=
  let hs := { s.state with healthTask := none, healthRunning := false }
  match hs.task with
  | some h =>
    if (hs.hunts h).alive then some (s.setHost (hs.cancelHunt h), .hunt h)
    else (s.setHost hs).manualPause now
  | none => (s.setHost hs).manualPause now

/-- `manual_start_hunt` up to its next await or its end. -/
def manualStep (s : SchedulerEngine) (now : Time) :
    ManualPc → Input → Option (SchedulerEngine × ManualPc)
  | .internet, .alive verdict =>
    if verdict then
      match s.state.healthTask with
      | some k =>
        if (s.state.healths k).alive then some (s.setHost (s.state.cancelHealth k), .health k)
        else s.manualInterrupt now
      | none => s.manualInterrupt now
    else some (s, .returned none)
  | .health k, .wake => if (s.state.healths k).alive then none else s.manualInterrupt now
  | .hunt h, .wake => if (s.state.hunts h).alive then none else s.manualPause now
  | .cancelling c, .wake => (s.resume now c .wake).map manualBegin
  | _, _ => none

end SchedulerEngine

namespace HuntState

/-- The attributes that the validation pipeline, the canary loop and the downloads write
while tasks are suspended; the control attributes and the tasks stay. -/
def progress (hs new : HuntState) : HuntState :=
  { new with
    phase := hs.phase, phaseBeforePause := hs.phaseBeforePause, paused := hs.paused,
    manualPause := hs.manualPause, healthRunning := hs.healthRunning,
    huntRunning := hs.huntRunning, schedulerPausedByHunt := hs.schedulerPausedByHunt,
    startupAlive := hs.startupAlive, canaryAlive := hs.canaryAlive, hunts := hs.hunts,
    nextHunt := hs.nextHunt, task := hs.task, healths := hs.healths,
    nextHealth := hs.nextHealth, healthTask := hs.healthTask }

/-- `run_startup_cycle` from the start of its hunt: a live hunt is stopped first, and a
refusal ends the startup cycle. -/
def startupHunt (hs : HuntState) : HuntState :=
  let stopped := if hs.taskAlive then hs.stopHunt else hs
  let started := { stopped with phase := .idle }.startHunt false
  if started.2 then started.1
  else { started.1 with huntRunning := false, startupAlive := false }

/-- Create a health-check task. -/
@[simps] def spawnHealth (hs : HuntState) : HuntState :=
  { hs with
    healths := Function.update hs.healths hs.nextHealth ⟨.unstarted, false⟩
    nextHealth := hs.nextHealth + 1 }

end HuntState

/-- The synchronous methods of the engine, and the beginning and the end of the activities
that run beside the hunts. A scheduled health check runs inside the run's own task, so it
begins at once. -/
inductive Control
  | startHunt
  | stopHunt
  | pauseHunt (manual : Bool)
  | resumeHunt (manual : Bool)
  | skipPhase
  | healthStart
  | healthStop
  | healthRun (candidates : ℕ)
  | cancelHealth (k : ℕ)
  | startupBegin
  | startupHunt
  | startupEnd
  | progress (new : HuntState)

/-- A method of the engine. `_handle_health_start` is refused while a hunt or a health check
is running. -/
def HuntState.control (hs : HuntState) : Control → Option HuntState
  | .startHunt => some (hs.startHunt false).1
  | .stopHunt => some hs.stopHunt
  | .pauseHunt manual => some (hs.pauseHunt manual).1
  | .resumeHunt manual => some (hs.resumeHunt manual).1
  | .skipPhase => some hs.skipPhase.1
  | .healthStart =>
    if hs.healthRunning || hs.huntRunning then some hs
    else some { hs.spawnHealth with healthTask := some hs.nextHealth }
  | .healthStop => if hs.healthRunning then some hs.stopHealth else some hs
  | .healthRun candidates => hs.spawnHealth.healthStep hs.nextHealth candidates
  | .cancelHealth k => some (hs.cancelHealth k)
  | .startupBegin =>
    if hs.startupAlive then none else some { hs with huntRunning := true, startupAlive := true }
  | .startupHunt => if hs.startupAlive then some hs.startupHunt else none
  | .startupEnd =>
    if hs.startupAlive then some { hs with huntRunning := false, startupAlive := false } else none
  | .progress new => some (hs.progress new)

/-- The engine: the scheduler, whose `state` holds the attributes of the engine, and the
calls of `manual_start_hunt`. -/
structure Engine where
  sched : SchedulerEngine
  calls : ℕ → ManualPc
  nextCall : ℕ

/-- A turn of a task, a call of a handler, or a step of the scheduler. `userPause` and
`userResume` are the handlers that call `pause_all` and `resume_all`. -/
inductive Event
  | scheduler (now : Time) (a : Action)
  | userPause
  | userResume
  | manualStart
  | manual (m : ℕ) (now : Time) (inp : Input)
  | cycle (h : ℕ) (inp : CycleInput)
  | health (k candidates : ℕ)
  | control (c : Control)

namespace Engine

/-- The attributes of the engine. -/
def host (e : Engine) : HuntState := e.sched.state

/-- Replace the attributes of the engine. -/
def setHost (e : Engine) (hs : HuntState) : Engine := { e with sched := e.sched.setHost hs }

/-- `manual_start_hunt` is called. -/
def addCall (e : Engine) : Engine :=
  { e with calls := Function.update e.calls e.nextCall .internet, nextCall := e.nextCall + 1 }

/-- The task is the `cancel_all` of a call that awaits it. -/
def owned (e : Engine) (i : TaskId) : Bool :=
  (List.range e.nextCall).any (fun m => e.calls m == .cancelling i)

/-- The steps that the scheduler takes by itself. -/
def offered (e : Engine) : Action → Bool
  | .resume i _ => !e.owned i
  | .pauseAll => false
  | .resumeAll => false
  | .host _ => false
  | _ => true

/-- The transition function. -/
def step (e : Engine) : Event → Option Engine
  | .scheduler now a =>
    if e.offered a then (e.sched.step (now, a)).map (fun s => { e with sched := s }) else none
  | .userPause => some { e with sched := e.sched.pauseAll }
  | .userResume => some { e with sched := e.sched.resumeAll }
  | .manualStart => some e.addCall
  | .manual m now inp =>
    (e.sched.manualStep now (e.calls m) inp).map
      (fun q => { e with sched := q.1, calls := Function.update e.calls m q.2 })
  | .cycle h inp =>
    (e.host.cycleStep h inp).map
      (fun q =>
        let e' := e.setHost q.1
        if q.2 then { e' with sched := e'.sched.endManualHunt } else e')
  | .health k candidates => (e.host.healthStep k candidates).map e.setHost
  | .control c => (e.host.control c).map e.setHost

/-- The engine's machine. -/
def machine : Machine Engine Event := ⟨step⟩

/-- The engine after `prepare`: no hunt, no health check and no call is there. -/
structure Initial (e : Engine) : Prop where
  sched : e.sched.Initial
  hunts : ∀ h, (e.host.hunts h).alive = false
  healths : ∀ k, (e.host.healths k).alive = false
  released : e.host.schedulerPausedByHunt = false
  calls : ∀ m, (e.calls m).inProgress = false

/-- An engine with the given schedules and nothing under way. -/
def prepared (es : List ScheduleEntry) : Engine where
  sched := .prepared es
  calls _ := .returned none
  nextCall := 0

theorem prepared_initial (es : List ScheduleEntry) : (prepared es).Initial :=
  ⟨SchedulerEngine.prepared_initial es, fun _ => rfl, fun _ => rfl, rfl, fun _ => rfl⟩

end Engine

end HuntProxy
