import HuntProxy.Lib.Machine
import HuntProxy.Scheduler.Api

/-!
# The scheduler as a machine

A step is one call of the synchronous API, the creation of a task for one of the
coroutines that handlers await, or the resumption of one task, which then runs to its
next await. The action carries everything the step does not determine by itself: the
clock reading, the verdict of the internet check, the outcome of an executor.

## Main definitions

- `finishRun` — the end of an executor, with the `finally` of `_run_with_tracking`
- `turn`, `resume` — one task runs to its next await
- `step`, `machine` — the transition function
-/

namespace HuntProxy

/-- One step of the event loop. -/
inductive Action
  | resume (i : TaskId) (inp : Input)
  | startLoop
  | stop
  | trigger (sid : Sid)
  | triggerNow (sid : Sid)
  | cancelAll (reason : String)
  | cancelRunning (sid : Sid)
  | addSchedule (sid : Sid) (name : String) (taskType : TaskType) (interval : ℤ)
      (config : String) (enabled : Bool)
  | updateSchedule (sid : Sid) (f : ScheduleFields)
  | deleteSchedule (sid : Sid)
  | toggleSchedule (sid : Sid)
  | pauseAll
  | resumeAll
  | host (hs : HuntState)
  deriving Inhabited

/-- The status fields that the end of an executor writes. -/
def ScheduleEntry.record (e : ScheduleEntry) (now : Time) : Outcome → ScheduleEntry
  | .ok => { e with lastStatus := .ok, lastError := "", lastOk := now }
  | .failed message =>
    { e with lastStatus := .failed, lastError := String.ofList (message.toList.take 500) }
  | .cancelled => { e with lastStatus := .failed, lastError := "cancelled" }

namespace Code

/-- Whether a cancellation is raised at the coroutine's await. Only runs and the main loop
are ever cancelled: nobody holds the tasks of the handlers that await the other
coroutines. A run inside its executor leaves the cancellation to the executor. -/
def interruptible : Code → Bool
  | .run _ _ _ (.executing _ _) => false
  | .run _ _ _ _ => true
  | .loop _ => true
  | _ => false

/-- The coroutine after a step of its drain. -/
def afterDrainStep (c : Code) : Option DrainPc → Code
  | none => c.afterDrain
  | some p => c.withDrain p

end Code

namespace SchedulerEngine

/-- The executor has ended: record the outcome and leave the registry, under the type
the entry has now. -/
def finishRun (s : SchedulerEngine) (now : Time) (r : Ref) (started : Time)
    (outcome : Outcome) : SchedulerEngine :=
  let e := (s.entries r).record now outcome
  let e := { e with lastDurationS := pyRound (now - started), nextRun := now + e.intervalSec }
  { s.writeEntry r e with runningTasks := s.runningTasks.erase e.taskType }

/-- A run up to its next await, its drain apart. -/
def runStep (s : SchedulerEngine) (now : Time) (sid : Sid) (key : TaskType)
    (triggered : Bool) : RunPc → Input → Option (SchedulerEngine × Code)
  | .unstarted, .wake =>
    match s.schedules.get? sid with
    | none => some (s, .done .nothing)
    | some r => some (s, .run sid key triggered (.executing r now))
  | .executing r started, .ended outcome =>
    some (s.finishRun now r started outcome, .run sid key triggered (.draining .start))
  | _, _ => none

/-- `_trigger` up to the await of its drain. -/
def triggerStep (s : SchedulerEngine) (now : Time) (sid : Sid) : SchedulerEngine × Code :=
  match s.schedules.get? sid with
  | none => (s, .done .nothing)
  | some _ => (s.enqueue now sid, .trigger sid (some .start))

/-- A coroutine that is not being cancelled, up to its next await. -/
def codeStep (s : SchedulerEngine) (now : Time) (i : TaskId) (c : Code) (inp : Input) :
    Option (SchedulerEngine × Code) :=
  match c.drain? with
  | some p => (s.drainStep now i p inp).map (fun q => (q.1, c.afterDrainStep q.2))
  | none =>
    match c with
    | .run sid key triggered pc => s.runStep now sid key triggered pc inp
    | .loop pc => s.loopStep now pc inp
    | .trigger sid _ => if inp = .wake then some (s.triggerStep now sid) else none
    | .triggerNow sid pc => s.triggerNowStep now i sid pc inp
    | .cancelAll reason pc => if inp = .wake then s.cancelAllStep now reason pc else none
    | .stop pc => if inp = .wake then s.stopStep pc else none
    | .done _ => none

/-- The delivery of a cancellation to an interruptible coroutine. A run that has not
started never enters its body; a gather ends only with the tasks it waits for. -/
def cancelStep (s : SchedulerEngine) (i : TaskId) (c : Code) : Option (SchedulerEngine × Code) :=
  match c.drain? with
  | some p => some (s.abandonDrain i p, .done .nothing)
  | none =>
    match c with
    | .loop (.gateGather running) =>
      if s.allDone (running.map Prod.snd) then some (s, .done .nothing) else none
    | _ => some (s, .done .nothing)

/-- A turn of task `i`, up to its next await, where the second component says it stands. -/
def turn (s : SchedulerEngine) (now : Time) (i : TaskId) (inp : Input) :
    Option (SchedulerEngine × Code) :=
  let t := s.tasks i
  if t.cancelRequested && t.code.interruptible then
    if inp = .wake then s.cancelStep i t.code else none
  else s.codeStep now i t.code inp

/-- Task `i` runs to its next await. -/
def resume (s : SchedulerEngine) (now : Time) (i : TaskId) (inp : Input) :
    Option SchedulerEngine :=
  (s.turn now i inp).map (fun q => q.1.setCode i q.2)

/-- `start_loop`. -/
def startLoop (s : SchedulerEngine) : SchedulerEngine :=
  match s.loop with
  | some l =>
    if (s.tasks l).code.isDone then
      { s.spawn (.loop .sleeping) with loop := some s.nextTask }
    else s
  | none => { s.spawn (.loop .sleeping) with loop := some s.nextTask }

/-- The transition function: a clock reading and an action. -/
def step (s : SchedulerEngine) : Time × Action → Option SchedulerEngine
  | (now, .resume i inp) => s.resume now i inp
  | (_, .startLoop) => some s.startLoop
  | (_, .stop) => some (s.spawn (.stop .start))
  | (_, .trigger sid) => some (s.spawn (.trigger sid none))
  | (_, .triggerNow sid) => some (s.spawn (.triggerNow sid .start))
  | (_, .cancelAll reason) => some (s.spawn (.cancelAll reason .start))
  | (_, .cancelRunning sid) => some (s.cancelRunning sid).1
  | (now, .addSchedule sid name tt interval config enabled) =>
    some (s.addSchedule now sid name tt interval config enabled).1
  | (now, .updateSchedule sid f) => some (s.updateSchedule now sid f).1
  | (_, .deleteSchedule sid) => some (s.deleteSchedule sid).1
  | (now, .toggleSchedule sid) => some (s.toggleSchedule now sid).1
  | (_, .pauseAll) => some s.pauseAll
  | (_, .resumeAll) => some s.resumeAll
  | (_, .host hs) => some { s with state := hs }

/-- The scheduler's machine. -/
def machine : Machine SchedulerEngine (Time × Action) := ⟨step⟩

end SchedulerEngine

end HuntProxy
