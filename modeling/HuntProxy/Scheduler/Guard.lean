import HuntProxy.Scheduler.Launch

/-!
# Bulk cancellation, the internet gate and the main loop

The coroutines of `scheduler_guard.py`, together with the two of `scheduler.py` that
share their shape: `_run_loop`, which awaits the gate in every tick, and `stop`. A task
that awaits `asyncio.gather` goes on when all the gathered tasks are done.

## Main definitions

- `cancelAllStep`, `stopStep`, `loopStep` — the coroutines, from await to await
- `afterGate` — a tick after its gate: enqueue what is due, then drain
-/

namespace HuntProxy.SchedulerEngine

/-- The part of `cancel_all` that marks the entries it cancelled. -/
def markCancelled (s : SchedulerEngine) (now : Time) (reason : String) : SchedulerEngine :=
  s.schedules.values.foldl
    (fun s r =>
      let e := s.entries r
      if e.lastStatus = .running ∨ e.lastStatus = .queued then
        s.writeEntry r { e with
          lastStatus := .cancelled, lastError := reason, nextRun := now + e.intervalSec }
      else s) s

/-- `cancel_all` after its gather: the registry is cleared as a whole. -/
def cancelAllFinish (s : SchedulerEngine) (now : Time) (reason : String)
    (running : List (TaskType × TaskId)) : SchedulerEngine × Code :=
  (({ s with runningTasks := .empty } : SchedulerEngine).markCancelled now reason,
    .done (.types (running.map Prod.fst)))

/-- `cancel_all` up to its next await or its end. -/
def cancelAllStep (s : SchedulerEngine) (now : Time) (reason : String) :
    CancelAllPc → Option (SchedulerEngine × Code)
  | .start =>
    let running := s.runningTasks.items
    let s₁ := ({ s with queue := .empty } : SchedulerEngine).cancelTasks (running.map Prod.snd)
    if running = [] then some (s₁.cancelAllFinish now reason [])
    else some (s₁, .cancelAll reason (.gather running))
  | .gather running =>
    if s.allDone (running.map Prod.snd) then some (s.cancelAllFinish now reason running)
    else none

/-- The registered runs that perform network checks. -/
def checkTasks (s : SchedulerEngine) : List (TaskType × TaskId) :=
  s.runningTasks.items.filter (fun p => (taskTypes p.1).respectInternet)

/-- The part of a tick that enqueues what is due. -/
def enqueueDue (s : SchedulerEngine) (now : Time) : SchedulerEngine :=
  s.schedules.items.foldl
    (fun s p =>
      let e := s.entries p.2
      if !e.enabled || decide (e.intervalSec ≤ 0) || s.runningTasks.contains e.taskType
          || s.queue.contains p.1 || !e.isDue now then s
      else s.enqueue now p.1) s

/-- A tick of `_run_loop` after the gate, up to the await of the drain. -/
def afterGate (s : SchedulerEngine) (now : Time) : SchedulerEngine × Code :=
  if s.paused then (s, .loop .sleeping)
  else (s.enqueueDue now, .loop (.draining .start))

/-- The gate's reaction to a verdict. Only the change from up to down pauses and cancels,
only the change back resumes. -/
def gateVerdict (s : SchedulerEngine) (now : Time) (alive : Bool) : SchedulerEngine × Code :=
  if alive then
    if s.pausedByInternet then
      ({ s with pausedByInternet := false } : SchedulerEngine).resumeAll.afterGate now
    else s.afterGate now
  else if s.pausedByInternet then s.afterGate now
  else
    let running := s.checkTasks
    let s₁ := (({ s with pausedByInternet := true } : SchedulerEngine).pauseAll).cancelTasks
      (running.map Prod.snd)
    if running = [] then s₁.afterGate now else (s₁, .loop (.gateGather running))

/-- `_run_loop` up to its next await, its drain apart. -/
def loopStep (s : SchedulerEngine) (now : Time) :
    LoopPc → Input → Option (SchedulerEngine × Code)
  | .sleeping, .wake =>
    if s.stopped || s.paused && !s.pausedByInternet then some (s.afterGate now)
    else some (s, .loop .gateInternet)
  | .gateInternet, .alive verdict => some (s.gateVerdict now verdict)
  | .gateGather running, .wake =>
    if s.allDone (running.map Prod.snd) then
      some (({ s with
        runningTasks := s.runningTasks.eraseAll (running.map Prod.fst) } :
          SchedulerEngine).afterGate now)
    else none
  | _, _ => none

/-- The tasks that a cancellation of task `i` also reaches, because `i` gathers them. -/
def gathered (s : SchedulerEngine) (i : TaskId) : List TaskId :=
  match (s.tasks i).code with
  | .loop (.gateGather running) => running.map Prod.snd
  | _ => []

/-- The part of `stop` that cancels the runs. -/
def stopRuns (s : SchedulerEngine) : SchedulerEngine × Code :=
  (s.cancelTasks s.runningTasks.values, .stop (.gather s.runningTasks.values))

/-- `stop` up to its next await or its end. -/
def stopStep (s : SchedulerEngine) : StopPc → Option (SchedulerEngine × Code)
  | .start =>
    let s₁ : SchedulerEngine := { s with stopped := true, queue := .empty }
    match s.loop with
    | none => some s₁.stopRuns
    | some l => some (s₁.cancelTasks (l :: s.gathered l), .stop (.awaitLoop l))
  | .awaitLoop l =>
    if (s.tasks l).code.isDone then some ({ s with loop := none } : SchedulerEngine).stopRuns
    else none
  | .gather running =>
    if s.allDone running then
      some ({ s with runningTasks := .empty, queue := .empty }, .done .nothing)
    else none

end HuntProxy.SchedulerEngine
