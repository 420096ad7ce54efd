import HuntProxy.Scheduler.State

/-!
# Launching scheduled runs

The launch decision of `scheduler.py`, in its two copies: `_try_launch`, which the queue
drains call and which decides under the launch lock, and `trigger_now`, which tests for
conflicts before it takes the lock. Each function runs a coroutine from one of its
awaits to the next one, for the task `me`.

## Main definitions

- `launch` — register a run and create its task
- `tryLaunch`, `resumeLaunch` — `_try_launch` up to its next await
- `drainStep` — `_drain_queue` up to its next await
- `triggerNowStep` — `trigger_now` up to its next await
-/

namespace HuntProxy

/-- What a suspended coroutine is resumed with: nothing, the verdict of
`is_internet_alive`, or the end of an executor. -/
inductive Outcome
  | ok
  | failed (message : String)
  | cancelled
  deriving DecidableEq, Repr

/-- What the event loop delivers to a task. A check that raises counts as `alive false`,
as its callers treat it. -/
inductive Input
  | wake
  | alive (verdict : Bool)
  | ended (outcome : Outcome)
  deriving DecidableEq, Repr

/-- The value of a busy flag. -/
def HuntState.flag (hs : HuntState) : BusyFlag → Bool
  | .huntRunning => hs.huntRunning
  | .fetchingIpBlacklists => hs.fetchingIpBlacklists
  | .fetchingBlocklists => hs.fetchingBlocklists

/-- Clear a busy flag. -/
def HuntState.clearFlag (hs : HuntState) : BusyFlag → HuntState
  | .huntRunning => { hs with huntRunning := false }
  | .fetchingIpBlacklists => { hs with fetchingIpBlacklists := false }
  | .fetchingBlocklists => { hs with fetchingBlocklists := false }

namespace SchedulerEngine

/-- `_is_busy_flag_stale`: only the hunt flag has tasks that can back it. -/
def isBusyFlagStale (s : SchedulerEngine) (f : BusyFlag) : Bool :=
  if s.state.flag f then
    match f with
    | .huntRunning => !s.state.startupAlive && !s.state.taskAlive
    | _ => true
  else false

/-- `_check_busy_flag`: `none` when a live flag blocks the task, otherwise the state with
a stale flag cleared. -/
def checkBusyFlag (s : SchedulerEngine) (taskDef : TaskDef) : Option SchedulerEngine :=
  match taskDef.busyFlag with
  | none => some s
  | some f =>
    if !s.state.flag f then some s
    else if s.isBusyFlagStale f then some { s with state := s.state.clearFlag f }
    else none

/-- Whether a type that the row excludes is registered. -/
def conflicts (s : SchedulerEngine) (taskDef : TaskDef) : Bool :=
  taskDef.mutexWith.any s.runningTasks.contains

/-- Mark the entry running, create the task of its run and register it. -/
def launch (s : SchedulerEngine) (now : Time) (sid : Sid) (r : Ref) (triggered : Bool) :
    SchedulerEngine :=
  let e := s.entries r
  { (s.writeEntry r { e with lastStatus := .running, lastRun := now }).spawn
      (.run sid e.taskType triggered .unstarted) with
    runningTasks := s.runningTasks.insert e.taskType s.nextTask }

/-- How `_try_launch` came to its next await or to its end. -/
inductive LaunchResult
  | blocked
  | launched
  | suspended (l : Launch)
  deriving DecidableEq, Repr

/-- `_try_launch` from the moment it holds the lock. The lock is still held afterwards
exactly when the call is suspended in the internet check. -/
def launchChecks (s : SchedulerEngine) (now : Time) (me : TaskId) (sid : Sid) (r : Ref)
    (taskDef : TaskDef) : SchedulerEngine × LaunchResult :=
  let key := (s.entries r).taskType
  if s.runningTasks.contains key then (s, .blocked)
  else
    match s.checkBusyFlag taskDef with
    | none => (s, .blocked)
    | some s₁ =>
      if s₁.conflicts taskDef then (s₁, .blocked)
      else if taskDef.respectPause && s₁.state.paused then (s₁, .blocked)
      else if taskDef.respectInternet then
        ({ s₁ with launchLock := some me }, .suspended ⟨sid, r, taskDef, .internet key⟩)
      else (s₁.launch now sid r false, .launched)

/-- `_try_launch` from its call. -/
def tryLaunch (s : SchedulerEngine) (now : Time) (me : TaskId) (sid : Sid) :
    SchedulerEngine × LaunchResult :=
  match s.schedules.get? sid with
  | none => (s, .blocked)
  | some r =>
    let taskDef := taskTypes (s.entries r).taskType
    if s.lockOpen then s.launchChecks now me sid r taskDef
    else
      ({ s with lockWaiters := s.lockWaiters ++ [me] }, .suspended ⟨sid, r, taskDef, .lock⟩)

/-- `_try_launch` from one of its awaits. -/
def resumeLaunch (s : SchedulerEngine) (now : Time) (me : TaskId) (l : Launch) :
    Input → Option (SchedulerEngine × LaunchResult)
  | .wake =>
    match l.await with
    | .lock =>
      if s.lockTurn me then
        some ((s.leaveWaiters me).launchChecks now me l.sid l.entry l.taskDef)
      else none
    | .internet _ => none
  | .alive verdict =>
    match l.await with
    | .lock => none
    | .internet _ =>
      if verdict then
        some ({ s.launch now l.sid l.entry false with launchLock := none }, .launched)
      else some ({ s with launchLock := none }, .blocked)
  | .ended _ => none

/-- The end of a drain's turn for `sid`: a launched schedule leaves the queue. -/
def drainAfter (sid : Sid) (rest : List Sid) :
    SchedulerEngine × LaunchResult → SchedulerEngine × Option DrainPc
  | (s, .blocked) => (s, some (.next rest))
  | (s, .launched) => (s.dequeue sid, some (.next rest))
  | (s, .suspended l) => (s, some (.launching l rest))

/-- `_drain_queue` up to its next await; `none` as the second component says that it has
returned. -/
def drainStep (s : SchedulerEngine) (now : Time) (me : TaskId) :
    DrainPc → Input → Option (SchedulerEngine × Option DrainPc)
  | .start, .wake =>
    if s.queue.items = [] ∨ s.stopped ∨ s.paused then some (s, none)
    else some (s, some (.next s.queue.keys))
  | .next [], .wake => some (s, none)
  | .next (sid :: rest), .wake =>
    match s.schedules.get? sid with
    | none => some (s.dequeue sid, some (.next rest))
    | some r =>
      if s.runningTasks.contains (s.entries r).taskType then some (s, some (.next rest))
      else some (drainAfter sid rest (s.tryLaunch now me sid))
  | .launching l rest, inp => (s.resumeLaunch now me l inp).map (drainAfter l.sid rest)
  | _, _ => none

/-- What a cancellation undoes in a drain: a held lock is released, a place in its queue
is given up. -/
def abandonDrain (s : SchedulerEngine) (me : TaskId) : DrainPc → SchedulerEngine
  | .launching l _ =>
    match l.await with
    | .lock => s.leaveWaiters me
    | .internet _ => { s with launchLock := none }
  | _ => s

/-- `trigger_now` from the moment it holds the lock. -/
def triggerNowLaunch (s : SchedulerEngine) (now : Time) (sid : Sid) (r : Ref) :
    SchedulerEngine × Code :=
  if s.runningTasks.contains (s.entries r).taskType then (s, .done (.verdict false))
  else (s.launch now sid r true, .done (.verdict true))

/-- `trigger_now` after the internet check: a live busy flag or a conflicting run puts
the schedule on the queue, otherwise it comes off the queue and is launched directly. -/
def triggerNowClaim (s : SchedulerEngine) (now : Time) (me : TaskId) (sid : Sid) (r : Ref)
    (taskDef : TaskDef) : SchedulerEngine × Code :=
  match s.checkBusyFlag taskDef with
  | none => (s.enqueue now sid, .done (.verdict true))
  | some s₁ =>
    let s₂ := s₁.dequeue sid
    if s₂.conflicts taskDef then (s₂.enqueue now sid, .done (.verdict true))
    else if s₂.lockOpen then s₂.triggerNowLaunch now sid r
    else
      ({ s₂ with lockWaiters := s₂.lockWaiters ++ [me] },
        .triggerNow sid (.lock r taskDef (s₁.queue.contains sid)))

/-- `trigger_now` up to its next await or its end. -/
def triggerNowStep (s : SchedulerEngine) (now : Time) (me : TaskId) (sid : Sid) :
    TriggerPc → Input → Option (SchedulerEngine × Code)
  | .start, .wake =>
    match s.schedules.get? sid with
    | none => some (s, .done (.verdict false))
    | some r =>
      let taskDef := taskTypes (s.entries r).taskType
      if s.runningTasks.contains (s.entries r).taskType then some (s, .done (.verdict false))
      else if taskDef.respectInternet then some (s, .triggerNow sid (.internet r taskDef))
      else some (s.triggerNowClaim now me sid r taskDef)
  | .internet r taskDef, .alive verdict =>
    if verdict then some (s.triggerNowClaim now me sid r taskDef)
    else some (s, .done (.verdict false))
  | .lock r _ _, .wake =>
    if s.lockTurn me then some ((s.leaveWaiters me).triggerNowLaunch now sid r) else none
  | _, _ => none

end SchedulerEngine

end HuntProxy
