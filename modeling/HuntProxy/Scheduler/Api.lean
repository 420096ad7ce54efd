import HuntProxy.Scheduler.Guard

/-!
# The scheduler's API

The operations of `scheduler_api.py`, and `cancel_running`. Their bodies hold `_lock`
but contain no await, so each of them is one step. Unknown task types, which the code
rejects with a `ValueError`, are excluded by the type of the argument.

## Main definitions

- `addSchedule`, `updateSchedule`, `deleteSchedule`, `toggleSchedule`
- `cancelRunning`
-/

namespace HuntProxy

/-- The keyword arguments of `update_schedule`; an absent key is `none`. -/
structure ScheduleFields where
  name : Option String := none
  taskType : Option TaskType := none
  intervalSec : Option ℤ := none
  config : Option String := none
  enabled : Option Bool := none
  deriving DecidableEq, Repr

namespace ScheduleEntry

/-- The effect of `interval_sec` in `update_schedule`. -/
def setInterval (e : ScheduleEntry) (now : Time) (interval : ℤ) : ScheduleEntry :=
  { e with
    intervalSec := interval
    nextRun := if e.enabled = true ∧ 0 < interval then e.base now + interval else e.nextRun }

/-- The effect of `enabled` in `update_schedule`, the queue apart. -/
def setEnabled (e : ScheduleEntry) (now : Time) (enabled : Bool) : ScheduleEntry :=
  { e with
    enabled := enabled
    nextRun :=
      if enabled = true ∧ 0 < e.intervalSec then e.base now + e.intervalSec
      else if enabled then e.nextRun
      else 0 }

/-- The entry after the assignments of `update_schedule`, in the source's order. -/
def update (e : ScheduleEntry) (now : Time) (f : ScheduleFields) : ScheduleEntry :=
  let e := { e with name := f.name.getD e.name, taskType := f.taskType.getD e.taskType }
  let e := match f.intervalSec with
    | none => e
    | some interval => e.setInterval now interval
  let e := { e with config := f.config.getD e.config }
  match f.enabled with
  | none => e
  | some enabled => e.setEnabled now enabled

/-- The entry after `toggle_schedule`. -/
def toggle (e : ScheduleEntry) (now : Time) : ScheduleEntry :=
  { e with
    enabled := !e.enabled
    nextRun := if e.enabled = false ∧ 0 < e.intervalSec then e.base now + e.intervalSec else 0 }

end ScheduleEntry

namespace SchedulerEngine

/-- `add_schedule`; an identifier that exists already is refused. -/
def addSchedule (s : SchedulerEngine) (now : Time) (sid : Sid) (name : String)
    (taskType : TaskType) (interval : ℤ) (config : String) (enabled : Bool) :
    SchedulerEngine × Except String ScheduleEntry :=
  if s.schedules.contains sid then (s, .error s!"Schedule '{sid}' already exists")
  else
    let e : ScheduleEntry :=
      { id := sid, name := name, taskType := taskType, enabled := enabled,
        intervalSec := interval, config := config,
        nextRun := if enabled = true ∧ 0 < interval then now + interval else 0 }
    ({ s.writeEntry s.nextRef e with
        nextRef := s.nextRef + 1, schedules := s.schedules.insert sid s.nextRef }, .ok e)

/-- `update_schedule`. Disabling also takes the schedule off the queue. -/
def updateSchedule (s : SchedulerEngine) (now : Time) (sid : Sid) (f : ScheduleFields) :
    SchedulerEngine × Option ScheduleEntry :=
  match s.schedules.get? sid with
  | none => (s, none)
  | some r =>
    let e := (s.entries r).update now f
    let s₁ := if f.enabled = some false then s.dequeue e.id else s
    (s₁.writeEntry r e, some e)

/-- `delete_schedule`. The queue is left alone. -/
def deleteSchedule (s : SchedulerEngine) (sid : Sid) : SchedulerEngine × Bool :=
  if s.schedules.contains sid then
    ({ s with schedules := s.schedules.erase sid, rows := s.rows.erase sid }, true)
  else (s, false)

/-- `toggle_schedule`. A schedule that is not left runnable comes off the queue. -/
def toggleSchedule (s : SchedulerEngine) (now : Time) (sid : Sid) :
    SchedulerEngine × Option ScheduleEntry :=
  match s.schedules.get? sid with
  | none => (s, none)
  | some r =>
    let e := (s.entries r).toggle now
    let s₁ := if e.enabled = true ∧ 0 < e.intervalSec then s else s.dequeue e.id
    (s₁.writeEntry r e, some e)

/-- `cancel_running`: a queued schedule is dequeued, otherwise the run registered under
the schedule's type is cancelled. -/
def cancelRunning (s : SchedulerEngine) (sid : Sid) : SchedulerEngine × Bool :=
  match s.schedules.get? sid with
  | none => (s, false)
  | some r =>
    let e := s.entries r
    if s.queue.contains sid then
      ((s.dequeue sid).writeEntry r { e with lastStatus := if 0 < e.lastOk then .ok else .never },
        true)
    else
      match s.runningTasks.get? e.taskType with
      | none => (s, false)
      | some i => if (s.tasks i).code.isDone then (s, false) else (s.cancelTasks [i], true)

end SchedulerEngine

end HuntProxy
