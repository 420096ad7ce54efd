import HuntProxy.Hunt.State
import HuntProxy.Lib.Dict
import HuntProxy.Scheduler.Entry
import Mathlib.Data.List.GetD

/-!
# The state of the scheduler

`SchedulerEngine` keeps its attributes next to the event loop's view of it: the pool of
asyncio tasks that run its coroutines. A suspended coroutine is a `Code` value that
names the `await` it waits at and carries the locals it still needs. Every `await` is a
point at which other tasks may run, whether or not the awaited call has to wait.

Entries are mutable objects that coroutines hold across awaits, so they live in a heap
and `_schedules` maps identifiers to references: a coroutine that holds a reference
sees later edits, and still holds the object after the schedule has been deleted.

## Main definitions

- `Code`, `Task` — coroutines at their suspension points
- `SchedulerEngine` — the scheduler's attributes, the heap, the table and the task pool
- `Code.liveKey` — the registry key under which a run is still unfinished
-/

namespace HuntProxy

/-- A reference to a `ScheduleEntry` object. -/
abbrev Ref := ℕ

/-- An asyncio task. -/
abbrev TaskId := ℕ

/-- The awaits of `_try_launch`: the launch lock, or, with the lock held, the internet
check. `tested` is the key that was tested against the registry before the check. -/
inductive LaunchAwait
  | lock
  | internet (tested : TaskType)
  deriving DecidableEq, Repr

/-- A suspended `_try_launch`, with the entry and the table row it read when called. -/
structure Launch where
  sid : Sid
  entry : Ref
  taskDef : TaskDef
  await : LaunchAwait
  deriving DecidableEq, Repr

/-- The awaits of `_drain_queue`: about to begin, before the next schedule of the
snapshot, or inside a launch. -/
inductive DrainPc
  | start
  | next (rest : List Sid)
  | launching (l : Launch) (rest : List Sid)
  deriving DecidableEq, Repr

/-- The `_try_launch` a drain is suspended in. -/
def DrainPc.launch? : DrainPc → Option Launch
  | .launching l _ => some l
  | _ => none

/-- The awaits of `_run_with_tracking`. A run that is draining has recorded its result
and left the registry. -/
inductive RunPc
  | unstarted
  | executing (entry : Ref) (started : Time)
  | draining (p : DrainPc)
  deriving DecidableEq

/-- The awaits of `_run_loop`, those of `_internet_gate` included. -/
inductive LoopPc
  | sleeping
  | gateInternet
  | gateGather (running : List (TaskType × TaskId))
  | draining (p : DrainPc)
  deriving DecidableEq, Repr

/-- The awaits of `trigger_now`, and the point before its first step. The entry and its
table row are read in the first step; `taken` records that the call has taken the
schedule off the queue. -/
inductive TriggerPc
  | start
  | internet (entry : Ref) (taskDef : TaskDef)
  | lock (entry : Ref) (taskDef : TaskDef) (taken : Bool)
  deriving DecidableEq, Repr

/-- The awaits of `cancel_all`, with its snapshot of the registry. -/
inductive CancelAllPc
  | start
  | gather (running : List (TaskType × TaskId))
  deriving DecidableEq, Repr

/-- The awaits of `stop`. -/
inductive StopPc
  | start
  | awaitLoop (loop : TaskId)
  | gather (running : List TaskId)
  deriving DecidableEq, Repr

/-- What a coroutine has returned: a verdict, the cancelled types, or nothing (also
after a cancellation). -/
inductive Returned
  | nothing
  | verdict (ok : Bool)
  | types (ts : List TaskType)
  deriving DecidableEq, Repr

/-- The coroutine of a task at its current await. A run carries the key it was
registered under and whether `trigger_now` launched it; a `_trigger` has no drain
before its first step. -/
inductive Code
  | run (sid : Sid) (key : TaskType) (triggered : Bool) (pc : RunPc)
  | loop (pc : LoopPc)
  | trigger (sid : Sid) (p : Option DrainPc)
  | triggerNow (sid : Sid) (pc : TriggerPc)
  | cancelAll (reason : String) (pc : CancelAllPc)
  | stop (pc : StopPc)
  | done (value : Returned)
  deriving DecidableEq

namespace Code

/-- `task.done()`. -/
def isDone : Code → Bool
  | .done _ => true
  | _ => false

/-- The key under which an unfinished run was registered. -/
def liveKey : Code → Option TaskType
  | .run _ key _ .unstarted => some key
  | .run _ key _ (.executing _ _) => some key
  | _ => none

/-- The drain a coroutine is in. -/
def drain? : Code → Option DrainPc
  | .run _ _ _ (.draining p) => some p
  | .loop (.draining p) => some p
  | .trigger _ p => p
  | _ => none

/-- The coroutine after its drain has advanced to `p`. -/
def withDrain (p : DrainPc) : Code → Code
  | .run sid key triggered _ => .run sid key triggered (.draining p)
  | .loop _ => .loop (.draining p)
  | .trigger sid _ => .trigger sid (some p)
  | c => c

/-- The coroutine after its drain has returned: the loop sleeps, the others end. -/
def afterDrain : Code → Code
  | .loop _ => .loop .sleeping
  | _ => .done .nothing

/-- The `_try_launch` a coroutine is suspended in. -/
def launch? (c : Code) : Option Launch := c.drain?.bind DrainPc.launch?

end Code

/-- A task: its coroutine, and whether a cancellation waits to be delivered at its next
step. -/
structure Task where
  code : Code
  cancelRequested : Bool := false
  deriving DecidableEq

/-- The scheduler. `entries` and `nextRef` are the heap of entry objects, `rows` the
table `schedules`, `tasks` and `nextTask` the pool of asyncio tasks, `loop` the slot
`self._task`, `state` the engine the scheduler belongs to. `launchLock` holds the owner
of `_launch_lock` and `lockWaiters` the tasks waiting for it, first come first. -/
structure SchedulerEngine where
  entries : Ref → ScheduleEntry
  nextRef : Ref
  schedules : Dict Sid Ref
  rows : Dict Sid ScheduleEntry
  queue : Dict Sid Time
  runningTasks : Dict TaskType TaskId
  paused : Bool
  pausedByInternet : Bool
  stopped : Bool
  launchLock : Option TaskId
  lockWaiters : List TaskId
  tasks : TaskId → Task
  nextTask : TaskId
  loop : Option TaskId
  state : HuntState

namespace SchedulerEngine

/-- The state after `prepare`: every schedule is stored under its own identifier, nothing
is queued, nothing registered, no task is there. -/
structure Initial (s : SchedulerEngine) : Prop where
  queue : s.queue = .empty
  runningTasks : s.runningTasks = .empty
  paused : s.paused = false
  pausedByInternet : s.pausedByInternet = false
  stopped : s.stopped = false
  launchLock : s.launchLock = none
  lockWaiters : s.lockWaiters = []
  tasks : ∀ i, s.tasks i = ⟨.done .nothing, false⟩
  loop : s.loop = none
  named : ∀ sid r, s.schedules.get? sid = some r → (s.entries r).id = sid ∧ r < s.nextRef

/-- A scheduler with the given schedules, one heap cell each, and nothing under way. -/
def prepared (es : List ScheduleEntry) : SchedulerEngine where
  entries r := es.getD r default
  nextRef := es.length
  schedules := es.foldl (fun d e => d.insert e.id (es.idxOf e)) .empty
  rows := es.foldl (fun d e => d.insert e.id e) .empty
  queue := .empty
  runningTasks := .empty
  paused := false
  pausedByInternet := false
  stopped := false
  launchLock := none
  lockWaiters := []
  tasks _ := ⟨.done .nothing, false⟩
  nextTask := 0
  loop := none
  state := {}

theorem prepared_named (es l : List ScheduleEntry) (hl : l ⊆ es) (d : Dict Sid Ref)
    (hd : ∀ sid r, d.get? sid = some r → (es.getD r default).id = sid ∧ r < es.length)
    {sid : Sid} {r : Ref}
    (h : (l.foldl (fun d e => d.insert e.id (es.idxOf e)) d).get? sid = some r) :
    (es.getD r default).id = sid ∧ r < es.length := by
  induction l generalizing d with
  | nil => exact hd sid r h
  | cons e rest ih =>
    have he : e ∈ es := hl List.mem_cons_self
    have hlt : es.idxOf e < es.length := List.idxOf_lt_length_of_mem he
    refine ih (fun x hx => hl (List.mem_cons_of_mem e hx)) _ (fun sid' r' h' => ?_) h
    rw [Dict.get?_insert] at h'
    split at h'
    · next hsid =>
      cases h'
      rw [List.getD_eq_getElem _ _ hlt, List.getElem_idxOf]
      exact ⟨hsid.symm, hlt⟩
    · exact hd sid' r' h'

theorem prepared_initial (es : List ScheduleEntry) : (prepared es).Initial := by
  refine ⟨rfl, rfl, rfl, rfl, rfl, rfl, rfl, fun _ => rfl, rfl, fun sid r h => ?_⟩
  exact prepared_named es es (fun _ h => h) .empty (fun _ _ h => by cases h) h

/-! ### Elementary updates -/

/-- Assign fields of the entry behind `r`, then `_persist` it. -/
@[simps] def writeEntry (s : SchedulerEngine) (r : Ref) (e : ScheduleEntry) : SchedulerEngine :=
  { s with entries := Function.update s.entries r e, rows := s.rows.insert e.id e }

/-- `self._queue.pop(sid, None)`. -/
@[simps] def dequeue (s : SchedulerEngine) (sid : Sid) : SchedulerEngine :=
  { s with queue := s.queue.erase sid }

/-- `pause_all`. -/
@[simps] def pauseAll (s : SchedulerEngine) : SchedulerEngine :=
  { s with paused := true }

/-- `resume_all`. -/
@[simps] def resumeAll (s : SchedulerEngine) : SchedulerEngine :=
  { s with paused := false }

/-- `asyncio.create_task`. -/
@[simps] def spawn (s : SchedulerEngine) (c : Code) : SchedulerEngine :=
  { s with tasks := Function.update s.tasks s.nextTask ⟨c, false⟩, nextTask := s.nextTask + 1 }

/-- The running task suspends at its next await, or ends. -/
@[simps] def setCode (s : SchedulerEngine) (i : TaskId) (c : Code) : SchedulerEngine :=
  { s with tasks := Function.update s.tasks i ⟨c, false⟩ }

/-- `task.cancel()` for each task of a list that is not done. -/
@[simps] def cancelTasks (s : SchedulerEngine) (is : List TaskId) : SchedulerEngine :=
  { s with
    tasks := fun i =>
      if i ∈ is ∧ (s.tasks i).code.isDone = false then
        { s.tasks i with cancelRequested := true }
      else s.tasks i }

/-- Leave the queue of `_launch_lock`. -/
@[simps] def leaveWaiters (s : SchedulerEngine) (i : TaskId) : SchedulerEngine :=
  { s with lockWaiters := s.lockWaiters.filter (· ≠ i) }

/-- `_enqueue`. -/
def enqueue (s : SchedulerEngine) (now : Time) (sid : Sid) : SchedulerEngine :=
  match s.schedules.get? sid with
  | none => s
  | some r =>
    if s.queue.contains sid then s
    else
      { s.writeEntry r { s.entries r with
          lastStatus := .queued, nextRun := now + (s.entries r).intervalSec } with
        queue := s.queue.insert sid now }

/-- Whether a newcomer gets `_launch_lock` at once: it is free and nobody who still
wants it is waiting. -/
def lockOpen (s : SchedulerEngine) : Bool :=
  s.launchLock.isNone && s.lockWaiters.all (fun w => (s.tasks w).cancelRequested)

/-- Whether task `i` is the waiter that gets `_launch_lock` next. -/
def lockTurn (s : SchedulerEngine) (i : TaskId) : Bool :=
  s.launchLock.isNone &&
    s.lockWaiters.find? (fun w => !(s.tasks w).cancelRequested) == some i

/-- Whether all tasks of a list are done. -/
def allDone (s : SchedulerEngine) (is : List TaskId) : Bool :=
  is.all (fun i => (s.tasks i).code.isDone)

/-- The key under which task `i` is an unfinished run. -/
def live (s : SchedulerEngine) (i : TaskId) : Option TaskType :=
  (s.tasks i).code.liveKey

end SchedulerEngine

end HuntProxy
