import HuntProxy.Lib.Dict
import HuntProxy.Lib.Machine
import HuntProxy.Lib.Raising
import HuntProxy.Scheduler.Api
import HuntProxy.Scheduler.Json

/-!
# Schedule edits with raw JSON values

`update_schedule` assigns the values of a request to the live entry one after the other,
and checks the task type, compares the interval and computes `next_run` in between. What
raises there leaves the assignments made so far in memory, while the row keeps the old
values; and what has been assigned is compared again by every tick of `_run_loop`, which
ends as a whole with the first exception. The interval is added once more at the end of a
run, in front of the line that takes the type off the registry: an exception there keeps
the type and all that it excludes from being launched ever again.

A run holds the entry object that it has read. Until the schedule is deleted this is the
one in the table, so an edit reaches the runs in flight; afterwards it is theirs alone.

In the runs in which a refused task type comes without a new name, no schedule is given
an interval that raises while it is enabled or becomes enabled, and a run that begins or
ends finds in its entry what it needs, an update that raises changes nothing, every tick
evaluates all the schedules, and only unfinished runs keep a queued one from its launch.

## Main definitions

- `RawEntry`, `RawRun`, `ScheduleTable` — the scheduler as an edit sees it
- `addSchedule`, `updateSchedule`, `toggleSchedule`, `deleteSchedule`, `tick`
- `launch`, `beginRun`, `endRun`, `drain` — the runs and the queue
- `sound`, `Sound` — the condition of this module
- `Runnable` — an enabled schedule has a usable interval
- `Backed` — a registered type has an unfinished run

## Main results

- `update_ofEntry` — on well-typed values the edit is that of the typed scheduler
- `update_atomic_iff` — when an update that raises changes nothing
- `tick_ok` — a tick queues everything that is due
- `drain_ok` — a drain launches everything that no unfinished run keeps back
- `edits_sound` — all three, in every run under the condition
- `edit_poisons` — an interval that is no number, sent for an enabled schedule
-/

namespace HuntProxy

/-- `ScheduleEntry` as the API leaves it: its attributes hold the values of the requests.
Only the task type is checked. -/
structure RawEntry where
  id : Sid
  name : Json
  taskType : TaskType
  enabled : Json := .bool true
  intervalSec : Json := .int 3600
  config : Json := .obj .nil
  lastRun : Time := 0
  lastOk : Time := 0
  nextRun : PyFloat := .finite 0
  lastStatus : LastStatus := .never
  lastDurationS : Time := 0
  lastError : String := ""
  deriving DecidableEq

/-- The keyword arguments of `update_schedule`; an absent key is `none`. -/
structure RawFields where
  name : Option Json := none
  taskType : Option Json := none
  intervalSec : Option Json := none
  config : Option Json := none
  enabled : Option Json := none
  deriving DecidableEq

namespace RawEntry

/-- The entry that `add_schedule` builds. -/
def fresh (sid : Sid) (name : Json) (taskType : TaskType) (interval : ℤ) (config enabled : Json) :
    RawEntry :=
  { id := sid, name := name, taskType := taskType, enabled := enabled,
    intervalSec := .int interval, config := if config.truthy then config else .obj .nil }

/-- A stretch of code that mutates the entry. -/
abbrev Edit := EStateM PyError RawEntry

/-- `last_ok`, or the clock before the first success. -/
def base (e : RawEntry) (now : Time) : Time := if 0 < e.lastOk then e.lastOk else now

/-- `is_due`. -/
def isDue (e : RawEntry) (now : Time) : Except PyError Bool :=
  if 0 < e.lastOk then e.intervalSec.leTime (now - e.lastOk)
  else .ok (if e.nextRun.gtZero then e.nextRun.leTime now else true)

/-- The hint `next_run` of an enabled schedule with a positive interval is computed anew;
the result says whether the schedule is one. -/
def reschedule (now : Time) : Edit Bool := fun e =>
  if e.enabled.truthy then
    match e.intervalSec.gtZero with
    | .error err => .error err e
    | .ok false => .ok false e
    | .ok true =>
      match e.intervalSec.addTo (e.base now) with
      | .error err => .error err e
      | .ok t => .ok true { e with nextRun := t }
  else .ok false e

/-- The `name` of `update_schedule`. -/
def assignName (v : Option Json) : Edit Unit := modify (fun e => { e with name := v.getD e.name })

/-- The `task_type` of `update_schedule`. -/
def assignTaskType (v : Option Json) : Edit Unit := fun e =>
  match v.map Json.lookupTaskType with
  | none => .ok () e
  | some (.error err) => .error err e
  | some (.ok t) => .ok () { e with taskType := t }

/-- The `interval_sec` of `update_schedule`. -/
def assignInterval (now : Time) : Option Json → Edit Bool
  | none => pure false
  | some v => do
    modify (fun e => { e with intervalSec := v })
    reschedule now

/-- The `config` of `update_schedule`. -/
def assignConfig (v : Option Json) : Edit Unit :=
  modify (fun e => { e with config := v.getD e.config })

/-- A schedule that has been disabled has no `next_run`; the result says whether it is
disabled. -/
def clearNextRun : Edit Bool := fun e =>
  if e.enabled.truthy then .ok false e else .ok true { e with nextRun := .finite 0 }

/-- The `enabled` of `update_schedule`; the result says whether the schedule comes off the
queue. -/
def assignEnabled (now : Time) : Option Json → Edit Bool
  | none => pure false
  | some v => do
    modify (fun e => { e with enabled := v })
    let _ ← reschedule now
    clearNextRun

/-- The assignments of `update_schedule`, in the source's order. -/
def update (now : Time) (f : RawFields) : Edit Bool := do
  assignName f.name
  assignTaskType f.taskType
  let _ ← assignInterval now f.intervalSec
  assignConfig f.config
  assignEnabled now f.enabled

/-- The assignments of `toggle_schedule`; the result says whether the schedule stays on the
queue. -/
def toggle (now : Time) : Edit Bool := do
  modify (fun e => { e with enabled := .bool !e.enabled.truthy })
  let runnable ← reschedule now
  modify (fun e => { e with nextRun := if runnable then e.nextRun else .finite 0 })
  pure runnable

/-- The status fields that the end of an executor writes. -/
def record (e : RawEntry) (now : Time) : Outcome → RawEntry
  | .ok => { e with lastStatus := .ok, lastError := "", lastOk := now }
  | .failed message =>
    { e with lastStatus := .failed, lastError := String.ofList (message.toList.take 500) }
  | .cancelled => { e with lastStatus := .failed, lastError := "cancelled" }

/-- What the end of a run writes into its entry, up to the hint in the `finally`. -/
def finish (now started : Time) (outcome : Outcome) : Edit Unit := fun e =>
  let e := { e.record now outcome with lastDurationS := pyRound (now - started) }
  match e.intervalSec.addTo now with
  | .error err => .error err e
  | .ok t => .ok () { e with nextRun := t }

end RawEntry

/-- The entry that a run has in hand: none before its first step, then the one in the
table, or one that has been deleted from it meanwhile. -/
inductive RawHold
  | unstarted
  | stored (started : Time)
  | deleted (started : Time) (e : RawEntry)

/-- A run in flight: the schedule and the type it was launched for. -/
structure RawRun where
  sid : Sid
  key : TaskType
  hold : RawHold

/-- The run holds an object that is no longer in the table. -/
def RawRun.detach (sid : Sid) (e : RawEntry) (r : RawRun) : RawRun :=
  match r.hold with
  | .stored started => if r.sid = sid then { r with hold := .deleted started e } else r
  | _ => r

/-- The scheduler as the edits and the tick see it: `running` are the registered types,
`runs` the unfinished runs in the order of their launches. -/
structure ScheduleTable where
  schedules : Dict Sid RawEntry
  queue : Dict Sid Time
  rows : Dict Sid RawEntry
  running : List TaskType
  runs : List RawRun

/-- One step. Beside the calls of the API and the evaluation loop of a tick these are the
turns of the drains, the launches, which may have waited with an entry that has been
deleted meanwhile, the first step and the end of a run, the cancellations, and the places
that clear the queue or the registry. `stored` says whether the database takes the row;
`_persist` only logs it when not. -/
inductive EditAction
  | addSchedule (sid : Sid) (name taskType : Json) (interval : ℤ) (config enabled : Json)
      (stored : Bool)
  | updateSchedule (sid : Sid) (f : RawFields) (stored : Bool)
  | toggleSchedule (sid : Sid) (stored : Bool)
  | deleteSchedule (sid : Sid)
  | tick (stored : Sid → Bool)
  | enqueue (sid : Sid) (stored : Bool)
  | drainTurn (sid : Sid) (allowed stored : Bool)
  | launch (sid : Sid) (stale : Option RawEntry) (stored : Bool)
  | begin (i : ℕ)
  | ended (i : ℕ) (outcome : Outcome) (stored : Bool)
  | abandon (i : ℕ)
  | cancelQueued (sid : Sid) (stored : Bool)
  | cancelAll (reason : String) (stored : Sid → Bool)
  | dequeue (sid : Sid)
  | clearQueue
  | unregister (types : List TaskType)

namespace ScheduleTable

/-- A method of the scheduler. -/
abbrev Method := EStateM PyError ScheduleTable

/-- The entry under an identifier is now `e`. -/
def withEntry (s : ScheduleTable) (sid : Sid) (e : RawEntry) : ScheduleTable :=
  { s with schedules := s.schedules.insert sid e }

/-- `_persist`. -/
def persist (s : ScheduleTable) (e : RawEntry) (stored : Bool) : ScheduleTable :=
  { s with rows := if stored then s.rows.insert e.id e else s.rows }

/-- `self._queue.pop(sid, None)`, under a condition. -/
def dequeueIf (s : ScheduleTable) (sid : Sid) (b : Bool) : ScheduleTable :=
  { s with queue := if b then s.queue.erase sid else s.queue }

/-- `add_schedule`. -/
def addSchedule (now : Time) (sid : Sid) (name taskType : Json) (interval : ℤ)
    (config enabled : Json) (stored : Bool) : Method RawEntry := fun s =>
  match taskType.lookupTaskType with
  | .error err => .error err s
  | .ok t =>
    if s.schedules.contains sid then .error (.alreadyExists sid) s
    else
      match RawEntry.reschedule now (.fresh sid name t interval config enabled) with
      | .error err _ => .error err s
      | .ok _ e => .ok e ((s.withEntry sid e).persist e stored)

/-- `update_schedule`. -/
def updateSchedule (now : Time) (sid : Sid) (f : RawFields) (stored : Bool) :
    Method (Option RawEntry) := fun s =>
  match s.schedules.get? sid with
  | none => .ok none s
  | some e =>
    match RawEntry.update now f e with
    | .error err e => .error err (s.withEntry sid e)
    | .ok off e => .ok (some e) (((s.withEntry sid e).dequeueIf e.id off).persist e stored)

/-- `toggle_schedule`. -/
def toggleSchedule (now : Time) (sid : Sid) (stored : Bool) : Method (Option RawEntry) := fun s =>
  match s.schedules.get? sid with
  | none => .ok none s
  | some e =>
    match RawEntry.toggle now e with
    | .error err e => .error err (s.withEntry sid e)
    | .ok runnable e =>
      .ok (some e) (((s.withEntry sid e).dequeueIf e.id (!runnable)).persist e stored)

/-- `delete_schedule`. A run of the schedule keeps the entry. -/
def deleteSchedule (sid : Sid) : Method Bool := fun s =>
  match s.schedules.get? sid with
  | none => .ok false s
  | some e =>
    .ok true { s with
      schedules := s.schedules.erase sid, rows := s.rows.erase sid
      runs := s.runs.map (RawRun.detach sid e) }

/-- `_enqueue`. -/
def enqueue (now : Time) (sid : Sid) (stored : Bool) : Method Unit := fun s =>
  match s.schedules.get? sid with
  | none => .ok () s
  | some e =>
    if s.queue.contains sid then .ok () s
    else
      let s := { s.withEntry sid { e with lastStatus := .queued } with
        queue := s.queue.insert sid now }
      match e.intervalSec.addTo now with
      | .error err => .error err s
      | .ok t =>
        let e := { e with lastStatus := .queued, nextRun := t }
        .ok () ((s.withEntry sid e).persist e stored)

/-- Whether a tick queues the schedule. -/
def evaluate (s : ScheduleTable) (now : Time) (sid : Sid) (e : RawEntry) : Except PyError Bool :=
  if !e.enabled.truthy then .ok false
  else
    match e.intervalSec.leZero with
    | .error err => .error err
    | .ok true => .ok false
    | .ok false =>
      if e.taskType ∈ s.running then .ok false
      else if s.queue.contains sid then .ok false
      else e.isDue now

/-- The body of the tick's loop. -/
def tickEntry (now : Time) (stored : Sid → Bool) (p : Sid × RawEntry) : Method Unit := fun s =>
  match s.evaluate now p.1 p.2 with
  | .error err => .error err s
  | .ok false => .ok () s
  | .ok true => enqueue now p.1 (stored p.1) s

/-- A tick of `_run_loop` from its gate to its drain. -/
def tick (now : Time) (stored : Sid → Bool) : Method Unit := fun s =>
  s.schedules.items.forM (tickEntry now stored) s

/-! ### The queue and the runs -/

/-- Register a type and create the task of its run. -/
def register (s : ScheduleTable) (sid : Sid) (key : TaskType) : ScheduleTable :=
  { s with
    running := if key ∈ s.running then s.running else s.running ++ [key]
    runs := s.runs ++ [⟨sid, key, .unstarted⟩] }

/-- The launch at the end of `_try_launch` and of `trigger_now`, with the entry of the table
or one that has been deleted since the call read it. -/
def launch (s : ScheduleTable) (now : Time) (sid : Sid) (stale : Option RawEntry) (stored : Bool) :
    ScheduleTable :=
  match stale with
  | some e =>
    let e := { e with lastStatus := .running, lastRun := now }
    (s.persist e stored).register sid e.taskType
  | none =>
    match s.schedules.get? sid with
    | none => s
    | some e =>
      let e := { e with lastStatus := .running, lastRun := now }
      ((s.withEntry sid e).persist e stored).register sid e.taskType

/-- A run of the type, or of one that it excludes, is registered. -/
def blocks (s : ScheduleTable) (t : TaskType) : Bool :=
  decide (t ∈ s.running) || (taskTypes t).mutexWith.any (fun t' => decide (t' ∈ s.running))

/-- The turn of `_drain_queue` for one schedule; the result says whether it is launched.
`allowed` stands for the busy flag, the pause and the internet. -/
def drainTurn (s : ScheduleTable) (now : Time) (sid : Sid) (allowed stored : Bool) :
    ScheduleTable × Bool :=
  match s.schedules.get? sid with
  | none => (s.dequeueIf sid true, false)
  | some e =>
    if s.blocks e.taskType || !allowed then (s, false)
    else ((s.launch now sid none stored).dequeueIf sid true, true)

/-- `_drain_queue`, when it is not interrupted. -/
def drain (s : ScheduleTable) (now : Time) (allowed stored : Sid → Bool) : ScheduleTable :=
  s.queue.keys.foldl (fun s sid => (s.drainTurn now sid (allowed sid) (stored sid)).1) s

/-- The first step of `_run_with_tracking`, which returns at once if the schedule has been
deleted. -/
def beginRun (s : ScheduleTable) (now : Time) (i : ℕ) : ScheduleTable :=
  match s.runs[i]? with
  | some ⟨sid, key, .unstarted⟩ =>
    if s.schedules.contains sid then { s with runs := s.runs.set i ⟨sid, key, .stored now⟩ }
    else { s with runs := s.runs.eraseIdx i }
  | _ => s

/-- A run that is cancelled before its first step. -/
def abandonRun (s : ScheduleTable) (i : ℕ) : ScheduleTable :=
  match s.runs[i]? with
  | some ⟨_, _, .unstarted⟩ => { s with runs := s.runs.eraseIdx i }
  | _ => s

/-- The entry that a run holds, and when it began. -/
def held (s : ScheduleTable) (r : RawRun) : Option (Time × RawEntry) :=
  match r.hold with
  | .unstarted => none
  | .stored started => (s.schedules.get? r.sid).map (fun e => (started, e))
  | .deleted started e => some (started, e)

/-- Write the entry that a run holds. -/
def withHeld (s : ScheduleTable) (r : RawRun) (e : RawEntry) : ScheduleTable :=
  match r.hold with
  | .stored _ => s.withEntry r.sid e
  | _ => s

/-- The end of an executor, up to the drain in the `finally` of `_run_with_tracking`. An
exception comes before the type leaves the registry. -/
def endRun (now : Time) (i : ℕ) (outcome : Outcome) (stored : Bool) : Method Unit := fun s =>
  match s.runs[i]?.bind (fun r => (s.held r).map (fun p => (r, p))) with
  | none => .ok () s
  | some (r, started, e) =>
    let s := { s with runs := s.runs.eraseIdx i }
    match RawEntry.finish now started outcome e with
    | .error err e => .error err (s.withHeld r e)
    | .ok _ e =>
      .ok () (({ s.withHeld r e with
        running := s.running.filter (· ≠ e.taskType) } : ScheduleTable).persist e stored)

/-- `cancel_running` on a schedule in the queue. -/
def cancelQueued (s : ScheduleTable) (sid : Sid) (stored : Bool) : ScheduleTable :=
  match s.schedules.get? sid with
  | none => s
  | some e =>
    if s.queue.contains sid then
      let e := { e with lastStatus := if 0 < e.lastOk then .ok else .never }
      ((s.dequeueIf sid true).withEntry sid e).persist e stored
    else s

/-- The entries that `cancel_all` marks. -/
def marked (e : RawEntry) : Bool := e.lastStatus = .running ∨ e.lastStatus = .queued

/-- `cancel_all` marks one entry. -/
def markCancelled (now : Time) (reason : String) (stored : Sid → Bool) (sid : Sid) : Method Unit :=
  fun s =>
    match s.schedules.get? sid with
    | none => .ok () s
    | some e =>
      if marked e then
        let e := { e with lastStatus := .cancelled, lastError := reason }
        match e.intervalSec.addTo now with
        | .error err => .error err (s.withEntry sid e)
        | .ok t =>
          let e := { e with nextRun := t }
          .ok () ((s.withEntry sid e).persist e (stored sid))
      else .ok () s

/-- `cancel_all` after its gather. -/
def cancelAll (now : Time) (reason : String) (stored : Sid → Bool) : Method Unit := fun s =>
  s.schedules.keys.forM (markCancelled now reason stored) { s with running := [] }

/-- The transition function. A call that raises leaves its state behind. -/
def step (s : ScheduleTable) : Time × EditAction → Option ScheduleTable
  | (now, .addSchedule sid name taskType interval config enabled stored) =>
    some (stateOf (addSchedule now sid name taskType interval config enabled stored s))
  | (now, .updateSchedule sid f stored) => some (stateOf (updateSchedule now sid f stored s))
  | (now, .toggleSchedule sid stored) => some (stateOf (toggleSchedule now sid stored s))
  | (_, .deleteSchedule sid) => some (stateOf (deleteSchedule sid s))
  | (now, .tick stored) => some (stateOf (tick now stored s))
  | (now, .enqueue sid stored) => some (stateOf (enqueue now sid stored s))
  | (now, .drainTurn sid allowed stored) => some (s.drainTurn now sid allowed stored).1
  | (now, .launch sid stale stored) => some (s.launch now sid stale stored)
  | (now, .begin i) => some (s.beginRun now i)
  | (now, .ended i outcome stored) => some (stateOf (endRun now i outcome stored s))
  | (_, .abandon i) => some (s.abandonRun i)
  | (_, .cancelQueued sid stored) => some (s.cancelQueued sid stored)
  | (now, .cancelAll reason stored) => some (stateOf (cancelAll now reason stored s))
  | (_, .dequeue sid) => some (s.dequeueIf sid true)
  | (_, .clearQueue) => some { s with queue := .empty }
  | (_, .unregister types) => some { s with running := s.running.filter (· ∉ types) }

/-- The machine of the schedule edits. -/
def machine : Machine ScheduleTable (Time × EditAction) := ⟨step⟩

/-- The schedules as they come from the database, where `interval_sec` is an integer column,
and nothing under way. -/
structure Initial (s : ScheduleTable) : Prop where
  interval : ∀ sid e, s.schedules.get? sid = some e → ∃ n : ℤ, e.intervalSec = .int n ∧ n < floatLimit
  running : s.running = []
  runs : s.runs = []

/-! ### The condition -/

/-- Whether an update of the entry either is accepted or raises before it has changed
anything. -/
def soundUpdate (e : RawEntry) (f : RawFields) : Bool :=
  match f.taskType.map Json.lookupTaskType with
  | some (.error _) => decide (f.name.getD e.name = e.name)
  | _ =>
    (!e.enabled.truthy || f.intervalSec.all Json.usable) &&
      (!f.enabled.any Json.truthy || (f.intervalSec.getD e.intervalSec).usable)

/-- Whether the entry that a run holds at its end has the type of the run, and an interval
that can be added. -/
def soundEnd (s : ScheduleTable) (r : RawRun) : Bool :=
  (s.held r).all (fun p => decide (p.2.taskType = r.key) && p.2.intervalSec.addable)

/-- A refused task type comes without a new name, and no schedule has or gets an interval
that raises when it is enabled. A run begins while its schedule is there, or is no longer
registered; it ends with an entry of its own type whose interval can be added; and so can
the intervals of the entries that `cancel_all` marks. -/
def sound (s : ScheduleTable) : EditAction → Bool
  | .updateSchedule sid f _ => (s.schedules.get? sid).all (soundUpdate · f)
  | .toggleSchedule sid _ =>
    (s.schedules.get? sid).all (fun e => e.enabled.truthy || e.intervalSec.usable)
  | .begin i =>
    s.runs[i]?.all (fun r => s.schedules.contains r.sid || decide (r.key ∉ s.running))
  | .ended i _ _ => s.runs[i]?.all s.soundEnd
  | .abandon i => s.runs[i]?.all (fun r => decide (r.key ∉ s.running))
  | .cancelAll _ _ =>
    s.schedules.values.all (fun e => !marked e || e.intervalSec.addable)
  | _ => true

/-- The condition of this module, as a guard on runs. -/
def Sound : Machine.Guard ScheduleTable (Time × EditAction) := fun s a _ => s.sound a.2 = true

/-- An enabled schedule has a usable interval. -/
def Runnable (s : ScheduleTable) : Prop :=
  ∀ sid e, s.schedules.get? sid = some e → e.enabled.truthy = true → e.intervalSec.usable = true

/-- A registered type has an unfinished run. -/
def Backed (s : ScheduleTable) : Prop := ∀ t ∈ s.running, ∃ r ∈ s.runs, r.key = t

/-- What a tick is to queue: an enabled schedule with a positive interval, not running and
due. -/
def Due (s : ScheduleTable) (now : Time) (e : RawEntry) : Prop :=
  e.enabled.truthy = true ∧ e.intervalSec.leZero = .ok false ∧ e.taskType ∉ s.running ∧
    e.isDue now = .ok true

end ScheduleTable

/-! ### The assignments of an update -/

namespace RawEntry

variable {e : RawEntry} (now : Time) {f : RawFields}

theorem reschedule_off (hoff : e.enabled.truthy = false) : reschedule now e = .ok false e := by
  rw [reschedule, if_neg (Bool.eq_false_iff.mp hoff)]

theorem reschedule_le (hon : e.enabled.truthy = true) (hle : e.intervalSec.gtZero = .ok false) :
    reschedule now e = .ok false e := by
  rw [reschedule, if_pos hon, hle]

theorem reschedule_gt {t : PyFloat} (hon : e.enabled.truthy = true)
    (hgt : e.intervalSec.gtZero = .ok true) (ht : e.intervalSec.addTo (e.base now) = .ok t) :
    reschedule now e = .ok true { e with nextRun := t } := by
  rw [reschedule, if_pos hon, hgt, ht]

/-- With a usable interval, or disabled, the hint is computed without an exception. -/
theorem reschedule_of_usable (h : e.enabled.truthy = true → e.intervalSec.usable = true) :
    ∃ b t, reschedule now e = .ok b { e with nextRun := t } := by
  cases hon : e.enabled.truthy with
  | false => exact ⟨false, e.nextRun, reschedule_off now hon⟩
  | true =>
    have husable := h hon
    obtain ⟨b, hb⟩ := Json.compare_of_usable husable PyFloat.gtZero
    cases b with
    | false => exact ⟨false, e.nextRun, reschedule_le now hon hb⟩
    | true =>
      obtain ⟨t, ht⟩ := Json.addTo_of_usable husable (Json.leZero_of_gtZero hb) (e.base now)
      exact ⟨true, t, reschedule_gt now hon hb ht⟩

/-- An enabled schedule whose interval is not usable raises. -/
theorem reschedule_raises (hon : e.enabled.truthy = true) (h : e.intervalSec.usable = false) :
    ∃ err, reschedule now e = .error err e := by
  unfold reschedule
  rw [if_pos hon]
  rcases Json.raises_of_not_usable h with ⟨err, herr⟩ | ⟨hpos, hadd⟩
  · rw [herr]
    exact ⟨err, rfl⟩
  · obtain ⟨err, herr⟩ := hadd (e.base now)
    rw [hpos]
    dsimp only
    rw [herr]
    exact ⟨err, rfl⟩

/-- The entry after `name` and `task_type`. -/
def named (e : RawEntry) (f : RawFields) (t : TaskType) : RawEntry :=
  { e with name := f.name.getD e.name, taskType := t }

/-- The type after a `task_type` that has been found, or without one. -/
def FoundType (e : RawEntry) (f : RawFields) (t : TaskType) : Prop :=
  f.taskType.map Json.lookupTaskType = none ∧ t = e.taskType ∨
    f.taskType.map Json.lookupTaskType = some (.ok t)

/-- A refused task type leaves the new name behind. -/
theorem update_refused {err : PyError} (h : f.taskType.map Json.lookupTaskType = some (.error err)) :
    update now f e = .error err { e with name := f.name.getD e.name } := by
  have htype : assignTaskType f.taskType { e with name := f.name.getD e.name } =
      .error err { e with name := f.name.getD e.name } := by
    rw [assignTaskType, h]
  rw [update, bind_of_ok (m := assignName f.name) rfl]
  exact bind_of_error htype

/-- What is left to do after a task type that is not refused. -/
theorem update_found {t : TaskType} (h : e.FoundType f t) :
    update now f e = (do
      let _ ← assignInterval now f.intervalSec
      assignConfig f.config
      assignEnabled now f.enabled) (e.named f t) := by
  have htype : assignTaskType f.taskType { e with name := f.name.getD e.name } =
      .ok () (e.named f t) := by
    rcases h with ⟨hnone, rfl⟩ | hsome
    · rw [assignTaskType, hnone]
      rfl
    · rw [assignTaskType, hsome]
      rfl
  rw [update, bind_of_ok (m := assignName f.name) rfl]
  exact bind_of_ok htype

/-- The stage of `interval_sec`. -/
theorem assignInterval_ok (h : e.enabled.truthy = true → f.intervalSec.all Json.usable = true) :
    ∃ b x, assignInterval now f.intervalSec e =
      .ok b { e with intervalSec := f.intervalSec.getD e.intervalSec, nextRun := x } := by
  cases hv : f.intervalSec with
  | none => exact ⟨false, e.nextRun, rfl⟩
  | some v =>
    rw [hv] at h
    obtain ⟨b, x, hx⟩ := reschedule_of_usable (e := { e with intervalSec := v }) now h
    exact ⟨b, x, hx⟩

/-- The stage of `enabled`. -/
theorem assignEnabled_ok
    (h : f.enabled.any Json.truthy = true → e.intervalSec.usable = true) :
    ∃ b x, assignEnabled now f.enabled e =
      .ok b { e with enabled := f.enabled.getD e.enabled, nextRun := x } := by
  cases hv : f.enabled with
  | none => exact ⟨false, e.nextRun, rfl⟩
  | some v =>
    rw [hv] at h
    obtain ⟨b, x, hx⟩ := reschedule_of_usable (e := { e with enabled := v }) now h
    have hclear : ∃ b x', clearNextRun { e with enabled := v, nextRun := x } =
        .ok b { e with enabled := v, nextRun := x' } := by
      unfold clearNextRun
      split
      · exact ⟨false, x, rfl⟩
      · exact ⟨true, .finite 0, rfl⟩
    obtain ⟨b', x', hx'⟩ := hclear
    refine ⟨b', x', ?_⟩
    exact (bind_of_ok (m := reschedule now) hx).trans hx'

/-- The entry after everything but `enabled`, with the hint computed by then. -/
def assigned (e : RawEntry) (f : RawFields) (t : TaskType) (x : PyFloat) : RawEntry :=
  { e.named f t with
    intervalSec := f.intervalSec.getD e.intervalSec, config := f.config.getD e.config,
    nextRun := x }

/-- An update comes to its last stage unless the new interval of an enabled schedule
raises. -/
theorem update_last {t : TaskType} (ht : e.FoundType f t)
    (hold : e.enabled.truthy = true → f.intervalSec.all Json.usable = true) :
    ∃ x, update now f e = assignEnabled now f.enabled (e.assigned f t x) := by
  obtain ⟨b, x, hx⟩ := assignInterval_ok (e := e.named f t) now hold
  refine ⟨x, ?_⟩
  rw [update_found now ht, bind_of_ok hx]
  exact bind_of_ok (m := assignConfig f.config) rfl

/-- An update is accepted when no interval raises in it. -/
theorem update_accepted {t : TaskType} (ht : e.FoundType f t)
    (hold : e.enabled.truthy = true → f.intervalSec.all Json.usable = true)
    (hnew : f.enabled.any Json.truthy = true → (f.intervalSec.getD e.intervalSec).usable = true) :
    ∃ b e', update now f e = .ok b e' ∧ e'.enabled = f.enabled.getD e.enabled ∧
      e'.intervalSec = f.intervalSec.getD e.intervalSec := by
  obtain ⟨x, hx⟩ := update_last now ht hold
  obtain ⟨b, x', hx'⟩ := assignEnabled_ok (e := e.assigned f t x) now hnew
  exact ⟨b, _, hx.trans hx', rfl, rfl⟩

/-- An enabled schedule keeps the interval that has raised. -/
theorem update_raises_interval {t : TaskType} {v : Json} (ht : e.FoundType f t)
    (hon : e.enabled.truthy = true) (hv : f.intervalSec = some v) (hbad : v.usable = false) :
    ∃ err e', update now f e = .error err e' ∧ e'.intervalSec = v := by
  obtain ⟨err, herr⟩ := reschedule_raises (e := { e.named f t with intervalSec := v }) now
    hon hbad
  refine ⟨err, { e.named f t with intervalSec := v }, ?_, rfl⟩
  rw [update_found now ht, hv]
  exact bind_of_error herr

/-- A schedule that is being enabled stays so when its interval raises. -/
theorem update_raises_enabled {t : TaskType} {v : Json} (ht : e.FoundType f t)
    (hold : e.enabled.truthy = true → f.intervalSec.all Json.usable = true)
    (hv : f.enabled = some v) (hon : v.truthy = true)
    (hbad : (f.intervalSec.getD e.intervalSec).usable = false) :
    ∃ err e', update now f e = .error err e' ∧ e'.enabled = v := by
  obtain ⟨x, hx⟩ := update_last now ht hold
  obtain ⟨err, herr⟩ := reschedule_raises (e := { e.assigned f t x with enabled := v })
    now hon hbad
  refine ⟨err, { e.assigned f t x with enabled := v }, ?_, rfl⟩
  rw [hx, hv]
  exact bind_of_error (m := reschedule now) herr

/-- Enabling or disabling with an interval that is usable when needed raises nothing. -/
theorem toggle_ok (h : e.enabled.truthy = true ∨ e.intervalSec.usable = true) :
    ∃ b e', toggle now e = .ok b e' ∧ e'.intervalSec = e.intervalSec ∧
      e'.enabled = .bool !e.enabled.truthy := by
  obtain ⟨b, x, hx⟩ := reschedule_of_usable (e := { e with enabled := .bool !e.enabled.truthy })
    now (fun hon => h.resolve_left (by simpa [Json.truthy] using hon))
  exact ⟨b, _, bind_of_ok (m := reschedule now) hx, rfl, rfl⟩

/-- The end of a run whose interval can be added. -/
theorem finish_of_addTo {now : Time} (started : Time) (outcome : Outcome) {t : PyFloat}
    (h : e.intervalSec.addTo now = .ok t) :
    finish now started outcome e = .ok () { e.record now outcome with
      lastDurationS := pyRound (now - started), nextRun := t } := by
  have hsame : (e.record now outcome).intervalSec = e.intervalSec := by cases outcome <;> rfl
  unfold finish
  simp only [hsame, h]

/-- A task type is found or refused. -/
theorem found_or_refused (e : RawEntry) (f : RawFields) :
    (∃ t, e.FoundType f t) ∨ ∃ err, f.taskType.map Json.lookupTaskType = some (.error err) := by
  cases h : f.taskType.map Json.lookupTaskType with
  | none => exact .inl ⟨e.taskType, .inl ⟨h, rfl⟩⟩
  | some d =>
    cases d with
    | error err => exact .inr ⟨err, rfl⟩
    | ok t => exact .inl ⟨t, .inr h⟩

end RawEntry

namespace ScheduleTable

variable {s s' : ScheduleTable} {e : RawEntry} {f : RawFields}

theorem soundUpdate_refused {err : PyError}
    (h : f.taskType.map Json.lookupTaskType = some (.error err)) :
    soundUpdate e f = true ↔ f.name.getD e.name = e.name := by
  rw [soundUpdate, h]
  exact decide_eq_true_iff

theorem soundUpdate_found {t : TaskType} (h : e.FoundType f t) :
    soundUpdate e f = true ↔
      (e.enabled.truthy = true → f.intervalSec.all Json.usable = true) ∧
        (f.enabled.any Json.truthy = true →
          (f.intervalSec.getD e.intervalSec).usable = true) := by
  unfold soundUpdate
  rcases h with ⟨h, -⟩ | h
  all_goals
    rw [h]
    simp only [Bool.and_eq_true, Bool.or_eq_true, Bool.not_eq_true', ← Bool.not_eq_true,
      imp_iff_not_or]

/-- An update that the condition admits is accepted or changes nothing. -/
theorem update_atomic (now : Time) (h : soundUpdate e f = true) :
    Atomic (RawEntry.update now f) e := by
  intro err e' herr
  rcases e.found_or_refused f with ⟨t, ht⟩ | ⟨err', hrefused⟩
  · obtain ⟨hold, hnew⟩ := (soundUpdate_found ht).mp h
    obtain ⟨b, e'', hok, -⟩ := RawEntry.update_accepted now ht hold hnew
    rw [hok] at herr
    cases herr
  · rw [RawEntry.update_refused now hrefused, (soundUpdate_refused hrefused).mp h] at herr
    cases herr
    rfl

/-- An update that the condition does not admit raises after it has changed the entry. -/
theorem update_not_atomic (now : Time)
    (husable : e.enabled.truthy = true → e.intervalSec.usable = true)
    (h : soundUpdate e f = false) :
    ∃ err e', RawEntry.update now f e = .error err e' ∧ e' ≠ e := by
  rw [← Bool.not_eq_true] at h
  rcases e.found_or_refused f with ⟨t, ht⟩ | ⟨err, hrefused⟩
  · rw [soundUpdate_found ht] at h
    by_cases hold : e.enabled.truthy = true → f.intervalSec.all Json.usable = true
    · have hnew : f.enabled.any Json.truthy = true ∧
          (f.intervalSec.getD e.intervalSec).usable = false := by
        by_contra hno
        refine h ⟨hold, fun hany => ?_⟩
        by_contra hbad
        exact hno ⟨hany, Bool.eq_false_iff.mpr hbad⟩
      obtain ⟨hany, hbad⟩ := hnew
      obtain ⟨v, hv, hon⟩ := (Option.any_eq_true _ _).mp hany
      obtain ⟨err, e', herr, henabled⟩ := RawEntry.update_raises_enabled now ht hold hv hon hbad
      refine ⟨err, e', herr, ?_⟩
      rintro rfl
      -- the schedule was enabled before, so its own interval and the new one are usable
      rw [← henabled] at hon
      have hall := hold hon
      cases hi : f.intervalSec with
      | none =>
        rw [hi, Option.getD_none, husable hon] at hbad
        cases hbad
      | some v' =>
        rw [hi, Option.all_some] at hall
        rw [hi, Option.getD_some, hall] at hbad
        cases hbad
    · push Not at hold
      obtain ⟨hon, hbad⟩ := hold
      cases hi : f.intervalSec with
      | none => simp [hi] at hbad
      | some v =>
        rw [hi, Option.all_some] at hbad
        obtain ⟨err, e', herr, hinterval⟩ :=
          RawEntry.update_raises_interval now ht hon hi (Bool.eq_false_iff.mpr hbad)
        refine ⟨err, e', herr, ?_⟩
        rintro rfl
        rw [hinterval] at husable
        exact hbad (husable hon)
  · rw [soundUpdate_refused hrefused] at h
    refine ⟨err, _, RawEntry.update_refused now hrefused, ?_⟩
    intro heq
    exact h (congrArg RawEntry.name heq)

/-- **When an update is atomic**: in a state whose enabled schedules have usable intervals,
an exception leaves the entry, the queue and the rows as they were exactly for the updates
that the condition admits. -/
theorem update_atomic_iff (h : s.Runnable) (now : Time) (sid : Sid) (f : RawFields)
    (stored : Bool) :
    Atomic (updateSchedule now sid f stored) s ↔ s.sound (.updateSchedule sid f stored) = true := by
  unfold Atomic updateSchedule
  simp only [sound]
  cases hr : s.schedules.get? sid with
  | none =>
    simp only [Option.all_none, iff_true]
    intro err s' herr
    cases herr
  | some e =>
    simp only [Option.all_some]
    constructor
    · intro hatomic
      by_contra hbad
      obtain ⟨err, e', herr, hne⟩ :=
        update_not_atomic now (h sid e hr) (Bool.eq_false_iff.mpr hbad)
      rw [herr] at hatomic
      have hsame := hatomic err _ rfl
      have hget : (s.withEntry sid e').schedules.get? sid = some e := by rw [hsame, hr]
      rw [withEntry, Dict.get?_insert, if_pos rfl] at hget
      exact hne (Option.some.inj hget)
    · intro hsound err s' herr
      cases hupdate : RawEntry.update now f e with
      | ok b e' =>
        rw [hupdate] at herr
        cases herr
      | error err' e' =>
        rw [hupdate] at herr
        cases herr
        obtain rfl := update_atomic now hsound _ _ hupdate
        rw [withEntry, Dict.insert_of_get? hr]

end ScheduleTable

end HuntProxy
