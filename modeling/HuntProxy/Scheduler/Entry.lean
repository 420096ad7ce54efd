import Mathlib.Data.Rat.Floor

/-!
# Schedule entries and task types

The data of `schedule_entry.py`: the closed table of task types with their conflict
lists and guards, and the mutable record of one schedule. Clock readings are exact
rationals.

## Main definitions

- `TaskType`, `TaskDef`, `taskTypes` — the table `TASK_TYPES`
- `ScheduleEntry` — one schedule, with `ScheduleEntry.isDue`
- `pyRound` — Python's `round(x, 2)`
-/

namespace HuntProxy

/-- A reading of `time.time()`, in seconds. -/
abbrev Time := ℚ

/-- The identifier of a schedule. -/
abbrev Sid := String

/-- The keys of `TASK_TYPES`. -/
inductive TaskType
  | proxyCheck
  | sourceRefresh
  | ipBlacklist
  | blocklist
  | healthCheck
  | history
  | clearDead
  | backup
  | dbMaintenance
  deriving DecidableEq, Repr

/-- The attributes of the engine that `busy_flag` names. -/
inductive BusyFlag
  | huntRunning
  | fetchingIpBlacklists
  | fetchingBlocklists
  deriving DecidableEq, Repr

/-- A row of `TASK_TYPES`, without its description. -/
structure TaskDef where
  mutexWith : List TaskType
  respectPause : Bool
  respectInternet : Bool
  busyFlag : Option BusyFlag
  deriving DecidableEq, Repr

/-- The table `TASK_TYPES`. -/
def taskTypes : TaskType → TaskDef
  | .proxyCheck => ⟨[.healthCheck], false, true, some .huntRunning⟩
  | .sourceRefresh => ⟨[], false, true, some .huntRunning⟩
  | .ipBlacklist => ⟨[], false, true, some .fetchingIpBlacklists⟩
  | .blocklist => ⟨[], false, true, some .fetchingBlocklists⟩
  | .healthCheck => ⟨[.proxyCheck], false, true, some .huntRunning⟩
  | .history => ⟨[], false, false, none⟩
  | .clearDead => ⟨[.proxyCheck, .healthCheck], false, false, none⟩
  | .backup => ⟨[], false, false, none⟩
  | .dbMaintenance => ⟨[], false, false, none⟩

/-- The values of `last_status` that the scheduler writes. -/
inductive LastStatus
  | never
  | queued
  | running
  | ok
  | failed
  | cancelled
  deriving DecidableEq, Repr

/-- `ScheduleEntry`. `config` is the JSON text of the configuration object, which only
the executors look into. -/
structure ScheduleEntry where
  id : Sid
  name : String
  taskType : TaskType
  enabled : Bool := true
  intervalSec : ℤ := 3600
  config : String := "{}"
  lastRun : Time := 0
  lastOk : Time := 0
  nextRun : Time := 0
  lastStatus : LastStatus := .never
  lastDurationS : Time := 0
  lastError : String := ""
  deriving DecidableEq

instance : Inhabited ScheduleEntry := ⟨{ id := "", name := "", taskType := .history }⟩

namespace ScheduleEntry

/-- Due when `interval_sec` has passed since the last success; before the first success
the hint `next_run` decides, and an unset hint means now. -/
def isDue (e : ScheduleEntry) (now : Time) : Bool :=
  if 0 < e.lastOk then decide (e.intervalSec ≤ now - e.lastOk)
  else if 0 < e.nextRun then decide (e.nextRun ≤ now)
  else true

/-- The start of the interval that an edit of the schedule counts `next_run` from. -/
def base (e : ScheduleEntry) (now : Time) : Time :=
  if 0 < e.lastOk then e.lastOk else now

end ScheduleEntry

/-- Rounding to an integer, ties to the even neighbour. -/
def roundHalfEven (x : ℚ) : ℤ :=
  let below := x - x.floor
  if below < 1 / 2 then x.floor
  else if 1 / 2 < below then x.floor + 1
  else if x.floor % 2 = 0 then x.floor else x.floor + 1

/-- `round(x, 2)`. -/
def pyRound (x : ℚ) : ℚ := roundHalfEven (x * 100) / 100

end HuntProxy
