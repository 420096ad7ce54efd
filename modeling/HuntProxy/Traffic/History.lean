import HuntProxy.Lib.IpText
import HuntProxy.Storage.Writer
import Mathlib.Algebra.Order.Ring.Rat
import Mathlib.Algebra.BigOperators.Group.List.Basic

/-!
# The traffic history

A finished request leaves a row in a buffer, the buffer is handed to the background writer
when it has 500 rows or on a flush, and `_push_history` writes a record of the rows of
`traffic_log` that are later than the previous push. A flush that finds the buffer empty
returns at once, also when rows that were handed over earlier are not committed yet; and a row
at exactly the time of the push belongs to no window. Where neither happens, every row that has
been logged before a push is counted in exactly one record.

The event loop is blocked during a push; the writer is not, and other threads may submit items
of their own to it. Connecting and committing succeed. A record is modelled by the rows that
it counts; the numbers of alive and dead proxies are left out.

## Main definitions

- `TrafficLog`, `TrafficLog.step` — the buffer, the pushes and the writer
- `TrafficLog.CountedOnce` — every row is counted in exactly one record
- `TrafficLog.Timely` — the runs in which it is

## Main results

- `TrafficLog.Inv.query` — what a push counts
- `TrafficLog.requests_counted_once` — timely runs count every row once
- `TrafficLog.uncommitted_rows_lost` — a run that does not
-/

namespace HuntProxy

open Ip (Str)

/-- A row of `traffic_log`, as far as the history reads it; `number` is its `id`. -/
structure LoggedRow (τ : Type*) where
  number : ℕ
  ts : τ
  status : Str
  bytesIn : ℤ
  bytesOut : ℤ
  duration : ℚ
  deriving DecidableEq

/-- A row of `history`: the time of the push, and the rows that the query has counted. -/
structure HistoryRecord (τ : Type*) where
  ts : τ
  rows : List (LoggedRow τ)
  deriving DecidableEq

namespace HistoryRecord

variable {τ : Type*} (rec : HistoryRecord τ)

def requests : ℕ := rec.rows.length

def connectionsOk : ℕ := rec.rows.countP (fun r => r.status = "ok".toList)

def connectionsFailed : ℕ := rec.requests - rec.connectionsOk

def trafficSuccessRate : ℚ :=
  if rec.requests = 0 then 0 else rec.connectionsOk / (max 1 rec.requests : ℕ) * 100

def bandwidthIn : ℤ := (rec.rows.map LoggedRow.bytesIn).sum

def bandwidthOut : ℤ := (rec.rows.map LoggedRow.bytesOut).sum

def avgLatency : ℚ :=
  let durations := (rec.rows.map LoggedRow.duration).filter (fun d => 0 < d)
  if durations = [] then 0 else durations.sum / durations.length

end HistoryRecord

/-- The items of the stats writer; `other` stands for items that touch neither table. -/
inductive StatsItem (τ : Type*)
  | traffic (rows : List (LoggedRow τ))
  | history (rec : HistoryRecord τ)
  | other
  deriving DecidableEq

/-- The two tables. -/
structure StatsDb (τ : Type*) where
  traffic : List (LoggedRow τ)
  history : List (HistoryRecord τ)
  deriving DecidableEq

variable {τ : Type*}

/-- What an item does to the tables. -/
def StatsItem.apply : StatsItem τ → StatsDb τ → StatsDb τ
  | .traffic rows, db => { db with traffic := db.traffic ++ rows }
  | .history rec, db => { db with history := db.history ++ [rec] }
  | .other, db => db

/-- The database that the writer works on. -/
def statsExec (i : ℕ × StatsItem τ) (db : StatsDb τ) : Option (StatsDb τ) := some (i.2.apply db)

/-- Where the event loop is: it blocks in a flush, in the flush of a push, before the query, or
in the `drain` after it. -/
inductive PushPc (τ : Type*)
  | idle
  | flushing
  | pushing
  | querying
  | recording (now : τ)
  deriving DecidableEq

/-- The clock, the buffer, the writer of the stats database and `_last_history_ts`. `logged`
records the rows of this run, and `due` those that had been logged before the last push. -/
structure TrafficLog (τ : Type*) where
  now : τ
  next : ℕ
  buffer : List (LoggedRow τ)
  writer : DbWriter (StatsItem τ) (StatsDb τ)
  pc : PushPc τ
  last : τ
  logged : List (LoggedRow τ)
  due : List (LoggedRow τ)

/-- Time passes, a request is finished, a call, or a step of the writer. -/
inductive TrafficEvent (τ : Type*)
  | tick (now : τ)
  | finish (status : Str) (bytesIn bytesOut : ℤ) (duration : ℚ)
  | flush (wait : Bool)
  | push
  | query
  | drainReturns
  | worker (a : WriterEvent (StatsItem τ))

namespace TrafficLog

/-- `TRAFFIC_FLUSH_BATCH`. -/
def flushBatch : ℕ := 500

/-- `_flush_traffic_buffer`, up to its `drain`. -/
def handOver (s : TrafficLog τ) : TrafficLog τ :=
  { s with buffer := [], writer := s.writer.submit (.traffic s.buffer) }

/-- `_queue_traffic_log`. -/
def queue (s : TrafficLog τ) (row : LoggedRow τ) : TrafficLog τ :=
  let s := { s with
    next := s.next + 1
    buffer := s.buffer ++ [row]
    logged := s.logged ++ [row] }
  if flushBatch ≤ s.buffer.length then s.handOver else s

variable [LinearOrder τ]

/-- The rows of the window that a push closes. -/
def window (s : TrafficLog τ) : List (LoggedRow τ) :=
  s.writer.saved.traffic.filter (fun r => s.last < r.ts)

/-- The query of a push, and the `submit` of its record. -/
def record (s : TrafficLog τ) : TrafficLog τ :=
  { s with
    writer := s.writer.submit (.history ⟨s.now, s.window⟩)
    pc := .recording s.now
    due := s.logged }

/-- The transition function. -/
def step (s : TrafficLog τ) : TrafficEvent τ → Option (TrafficLog τ)
  | .tick now => if s.now ≤ now then some { s with now := now } else none
  | .finish status bytesIn bytesOut duration =>
    match s.pc with
    | .idle => some (s.queue ⟨s.next, s.now, status, bytesIn, bytesOut, duration⟩)
    | _ => none
  | .flush wait =>
    match s.pc with
    | .idle =>
      -- without rows it returns, whether or not it is to wait
      if s.buffer = [] then some s
      else some { s.handOver with pc := if wait then .flushing else .idle }
    | _ => none
  | .push =>
    match s.pc with
    | .idle =>
      if s.buffer = [] then some { s with pc := .querying }
      else some { s.handOver with pc := .pushing }
    | _ => none
  | .query =>
    match s.pc with
    | .querying => some s.record
    | _ => none
  | .drainReturns =>
    if s.writer.drained then
      match s.pc with
      | .flushing => some { s with pc := .idle }
      | .pushing => some { s with pc := .querying }
      | .recording now => some { s with pc := .idle, last := now }
      | _ => none
    else none
  | .worker a =>
    -- other threads submit items that touch neither table
    match a with
    | .submit .other => some { s with writer := s.writer.submit .other }
    | .submit _ => none
    | .noConnection => none
    | .commitFails => none
    | a => (s.writer.step statsExec a).map (fun w => { s with writer := w })

/-- The machine. -/
def machine : Machine (TrafficLog τ) (TrafficEvent τ) := ⟨step⟩

/-- The process has started: nothing is buffered or submitted, and the stored records count rows
of earlier runs. -/
structure Started (s : TrafficLog τ) : Prop where
  writer : ∃ db, s.writer = .start db ∧ (∀ r ∈ db.traffic, r.number < s.next) ∧
    ∀ rec ∈ db.history, ∀ r ∈ rec.rows, r.number < s.next
  buffer : s.buffer = []
  pc : s.pc = .idle
  logged : s.logged = []
  due : s.due = []

/-- The number of records that count a row. -/
def count (records : List (HistoryRecord τ)) (r : LoggedRow τ) : ℕ :=
  records.countP (fun rec => r ∈ rec.rows)

/-- After a push, every row that was logged before it is counted in exactly one record. -/
def CountedOnce (s : TrafficLog τ) : Prop :=
  (∀ now, s.pc ≠ .recording now) → ∀ r ∈ s.due, count s.writer.saved.history r = 1

/-! ### What is on its way -/

/-- The tables after everything that is outstanding has been worked off. -/
def settled (w : DbWriter (StatsItem τ) (StatsDb τ)) : StatsDb τ :=
  w.outstanding.foldl (fun db i => i.2.apply db) w.saved

/-- The item carries rows of the traffic log. -/
def isTraffic : StatsItem τ → Bool
  | .traffic _ => true
  | _ => false

/-- The item is a record of the history. -/
def isHistory : StatsItem τ → Bool
  | .history _ => true
  | _ => false

section

variable {τ : Type*} {w w' : DbWriter (StatsItem τ) (StatsDb τ)}

@[simp] theorem settled_submit (w : DbWriter (StatsItem τ) (StatsDb τ)) (i : StatsItem τ) :
    settled (w.submit i) = i.apply (settled w) := by
  rw [settled, DbWriter.outstanding_submit, List.foldl_append]
  rfl

theorem runAll_statsExec (l : List (ℕ × StatsItem τ)) (db : StatsDb τ) :
    Transaction.runAll statsExec l db = some (l.foldl (fun db i => i.2.apply db) db) := by
  induction l generalizing db with
  | nil => rfl
  | cons i rest ih => exact ih _

/-- The steps of the writer change nothing of what is to come of the tables. -/
theorem settled_step {db : StatsDb τ} (h : DbWriter.Worked statsExec db w)
    {a : WriterEvent (StatsItem τ)} (hs : w.step statsExec a = some w')
    (hsubmit : ∀ i, a ≠ .submit i) (hconnect : a ≠ .noConnection) (hcommit : a ≠ .commitFails) :
    settled w' = settled w ∧ w'.outstanding ⊆ w.outstanding := by
  cases h.effect hs with
  | submit i => exact absurd rfl (hsubmit i)
  | quiet saved outstanding starts =>
    refine ⟨?_, outstanding ▸ List.Subset.refl _⟩
    rw [settled, settled, outstanding, saved]
  | @commit db' ran at_ =>
    have hout : (w.finish db' true).outstanding = w.queue := rfl
    refine ⟨?_, ?_⟩
    · rw [runAll_statsExec] at ran
      rw [settled, settled, hout, DbWriter.outstanding, List.foldl_append, Option.some.inj ran]
      rfl
    · rw [hout]
      exact List.subset_append_right _ _
  | lost loses at_ =>
    cases a with
    | noConnection => exact absurd rfl hconnect
    | commitFails => exact absurd rfl hcommit
    | execute =>
      rw [DbWriter.loses] at loses
      split at loses <;> cases loses
    | submit i => cases loses
    | get => cases loses
    | getNowait => cases loses
    | collected => cases loses
    | commit => cases loses

theorem settled_traffic (h : ∀ i ∈ w.outstanding, isTraffic i.2 = false) :
    (settled w).traffic = w.saved.traffic := by
  refine List.foldlRecOn (motive := fun db : StatsDb τ => db.traffic = w.saved.traffic)
    w.outstanding _ rfl (fun db hdb i hi => ?_)
  obtain ⟨n, item⟩ := i
  cases item with
  | traffic rows => cases h _ hi
  | history rec => exact hdb
  | other => exact hdb

theorem settled_history (h : ∀ i ∈ w.outstanding, isHistory i.2 = false) :
    (settled w).history = w.saved.history := by
  refine List.foldlRecOn (motive := fun db : StatsDb τ => db.history = w.saved.history)
    w.outstanding _ rfl (fun db hdb i hi => ?_)
  obtain ⟨n, item⟩ := i
  cases item with
  | traffic rows => exact hdb
  | history rec => cases h _ hi
  | other => exact hdb

end

/-! ### Timely runs -/

/-- No request is finished at exactly the time of the previous push, and no push makes its query
while rows of the traffic log are on their way to the database. -/
def Timely : Machine.Guard (TrafficLog τ) (TrafficEvent τ) := fun s a _ =>
  match a with
  | .finish _ _ _ _ => s.last < s.now
  | .query => ∀ i ∈ s.writer.outstanding, isTraffic i.2 = false
  | _ => True

/-- The end of the last window, which a push sets when it is over. -/
def lastTs (s : TrafficLog τ) : τ :=
  match s.pc with
  | .recording now => now
  | _ => s.last

/-- The rows that have been logged, and the records that the tables are to have: a row is
counted once, or later than the last push and not counted yet. -/
structure Ledger (db : StatsDb τ) (s : TrafficLog τ) : Prop where
  rows : ∀ r, r ∈ db.traffic ∨ r ∈ s.buffer → r.number < s.next
  records : ∀ rec ∈ db.history, ∀ r ∈ rec.rows, r.number < s.next
  placed : ∀ r ∈ s.logged, r ∈ db.traffic ∨ r ∈ s.buffer
  past : ∀ r ∈ s.logged, r.ts ≤ s.now
  counted : ∀ r ∈ s.logged, r.ts ≤ s.lastTs → count db.history r = 1
  uncounted : ∀ r ∈ s.logged, s.lastTs < r.ts → count db.history r = 0
  due : ∀ r ∈ s.due, r ∈ s.logged ∧ r.ts ≤ s.lastTs

/-- What timely runs preserve. -/
structure Inv (s : TrafficLog τ) : Prop where
  worked : ∃ db, DbWriter.Worked statsExec db s.writer
  ledger : Ledger (settled s.writer) s
  history : (∀ now, s.pc ≠ .recording now) → ∀ i ∈ s.writer.outstanding, isHistory i.2 = false
  empty : s.pc = .pushing ∨ s.pc = .querying → s.buffer = []

section

variable {db : StatsDb τ} {s s' : TrafficLog τ}

/-- A change of the place, and of the time of the last push, that keeps the end of the window. -/
theorem Ledger.withPc (h : Ledger db s) {pc : PushPc τ} {last : τ}
    (hlast : lastTs { s with pc := pc, last := last } = s.lastTs) :
    Ledger db { s with pc := pc, last := last } where
  rows := h.rows
  records := h.records
  placed := h.placed
  past := h.past
  counted r hr hle := h.counted r hr (hlast ▸ hle)
  uncounted r hr hlt := h.uncounted r hr (hlast ▸ hlt)
  due r hr := ⟨(h.due r hr).1, hlast ▸ (h.due r hr).2⟩

/-- Handing the buffer over keeps every row. -/
theorem Ledger.handOver (h : Ledger (settled s.writer) s) :
    Ledger (settled s.handOver.writer) s.handOver := by
  have hdb : settled s.handOver.writer =
      { settled s.writer with traffic := (settled s.writer).traffic ++ s.buffer } :=
    settled_submit s.writer (.traffic s.buffer)
  rw [hdb]
  refine ⟨fun r hr => h.rows r ?_, h.records, fun r hr => .inl ?_, h.past, h.counted, h.uncounted,
    h.due⟩
  · exact List.mem_append.mp (hr.resolve_right List.not_mem_nil)
  · exact List.mem_append.mpr (h.placed r hr)

omit [LinearOrder τ] in
theorem not_isHistory_handOver (h : ∀ i ∈ s.writer.outstanding, isHistory i.2 = false) :
    ∀ i ∈ s.handOver.writer.outstanding, isHistory i.2 = false := by
  intro i hi
  rw [show s.handOver.writer = s.writer.submit (.traffic s.buffer) from rfl,
    DbWriter.outstanding_submit] at hi
  rcases List.mem_append.mp hi with hi | hi
  · exact h i hi
  · rw [List.mem_singleton.mp hi]
    rfl

/-- A request is finished after the last push: its row is not counted yet. -/
theorem Inv.finish (h : s.Inv) (hidle : s.pc = .idle) {status : Str} {bytesIn bytesOut : ℤ}
    {duration : ℚ} (hlast : s.last < s.now) :
    (s.queue ⟨s.next, s.now, status, bytesIn, bytesOut, duration⟩).Inv := by
  have hhistory := h.history (fun now hnow => by rw [hidle] at hnow; cases hnow)
  have hlastTs : s.lastTs = s.last := by rw [lastTs, hidle]
  have hledger : Ledger (settled s.writer) { s with
      next := s.next + 1
      buffer := s.buffer ++ [⟨s.next, s.now, status, bytesIn, bytesOut, duration⟩]
      logged := s.logged ++ [⟨s.next, s.now, status, bytesIn, bytesOut, duration⟩] } := by
    refine ⟨fun r hr => ?_, fun rec hrec r hr => ?_, fun r hr => ?_, fun r hr => ?_,
      fun r hr hle => ?_, fun r hr hlt => ?_, fun r hr => ?_⟩
    · rcases hr with hr | hr
      · exact Nat.lt_succ_of_lt (h.ledger.rows r (.inl hr))
      · rcases List.mem_append.mp hr with hr | hr
        · exact Nat.lt_succ_of_lt (h.ledger.rows r (.inr hr))
        · rw [List.mem_singleton.mp hr]
          exact Nat.lt_succ_self s.next
    · exact Nat.lt_succ_of_lt (h.ledger.records rec hrec r hr)
    · rcases List.mem_append.mp hr with hr | hr
      · exact (h.ledger.placed r hr).imp id (List.mem_append_left _)
      · exact .inr (List.mem_append_right _ hr)
    · rcases List.mem_append.mp hr with hr | hr
      · exact h.ledger.past r hr
      · rw [List.mem_singleton.mp hr]
    · rcases List.mem_append.mp hr with hr | hr
      · exact h.ledger.counted r hr hle
      · rw [List.mem_singleton.mp hr] at hle
        have hle : s.now ≤ s.lastTs := hle
        rw [hlastTs] at hle
        exact absurd hlast (not_lt.mpr hle)
    · rcases List.mem_append.mp hr with hr | hr
      · exact h.ledger.uncounted r hr hlt
      · -- no record has the number of the new row
        refine List.countP_eq_zero.mpr (fun rec hrec => ?_)
        rw [decide_eq_true_eq, List.mem_singleton.mp hr]
        exact fun hmem => lt_irrefl _ (h.ledger.records rec hrec _ hmem)
    · exact ⟨List.mem_append_left _ (h.ledger.due r hr).1, (h.ledger.due r hr).2⟩
  have hempty : ∀ b : List (LoggedRow τ), s.pc = .pushing ∨ s.pc = .querying → b = [] := by
    intro b hb
    rw [hidle] at hb
    rcases hb with hb | hb <;> cases hb
  obtain ⟨db, hworked⟩ := h.worked
  unfold queue
  dsimp only
  split
  · exact ⟨⟨db, hworked.step (a := .submit _) rfl⟩, hledger.handOver,
      fun _ => not_isHistory_handOver hhistory, hempty _⟩
  · exact ⟨⟨db, hworked⟩, hledger, fun _ => hhistory, hempty _⟩

/-- The buffer is handed over, and the loop goes on or blocks. -/
theorem Inv.handOver (h : s.Inv) (hidle : s.pc = .idle) {pc : PushPc τ}
    (hpc : ∀ now, pc ≠ .recording now) : ({ s.handOver with pc := pc } : TrafficLog τ).Inv := by
  have hhistory := h.history (fun now hnow => by rw [hidle] at hnow; cases hnow)
  obtain ⟨db, hworked⟩ := h.worked
  refine ⟨⟨db, hworked.step (a := .submit _) rfl⟩, h.ledger.handOver.withPc ?_,
    fun _ => not_isHistory_handOver hhistory, fun _ => rfl⟩
  have hidle' : s.handOver.pc = .idle := hidle
  rw [lastTs, lastTs, hidle']
  cases pc with
  | recording now => exact absurd rfl (hpc now)
  | _ => rfl

/-- The loop goes on without a change of what has been logged and submitted. -/
theorem Inv.withPc (h : s.Inv) {pc : PushPc τ} {last : τ}
    (hlast : lastTs { s with pc := pc, last := last } = s.lastTs)
    (hhistory : ∀ i ∈ s.writer.outstanding, isHistory i.2 = false)
    (hempty : pc = .pushing ∨ pc = .querying → s.buffer = []) :
    ({ s with pc := pc, last := last } : TrafficLog τ).Inv :=
  ⟨h.worked, h.ledger.withPc hlast, fun _ => hhistory, hempty⟩

theorem count_append (records : List (HistoryRecord τ)) (rec : HistoryRecord τ)
    (r : LoggedRow τ) :
    count (records ++ [rec]) r = count records r + if r ∈ rec.rows then 1 else 0 := by
  rw [count, List.countP_append, List.countP_singleton]
  simp only [decide_eq_true_eq]
  rfl

/-- **What a push counts**: with all rows in the database, the rows of the window are counted for
the first time, and the earlier rows are not counted again. -/
theorem Inv.query (h : s.Inv) (hquery : s.pc = .querying)
    (hcommitted : ∀ i ∈ s.writer.outstanding, isTraffic i.2 = false) : s.record.Inv := by
  obtain ⟨db, hworked⟩ := h.worked
  have hbuffer := h.empty (.inr hquery)
  have hlastTs : s.lastTs = s.last := by rw [lastTs, hquery]
  have hdb : settled s.record.writer =
      { settled s.writer with history := (settled s.writer).history ++ [⟨s.now, s.window⟩] } :=
    settled_submit s.writer (.history ⟨s.now, s.window⟩)
  have hplaced : ∀ r ∈ s.logged, r ∈ s.writer.saved.traffic := by
    intro r hr
    have hmem := h.ledger.placed r hr
    rw [hbuffer, settled_traffic hcommitted] at hmem
    exact hmem.resolve_right List.not_mem_nil
  refine ⟨⟨db, hworked.step (a := .submit _) rfl⟩, ?_, fun hnot => absurd rfl (hnot s.now), ?_⟩
  · rw [hdb]
    refine ⟨h.ledger.rows, fun rec hrec r hr => ?_, h.ledger.placed, h.ledger.past,
      fun r hr hle => ?_, fun r hr hlt => ?_, fun r hr => ⟨hr, h.ledger.past r hr⟩⟩
    · rcases List.mem_append.mp hrec with hrec | hrec
      · exact h.ledger.records rec hrec r hr
      · rw [List.mem_singleton.mp hrec] at hr
        refine h.ledger.rows r (.inl ?_)
        rw [settled_traffic hcommitted]
        exact (List.mem_filter.mp hr).1
    · rw [count_append]
      rcases le_or_gt r.ts s.last with hold | hnew
      · have hnot : r ∉ s.window := by
          intro hmem
          exact absurd (of_decide_eq_true (List.mem_filter.mp hmem).2) (not_lt.mpr hold)
        rw [h.ledger.counted r hr (hlastTs ▸ hold), if_neg hnot]
      · have hmem : r ∈ s.window := List.mem_filter.mpr ⟨hplaced r hr, decide_eq_true hnew⟩
        rw [h.ledger.uncounted r hr (hlastTs ▸ hnew), if_pos hmem]
    · exact absurd (h.ledger.past r hr) (not_le.mpr hlt)
  · intro hpc
    rcases hpc with hpc | hpc <;> cases hpc

/-- The writer takes a step. -/
theorem Inv.worker (h : s.Inv) {a : WriterEvent (StatsItem τ)}
    {w : DbWriter (StatsItem τ) (StatsDb τ)} (hs : s.writer.step statsExec a = some w)
    (hsubmit : ∀ i, a ≠ .submit i) (hconnect : a ≠ .noConnection) (hcommit : a ≠ .commitFails) :
    ({ s with writer := w } : TrafficLog τ).Inv := by
  obtain ⟨db, hworked⟩ := h.worked
  obtain ⟨hsettled, hsubset⟩ := settled_step hworked hs hsubmit hconnect hcommit
  refine ⟨⟨db, hworked.step hs⟩, ?_, fun hpc i hi => h.history hpc i (hsubset hi), h.empty⟩
  rw [show settled w = settled s.writer from hsettled]
  exact ⟨h.ledger.rows, h.ledger.records, h.ledger.placed, h.ledger.past, h.ledger.counted,
    h.ledger.uncounted, h.ledger.due⟩

/-- **Step lemma**: a timely step keeps every row counted at most once, and once when it is not
later than the last push. -/
theorem Inv.step (h : s.Inv) {a : TrafficEvent τ} (hs : s.step a = some s')
    (htimely : Timely s a s') : s'.Inv := by
  have hnot : s.pc = .idle → ∀ now, s.pc ≠ .recording now := by
    intro hidle now hnow
    rw [hidle] at hnow
    cases hnow
  cases a with
  | tick now =>
    simp only [TrafficLog.step] at hs
    split at hs <;> cases hs
    next hnow =>
      exact ⟨h.worked, ⟨h.ledger.rows, h.ledger.records, h.ledger.placed,
        fun r hr => (h.ledger.past r hr).trans hnow, h.ledger.counted, h.ledger.uncounted,
        h.ledger.due⟩, h.history, h.empty⟩
  | finish status bytesIn bytesOut duration =>
    simp only [TrafficLog.step] at hs
    split at hs <;> cases hs
    next hidle => exact h.finish hidle htimely
  | flush wait =>
    simp only [TrafficLog.step] at hs
    split at hs
    · next hidle =>
      split at hs <;> cases hs
      · exact h
      · refine h.handOver hidle (fun now hnow => ?_)
        split at hnow <;> cases hnow
    · cases hs
  | push =>
    simp only [TrafficLog.step] at hs
    split at hs
    · next hidle =>
      split at hs <;> cases hs
      · next hbuffer =>
        refine h.withPc ?_ (h.history (hnot hidle)) (fun _ => hbuffer)
        rw [lastTs, lastTs, hidle]
      · exact h.handOver hidle (fun now hnow => by cases hnow)
    · cases hs
  | query =>
    simp only [TrafficLog.step] at hs
    split at hs <;> cases hs
    next hquery => exact h.query hquery htimely
  | drainReturns =>
    simp only [TrafficLog.step] at hs
    split at hs
    · next hdrained =>
      obtain ⟨db, hworked⟩ := h.worked
      -- after a drain nothing is outstanding
      have hnone : ∀ i ∈ s.writer.outstanding, isHistory i.2 = false := by
        rw [hworked.outstanding_of_drained hdrained]
        exact fun i hi => absurd hi List.not_mem_nil
      split at hs <;> cases hs
      · next hpc =>
        refine h.withPc ?_ hnone (fun hor => by rcases hor with hor | hor <;> cases hor)
        rw [lastTs, lastTs, hpc]
      · next hpc =>
        refine h.withPc ?_ hnone (fun _ => h.empty (.inl hpc))
        rw [lastTs, lastTs, hpc]
      · next now hpc =>
        refine h.withPc ?_ hnone (fun hor => by rcases hor with hor | hor <;> cases hor)
        rw [lastTs, lastTs, hpc]
    · cases hs
  | worker a =>
    simp only [TrafficLog.step] at hs
    split at hs
    · cases hs
      obtain ⟨db, hworked⟩ := h.worked
      refine ⟨⟨db, hworked.step (a := .submit .other) rfl⟩, ?_, fun hpc i hi => ?_, h.empty⟩
      · dsimp only
        rw [settled_submit]
        exact ⟨h.ledger.rows, h.ledger.records, h.ledger.placed, h.ledger.past, h.ledger.counted,
          h.ledger.uncounted, h.ledger.due⟩
      · dsimp only at hi
        rw [DbWriter.outstanding_submit] at hi
        rcases List.mem_append.mp hi with hi | hi
        · exact h.history hpc i hi
        · rw [List.mem_singleton.mp hi]
          rfl
    · cases hs
    · cases hs
    · cases hs
    · next hother hsubmit hconnect hcommit =>
      obtain ⟨w, hw, rfl⟩ := Option.map_eq_some_iff.mp hs
      exact h.worker hw hsubmit hconnect hcommit

theorem Started.inv (h : s.Started) : s.Inv := by
  obtain ⟨db, hdb, hrows, hrecords⟩ := h.writer
  have hsettled : settled s.writer = db := by rw [hdb]; rfl
  refine ⟨⟨db, hdb ▸ .start db⟩, ?_, ?_, fun _ => h.buffer⟩
  · rw [hsettled]
    refine ⟨fun r hr => hrows r (hr.resolve_right ?_), hrecords, ?_, ?_, ?_, ?_, ?_⟩
    · rw [h.buffer]
      exact List.not_mem_nil
    · rw [h.logged]
      exact fun r hr => absurd hr List.not_mem_nil
    · rw [h.logged]
      exact fun r hr => absurd hr List.not_mem_nil
    · rw [h.logged]
      exact fun r hr => absurd hr List.not_mem_nil
    · rw [h.logged]
      exact fun r hr => absurd hr List.not_mem_nil
    · rw [h.due]
      exact fun r hr => absurd hr List.not_mem_nil
  · rw [hdb]
    exact fun _ i hi => absurd hi List.not_mem_nil

theorem Inv.countedOnce (h : s.Inv) : s.CountedOnce := by
  intro hpc r hr
  obtain ⟨hlogged, hle⟩ := h.ledger.due r hr
  rw [← settled_history (h.history hpc)]
  exact h.ledger.counted r hlogged hle

/-- **Every traffic row lands in exactly one record** in timely runs: while no request is finished
at exactly the time of the previous push, and no push makes its query while rows are on their way
to the database, every row that was logged before a push is counted in exactly one record when
the push is over. -/
theorem requests_counted_once (h : s.Started) (hreaches : machine.Reaches Timely s s') :
    s'.CountedOnce :=
  (hreaches.invariant h.inv (fun _ _ _ hI hs hg => hI.step hs hg)).countedOnce

end

/-! ### The buffer is flushed just before the push -/

instance (s s' : TrafficLog ℕ) (a : TrafficEvent ℕ) : Decidable (Timely s a s') :=
  match a with
  | .finish _ _ _ _ => inferInstanceAs (Decidable (s.last < s.now))
  | .query => inferInstanceAs (Decidable (∀ i ∈ s.writer.outstanding, isTraffic i.2 = false))
  | .tick _ => .isTrue trivial
  | .flush _ => .isTrue trivial
  | .push => .isTrue trivial
  | .drainReturns => .isTrue trivial
  | .worker _ => .isTrue trivial

/-- A process that starts at time 0 with empty tables. -/
def fresh : TrafficLog ℕ := ⟨0, 0, [], .start ⟨[], []⟩, .idle, 0, [], []⟩

theorem fresh_started : fresh.Started := ⟨⟨_, rfl, by decide, by decide⟩, rfl, rfl, rfl, rfl⟩

/-- The event of a request. -/
def request : TrafficEvent ℕ := .finish "ok".toList 10 20 1

/-- The writer works off one item. -/
def oneItem : List (TrafficEvent ℕ) :=
  [.worker .get, .worker .collected, .worker .execute, .worker .commit]

/-- A push with rows to flush: the writer works off the rows, and then the record. -/
def onePush : List (TrafficEvent ℕ) :=
  .push :: oneItem ++ [.drainReturns, .query] ++ oneItem ++ [.drainReturns]

/-- One request is counted by the first push, and two by the second. -/
theorem requests_counted_once_two :
    ∃ s : TrafficLog ℕ, s.CountedOnce ∧ s.due.length = 3 ∧ s.pc = .idle ∧
      s.writer.saved.history.map HistoryRecord.requests = [1, 2] := by
  have hrun : (machine.exec (fun s a s' => decide (Timely s a s')) fresh
      ([.tick 1, request] ++ onePush ++ [.tick 2, request, .tick 3, request] ++ onePush)).any
        (fun s => decide (s.due.length = 3 ∧ s.pc = .idle ∧
          s.writer.saved.history.map HistoryRecord.requests = [1, 2])) = true := by
    decide +kernel
  obtain ⟨s, hs, hp⟩ := Machine.exists_reaches_of_exec (G := Timely)
    (fun _ _ _ => of_decide_eq_true) hrun
  exact ⟨s, requests_counted_once fresh_started hs, of_decide_eq_true hp⟩

/-- Fewer requests than a batch stay in the buffer. -/
theorem reaches_requests (k : ℕ) (hk : k < flushBatch) :
    ∃ (next : ℕ) (buffer logged : List (LoggedRow ℕ)), buffer.length = k ∧
      machine.Reaches Machine.anyStep fresh
        ⟨1, next, buffer, .start ⟨[], []⟩, .idle, 0, logged, []⟩ := by
  induction k with
  | zero => exact ⟨0, [], [], rfl, Machine.Reaches.single (a := .tick 1) rfl trivial⟩
  | succ k ih =>
    obtain ⟨next, buffer, logged, hlen, hreaches⟩ := ih (Nat.lt_of_succ_lt hk)
    refine ⟨next + 1, buffer ++ [⟨next, 1, "ok".toList, 10, 20, 1⟩],
      logged ++ [⟨next, 1, "ok".toList, 10, 20, 1⟩], by simp [hlen],
      hreaches.tail (a := request) ?_ trivial⟩
    refine congrArg some (if_neg ?_)
    simpa [hlen] using hk

/-- The rows of 500 requests are handed over, and the push, which finds the buffer empty, does
not wait for them: no record counts them. -/
theorem uncommitted_rows_lost :
    ¬ ∀ s s' : TrafficLog ℕ, s.Started → machine.Reaches Machine.anyStep s s' →
      s'.CountedOnce := by
  intro hall
  obtain ⟨next, buffer, logged, hlen, hreaches⟩ := reaches_requests 499 (by decide)
  let row : LoggedRow ℕ := ⟨next, 1, "ok".toList, 10, 20, 1⟩
  have hfull : machine.Reaches Machine.anyStep fresh ⟨1, next + 1, [],
      (DbWriter.start ⟨[], []⟩).submit (.traffic (buffer ++ [row])), .idle, 0, logged ++ [row],
      []⟩ := by
    refine hreaches.tail (a := request) (congrArg some (if_pos ?_)) trivial
    simp [hlen, flushBatch]
  -- the query comes before the writer takes the rows from its queue
  obtain ⟨s, hs, hdue, hidle, hhistory⟩ : ∃ s, machine.exec (fun _ _ _ => true) ⟨1, next + 1, [],
      (DbWriter.start ⟨[], []⟩).submit (.traffic (buffer ++ [row])), .idle, 0, logged ++ [row],
      []⟩ [.push, .query, .worker .get, .worker .getNowait, .worker .collected, .worker .execute,
        .worker .execute, .worker .commit, .drainReturns] = some s ∧
      s.due = logged ++ [row] ∧ s.pc = .idle ∧ s.writer.saved.history = [⟨1, []⟩] :=
    ⟨_, rfl, rfl, rfl, rfl⟩
  have hrun := hfull.trans (Machine.reaches_of_exec (fun _ _ _ _ => trivial) hs)
  have hone := hall fresh s fresh_started hrun
    (fun now hnow => by rw [hidle] at hnow; cases hnow) row (by rw [hdue]; simp)
  rw [hhistory] at hone
  exact absurd hone (by simp [count])

end TrafficLog

end HuntProxy
