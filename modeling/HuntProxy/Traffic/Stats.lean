import HuntProxy.Lib.IpText
import HuntProxy.Lib.Rollup
import Mathlib.Algebra.Order.Floor.Ring
import Mathlib.Data.List.Induction
import Mathlib.Data.Rat.Floor
import Mathlib.Algebra.Group.Prod
import Mathlib.Tactic.Ring

/-!
# The hourly rollup of the traffic

`TrafficStats` folds every traffic row into counters by hour and upstream as it is logged,
and forgets the hours that have left the window. At startup the same counters are computed
by one grouped query. Times and durations are exact rationals, and the readings of the clock
are arguments.

## Main definitions

- `TrafficStats`, `TrafficStats.add`, `TrafficStats.prune` — the incremental path
- `TrafficStats.loadFromDb` — the rebuild from the table
- `TrafficStats.totals`, `TrafficStats.byUpstream` — the sums over the hours from a cutoff on
- `TrafficStats.Op`, `TrafficStats.run` — adds and prunes in any order

## Main results

- `TrafficStats.run_counters` — the counters of the hours that no prune has reached
- `TrafficStats.incremental_eq_rebuild` — both paths give the same counters
-/

namespace HuntProxy

open Ip (Str)

/-- Requests, bytes in and out, requests that went well, and seconds. -/
structure TrafficCounters where
  cnt : ℤ
  bytesIn : ℤ
  bytesOut : ℤ
  ok : ℤ
  dur : ℚ
  deriving DecidableEq, Repr

namespace TrafficCounters

instance : Add TrafficCounters where
  add a b := ⟨a.cnt + b.cnt, a.bytesIn + b.bytesIn, a.bytesOut + b.bytesOut, a.ok + b.ok, a.dur + b.dur⟩

/-- `[0, 0, 0, 0, 0.0]`. -/
instance : Zero TrafficCounters where
  zero := ⟨0, 0, 0, 0, 0⟩

@[ext] theorem ext {a b : TrafficCounters} (hcnt : a.cnt = b.cnt) (hin : a.bytesIn = b.bytesIn)
    (hout : a.bytesOut = b.bytesOut) (hok : a.ok = b.ok) (hdur : a.dur = b.dur) : a = b := by
  obtain ⟨⟩ := a
  obtain ⟨⟩ := b
  simp_all

@[simp] theorem cnt_add (a b : TrafficCounters) : (a + b).cnt = a.cnt + b.cnt := rfl
@[simp] theorem bytesIn_add (a b : TrafficCounters) : (a + b).bytesIn = a.bytesIn + b.bytesIn := rfl
@[simp] theorem bytesOut_add (a b : TrafficCounters) : (a + b).bytesOut = a.bytesOut + b.bytesOut := rfl
@[simp] theorem ok_add (a b : TrafficCounters) : (a + b).ok = a.ok + b.ok := rfl
@[simp] theorem dur_add (a b : TrafficCounters) : (a + b).dur = a.dur + b.dur := rfl
@[simp] theorem cnt_zero : (0 : TrafficCounters).cnt = 0 := rfl
@[simp] theorem bytesIn_zero : (0 : TrafficCounters).bytesIn = 0 := rfl
@[simp] theorem bytesOut_zero : (0 : TrafficCounters).bytesOut = 0 := rfl
@[simp] theorem ok_zero : (0 : TrafficCounters).ok = 0 := rfl
@[simp] theorem dur_zero : (0 : TrafficCounters).dur = 0 := rfl

instance : AddCommMonoid TrafficCounters where
  add_assoc a b c := by ext <;> simp [add_assoc]
  zero_add a := by ext <;> simp
  add_zero a := by ext <;> simp
  add_comm a b := by ext <;> simp [add_comm]
  nsmul := nsmulRec

/-- The four counters that the totals are made of. -/
def four (c : TrafficCounters) : ℤ × ℤ × ℤ × ℤ := (c.cnt, c.bytesIn, c.bytesOut, c.ok)

theorem four_add (a b : TrafficCounters) : (a + b).four = a.four + b.four := rfl

end TrafficCounters

/-- The columns of `traffic_log` that the rollup is about. -/
structure TrafficRow where
  ts : ℚ
  status : Str
  upstream : Str
  bytesIn : ℤ
  bytesOut : ℤ
  duration : ℚ
  deriving DecidableEq, Repr

/-- The counters of one row. -/
def TrafficRow.counters (r : TrafficRow) : TrafficCounters :=
  ⟨1, r.bytesIn, r.bytesOut, if r.status = "ok".toList then 1 else 0, r.duration⟩

/-- The hourly rollup. -/
structure TrafficStats where
  hours : Dict ℤ (Dict Str TrafficCounters)
  lastPrune : ℚ
  ready : Bool

namespace TrafficStats

/-- `HOUR`. -/
def hour : ℤ := 3600

/-- `WINDOW`. -/
def window : ℚ := 35 * 86400

/-- `_PRUNE_EVERY`. -/
def pruneEvery : ℚ := 600

/-- `_PRUNE_THRESHOLD`. -/
def pruneThreshold : ℕ := 900

/-- `TrafficStats()`. -/
def empty : TrafficStats := ⟨.empty, 0, false⟩

/-- `int(ts // HOUR) * HOUR`. -/
def hourOf (ts : ℚ) : ℤ := ⌊ts / hour⌋ * hour

/-- `prune`. -/
def prune (s : TrafficStats) (now : ℚ) : TrafficStats :=
  { s with
    hours := s.hours.eraseAll (s.hours.keys.filter (fun h => (h : ℚ) < now - window))
    lastPrune := now }

/-- Add to the counters of an upstream in an hour. -/
def bump (s : TrafficStats) (h : ℤ) (upstream : Str) (c : TrafficCounters) : TrafficStats :=
  { s with
    hours := s.hours.insert h (Rollup.bump ((s.hours.get? h).getD .empty) upstream c) }

/-- `add`. `clock` is what `time.time()` gives for the comparison, and `pruneClock` what it
gives for the prune. -/
def add (s : TrafficStats) (r : TrafficRow) (clock pruneClock : ℚ) : TrafficStats :=
  let h := hourOf r.ts
  let s :=
    match s.hours.get? h with
    | some _ => s
    | none =>
      if pruneThreshold < s.hours.keys.length ∧ pruneEvery < clock - s.lastPrune then
        s.prune pruneClock
      else s
  s.bump h (if r.upstream = [] then [] else r.upstream) r.counters

/-- `totals`. -/
def totals (s : TrafficStats) (cutoff : ℚ) : ℤ × ℤ × ℤ × ℤ :=
  s.hours.items.foldl
    (fun out p =>
      if (p.1 : ℚ) < cutoff then out
      else p.2.items.foldl (fun out q => out + q.2.four) out) 0

/-- `by_upstream`. -/
def byUpstream (s : TrafficStats) (cutoff : ℚ) : Dict Str TrafficCounters :=
  s.hours.items.foldl
    (fun out p =>
      if (p.1 : ℚ) < cutoff then out
      else p.2.items.foldl (fun out q => Rollup.bump out q.1 q.2) out) .empty

/-! ### The rebuild -/

/-- `CAST(x AS INTEGER)` truncates. -/
def castInteger (x : ℚ) : ℤ := if 0 ≤ x then ⌊x⌋ else ⌈x⌉

/-- The columns `h` and `upstream` of a row. -/
def groupKey (r : TrafficRow) : ℤ × Str := (castInteger (r.ts / hour) * hour, r.upstream)

/-- The aggregates of a group: `COUNT(*)` and the sums of the columns. -/
def aggregate (rows : List TrafficRow) : TrafficCounters :=
  ⟨rows.length, (rows.map TrafficRow.bytesIn).sum, (rows.map TrafficRow.bytesOut).sum,
    (rows.map (fun r => if r.status = "ok".toList then (1 : ℤ) else 0)).sum,
    (rows.map TrafficRow.duration).sum⟩

/-- `SELECT … FROM traffic_log WHERE ts > since GROUP BY h, upstream`. -/
def groupedScan (table : List TrafficRow) (since : ℚ) : List ((ℤ × Str) × TrafficCounters) :=
  let rows := table.filter (fun r => since < r.ts)
  (rows.map groupKey).dedup.map (fun k => (k, aggregate (rows.filter (fun r => groupKey r = k))))

/-- `load_from_db`, on the rows of the grouped scan in the order in which they come. -/
def loadFromDb (s : TrafficStats) (cur : List ((ℤ × Str) × TrafficCounters)) (now : ℚ) : TrafficStats :=
  let s := cur.foldl (fun s g => s.bump g.1.1 (if g.1.2 = [] then [] else g.1.2) g.2) s
  { s.prune now with ready := true }

/-! ### Runs -/

/-- A call of the incremental path, with its readings of the clock. -/
inductive Op
  | add (r : TrafficRow) (clock pruneClock : ℚ)
  | prune (now : ℚ)
  deriving DecidableEq, Repr

/-- One call. -/
def step (s : TrafficStats) : Op → TrafficStats
  | .add r clock pruneClock => s.add r clock pruneClock
  | .prune now => s.prune now

/-- The calls, one after the other. -/
def run (ops : List Op) (s : TrafficStats) : TrafficStats := ops.foldl step s

/-- The row that a call adds. -/
def Op.row? : Op → Option TrafficRow
  | .add r _ _ => some r
  | .prune _ => none

/-- The time to which a call may prune. -/
def Op.pruneTime : Op → ℚ
  | .add _ _ pruneClock => pruneClock
  | .prune now => now

/-- The rows added by the calls. -/
def rows (ops : List Op) : List TrafficRow := ops.filterMap Op.row?

/-- The same counters: the same hours, and in each of them the same counters by upstream. -/
def SameCounters (s t : TrafficStats) : Prop :=
  ∀ h, (s.hours.get? h).map Dict.get? = (t.hours.get? h).map Dict.get?

/-! ### Single operations -/

/-- The counters of an upstream in an hour. -/
def counter (s : TrafficStats) (h : ℤ) (upstream : Str) : Option TrafficCounters :=
  (s.hours.get? h).bind (fun buckets => buckets.get? upstream)

/-- No hour is kept without an upstream. -/
def Full (s : TrafficStats) : Prop :=
  ∀ h buckets, s.hours.get? h = some buckets → ∃ upstream c, buckets.get? upstream = some c

theorem hours_prune (s : TrafficStats) (now : ℚ) (h : ℤ) :
    (s.prune now).hours.get? h = if (h : ℚ) < now - window then none else s.hours.get? h := by
  simp only [prune, Dict.get?_eraseAll, List.mem_filter, decide_eq_true_eq, Dict.mem_keys]
  by_cases hold : (h : ℚ) < now - window
  · cases hget : s.hours.get? h with
    | none => simp [hold]
    | some buckets => simp [hold, Dict.mem_keys.mpr ⟨buckets, hget⟩]
  · simp [hold]

/-- A prune leaves the hours of every later window alone. -/
theorem hours_prune_of_le (s : TrafficStats) {pruneTime now : ℚ} (hle : pruneTime ≤ now) {h : ℤ}
    (hh : now - window ≤ h) : (s.prune pruneTime).hours.get? h = s.hours.get? h := by
  rw [hours_prune, if_neg (by linarith)]

theorem Full.prune {s : TrafficStats} (hs : s.Full) (now : ℚ) : (s.prune now).Full := by
  intro h buckets hget
  rw [hours_prune] at hget
  split at hget
  · cases hget
  · exact hs h buckets hget

theorem counter_bump (s : TrafficStats) (h h' : ℤ) (upstream upstream' : Str) (c : TrafficCounters) :
    (s.bump h upstream c).counter h' upstream' =
      if (h', upstream') = (h, upstream) then some ((s.counter h upstream).getD 0 + c)
      else s.counter h' upstream' := by
  unfold counter bump
  dsimp only
  rw [Dict.get?_insert]
  by_cases hh : h' = h
  · subst hh
    rw [if_pos rfl, Option.bind_some, Rollup.get?_bump]
    cases s.hours.get? h' with
    | none => simp
    | some buckets => simp
  · rw [if_neg hh, if_neg (fun heq => hh (Prod.mk.inj heq).1)]

theorem Full.bump {s : TrafficStats} (hs : s.Full) (h : ℤ) (upstream : Str) (c : TrafficCounters) :
    (s.bump h upstream c).Full := by
  intro h' buckets hget
  simp only [TrafficStats.bump, Dict.get?_insert] at hget
  split at hget
  · cases hget
    exact ⟨upstream, _, by rw [Rollup.get?_bump, if_pos rfl]⟩
  · exact hs h' buckets hget

/-- An upstream that is left out counts as the empty one. -/
theorem upstream_or_empty (upstream : Str) : (if upstream = [] then [] else upstream) = upstream := by
  split
  · next h => exact h.symm
  · rfl

/-- The state that `add` bumps: the old one, or a pruned one. -/
theorem add_eq (s : TrafficStats) (r : TrafficRow) (clock pruneClock : ℚ) :
    s.add r clock pruneClock = s.bump (hourOf r.ts) r.upstream r.counters ∨
      s.add r clock pruneClock =
        (s.prune pruneClock).bump (hourOf r.ts) r.upstream r.counters := by
  unfold add
  rw [upstream_or_empty]
  dsimp only
  split
  · exact .inl rfl
  · split
    · exact .inr rfl
    · exact .inl rfl

theorem Full.step {s : TrafficStats} (hs : s.Full) (op : Op) : (s.step op).Full := by
  cases op with
  | prune now => exact hs.prune now
  | add r clock pruneClock =>
    change (s.add r clock pruneClock).Full
    rcases add_eq s r clock pruneClock with heq | heq
    · exact heq ▸ hs.bump _ _ _
    · exact heq ▸ (hs.prune pruneClock).bump _ _ _

/-! ### Runs of the incremental path -/

/-- What a row adds, and where. -/
def contribution (r : TrafficRow) : (ℤ × Str) × TrafficCounters :=
  ((hourOf r.ts, r.upstream), r.counters)

theorem full_run (ops : List Op) : (run ops empty).Full := by
  have hstart : empty.Full := fun _ _ hget => by cases hget
  unfold run
  generalize empty = s at hstart
  induction ops generalizing s with
  | nil => exact hstart
  | cons op rest ih => exact ih (s.step op) (hstart.step op)

/-- The counters of an hour after one more call that prunes no later than `now`. -/
theorem counter_step (s : TrafficStats) (op : Op) {now : ℚ} (hop : op.pruneTime ≤ now) {h : ℤ}
    (hh : now - window ≤ h) (upstream : Str) :
    (s.step op).counter h upstream =
      match op.row? with
      | none => s.counter h upstream
      | some r =>
        if (h, upstream) = (hourOf r.ts, r.upstream) then
          some ((s.counter (hourOf r.ts) r.upstream).getD 0 + r.counters)
        else s.counter h upstream := by
  have hpruned : (s.prune op.pruneTime).counter h upstream = s.counter h upstream := by
    rw [counter, hours_prune_of_le s hop hh, counter]
  cases op with
  | prune pruneTime => exact hpruned
  | add r clock pruneClock =>
    change (s.add r clock pruneClock).counter h upstream = _
    rcases add_eq s r clock pruneClock with heq | heq
    · rw [heq, counter_bump]
      rfl
    · rw [heq, counter_bump]
      change _ = if _ then _ else _
      split
      · next hkey =>
        obtain ⟨rfl, rfl⟩ := Prod.mk.inj hkey
        exact congrArg (fun c => some (Option.getD c 0 + r.counters)) hpruned
      · exact hpruned

/-- **The counters of the hours that no prune has reached** are the totals of the rows added. -/
theorem run_counters (ops : List Op) {now : ℚ} (hops : ∀ op ∈ ops, op.pruneTime ≤ now) {h : ℤ}
    (hh : now - window ≤ h) (upstream : Str) :
    (run ops empty).counter h upstream =
      Rollup.total ((rows ops).map contribution) (h, upstream) := by
  induction ops using List.reverseRecOn generalizing h upstream with
  | nil => rfl
  | append_singleton ops op ih =>
    have hinit : ∀ op' ∈ ops, op'.pruneTime ≤ now :=
      fun op' hop' => hops op' (List.mem_append_left _ hop')
    have hlast : op.pruneTime ≤ now := hops op (by simp)
    have hrun : run (ops ++ [op]) empty = (run ops empty).step op := by simp [run]
    rw [hrun, counter_step _ op hlast hh, ih hinit hh upstream]
    cases hrow : op.row? with
    | none => simp [rows, hrow]
    | some r =>
      have hrows : (rows (ops ++ [op])).map contribution =
          (rows ops).map contribution ++ [((hourOf r.ts, r.upstream), r.counters)] := by
        simp [rows, hrow, contribution]
      rw [hrows, Rollup.total_concat]
      dsimp only
      split
      · next hkey =>
        obtain ⟨rfl, rfl⟩ := Prod.mk.inj hkey
        rw [ih hinit hh]
      · rfl

/-! ### The rebuild -/

theorem aggregate_eq_sum (rows : List TrafficRow) :
    aggregate rows = (rows.map TrafficRow.counters).sum := by
  induction rows with
  | nil => rfl
  | cons r rest ih =>
    rw [List.map_cons, List.sum_cons, ← ih]
    ext <;> simp [aggregate, TrafficRow.counters, add_comm]

/-- The grouped scan computes the groups of the rows in the window. -/
theorem groupedScan_eq (table : List TrafficRow) (since : ℚ) :
    groupedScan table since =
      Rollup.groups ((table.filter (fun r => since < r.ts)).map
        (fun r => (groupKey r, r.counters))) := by
  unfold groupedScan Rollup.groups
  simp only [List.map_map]
  refine List.map_congr_left (fun k _ => ?_)
  rw [aggregate_eq_sum]
  simp [Rollup.valuesAt, List.filter_map, Function.comp_def]

/-- Nonnegative times fall into the hour that the query computes. -/
theorem groupKey_eq {r : TrafficRow} (hr : 0 ≤ r.ts) : groupKey r = (hourOf r.ts, r.upstream) := by
  have hdiv : 0 ≤ r.ts / hour := div_nonneg hr (by norm_num [hour])
  rw [groupKey, castInteger, if_pos hdiv, hourOf]

theorem hourOf_le (ts : ℚ) : (hourOf ts : ℚ) ≤ ts := by
  have hhour : (0 : ℚ) < hour := by norm_num [hour]
  have hfloor := Int.floor_le (ts / hour)
  rw [le_div_iff₀ hhour] at hfloor
  rw [hourOf, Int.cast_mul]
  exact hfloor

theorem full_foldl (cur : List ((ℤ × Str) × TrafficCounters)) (s : TrafficStats) (hs : s.Full) :
    (cur.foldl (fun s g => s.bump g.1.1 (if g.1.2 = [] then [] else g.1.2) g.2) s).Full := by
  induction cur generalizing s with
  | nil => exact hs
  | cons g rest ih => exact ih _ (hs.bump _ _ _)

/-- The counters that the loop of `load_from_db` builds. -/
theorem counter_foldl (cur : List ((ℤ × Str) × TrafficCounters)) (h : ℤ) (upstream : Str) :
    (cur.foldl (fun s g => s.bump g.1.1 (if g.1.2 = [] then [] else g.1.2) g.2) empty).counter
        h upstream = Rollup.total cur (h, upstream) := by
  induction cur using List.reverseRecOn generalizing h upstream with
  | nil => rfl
  | append_singleton cur g ih =>
    obtain ⟨⟨h', upstream'⟩, c⟩ := g
    rw [List.foldl_concat, counter_bump, Rollup.total_concat, upstream_or_empty, ih, ih]

/-- The rows of an hour of the window are in the window, unless one lies on its edge. -/
theorem in_window {r : TrafficRow} {since : ℚ} (hedge : r.ts ≠ since)
    (hh : since ≤ hourOf r.ts) : since < r.ts :=
  lt_of_le_of_ne (hh.trans (hourOf_le r.ts)) (Ne.symm hedge)

/-- **The counters of a rebuild** are the totals of the rows of the table. -/
theorem load_counters {table : List TrafficRow} {cur : List ((ℤ × Str) × TrafficCounters)} {now : ℚ}
    (hts : ∀ r ∈ table, 0 ≤ r.ts) (hedge : ∀ r ∈ table, r.ts ≠ now - window)
    (hcur : cur.Perm (groupedScan table (now - window))) {h : ℤ} (hh : now - window ≤ h)
    (upstream : Str) :
    (cur.foldl (fun s g => s.bump g.1.1 (if g.1.2 = [] then [] else g.1.2) g.2) empty).counter
        h upstream = Rollup.total (table.map contribution) (h, upstream) := by
  rw [counter_foldl, Rollup.total_perm hcur, groupedScan_eq, Rollup.total_groups]
  have hmap : (table.filter (fun r => now - window < r.ts)).map
      (fun r => (groupKey r, r.counters)) =
      (table.filter (fun r => now - window < r.ts)).map contribution := by
    refine List.map_congr_left (fun r hr => ?_)
    rw [groupKey_eq (hts r (List.mem_filter.mp hr).1), contribution]
  rw [hmap, Rollup.total, Rollup.total]
  have hvalues : Rollup.valuesAt
        ((table.filter (fun r => now - window < r.ts)).map contribution) (h, upstream) =
      Rollup.valuesAt (table.map contribution) (h, upstream) := by
    unfold Rollup.valuesAt
    rw [List.filter_map, List.filter_map, List.filter_filter]
    congr 2
    refine List.filter_congr (fun r hr => ?_)
    by_cases hkey : (hourOf r.ts, r.upstream) = (h, upstream)
    · have hin : now - window < r.ts := by
        refine in_window (hedge r hr) ?_
        rwa [(Prod.mk.inj hkey).1]
      simp [hin]
    · simp [contribution, hkey]
  rw [hvalues]

/-! ### Both paths -/

/-- The counters by hour and upstream say which hours there are. -/
theorem sameCounters_of {s t : TrafficStats} (hs : s.Full) (ht : t.Full)
    (h : ∀ h upstream, s.counter h upstream = t.counter h upstream) : SameCounters s t := by
  intro hr
  cases hshour : s.hours.get? hr with
  | none =>
    cases hthour : t.hours.get? hr with
    | none => rfl
    | some buckets =>
      obtain ⟨upstream, c, hc⟩ := ht hr buckets hthour
      have hsame := h hr upstream
      simp [counter, hshour, hthour, hc] at hsame
  | some buckets =>
    cases hthour : t.hours.get? hr with
    | none =>
      obtain ⟨upstream, c, hc⟩ := hs hr buckets hshour
      have hsame := h hr upstream
      simp [counter, hshour, hthour, hc] at hsame
    | some buckets' =>
      have hfun : buckets.get? = buckets'.get? := by
        funext upstream
        have hsame := h hr upstream
        simpa [counter, hshour, hthour] using hsame
      simp [hfun]

theorem counter_prune (s : TrafficStats) (now : ℚ) (h : ℤ) (upstream : Str) :
    (s.prune now).counter h upstream =
      if (h : ℚ) < now - window then none else s.counter h upstream := by
  rw [counter, hours_prune]
  split <;> rfl

/-! ### The sums from a cutoff on -/

theorem foldl_four (l : List (Str × TrafficCounters)) (out : ℤ × ℤ × ℤ × ℤ) :
    l.foldl (fun out q => out + q.2.four) out = out + ((l.map Prod.snd).sum).four := by
  induction l generalizing out with
  | nil => simp [TrafficCounters.four]
  | cons q rest ih =>
    rw [List.foldl_cons, ih, List.map_cons, List.sum_cons, TrafficCounters.four_add, add_assoc]

/-- **The totals are the sums of the counters by upstream.** -/
theorem totals_eq_sum_byUpstream (s : TrafficStats) (cutoff : ℚ) :
    s.totals cutoff = ((s.byUpstream cutoff).values.sum).four := by
  unfold totals byUpstream
  have hgen : ∀ (l : List (ℤ × Dict Str TrafficCounters)) (out : ℤ × ℤ × ℤ × ℤ) (d : Dict Str TrafficCounters),
      out = d.values.sum.four →
      l.foldl (fun out p => if (p.1 : ℚ) < cutoff then out
          else p.2.items.foldl (fun out q => out + q.2.four) out) out =
        (l.foldl (fun out p => if (p.1 : ℚ) < cutoff then out
          else p.2.items.foldl (fun out q => Rollup.bump out q.1 q.2) out) d).values.sum.four := by
    intro l
    induction l with
    | nil => exact fun out d hout => hout
    | cons p rest ih =>
      intro out d hout
      rw [List.foldl_cons, List.foldl_cons]
      refine ih _ _ ?_
      split
      · exact hout
      · rw [foldl_four, Rollup.sum_values_foldl, TrafficCounters.four_add, hout]
  exact hgen s.hours.items 0 .empty rfl

/-- **Incremental statistics equal a rebuild.** Rows added one by one, with prunes at any
earlier times between them, and pruned at `now` leave the counters that `load_from_db`
computes from a table of the same rows, in whatever order the table and the query give them,
unless a row lies on the very edge of the window; and for every cutoff the totals are the
sums of the counters by upstream. -/
theorem incremental_eq_rebuild (ops : List Op) (table : List TrafficRow)
    (cur : List ((ℤ × Str) × TrafficCounters)) (now : ℚ) (htable : table.Perm (rows ops))
    (hcur : cur.Perm (groupedScan table (now - window)))
    (hts : ∀ r ∈ rows ops, 0 ≤ r.ts) (hedge : ∀ r ∈ rows ops, r.ts ≠ now - window)
    (hearlier : ∀ op ∈ ops, op.pruneTime ≤ now) :
    SameCounters ((run ops empty).prune now) (empty.loadFromDb cur now) ∧
      ∀ (s : TrafficStats) (cutoff : ℚ),
        s.totals cutoff = ((s.byUpstream cutoff).values.sum).four := by
  refine ⟨?_, totals_eq_sum_byUpstream⟩
  have hempty : empty.Full := fun _ _ hget => by cases hget
  have hfull := (full_foldl cur empty hempty).prune now
  refine sameCounters_of ((full_run ops).prune now) hfull (fun h upstream => ?_)
  have hload : (empty.loadFromDb cur now).counter h upstream =
      ((cur.foldl (fun s g => s.bump g.1.1 (if g.1.2 = [] then [] else g.1.2) g.2) empty).prune
        now).counter h upstream := rfl
  rw [hload, counter_prune, counter_prune]
  split
  · rfl
  · next hh =>
    have hh : now - window ≤ h := not_lt.mp hh
    rw [run_counters ops hearlier hh, load_counters (fun r hr => hts r (htable.mem_iff.mp hr))
      (fun r hr => hedge r (htable.mem_iff.mp hr)) hcur hh]
    exact Rollup.total_perm (htable.symm.map contribution) _

/-- A request that failed and one that went well, with a prune between them. -/
theorem incremental_eq_rebuild_sample :
    let failed : TrafficRow := ⟨7205, "timeout".toList, [], 0, 0, 5⟩
    let served : TrafficRow := ⟨7300, "ok".toList, "direct".toList, 10, 20, 1 / 4⟩
    let ops : List Op := [.add failed 7205 7205, .prune 7250, .add served 7300 7300]
    let loaded := empty.loadFromDb (groupedScan [served, failed] (9000 - window)) 9000
    SameCounters ((run ops empty).prune 9000) loaded ∧
      loaded.counter 7200 "direct".toList = some ⟨1, 10, 20, 1, 1 / 4⟩ ∧
      loaded.counter 7200 [] = some ⟨1, 0, 0, 0, 5⟩ := by
  intro failed served ops loaded
  have htable : [served, failed].Perm (rows ops) := .swap failed served []
  have hmem : ∀ r ∈ rows ops, r = served ∨ r = failed := by
    intro r hr
    simpa using htable.mem_iff.mpr hr
  refine ⟨(incremental_eq_rebuild ops _ _ 9000 htable (.refl _) ?_ ?_ ?_).1, by decide +kernel,
    by decide +kernel⟩
  · intro r hr
    rcases hmem r hr with rfl | rfl <;> norm_num [failed, served]
  · intro r hr
    rcases hmem r hr with rfl | rfl <;> norm_num [failed, served, window]
  · intro op hop
    simp only [ops, List.mem_cons, List.not_mem_nil, or_false] at hop
    rcases hop with rfl | rfl | rfl <;> norm_num [Op.pruneTime]

end TrafficStats

end HuntProxy
