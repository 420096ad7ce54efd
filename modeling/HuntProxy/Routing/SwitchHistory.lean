import HuntProxy.Lib.Periods
import HuntProxy.Routing.Chain
import Mathlib.Algebra.Order.Ring.Rat
import Mathlib.Data.List.Chain

/-!
# The switch history

`_build_switch_history` shows which upstream has been active and for how long. Entries
without an address are dropped, entries that follow each other with the same address become
one row, and a row is active from its own time to that of the next row, the last one until
now. One query sums up the traffic of all rows, within the last 24 hours.

Times are exact numbers here.

## Main definitions

- `SwitchEntry`, `TrafficRow`, `SwitchRow` — the stored history, the traffic log, and the rows
- `mergeConsecutive`, `intervals`, `trafficByPeriod`, `periodDurations`, `buildSwitchHistory`
- `PartitionsTime` — the rows divide the time, and the traffic, among them

## Main results

- `merge_chain`, `merge_sublist`, `merge_covers` — what merging leaves
- `switch_history_partitions` — the rows divide the time
-/

namespace HuntProxy.Routing

/-- An entry of the switch history; a missing address is an empty one. -/
structure SwitchEntry where
  ts : ℚ
  action : Str
  address : Str
  deriving DecidableEq

/-- A row of `traffic_log`, as far as the query reads it. -/
structure TrafficRow where
  ts : ℚ
  upstream : Str
  bytesIn : Option ℤ
  bytesOut : Option ℤ

/-- A row of the switch history, with what is known about its proxy. -/
structure SwitchRow (ρ : Type) where
  entry : SwitchEntry
  details : Option ρ
  bytes : ℤ
  durationSec : ℚ

/-- `(start, end, address)`. -/
structure ActivePeriod where
  start : ℚ
  stop : ℚ
  address : Str

instance (upstream addr : Str) : Decidable (Matches upstream addr) :=
  inferInstanceAs (Decidable (_ ∨ _))

/-! ### The functions -/

/-- The body of the loop of `_merge_consecutive`. -/
def mergeStep (merged : List SwitchEntry) (e : SwitchEntry) : List SwitchEntry :=
  match merged.getLast? with
  | none => [e]
  | some last =>
    if last.address = e.address then merged.dropLast ++ [{ last with action := e.action }]
    else merged ++ [e]

/-- `_merge_consecutive`. -/
def mergeConsecutive (hist : List SwitchEntry) : List SwitchEntry := hist.foldl mergeStep []

/-- `_intervals`. -/
def intervals (now : ℚ) : List SwitchEntry → List ActivePeriod
  | [] => []
  | [e] => [⟨e.ts, now, e.address⟩]
  | e :: e' :: rest => ⟨e.ts, e'.ts, e.address⟩ :: intervals now (e' :: rest)

/-- `COALESCE(bytes_in,0) + COALESCE(bytes_out,0)`. -/
def TrafficRow.bytes (r : TrafficRow) : ℤ := r.bytesIn.getD 0 + r.bytesOut.getD 0

/-- The earliest time that the query looks at: the first start, and at most a day ago. -/
def windowStart (now : ℚ) (ivs : List ActivePeriod) : ℚ :=
  match ivs.map ActivePeriod.start with
  | [] => now - 86400
  | a :: starts => max (starts.foldl min a) (now - 86400)

/-- The condition of a column: the row is in the period and its upstream is the address. -/
def InColumn (first now : ℚ) (iv : ActivePeriod) (r : TrafficRow) : Prop :=
  max iv.start first ≤ r.ts ∧ r.ts < min iv.stop (now + 1) ∧ Matches r.upstream iv.address

instance (first now : ℚ) (iv : ActivePeriod) (r : TrafficRow) : Decidable (InColumn first now iv r) :=
  inferInstanceAs (Decidable (_ ∧ _ ∧ _))

/-- The period has a column in the query. -/
def HasColumn (first now : ℚ) (iv : ActivePeriod) : Prop :=
  iv.address ≠ [] ∧ max iv.start first < min iv.stop (now + 1)

instance (first now : ℚ) (iv : ActivePeriod) : Decidable (HasColumn first now iv) :=
  inferInstanceAs (Decidable (_ ∧ _))

/-- `WHERE ts >= first AND ts < now + 1`. -/
def Selected (first now : ℚ) (r : TrafficRow) : Prop := first ≤ r.ts ∧ r.ts < now + 1

instance (first now : ℚ) (r : TrafficRow) : Decidable (Selected first now r) :=
  inferInstanceAs (Decidable (_ ∧ _))

/-- The value of a column over the rows that the query selects. -/
def column (first now : ℚ) (rows : List TrafficRow) (iv : ActivePeriod) : ℤ :=
  if HasColumn first now iv then
    ((rows.filter (fun r => Selected first now r)).map
      (fun r => if InColumn first now iv r then r.bytes else 0)).sum
  else 0

/-- `_traffic_by_period`, by the place of the period; without a database all sums are 0. -/
def trafficByPeriod (db : Option (List TrafficRow)) (chronological : List SwitchEntry) (now : ℚ) :
    List ℤ :=
  let ivs := intervals now chronological
  match db with
  | none => ivs.map (fun _ => 0)
  | some rows => ivs.map (column (windowStart now ivs) now rows)

/-- `_period_durations`, by the place of the period. -/
def periodDurations (chronological : List SwitchEntry) (now : ℚ) : List ℚ :=
  (intervals now chronological).map (fun iv => max 0 (iv.stop - iv.start))

section

variable {ρ : Type} (ratings : Str → Option ρ)

/-- A row of the result. -/
def switchRow (e : SwitchEntry) (bytes : ℤ) (durationSec : ℚ) : SwitchRow ρ :=
  ⟨e, if e.address = [] then none else ratings e.address, bytes, durationSec⟩

/-- `_build_switch_history`, newest first. -/
def buildSwitchHistory (db : Option (List TrafficRow)) (hist : List SwitchEntry) (now : ℚ) :
    List (SwitchRow ρ) :=
  let merged := mergeConsecutive (hist.filter (fun e => e.address ≠ []))
  let traffic := trafficByPeriod db merged now
  let durations := periodDurations merged now
  ((merged.zip (traffic.zip durations)).map (fun p => switchRow ratings p.1 p.2.1 p.2.2)).reverse

end

/-! ### Merging -/

/-- What an entry keeps when it is merged. -/
def SwitchEntry.key (e : SwitchEntry) : ℚ × Str := (e.ts, e.address)

/-- An entry is merged into the last one, or follows it. -/
theorem keys_mergeStep (merged : List SwitchEntry) (e : SwitchEntry) :
    (mergeStep merged e).map SwitchEntry.key = merged.map SwitchEntry.key ∧
        (∃ last ∈ merged.getLast?, last.address = e.address) ∨
      (mergeStep merged e).map SwitchEntry.key = merged.map SwitchEntry.key ++ [e.key] ∧
        ∀ last ∈ merged.getLast?, last.address ≠ e.address := by
  unfold mergeStep
  cases hlast : merged.getLast? with
  | none =>
    rw [List.getLast?_eq_none_iff.mp hlast]
    exact .inr ⟨rfl, nofun⟩
  | some last =>
    obtain ⟨init, rfl⟩ := List.getLast?_eq_some_iff.mp hlast
    dsimp only
    split
    · next heq =>
      refine .inl ⟨?_, last, rfl, heq⟩
      rw [List.dropLast_concat, List.map_append, List.map_append]
      rfl
    · next hne =>
      refine .inr ⟨by rw [List.map_append]; rfl, ?_⟩
      rintro last' hlast'
      cases hlast'
      exact hne

theorem mergeConsecutive_concat (hist : List SwitchEntry) (e : SwitchEntry) :
    mergeConsecutive (hist ++ [e]) = mergeStep (mergeConsecutive hist) e := by
  rw [mergeConsecutive, List.foldl_append]
  rfl

/-- Adjacent rows have different addresses. -/
theorem merge_chain (hist : List SwitchEntry) :
    (mergeConsecutive hist).IsChain (fun a b => a.address ≠ b.address) := by
  have hstep : ∀ (hist merged : List SwitchEntry),
      (merged.map SwitchEntry.key).IsChain (fun p q => p.2 ≠ q.2) →
      ((hist.foldl mergeStep merged).map SwitchEntry.key).IsChain (fun p q => p.2 ≠ q.2) := by
    intro hist
    induction hist with
    | nil => exact fun _ h => h
    | cons e hist ih =>
      intro merged hmerged
      refine ih _ ?_
      rcases keys_mergeStep merged e with ⟨hkeys, -⟩ | ⟨hkeys, hlast⟩
      · rwa [hkeys]
      · rw [hkeys]
        refine List.isChain_append.mpr ⟨hmerged, .singleton _, ?_⟩
        intro p hp q hq
        rw [List.getLast?_map] at hp
        obtain ⟨last, hmem, rfl⟩ := Option.map_eq_some_iff.mp hp
        cases hq
        exact hlast last hmem
  have hkeys := hstep hist [] .nil
  rwa [List.isChain_map] at hkeys

/-- The rows are some of the entries, in their order. -/
theorem merge_sublist (hist : List SwitchEntry) :
    ((mergeConsecutive hist).map SwitchEntry.key).Sublist (hist.map SwitchEntry.key) := by
  have hstep : ∀ (hist merged done : List SwitchEntry),
      (merged.map SwitchEntry.key).Sublist (done.map SwitchEntry.key) →
      ((hist.foldl mergeStep merged).map SwitchEntry.key).Sublist ((done ++ hist).map SwitchEntry.key) := by
    intro hist
    induction hist with
    | nil =>
      intro merged done h
      rw [List.append_nil]
      exact h
    | cons e hist ih =>
      intro merged done h
      have hrest := ih (mergeStep merged e) (done ++ [e]) ?_
      · rwa [List.append_assoc] at hrest
      rw [List.map_append]
      rcases keys_mergeStep merged e with ⟨hkeys, -⟩ | ⟨hkeys, -⟩
      · rw [hkeys]
        exact h.trans (List.sublist_append_left _ _)
      · rw [hkeys]
        exact h.append (List.Sublist.refl _)
  exact hstep hist [] [] (List.Sublist.refl _)

/-- The first row begins with the first entry. -/
theorem head?_merge (hist : List SwitchEntry) :
    ((mergeConsecutive hist).map SwitchEntry.key).head? = hist.head?.map SwitchEntry.key := by
  induction hist using List.reverseRecOn with
  | nil => rfl
  | append_singleton hist new ih =>
    rw [mergeConsecutive_concat]
    rcases keys_mergeStep (mergeConsecutive hist) new with ⟨hkeys, last, hlast, -⟩ | ⟨hkeys, -⟩
    · rw [hkeys, ih]
      cases hist with
      | nil => cases hlast
      | cons e hist => rfl
    · rw [hkeys, List.head?_append, ih]
      cases hist <;> rfl

/-- An entry is in a row: the row has its address and begins not after it, and the next row begins
not before it. -/
def MergedInto (rows : List (ℚ × Str)) (e : SwitchEntry) : Prop :=
  ∃ pre row post, rows = pre ++ row :: post ∧ row.2 = e.address ∧ row.1 ≤ e.ts ∧
    ∀ next ∈ post.head?, e.ts ≤ next.1

theorem MergedInto.concat {rows : List (ℚ × Str)} {e : SwitchEntry} (h : MergedInto rows e)
    {row : ℚ × Str} (hrow : e.ts ≤ row.1) : MergedInto (rows ++ [row]) e := by
  obtain ⟨pre, own, post, rfl, haddress, hstart, hnext⟩ := h
  refine ⟨pre, own, post ++ [row], by rw [List.append_assoc, List.cons_append], haddress, hstart, ?_⟩
  cases post with
  | nil =>
    intro next hmem
    cases hmem
    exact hrow
  | cons next post => exact hnext

/-- Every entry is in a row. -/
theorem merge_covers {hist : List SwitchEntry}
    (hsorted : (hist.map SwitchEntry.ts).Pairwise (· ≤ ·)) :
    ∀ e ∈ hist, MergedInto ((mergeConsecutive hist).map SwitchEntry.key) e := by
  induction hist using List.reverseRecOn with
  | nil => exact nofun
  | append_singleton hist new ih =>
    rw [List.map_append, List.pairwise_append] at hsorted
    obtain ⟨hsorted, -, hnew⟩ := hsorted
    have hlater : ∀ e ∈ hist, e.ts ≤ new.ts := fun e he =>
      hnew e.ts (List.mem_map_of_mem he) new.ts (List.mem_singleton_self _)
    have hold := ih hsorted
    rw [mergeConsecutive_concat]
    intro e he
    rcases keys_mergeStep (mergeConsecutive hist) new with ⟨hkeys, last, hlast, heq⟩ | ⟨hkeys, -⟩ <;>
      rw [hkeys]
    · rcases List.mem_append.mp he with he | he
      · exact hold e he
      · -- the new entry is merged into the last row, which began with an older one
        obtain rfl := List.mem_singleton.mp he
        obtain ⟨init, hinit⟩ := List.getLast?_eq_some_iff.mp hlast
        rw [hinit, List.map_append]
        refine ⟨init.map SwitchEntry.key, last.key, [], rfl, heq, ?_, nofun⟩
        have hmem : last.key ∈ (mergeConsecutive hist).map SwitchEntry.key :=
          List.mem_map_of_mem (List.mem_of_getLast? hlast)
        obtain ⟨first, hfirst, hkey⟩ := List.mem_map.mp ((merge_sublist hist).subset hmem)
        exact le_of_eq_of_le (congrArg Prod.fst hkey).symm (hlater first hfirst)
    · rcases List.mem_append.mp he with he | he
      · exact (hold e he).concat (hlater e he)
      · obtain rfl := List.mem_singleton.mp he
        exact ⟨_, e.key, [], rfl, rfl, le_rfl, nofun⟩

/-! ### The periods -/

/-- The periods are those between the times of the rows. -/
theorem intervals_bounds (now : ℚ) (l : List SwitchEntry) :
    (intervals now l).map (fun iv => (iv.start, iv.stop)) = periods now (l.map SwitchEntry.ts) := by
  induction l with
  | nil => rfl
  | cons e l ih =>
    cases l with
    | nil => rfl
    | cons e' l =>
      rw [intervals, List.map_cons, ih]
      rfl

theorem intervals_keys (now : ℚ) (l : List SwitchEntry) :
    (intervals now l).map (fun iv => (iv.start, iv.address)) = l.map SwitchEntry.key := by
  induction l with
  | nil => rfl
  | cons e l ih =>
    cases l with
    | nil => rfl
    | cons e' l =>
      rw [intervals, List.map_cons, ih]
      rfl

@[simp] theorem length_intervals (now : ℚ) (l : List SwitchEntry) :
    (intervals now l).length = l.length := by
  have hkeys := congrArg List.length (intervals_keys now l)
  rwa [List.length_map, List.length_map] at hkeys

/-- A row is active until the next one, or until now. -/
theorem mem_intervals (now : ℚ) {l : List SwitchEntry} {pre post : List (ℚ × Str)} {row : ℚ × Str}
    (h : l.map SwitchEntry.key = pre ++ row :: post) :
    ⟨row.1, (post.head?.map Prod.fst).getD now, row.2⟩ ∈ intervals now l := by
  induction l generalizing pre with
  | nil => exact absurd h (by simp)
  | cons e l ih =>
    cases pre with
    | nil =>
      obtain ⟨rfl, rfl⟩ := List.cons.inj h
      cases l <;> exact List.mem_cons_self
    | cons k pre =>
      obtain ⟨-, htail⟩ := List.cons.inj h
      cases l with
      | nil => exact absurd htail (by simp)
      | cons e' l => exact List.mem_cons_of_mem _ (ih htail)

/-- A relation between the bounds of the periods. -/
theorem pairwise_intervals {R : ℚ × ℚ → ℚ × ℚ → Prop} {now : ℚ} {l : List SwitchEntry}
    (h : (periods now (l.map SwitchEntry.ts)).Pairwise R) :
    (intervals now l).Pairwise (fun a b => R (a.start, a.stop) (b.start, b.stop)) := by
  rw [← intervals_bounds, List.pairwise_map] at h
  exact h

/-! ### The traffic -/

/-- The traffic row is counted for the period. -/
def CountedIn (first now : ℚ) (iv : ActivePeriod) (r : TrafficRow) : Prop :=
  HasColumn first now iv ∧ Selected first now r ∧ InColumn first now iv r

instance (first now : ℚ) (iv : ActivePeriod) (r : TrafficRow) : Decidable (CountedIn first now iv r) :=
  inferInstanceAs (Decidable (_ ∧ _ ∧ _))

/-- A column adds up the rows that are counted for its period. -/
theorem column_eq (first now : ℚ) (rows : List TrafficRow) (iv : ActivePeriod) :
    column first now rows iv =
      ((rows.filter (fun r => CountedIn first now iv r)).map TrafficRow.bytes).sum := by
  by_cases hcolumn : HasColumn first now iv
  · rw [column, if_pos hcolumn]
    induction rows with
    | nil => rfl
    | cons r rows ih =>
      by_cases hselected : Selected first now r
      · rw [List.filter_cons_of_pos (p := fun r => Selected first now r) (decide_eq_true hselected),
          List.map_cons, List.sum_cons, ih]
        by_cases hin : InColumn first now iv r
        · have hcounted : CountedIn first now iv r := ⟨hcolumn, hselected, hin⟩
          rw [if_pos hin, List.filter_cons_of_pos (p := fun r => CountedIn first now iv r)
            (decide_eq_true hcounted), List.map_cons, List.sum_cons]
        · rw [if_neg hin, Int.zero_add, List.filter_cons_of_neg (p := fun r => CountedIn first now iv r)]
          exact fun h => hin (of_decide_eq_true h).2.2
      · rw [List.filter_cons_of_neg (p := fun r => Selected first now r)
          (fun h => hselected (of_decide_eq_true h)), ih,
          List.filter_cons_of_neg (p := fun r => CountedIn first now iv r)]
        exact fun h => hselected (of_decide_eq_true h).2.1
  · rw [column, if_neg hcolumn, List.filter_eq_nil_iff.mpr]
    · rfl
    · exact fun r _ h => hcolumn (of_decide_eq_true h).1

/-- A row is counted for one of two periods that do not overlap. -/
theorem not_counted_twice {first now : ℚ} {a b : ActivePeriod} (hle : a.stop ≤ b.start)
    (r : TrafficRow) : ¬ (CountedIn first now a r ∧ CountedIn first now b r) := by
  rintro ⟨⟨-, -, -, hbefore, -⟩, -, -, hafter, -⟩
  have hstop : r.ts < a.stop := lt_of_lt_of_le hbefore (min_le_left _ _)
  have hstart : b.start ≤ r.ts := le_trans (le_max_left _ _) hafter
  exact absurd (lt_of_lt_of_le hstop hle) (not_lt.mpr hstart)

/-! ### The partition -/

/-- The rows, newest first, divide the time until now and the traffic among their periods: the time
since the first entry with an address, with each entry in a period of its address. -/
structure PartitionsTime {ρ : Type} (rows : List (SwitchRow ρ)) (ivs : List ActivePeriod)
    (hist : List SwitchEntry) (now : ℚ) (traffic : List TrafficRow) : Prop where
  entries : (rows.reverse.map (fun row => row.entry.key)).Sublist (hist.map SwitchEntry.key)
  first : rows.getLast?.map (fun row => row.entry.key) =
    (hist.find? (fun e => e.address ≠ [])).map SwitchEntry.key
  covers : ∀ e ∈ hist, e.address ≠ [] →
    ∃ iv ∈ ivs, iv.address = e.address ∧ iv.start ≤ e.ts ∧ e.ts ≤ iv.stop
  adjacent : rows.IsChain (fun a b => a.entry.address ≠ b.entry.address)
  starts : rows.reverse.map (fun row => row.entry.key) = ivs.map (fun iv => (iv.start, iv.address))
  contiguous : ivs.IsChain (fun a b => a.stop = b.start)
  untilNow : rows ≠ [] → ivs.getLast?.map ActivePeriod.stop = some now
  disjoint : ivs.Pairwise (fun a b => Disjoint (Set.Ico a.start a.stop) (Set.Ico b.start b.stop))
  durations : rows.reverse.map SwitchRow.durationSec = ivs.map (fun iv => iv.stop - iv.start)
  total : ∀ row ∈ rows.getLast?, (rows.map SwitchRow.durationSec).sum = now - row.entry.ts
  bytes : rows.reverse.map SwitchRow.bytes = ivs.map (fun iv =>
    ((traffic.filter (fun r => CountedIn (windowStart now ivs) now iv r)).map TrafficRow.bytes).sum)
  once : ∀ r, ivs.Pairwise (fun a b =>
    ¬ (CountedIn (windowStart now ivs) now a r ∧ CountedIn (windowStart now ivs) now b r))

/-- The sums are those of the counted rows, of none without a database. -/
theorem trafficByPeriod_eq (db : Option (List TrafficRow)) (l : List SwitchEntry) (now : ℚ) :
    trafficByPeriod db l now = (intervals now l).map (fun iv =>
      (((db.getD []).filter (fun r =>
        CountedIn (windowStart now (intervals now l)) now iv r)).map TrafficRow.bytes).sum) := by
  cases db with
  | none => rfl
  | some rows =>
    show (intervals now l).map _ = _
    exact List.map_congr_left fun iv _ => column_eq _ now rows iv

section

variable {ρ : Type} (ratings : Str → Option ρ)

/-- The columns of the result, oldest first. -/
theorem build_columns (db : Option (List TrafficRow)) (hist : List SwitchEntry) (now : ℚ) :
    let merged := mergeConsecutive (hist.filter (fun e => e.address ≠ []))
    let rows := (buildSwitchHistory ratings db hist now).reverse
    rows.map SwitchRow.entry = merged ∧ rows.map SwitchRow.bytes = trafficByPeriod db merged now ∧
      rows.map SwitchRow.durationSec = periodDurations merged now := by
  intro merged rows
  have htraffic : (trafficByPeriod db merged now).length = merged.length := by
    rw [trafficByPeriod_eq, List.length_map, length_intervals]
  have hdurations : (periodDurations merged now).length = merged.length := by
    rw [periodDurations, List.length_map, length_intervals]
  have hrows : rows = (merged.zip ((trafficByPeriod db merged now).zip
      (periodDurations merged now))).map (fun p => switchRow ratings p.1 p.2.1 p.2.2) :=
    List.reverse_reverse _
  have hpairs : ((trafficByPeriod db merged now).zip (periodDurations merged now)).length =
      merged.length := by
    rw [List.length_zip, htraffic, hdurations, Nat.min_self]
  rw [hrows]
  simp only [List.map_map]
  refine ⟨?_, ?_, ?_⟩
  · exact List.map_fst_zip (le_of_eq hpairs.symm)
  · have hsnd := @List.map_snd_zip _ _ merged _ (le_of_eq hpairs)
    have hbytes := List.map_fst_zip (le_of_eq (htraffic.trans hdurations.symm))
    calc _ = ((merged.zip ((trafficByPeriod db merged now).zip
          (periodDurations merged now))).map Prod.snd).map Prod.fst := by rw [List.map_map]; rfl
      _ = _ := by rw [hsnd, hbytes]
  · have hsnd := @List.map_snd_zip _ _ merged _ (le_of_eq hpairs)
    have hlast := List.map_snd_zip (le_of_eq (hdurations.trans htraffic.symm))
    calc _ = ((merged.zip ((trafficByPeriod db merged now).zip
          (periodDurations merged now))).map Prod.snd).map Prod.snd := by rw [List.map_map]; rfl
      _ = _ := by rw [hsnd, hlast]

/-- **The rows of the switch history divide the time.** -/
theorem switch_history_partitions (db : Option (List TrafficRow)) {hist : List SwitchEntry} {now : ℚ}
    (hsorted : (hist.map SwitchEntry.ts).Pairwise (· ≤ ·)) (hnow : ∀ e ∈ hist, e.ts ≤ now) :
    PartitionsTime (buildSwitchHistory ratings db hist now)
      (intervals now (mergeConsecutive (hist.filter (fun e => e.address ≠ [])))) hist now
      (db.getD []) := by
  obtain ⟨hentries, hbytes, hdurations⟩ := build_columns ratings db hist now
  generalize hmerged : mergeConsecutive (hist.filter (fun e => e.address ≠ [])) = merged at *
  have hchain : merged.IsChain (fun a b => a.address ≠ b.address) := hmerged ▸ merge_chain _
  have htimes : (merged.map SwitchEntry.ts).Sublist (hist.map SwitchEntry.ts) := by
    have hsub := (merge_sublist (hist.filter (fun e => e.address ≠ []))).map Prod.fst
    rw [hmerged, List.map_map, List.map_map] at hsub
    exact hsub.trans (List.filter_sublist.map SwitchEntry.ts)
  have hsorted' : (merged.map SwitchEntry.ts).Pairwise (· ≤ ·) := hsorted.sublist htimes
  have hnow' : ∀ a ∈ merged.map SwitchEntry.ts, a ≤ now := by
    intro a ha
    obtain ⟨e, he, rfl⟩ := List.mem_map.mp (htimes.subset ha)
    exact hnow e he
  have hlengths : periodDurations merged now =
      (intervals now merged).map (fun iv => iv.stop - iv.start) := by
    refine List.map_congr_left fun iv hiv => ?_
    have hmem : (iv.start, iv.stop) ∈ periods now (merged.map SwitchEntry.ts) := by
      rw [← intervals_bounds]
      exact List.mem_map_of_mem hiv
    exact max_eq_right (sub_nonneg.mpr (periods_le hsorted' hnow' _ hmem).1)
  have hrows : (buildSwitchHistory ratings db hist now).map SwitchRow.entry = merged.reverse := by
    rw [← hentries, List.map_reverse, List.reverse_reverse]
  have hkeys : (buildSwitchHistory ratings db hist now).map (fun row => row.entry.key) =
      (merged.map SwitchEntry.key).reverse := by
    rw [← List.map_reverse, ← hrows, List.map_map]
    rfl
  refine
    { entries := ?_, first := ?_, covers := ?_, adjacent := ?_, starts := ?_, contiguous := ?_
      untilNow := ?_, disjoint := ?_
      durations := hdurations.trans hlengths, total := ?_
      bytes := hbytes.trans (trafficByPeriod_eq db merged now), once := ?_ }
  · rw [List.map_reverse, hkeys, List.reverse_reverse, ← hmerged]
    exact (merge_sublist _).trans (List.filter_sublist.map SwitchEntry.key)
  · rw [← List.getLast?_map, hkeys, List.getLast?_reverse, ← hmerged, head?_merge, List.head?_filter]
  · intro e he haddress
    have hmem : e ∈ hist.filter (fun e => e.address ≠ []) :=
      List.mem_filter.mpr ⟨he, decide_eq_true haddress⟩
    have hcovers := merge_covers (hsorted.sublist (List.filter_sublist.map SwitchEntry.ts)) e hmem
    rw [hmerged] at hcovers
    obtain ⟨pre, row, post, hsplit, hsame, hstart, hnext⟩ := hcovers
    refine ⟨_, mem_intervals now hsplit, hsame, hstart, ?_⟩
    cases post with
    | nil => exact hnow e he
    | cons next post => exact hnext next rfl
  · have hback : merged.reverse.IsChain (fun a b => a.address ≠ b.address) :=
      List.isChain_reverse.mpr (hchain.imp fun _ _ hne => hne.symm)
    rw [← hrows, List.isChain_map] at hback
    exact hback
  · rw [intervals_keys, ← hentries, List.map_map]
    rfl
  · have hfollow := periods_chain now (merged.map SwitchEntry.ts)
    rw [← intervals_bounds, List.isChain_map] at hfollow
    exact hfollow
  · intro hne
    have hsome : merged.map SwitchEntry.ts ≠ [] := by
      intro hnil
      rw [List.map_eq_nil_iff.mp hnil, List.reverse_nil, List.map_eq_nil_iff] at hrows
      exact hne hrows
    have hlast := getLast?_periods now _ hsome
    rw [← intervals_bounds, List.getLast?_map, Option.map_map] at hlast
    exact hlast
  · exact pairwise_intervals (periods_disjoint hsorted')
  · intro row hrow
    -- the last row is the one of the first entry
    obtain ⟨newer, hsplit⟩ := List.getLast?_eq_some_iff.mp hrow
    have hfirst : merged = row.entry :: (newer.map SwitchRow.entry).reverse := by
      rw [← List.reverse_reverse merged, ← hrows, hsplit, List.map_append, List.reverse_append]
      rfl
    have hsum : ((buildSwitchHistory ratings db hist now).map SwitchRow.durationSec).sum =
        ((intervals now merged).map (fun iv => iv.stop - iv.start)).sum := by
      rw [← hlengths, ← hdurations, List.map_reverse, List.sum_reverse]
    have hperiods : (intervals now merged).map (fun iv => iv.stop - iv.start) =
        (periods now (merged.map SwitchEntry.ts)).map (fun p => p.2 - p.1) := by
      rw [← intervals_bounds, List.map_map]
      rfl
    rw [hsum, hperiods, hfirst, List.map_cons, sum_periods]
  · intro r
    exact (pairwise_intervals (periods_pairwise hsorted')).imp fun hle => not_counted_twice hle r

end

/-- Two proxies, with a direct entry and a tie between them. -/
def twoSwitches : List SwitchEntry :=
  [⟨1, "pool".toList, "a:1".toList⟩, ⟨2, "direct".toList, []⟩, ⟨2, "select".toList, "a:1".toList⟩,
    ⟨2, "pool".toList, "b:2".toList⟩]

/-- Traffic of the first proxy, and at the moment of the last switch. -/
def someTraffic : List TrafficRow :=
  [⟨1, "proxy:a:1".toList, none, some 4⟩, ⟨2, "pool:b:2".toList, some 10, none⟩]

/-- One row for each proxy: one second and four bytes, and three seconds and ten bytes. -/
theorem switch_history_partitions_two :
    (buildSwitchHistory (fun _ => (none : Option ℕ)) (some someTraffic) twoSwitches 5).map
        (fun row => (row.entry, row.durationSec, row.bytes)) =
      [(⟨2, "pool".toList, "b:2".toList⟩, 3, 10), (⟨1, "select".toList, "a:1".toList⟩, 1, 4)] ∧
    PartitionsTime (buildSwitchHistory (fun _ => (none : Option ℕ)) (some someTraffic) twoSwitches 5)
      (intervals 5 (mergeConsecutive (twoSwitches.filter (fun e => e.address ≠ [])))) twoSwitches 5
      ((some someTraffic).getD []) :=
  ⟨by decide +kernel, switch_history_partitions (fun _ => none) (some someTraffic)
    (by decide +kernel) (by decide +kernel)⟩

end HuntProxy.Routing
