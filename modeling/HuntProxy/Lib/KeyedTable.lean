import HuntProxy.Lib.Dict
import Mathlib.Data.List.Forall2
import Mathlib.Data.List.Pairwise
import Mathlib.Data.List.Perm.Basic

/-!
# Tables with unique keys

A table is the list of its rows. A schema says which columns it has, which of them are unique
keys, which column a statement means by a name, and what a column makes of a value that a
statement gives it, or of a column that the statement leaves out; what has been stored once is
stored as it is. A row that comes from outside may have other columns, and things in them that
are no values.

Rows from outside may stand in a table as they are, or the insertion changes them, merges them
or refuses them: `Schema.Exact` says which, and `Schema.exact_of_perm` says that nothing else
can give back the same rows.

## Main definitions

- `Schema` — the columns, the keys and the values of a table
- `Schema.insertOrReplace`, `Schema.insertOrIgnore` — the insertion of one row
- `Schema.refill` — the insertion of rows into the empty table
- `Schema.Valid`, `Schema.Exact` — tables, and rows that may stand in one
-/

namespace HuntProxy

/-- A row of a table: the values of its columns. -/
abbrev Record (κ ν : Type*) := κ → Option ν

/-- A row from outside; `none` is something that is no value. -/
abbrev FileRow (κ ν : Type*) := Dict κ (Option ν)

/-- The columns of a table, its unique keys, the columns that names stand for, and what a column
stores. -/
structure Schema (κ ν : Type*) where
  cols : List κ
  keys : List (List κ)
  null : ν
  named : κ → Option κ
  store : List (Record κ ν) → κ → Option (Option ν) → Option ν
  cols_ne : cols ≠ []
  named_of_mem : ∀ c ∈ cols, named c = some c
  stable : ∀ tbl c x v, store tbl c x = some v → ∀ tbl', store tbl' c (some (some v)) = some v

namespace Schema

variable {κ ν : Type*}

/-- A row of a table, as a row from outside. -/
def cells (r : Record κ ν) : κ → Option (Option ν) := fun c => (r c).map some

theorem cells_injective : Function.Injective (cells : Record κ ν → _) := by
  intro r r' h
  funext c
  have hc : (r c).map some = (r' c).map some := congrFun h c
  exact Option.map_injective (fun _ _ => Option.some.inj) hc

variable (S : Schema κ ν)

/-! ### Rows -/

section Rows

variable [DecidableEq κ]

/-- The row that a statement makes of what it gives to the columns. -/
def complete (tbl : List (Record κ ν)) (given : κ → Option (Option ν)) : Option (Record κ ν) :=
  if S.cols.all (fun c => (S.store tbl c (given c)).isSome) then
    some (fun c => if c ∈ S.cols then S.store tbl c (given c) else none)
  else none

/-- What a statement with these names gives of a row; what the row lacks is null. Of two names
for one column the first one counts. -/
def given (names : List κ) (row : FileRow κ ν) : κ → Option (Option ν) := fun c =>
  (names.find? (fun n => S.named n = some c)).map (fun n => (row.get? n).getD (some S.null))

/-- A row of a table as a row for the outside, its columns in their order. -/
def row (r : Record κ ν) : FileRow κ ν :=
  S.cols.foldl (fun d c => match r c with
    | some v => d.insert c (some v)
    | none => d) .empty

/-- The row has the columns of the table, with values that they store as they are. -/
structure Fits (r : Record κ ν) : Prop where
  cols : ∀ c, (r c).isSome = true ↔ c ∈ S.cols
  stored : ∀ c v, r c = some v → ∀ tbl, S.store tbl c (some (some v)) = some v

variable {S}

/-- A row that a statement makes fits the table. -/
theorem fits_of_complete {tbl : List (Record κ ν)} {given : κ → Option (Option ν)}
    {r : Record κ ν} (h : S.complete tbl given = some r) : S.Fits r := by
  rw [complete, Option.ite_none_right_eq_some] at h
  obtain ⟨hall, hr⟩ := h
  cases hr
  refine ⟨fun c => ?_, fun c v hv tbl' => ?_⟩
  · by_cases hc : c ∈ S.cols
    · simpa [hc] using List.all_eq_true.mp hall c hc
    · simp [hc]
  · by_cases hc : c ∈ S.cols
    · rw [if_pos hc] at hv
      exact S.stable tbl c _ v hv tbl'
    · rw [if_neg hc] at hv
      cases hv

/-- A row that fits is stored as it is, whatever the table. -/
theorem complete_of_fits {r : Record κ ν} (h : S.Fits r) {given : κ → Option (Option ν)}
    (hgiven : ∀ c ∈ S.cols, given c = cells r c) (tbl : List (Record κ ν)) :
    S.complete tbl given = some r := by
  have hstore : ∀ c ∈ S.cols, S.store tbl c (given c) = r c := by
    intro c hc
    obtain ⟨v, hv⟩ := Option.isSome_iff_exists.mp ((h.cols c).mpr hc)
    rw [hgiven c hc, cells, hv]
    exact h.stored c v hv tbl
  have hall : S.cols.all (fun c => (S.store tbl c (given c)).isSome) = true := by
    refine List.all_eq_true.mpr (fun c hc => ?_)
    rw [hstore c hc]
    exact (h.cols c).mpr hc
  rw [complete, if_pos hall]
  refine congrArg some (funext fun c => ?_)
  by_cases hc : c ∈ S.cols
  · rw [if_pos hc, hstore c hc]
  · rw [if_neg hc]
    cases hr : r c with
    | none => rfl
    | some v => exact absurd ((h.cols c).mp (by rw [hr]; rfl)) hc

theorem get?_row {r : Record κ ν} (h : S.Fits r) : (S.row r).get? = cells r := by
  have hfold : ∀ (cols : List κ) (d : FileRow κ ν) (c : κ),
      (cols.foldl (fun d c => match r c with
        | some v => d.insert c (some v)
        | none => d) d).get? c = if c ∈ cols ∧ (r c).isSome then cells r c else d.get? c := by
    intro cols
    induction cols with
    | nil => simp
    | cons c' rest ih =>
      intro d c
      rw [List.foldl_cons, ih]
      by_cases hc : c ∈ rest ∧ (r c).isSome = true
      · rw [if_pos hc, if_pos ⟨List.mem_cons_of_mem c' hc.1, hc.2⟩]
      · rw [if_neg hc]
        cases hr' : r c' with
        | none =>
          have hskip : ¬ (c ∈ c' :: rest ∧ (r c).isSome = true) := by
            rintro ⟨hmem, hsome⟩
            rcases List.mem_cons.mp hmem with rfl | hmem
            · rw [hr'] at hsome
              cases hsome
            · exact hc ⟨hmem, hsome⟩
          rw [if_neg hskip]
        | some v =>
          rw [Dict.get?_insert]
          by_cases hcc : c = c'
          · subst hcc
            rw [if_pos rfl, if_pos ⟨List.mem_cons_self, by rw [hr']; rfl⟩, cells, hr']
            rfl
          · have hskip : ¬ (c ∈ c' :: rest ∧ (r c).isSome = true) := by
              rintro ⟨hmem, hsome⟩
              exact hc ⟨(List.mem_cons.mp hmem).resolve_left hcc, hsome⟩
            rw [if_neg hcc, if_neg hskip]
  funext c
  rw [row, hfold]
  by_cases hc : c ∈ S.cols
  · rw [if_pos ⟨hc, (h.cols c).mpr hc⟩]
  · have hnone : r c = none := by
      cases hr : r c with
      | none => rfl
      | some v => exact absurd ((h.cols c).mp (by rw [hr]; rfl)) hc
    rw [if_neg (fun hh => hc hh.1), cells, hnone]
    rfl

end Rows

/-! ### Unique keys -/

section Keys

variable [DecidableEq ν]

/-- The rows agree on a unique key. -/
def conflict (r r' : Record κ ν) : Bool :=
  S.keys.any (fun k => k.all (fun c => r c = r' c && r c ≠ some S.null))

/-- The rows of a table. -/
structure Valid (tbl : List (Record κ ν)) : Prop where
  fits : ∀ r ∈ tbl, S.Fits r
  unique : tbl.Pairwise (fun r r' => S.conflict r r' = false)

variable {S}

theorem conflict_comm (r r' : Record κ ν) : S.conflict r r' = S.conflict r' r := by
  unfold conflict
  congr! 4 with k c
  by_cases h : r c = r' c
  · rw [h]
  · simp [h, Ne.symm h]

theorem Valid.nil : S.Valid [] := ⟨(fun _ h => by cases h), List.Pairwise.nil⟩

theorem Valid.perm {tbl tbl' : List (Record κ ν)} (h : S.Valid tbl) (hp : tbl'.Perm tbl) :
    S.Valid tbl' where
  fits r hr := h.fits r (hp.mem_iff.mp hr)
  unique := h.unique.perm hp.symm (fun {r r'} hrr => by rw [conflict_comm]; exact hrr)

theorem Valid.append_single {tbl : List (Record κ ν)} {r : Record κ ν} (h : S.Valid tbl)
    (hfits : S.Fits r) (hnew : ∀ r' ∈ tbl, S.conflict r r' = false) : S.Valid (tbl ++ [r]) where
  fits r' hr' := by
    rcases List.mem_append.mp hr' with hr' | hr'
    · exact h.fits r' hr'
    · rw [List.mem_singleton.mp hr']
      exact hfits
  unique := by
    refine List.pairwise_append.mpr ⟨h.unique, List.pairwise_singleton _ r, ?_⟩
    intro r' hr' r'' hr''
    rw [List.mem_singleton.mp hr'', conflict_comm]
    exact hnew r' hr'

theorem Valid.filter {tbl : List (Record κ ν)} (h : S.Valid tbl) (p : Record κ ν → Bool) :
    S.Valid (tbl.filter p) where
  fits r hr := h.fits r (List.mem_filter.mp hr).1
  unique := h.unique.filter p

/-- Two rows of a table that agree on a unique key are one row. -/
theorem Valid.eq_of_conflict {tbl : List (Record κ ν)} (h : S.Valid tbl) {r r' : Record κ ν}
    (hr : r ∈ tbl) (hr' : r' ∈ tbl) (hconflict : S.conflict r r' = true) : r = r' := by
  have hsymm : Std.Symm (fun r r' => S.conflict r r' = false) :=
    ⟨fun r r' hrr => by rw [conflict_comm]; exact hrr⟩
  by_contra hne
  have hnone := h.unique.forall hr hr' hne
  rw [hconflict] at hnone
  cases hnone

end Keys

/-! ### Insertion -/

section Insertion

variable [DecidableEq κ] [DecidableEq ν]

/-- `INSERT OR REPLACE` of one row. -/
def insertOrReplace (tbl : List (Record κ ν)) (given : κ → Option (Option ν)) :
    Option (List (Record κ ν)) :=
  (S.complete tbl given).map (fun r => tbl.filter (fun r' => !S.conflict r r') ++ [r])

/-- `INSERT OR IGNORE` of one row. -/
def insertOrIgnore (tbl : List (Record κ ν)) (given : κ → Option (Option ν)) :
    List (Record κ ν) :=
  match S.complete tbl given with
  | some r => if tbl.any (S.conflict r) then tbl else tbl ++ [r]
  | none => tbl

/-- The insertion of rows, one after the other. -/
def insertRows (names : List κ) :
    List (FileRow κ ν) → List (Record κ ν) → Option (List (Record κ ν))
  | [], tbl => some tbl
  | row :: rest, tbl => (S.insertOrReplace tbl (S.given names row)).bind (insertRows names rest)

/-- The insertion of rows into the empty table, by statements with the names of the first
row. -/
def refill (rows : List (FileRow κ ν)) : Option (List (Record κ ν)) :=
  match rows with
  | [] => some []
  | row :: _ =>
    if row.keys ≠ [] ∧ row.keys.all (fun n => (S.named n).isSome) then
      S.insertRows row.keys rows []
    else none

/-- The rows from outside may stand in the table as they are. -/
def Exact (rows : List (FileRow κ ν)) (tbl : List (Record κ ν)) : Prop :=
  S.Valid tbl ∧ rows.map Dict.get? = tbl.map cells

variable {S}

theorem Valid.insertOrReplace {tbl tbl' : List (Record κ ν)} {given : κ → Option (Option ν)}
    (h : S.Valid tbl) (hs : S.insertOrReplace tbl given = some tbl') : S.Valid tbl' := by
  obtain ⟨r, hr, rfl⟩ := Option.map_eq_some_iff.mp hs
  refine (h.filter _).append_single (fits_of_complete hr) ?_
  intro r' hr'
  simpa using (List.mem_filter.mp hr').2

theorem Valid.insertOrIgnore {tbl : List (Record κ ν)} (h : S.Valid tbl)
    (given : κ → Option (Option ν)) : S.Valid (S.insertOrIgnore tbl given) := by
  unfold Schema.insertOrIgnore
  split
  · next r hr =>
    split
    · exact h
    · next hany =>
      refine h.append_single (fits_of_complete hr) (fun r' hr' => ?_)
      simp only [List.any_eq_true, not_exists, not_and, Bool.not_eq_true] at hany
      exact hany r' hr'
  · exact h

theorem Valid.insertRows {names : List κ} {rows : List (FileRow κ ν)}
    {tbl tbl' : List (Record κ ν)} (h : S.Valid tbl)
    (hs : S.insertRows names rows tbl = some tbl') : S.Valid tbl' := by
  induction rows generalizing tbl with
  | nil =>
    cases hs
    exact h
  | cons row rest ih =>
    obtain ⟨tbl₁, hrow, hrest⟩ := Option.bind_eq_some_iff.mp hs
    exact ih (h.insertOrReplace hrow) hrest

theorem valid_of_refill {rows : List (FileRow κ ν)} {tbl : List (Record κ ν)}
    (h : S.refill rows = some tbl) : S.Valid tbl := by
  unfold refill at h
  split at h
  · cases h
    exact .nil
  · split at h
    · exact Valid.nil.insertRows h
    · cases h

/-! ### Rows that may stand in a table -/

omit [DecidableEq ν] in
/-- Among the names of the columns, a column is meant by its own. -/
theorem find?_named {names : List κ} (hnames : ∀ c, c ∈ names ↔ c ∈ S.cols) {c : κ}
    (hc : c ∈ S.cols) : names.find? (fun n => S.named n = some c) = some c := by
  obtain ⟨n, hn⟩ : ∃ n, names.find? (fun n => S.named n = some c) = some n :=
    Option.isSome_iff_exists.mp
      (List.find?_isSome.mpr ⟨c, (hnames c).mpr hc, decide_eq_true (S.named_of_mem c hc)⟩)
  have hnamed : S.named n = some c := by simpa using List.find?_some hn
  have hown : S.named n = some n :=
    S.named_of_mem n ((hnames n).mp (List.mem_of_find?_eq_some hn))
  rw [hn, ← hown, hnamed]

theorem insertRows_exact {names : List κ} (hnames : ∀ c, c ∈ names ↔ c ∈ S.cols)
    {rows : List (FileRow κ ν)} {tbl before : List (Record κ ν)}
    (hrows : rows.map Dict.get? = tbl.map cells) (hvalid : S.Valid (before ++ tbl)) :
    S.insertRows names rows before = some (before ++ tbl) := by
  induction rows generalizing tbl before with
  | nil =>
    rw [List.map_nil] at hrows
    rw [List.map_eq_nil_iff.mp hrows.symm, List.append_nil]
    rfl
  | cons row rest ih =>
    cases tbl with
    | nil => cases hrows
    | cons r tbl =>
      obtain ⟨hrow, hrest⟩ := List.cons.inj hrows
      have hfits : S.Fits r :=
        hvalid.fits r (List.mem_append_right before List.mem_cons_self)
      have hgiven : ∀ c ∈ S.cols, S.given names row c = cells r c := by
        intro c hc
        obtain ⟨v, hv⟩ := Option.isSome_iff_exists.mp ((hfits.cols c).mpr hc)
        have hget : row.get? c = some (some v) := by
          rw [hrow, cells, hv]
          rfl
        rw [given, find?_named hnames hc, Option.map_some, hget, cells, hv]
        rfl
      -- nothing that is there agrees with the row on a key
      have hkeep : before.filter (fun r' => !S.conflict r r') = before := by
        refine List.filter_eq_self.mpr (fun r' hr' => ?_)
        rw [conflict_comm, (List.pairwise_append.mp hvalid.unique).2.2 r' hr' r List.mem_cons_self]
        rfl
      rw [insertRows, insertOrReplace, complete_of_fits hfits hgiven, Option.map_some,
        Option.bind_some, hkeep]
      have happend : before ++ r :: tbl = before ++ [r] ++ tbl := by simp
      rw [happend] at hvalid ⊢
      exact ih hrest hvalid

/-- **Rows that may stand in the table are stored as they are.** -/
theorem Exact.refill {rows : List (FileRow κ ν)} {tbl : List (Record κ ν)}
    (h : S.Exact rows tbl) : S.refill rows = some tbl := by
  obtain ⟨hvalid, hrows⟩ := h
  cases rows with
  | nil =>
    rw [List.map_eq_nil_iff.mp hrows.symm]
    rfl
  | cons row rest =>
    cases tbl with
    | nil => cases hrows
    | cons r tbl =>
      have hrow : row.get? = cells r := (List.cons.inj hrows).1
      have hkeys : ∀ c, c ∈ row.keys ↔ c ∈ S.cols := by
        intro c
        rw [Dict.mem_keys, ← (hvalid.fits r List.mem_cons_self).cols c, hrow, cells,
          Option.isSome_iff_exists]
        simp
      have hne : row.keys ≠ [] := by
        obtain ⟨c, hc⟩ := List.exists_mem_of_ne_nil S.cols S.cols_ne
        exact List.ne_nil_of_mem ((hkeys c).mpr hc)
      have hall : row.keys.all (fun n => (S.named n).isSome) = true := by
        refine List.all_eq_true.mpr (fun n hn => ?_)
        rw [S.named_of_mem n ((hkeys n).mp hn)]
        rfl
      rw [Schema.refill, if_pos ⟨hne, hall⟩]
      have hins : S.insertRows row.keys (row :: rest) [] = some ([] ++ r :: tbl) :=
        insertRows_exact hkeys hrows hvalid
      exact hins

theorem Exact.unique {rows : List (FileRow κ ν)} {tbl tbl' : List (Record κ ν)}
    (h : S.Exact rows tbl) (h' : S.Exact rows tbl') : tbl = tbl' :=
  List.map_injective_iff.mpr cells_injective (h.2.symm.trans h'.2)

/-- **A table that holds rows from outside holds them as they are.** -/
theorem exact_of_perm {rows : List (FileRow κ ν)} {tbl : List (Record κ ν)} (h : S.Valid tbl)
    (hp : (tbl.map cells).Perm (rows.map Dict.get?)) :
    ∃ tbl', S.Exact rows tbl' ∧ tbl'.Perm tbl := by
  have hmap : List.Forall₂ (fun x r => x = cells r) (tbl.map cells) tbl :=
    List.forall₂_map_left_iff.mpr (List.forall₂_same.mpr (fun _ _ => rfl))
  obtain ⟨tbl', hrows, hperm⟩ := List.perm_comp_forall₂ hp.symm hmap
  refine ⟨tbl', ⟨h.perm hperm, ?_⟩, hperm⟩
  rw [← List.forall₂_eq_eq_eq, List.forall₂_map_right_iff]
  exact hrows

/-- The rows of a table may stand in it. -/
theorem Valid.exact {tbl : List (Record κ ν)} (h : S.Valid tbl) :
    S.Exact (tbl.map S.row) tbl := by
  refine ⟨h, ?_⟩
  rw [List.map_map]
  exact List.map_congr_left (fun r hr => get?_row (h.fits r hr))

end Insertion

end Schema

end HuntProxy
