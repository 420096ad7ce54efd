import HuntProxy.Storage.Backup

/-!
# When a restore is exact

A selected table that the file lacks is emptied, and a table whose write went through stays
written when another table of its group fails. A table whose read raised is in the file without
rows. So a restore is exact only when nothing of this makes a difference, and when the rows of
the file may stand in their tables as they are.

## Main definitions

- `Due` — the rows that a table is to hold after a restore
- `RestoredExactly`, `RoundTrip` — what a restore promises
- `Restorable`, `ReadBack` — when it keeps the promise

## Main results

- `restoreGroups_written`, `restoreGroups_kept` — what becomes of a table
- `Load.reload_perm_iff` — when the load leaves a table alone
- `restore_exact_iff` — when a restore is exact
-/

namespace HuntProxy.Backup

open Ip (Str)

variable {φ : Type*}

/-! ### Groups -/

theorem groupOf_items : ∀ p ∈ backupGroupItems, ∀ t ∈ p.2, groupOf t = some p.1 := by decide

theorem names_items : ∀ p ∈ backupGroupItems, ∀ t ∈ p.2, ∀ t' ∈ p.2, t.2 = t'.2 → t = t' := by
  decide

theorem mem_items_of_get? {gkey : Str} {tables : List DbTable}
    (h : backupGroups.get? gkey = some tables) : (gkey, tables) ∈ backupGroupItems :=
  Dict.get?_eq_some_iff.mp h

theorem mem_tablesOf {gkey : Str} {t : DbTable} :
    t ∈ tablesOf gkey ↔ ∃ tables, backupGroups.get? gkey = some tables ∧ t ∈ tables := by
  unfold tablesOf
  cases backupGroups.get? gkey <;> simp

theorem groupOf_of_mem {gkey : Str} {t : DbTable} (h : t ∈ tablesOf gkey) :
    groupOf t = some gkey := by
  obtain ⟨tables, htables, ht⟩ := mem_tablesOf.mp h
  exact groupOf_items _ (mem_items_of_get? htables) t ht

/-- The rows of a table in a file. -/
def fileRows (groups : Dict Str (GroupData φ)) (t : DbTable) :
    Option (List (FileRow Str (Value φ))) :=
  (groupOf t).bind (fun gkey => (groups.get? gkey).bind (fun data => data.get? t.2))

theorem fileRows_of_mem {groups : Dict Str (GroupData φ)} {gkey : Str} {t : DbTable}
    (h : t ∈ tablesOf gkey) :
    ((groups.get? gkey).getD .empty).get? t.2 = fileRows groups t := by
  rw [fileRows, groupOf_of_mem h, Option.bind_some]
  cases groups.get? gkey with
  | none => exact Dict.get?_empty t.2
  | some data => rfl

/-! ### What becomes of a table -/

variable {C : Catalog φ} [DecidableEq φ]

/-- What the statements for a table make of it. -/
def refilled (C : Catalog φ) (groups : Dict Str (GroupData φ)) (t : DbTable) :
    Option (List (Record Str (Value φ))) :=
  (C.schema t).refill ((fileRows groups t).getD [])

/-- The `j`-th selected group has the table, and nothing raises around its statements. -/
def Attempted (raises : ℕ → DbTable → Bool) (i : ℕ) (sel : List Str) (t : DbTable) : Prop :=
  ∃ j gkey, sel[j]? = some gkey ∧ t ∈ tablesOf gkey ∧ raises (i + j) t = false

theorem attempted_cons {raises : ℕ → DbTable → Bool} {i : ℕ} {gkey : Str} {sel : List Str}
    {t : DbTable} : Attempted raises i (gkey :: sel) t ↔
      (t ∈ tablesOf gkey ∧ raises i t = false) ∨ Attempted raises (i + 1) sel t := by
  constructor
  · rintro ⟨j, g, hg, ht, hr⟩
    cases j with
    | zero =>
      cases hg
      exact .inl ⟨ht, hr⟩
    | succ j => exact .inr ⟨j, g, hg, ht, by rw [← hr]; congr 1; omega⟩
  · rintro (⟨ht, hr⟩ | ⟨j, g, hg, ht, hr⟩)
    · exact ⟨0, gkey, rfl, ht, hr⟩
    · exact ⟨j + 1, g, hg, ht, by rw [← hr]; congr 1; omega⟩

theorem restoreTable_tables (raises : Bool) (rows : List (FileRow Str (Value φ)))
    (db : Database C) (t t' : DbTable) :
    (restoreTable raises rows db t).1.tables t' =
      if t' = t ∧ raises = false then ((C.schema t').refill rows).getD (db.tables t')
      else db.tables t' := by
  unfold restoreTable
  cases raises with
  | true => simp
  | false =>
    rw [if_neg Bool.false_ne_true]
    by_cases ht : t' = t
    · subst ht
      rw [if_pos ⟨rfl, rfl⟩]
      split
      · next tbl h =>
        have hget : ((C.schema t').refill rows).getD (db.tables t') = tbl := by rw [h]; rfl
        exact (if_pos rfl).trans hget.symm
      · next h =>
        rw [h]
        rfl
    · rw [if_neg (fun h => ht h.1)]
      split
      · exact if_neg ht
      · rfl

theorem restoreGroup_tables (raises : DbTable → Bool) (data : GroupData φ)
    (tables : List DbTable) (db : Database C) (gcount : ℕ) (t : DbTable) :
    (restoreGroup raises data tables db gcount).1.tables t =
      if t ∈ tables ∧ raises t = false then
        ((C.schema t).refill ((data.get? t.2).getD [])).getD (db.tables t)
      else db.tables t := by
  induction tables generalizing db gcount with
  | nil => simp [restoreGroup]
  | cons t' rest ih =>
    rw [restoreGroup]
    dsimp only
    rw [ih, restoreTable_tables]
    by_cases ht : t = t'
    · subst ht
      cases raises t with
      | true => simp
      | false =>
        -- a second write of the table changes nothing
        cases (C.schema t).refill ((data.get? t.2).getD []) <;> simp
    · simp [ht]

theorem restoreGroups_cons (raises : ℕ → DbTable → Bool) (groups : Dict Str (GroupData φ)) (i : ℕ)
    (gkey : Str) (sel : List Str) (db : Database C) (restored : Dict Str ℕ) :
    ∃ (db' : Database C) (restored' : Dict Str ℕ),
      restoreGroups raises groups i (gkey :: sel) db restored =
        restoreGroups raises groups (i + 1) sel db' restored' ∧
      ∀ t, db'.tables t =
        if t ∈ tablesOf gkey ∧ raises i t = false then
          (refilled C groups t).getD (db.tables t)
        else db.tables t := by
  rw [restoreGroups]
  cases h : backupGroups.get? gkey with
  | none =>
    refine ⟨db, restored, rfl, fun t => ?_⟩
    simp [tablesOf, h]
  | some tables =>
    have htables : tablesOf gkey = tables := by rw [tablesOf, h]; rfl
    refine ⟨_, _, rfl, fun t => ?_⟩
    rw [restoreGroup_tables, htables]
    by_cases ht : t ∈ tables ∧ raises i t = false
    · rw [if_pos ht, if_pos ht, refilled, fileRows_of_mem (htables ▸ ht.1)]
    · rw [if_neg ht, if_neg ht]

/-- **A table that is not written stays as it is.** -/
theorem restoreGroups_kept {raises : ℕ → DbTable → Bool} {groups : Dict Str (GroupData φ)} {i : ℕ}
    {sel : List Str} {t : DbTable} (h : ¬ Attempted raises i sel t) (db : Database C)
    (restored : Dict Str ℕ) :
    (restoreGroups raises groups i sel db restored).1.tables t = db.tables t := by
  induction sel generalizing i db restored with
  | nil => rfl
  | cons gkey rest ih =>
    obtain ⟨db', restored', heq, htables⟩ := restoreGroups_cons raises groups i gkey rest db restored
    rw [attempted_cons, not_or] at h
    rw [heq, ih h.2, htables, if_neg h.1]

/-- **A table that is written holds what the statements make of the rows.** -/
theorem restoreGroups_written {raises : ℕ → DbTable → Bool} {groups : Dict Str (GroupData φ)}
    {i : ℕ} {sel : List Str} {t : DbTable} (h : Attempted raises i sel t) (db : Database C)
    (restored : Dict Str ℕ) :
    (restoreGroups raises groups i sel db restored).1.tables t =
      (refilled C groups t).getD (db.tables t) := by
  induction sel generalizing i db restored with
  | nil =>
    obtain ⟨j, gkey, hg, -⟩ := h
    cases hg
  | cons gkey rest ih =>
    obtain ⟨db', restored', heq, htables⟩ := restoreGroups_cons raises groups i gkey rest db restored
    rw [heq]
    by_cases hrest : Attempted raises (i + 1) rest t
    · rw [ih hrest, htables]
      split
      · cases refilled C groups t <;> rfl
      · rfl
    · rw [restoreGroups_kept hrest, htables, if_pos ((attempted_cons.mp h).resolve_right hrest)]

/-! ### What the load leaves alone -/

/-- The load has nothing to write to the table. -/
def Load.Settled (L : Load φ) (C : Catalog φ) (t : DbTable) (tbl : List (Record Str (Value φ))) :
    Prop :=
  (t = routingConfig → L.loads = true →
    routingGet tbl switchHistKey = some (.text "true".toList)) ∧
  (t = workingProxies → tbl = [] → loadWorkingFile (C.schema t) L.workingTxt [] = [])

omit [DecidableEq φ] in
/-- The row that the migration writes. -/
theorem complete_configRow (C : Catalog φ) (key value : Str) (tbl : List (Record Str (Value φ))) :
    ∃ r, (C.schema routingConfig).complete tbl (configRow key value) = some r ∧
      r "key".toList = some (.text key) ∧ r "value".toList = some (.text value) := by
  have hkey : "key".toList ∈ (C.schema routingConfig).cols := by rw [C.config_cols]; simp
  have hvalue : "value".toList ∈ (C.schema routingConfig).cols := by rw [C.config_cols]; simp
  have hskey : (C.schema routingConfig).store tbl "key".toList
      (configRow key value "key".toList) = some (.text key) := C.config_text tbl _ key hkey
  have hsvalue : (C.schema routingConfig).store tbl "value".toList
      (configRow key value "value".toList) = some (.text value) :=
    C.config_text tbl _ value hvalue
  refine ⟨_, if_pos ?_, ?_, ?_⟩
  · rw [C.config_cols, List.all_cons, List.all_cons, hskey, hsvalue]
    rfl
  · rw [if_pos hkey, hskey]
  · rw [if_pos hvalue, hsvalue]

/-- A key of `routing_config` has one row. -/
theorem eq_of_config_key {tbl : List (Record Str (Value φ))}
    (h : (C.schema routingConfig).Valid tbl) {r r' : Record Str (Value φ)} (hr : r ∈ tbl)
    (hr' : r' ∈ tbl) {key : Str} (hkey : r "key".toList = some (.text key))
    (hkey' : r' "key".toList = some (.text key)) : r = r' := by
  refine h.eq_of_conflict hr hr' (List.any_eq_true.mpr ⟨_, C.config_keys, ?_⟩)
  rw [List.all_cons, List.all_nil, hkey, hkey', C.null]
  simp

theorem migrateSwitchHistory_perm_iff {tbl : List (Record Str (Value φ))}
    (h : (C.schema routingConfig).Valid tbl) :
    (migrateSwitchHistory (C.schema routingConfig) tbl).Perm tbl ↔
      routingGet tbl switchHistKey = some (.text "true".toList) := by
  constructor
  · intro hperm
    by_contra hget
    obtain ⟨r, hr, hkey, hvalue⟩ := complete_configRow C switchHistKey "true".toList tbl
    rw [migrateSwitchHistory, if_neg hget, Schema.insertOrReplace, hr, Option.map_some,
      Option.getD_some] at hperm
    have hmem : r ∈ tbl := hperm.mem_iff.mp (List.mem_append_right _ List.mem_cons_self)
    -- the row is there, so the first row under the key is this row
    cases hfind : tbl.find? (fun r => r "key".toList = some (.text switchHistKey)) with
    | none =>
      exact absurd (decide_eq_true hkey) (List.find?_eq_none.mp hfind r hmem)
    | some r' =>
      have hkey' : r' "key".toList = some (.text switchHistKey) := by
        simpa using List.find?_some hfind
      have heq := eq_of_config_key h hmem (List.mem_of_find?_eq_some hfind) hkey hkey'
      rw [routingGet, hfind, Option.bind_some, ← heq] at hget
      exact hget hvalue
  · intro hget
    rw [migrateSwitchHistory, if_pos hget]

theorem loadWorkingFile_perm_iff (S : Schema Str (Value φ))
    (entries : List (FileRow Str (Value φ))) (tbl : List (Record Str (Value φ))) :
    (loadWorkingFile S entries tbl).Perm tbl ↔ (tbl = [] → loadWorkingFile S entries [] = []) := by
  cases tbl with
  | nil => simp
  | cons r rest => simp [loadWorkingFile]

/-- **The load leaves a table alone** exactly when it has nothing to write to it. -/
theorem Load.reload_perm_iff (L : Load φ) {t : DbTable} {tbl : List (Record Str (Value φ))}
    (h : (C.schema t).Valid tbl) : (L.reload C t tbl).Perm tbl ↔ L.Settled C t tbl := by
  have hne : routingConfig ≠ workingProxies := by decide
  unfold Load.reload Load.Settled
  by_cases ht : t = routingConfig
  · subst ht
    rw [if_pos rfl]
    cases L.loads with
    | true => simp [migrateSwitchHistory_perm_iff h, hne]
    | false => simp [hne]
  · rw [if_neg ht]
    by_cases hw : t = workingProxies
    · rw [if_pos hw, loadWorkingFile_perm_iff]
      simp [hw, hne.symm]
    · rw [if_neg hw]
      simp [ht, hw]

/-! ### What a restore promises -/

/-- A write of the group fails: something raises, or SQLite refuses the rows. -/
def GroupFails (C : Catalog φ) (raises : ℕ → DbTable → Bool) (groups : Dict Str (GroupData φ))
    (sel : List Str) (gkey : Str) : Prop :=
  ∃ j, sel[j]? = some gkey ∧
    ∃ t ∈ tablesOf gkey, raises j t = true ∨ refilled C groups t = none

/-- The table is to hold the rows: it belongs to a selected group, the file contains it, and no
write of the group fails. -/
def Due (C : Catalog φ) (raises : ℕ → DbTable → Bool) (groups : Dict Str (GroupData φ))
    (sel : List Str) (t : DbTable) (rows : List (FileRow Str (Value φ))) : Prop :=
  ∃ gkey ∈ sel, t ∈ tablesOf gkey ∧ fileRows groups t = some rows ∧
    ¬ GroupFails C raises groups sel gkey

/-- A table that is due holds exactly the rows of the file, and every other table what it held
before. -/
structure RestoredExactly (raises : ℕ → DbTable → Bool) (groups : Dict Str (GroupData φ))
    (sel : List Str) (before after : Database C) : Prop where
  restored : ∀ t rows, Due C raises groups sel t rows →
    ((after.tables t).map Schema.cells).Perm (rows.map Dict.get?)
  kept : ∀ t, (∀ rows, ¬ Due C raises groups sel t rows) →
    (after.tables t).Perm (before.tables t)

/-- Restoring a backup that has just been created changes no table. -/
def RoundTrip (L : Load φ) (raises : ℕ → DbTable → Bool) (unread : DbTable → Bool)
    (sel : List Str) (db : Database C) : Prop :=
  ∀ t, ((restoreBackup L raises db (.backup (createBackup unread db sel)) sel).1.tables t).Perm
    (db.tables t)

/-! ### When it keeps the promise -/

/-- The rows that are due may stand in their tables as they are; another table is not written,
or with what it holds already; and the load has nothing to write. -/
structure Restorable (L : Load φ) (raises : ℕ → DbTable → Bool)
    (groups : Dict Str (GroupData φ)) (sel : List Str) (db : Database C) : Prop where
  due : ∀ t rows, Due C raises groups sel t rows →
    ∃ tbl, (C.schema t).Exact rows tbl ∧ L.Settled C t tbl
  written : ∀ t, (∀ rows, ¬ Due C raises groups sel t rows) → Attempted raises 0 sel t →
    ∀ tbl, refilled C groups t = some tbl → (L.reload C t tbl).Perm (db.tables t)
  untouched : ∀ t, ¬ Attempted raises 0 sel t ∨ refilled C groups t = none →
    L.Settled C t (db.tables t)

/-- A table whose read raised is not written, or was empty; and the load has nothing to
write. -/
structure ReadBack (L : Load φ) (raises : ℕ → DbTable → Bool) (unread : DbTable → Bool)
    (sel : List Str) (db : Database C) : Prop where
  emptied : ∀ t, Attempted raises 0 sel t → unread t = true →
    (L.reload C t []).Perm (db.tables t)
  untouched : ∀ t, ¬ (Attempted raises 0 sel t ∧ unread t = true) → L.Settled C t (db.tables t)

/-- A table that is due has been written. -/
theorem Due.written {raises : ℕ → DbTable → Bool} {groups : Dict Str (GroupData φ)}
    {sel : List Str} {t : DbTable} {rows : List (FileRow Str (Value φ))}
    (h : Due C raises groups sel t rows) :
    Attempted raises 0 sel t ∧ ∃ tbl, refilled C groups t = some tbl := by
  obtain ⟨gkey, hgkey, ht, hrows, hfails⟩ := h
  obtain ⟨j, hj⟩ := List.mem_iff_getElem?.mp hgkey
  have hok : ¬ (raises j t = true ∨ refilled C groups t = none) :=
    fun hor => hfails ⟨j, hj, t, ht, hor⟩
  rw [not_or] at hok
  exact ⟨⟨j, gkey, hj, ht, by simpa using hok.1⟩, Option.ne_none_iff_exists'.mp hok.2⟩

theorem restoreBackup_written (L : Load φ) {raises : ℕ → DbTable → Bool}
    {groups : Dict Str (GroupData φ)} {sel : List Str} (db : Database C) {t : DbTable}
    {tbl : List (Record Str (Value φ))} (hatt : Attempted raises 0 sel t)
    (hre : refilled C groups t = some tbl) :
    (restoreBackup L raises db (.backup groups) sel).1.tables t = L.reload C t tbl := by
  change L.reload C t ((restoreGroups raises groups 0 sel db .empty).1.tables t) = _
  rw [restoreGroups_written hatt, hre, Option.getD_some]

theorem restoreBackup_kept (L : Load φ) {raises : ℕ → DbTable → Bool}
    {groups : Dict Str (GroupData φ)} {sel : List Str} (db : Database C) {t : DbTable}
    (h : ¬ Attempted raises 0 sel t ∨ refilled C groups t = none) :
    (restoreBackup L raises db (.backup groups) sel).1.tables t = L.reload C t (db.tables t) := by
  change L.reload C t ((restoreGroups raises groups 0 sel db .empty).1.tables t) = _
  by_cases hatt : Attempted raises 0 sel t
  · rw [restoreGroups_written hatt, h.resolve_left (not_not.mpr hatt), Option.getD_none]
  · rw [restoreGroups_kept hatt]

theorem refilled_of_fileRows {groups : Dict Str (GroupData φ)} {t : DbTable}
    {rows : List (FileRow Str (Value φ))} (h : fileRows groups t = some rows) :
    refilled C groups t = (C.schema t).refill rows := by
  rw [refilled, h, Option.getD_some]

theorem restoredExactly_iff (L : Load φ) (raises : ℕ → DbTable → Bool)
    (groups : Dict Str (GroupData φ)) (sel : List Str) (db : Database C) :
    RestoredExactly raises groups sel db (restoreBackup L raises db (.backup groups) sel).1 ↔
      Restorable L raises groups sel db := by
  constructor
  · intro h
    refine ⟨fun t rows hdue => ?_, fun t hnot hatt tbl hre => ?_, fun t hun => ?_⟩
    · have hholds := h.restored t rows hdue
      obtain ⟨hatt, tbl, hre⟩ := hdue.written
      obtain ⟨tbl', hexact, hperm⟩ := Schema.exact_of_perm (Database.valid _ t) hholds
      have htbl : tbl = tbl' := by
        obtain ⟨gkey, -, -, hrows, -⟩ := hdue
        rw [refilled_of_fileRows hrows, hexact.refill] at hre
        exact (Option.some.inj hre).symm
      subst htbl
      rw [restoreBackup_written L db hatt hre] at hperm
      exact ⟨tbl, hexact, (L.reload_perm_iff hexact.1).mp hperm.symm⟩
    · rw [← restoreBackup_written L db hatt hre]
      exact h.kept t hnot
    · have hnot : ∀ rows, ¬ Due C raises groups sel t rows := by
        intro rows hdue
        obtain ⟨hatt, tbl, hre⟩ := hdue.written
        rw [hun.resolve_left (not_not.mpr hatt)] at hre
        cases hre
      refine (L.reload_perm_iff (db.valid t)).mp ?_
      rw [← restoreBackup_kept L db hun]
      exact h.kept t hnot
  · intro h
    refine ⟨fun t rows hdue => ?_, fun t hnot => ?_⟩
    · obtain ⟨tbl, hexact, hsettled⟩ := h.due t rows hdue
      have hatt := hdue.written.1
      obtain ⟨gkey, -, -, hrows, -⟩ := hdue
      have hre : refilled C groups t = some tbl := by
        rw [refilled_of_fileRows hrows, hexact.refill]
      rw [restoreBackup_written L db hatt hre, hexact.2]
      exact ((L.reload_perm_iff hexact.1).mpr hsettled).map _
    · by_cases hun : ¬ Attempted raises 0 sel t ∨ refilled C groups t = none
      · rw [restoreBackup_kept L db hun]
        exact (L.reload_perm_iff (db.valid t)).mpr (h.untouched t hun)
      · rw [not_or, not_not] at hun
        obtain ⟨hatt, hne⟩ := hun
        obtain ⟨tbl, hre⟩ := Option.ne_none_iff_exists'.mp hne
        rw [restoreBackup_written L db hatt hre]
        exact h.written t hnot hatt tbl hre

/-! ### A backup that has just been created -/

/-- What one element of a list brings about, and all others keep, holds after a fold over it. -/
theorem foldl_of_mem {β γ : Type*} {P : β → Prop} {f : β → γ → β} {x : γ} {l : List γ}
    (hset : ∀ b, P (f b x)) (hkeep : ∀ b, ∀ y ∈ l, P b → P (f b y)) (hx : x ∈ l) (b : β) :
    P (l.foldl f b) := by
  induction l generalizing b with
  | nil => cases hx
  | cons y l ih =>
    rcases List.mem_cons.mp hx with rfl | hx
    · exact List.foldlRecOn l f (hset b)
        (fun b hb z hz => hkeep b z (List.mem_cons_of_mem _ hz) hb)
    · exact ih (fun b z hz => hkeep b z (List.mem_cons_of_mem y hz)) hx _

theorem get?_groupData (unread : DbTable → Bool) (db : Database C) {tables : List DbTable}
    {t : DbTable} (hnames : ∀ t' ∈ tables, t'.2 = t.2 → t' = t) (ht : t ∈ tables) :
    (groupData unread db tables).get? t.2 =
      some (if unread t then [] else (db.tables t).map (C.schema t).row) := by
  unfold groupData
  refine foldl_of_mem (P := fun d : GroupData φ => d.get? t.2 =
    some (if unread t then [] else (db.tables t).map (C.schema t).row)) (fun d => ?_)
    (fun d t' ht' h => ?_) ht _
  · rw [Dict.get?_insert, if_pos rfl]
  · by_cases hname : t.2 = t'.2
    · rw [Dict.get?_insert, if_pos hname, hnames t' ht' hname.symm]
    · rw [Dict.get?_insert, if_neg hname]
      exact h

theorem get?_createBackup (unread : DbTable → Bool) (db : Database C) {sel : List Str}
    {gkey : Str} {tables : List DbTable} (hgroup : backupGroups.get? gkey = some tables)
    (hsel : gkey ∈ sel) :
    (createBackup unread db sel).get? gkey = some (groupData unread db tables) := by
  unfold createBackup
  refine foldl_of_mem (P := fun groups : Dict Str (GroupData φ) =>
    groups.get? gkey = some (groupData unread db tables)) (fun groups => ?_)
    (fun groups g _ h => ?_) hsel _
  · rw [hgroup, Dict.get?_insert, if_pos rfl]
  · by_cases hg : g = gkey
    · rw [hg, hgroup, Dict.get?_insert, if_pos rfl]
    · cases backupGroups.get? g with
      | none => exact h
      | some tables' => exact (Dict.get?_insert ..).trans ((if_neg (Ne.symm hg)).trans h)

/-- What a restore makes of a table that has just been read. -/
theorem refilled_createBackup (unread : DbTable → Bool) (db : Database C)
    {raises : ℕ → DbTable → Bool} {sel : List Str} {t : DbTable} (h : Attempted raises 0 sel t) :
    refilled C (createBackup unread db sel) t =
      some (if unread t then [] else db.tables t) := by
  obtain ⟨j, gkey, hj, ht, -⟩ := h
  obtain ⟨tables, hgroup, hmem⟩ := mem_tablesOf.mp ht
  have hnames : ∀ t' ∈ tables, t'.2 = t.2 → t' = t := fun t' ht' hname =>
    names_items _ (mem_items_of_get? hgroup) t' ht' t hmem hname
  have hrows : fileRows (createBackup unread db sel) t =
      some (if unread t then [] else (db.tables t).map (C.schema t).row) := by
    rw [← fileRows_of_mem ht, get?_createBackup unread db hgroup (List.mem_of_getElem? hj),
      Option.getD_some, get?_groupData unread db hnames hmem]
  rw [refilled_of_fileRows hrows]
  split
  · rfl
  · exact (db.valid t).exact.refill

theorem roundTrip_iff (L : Load φ) (raises : ℕ → DbTable → Bool) (unread : DbTable → Bool)
    (sel : List Str) (db : Database C) :
    RoundTrip L raises unread sel db ↔ ReadBack L raises unread sel db := by
  have hemptied : ∀ t, Attempted raises 0 sel t → unread t = true →
      (restoreBackup L raises db (.backup (createBackup unread db sel)) sel).1.tables t =
        L.reload C t [] := by
    intro t hatt hun
    refine restoreBackup_written L db hatt ?_
    rw [refilled_createBackup unread db hatt, hun, if_pos rfl]
  have hsame : ∀ t, ¬ (Attempted raises 0 sel t ∧ unread t = true) →
      (restoreBackup L raises db (.backup (createBackup unread db sel)) sel).1.tables t =
        L.reload C t (db.tables t) := by
    intro t hnot
    by_cases hatt : Attempted raises 0 sel t
    · refine restoreBackup_written L db hatt ?_
      rw [refilled_createBackup unread db hatt, if_neg (fun hun => hnot ⟨hatt, hun⟩)]
    · exact restoreBackup_kept L db (.inl hatt)
  constructor
  · intro h
    refine ⟨fun t hatt hun => ?_, fun t hnot => (L.reload_perm_iff (db.valid t)).mp ?_⟩
    · rw [← hemptied t hatt hun]
      exact h t
    · rw [← hsame t hnot]
      exact h t
  · intro h t
    by_cases hboth : Attempted raises 0 sel t ∧ unread t = true
    · rw [hemptied t hboth.1 hboth.2]
      exact h.emptied t hboth.1 hboth.2
    · rw [hsame t hboth]
      exact (L.reload_perm_iff (db.valid t)).mpr (h.untouched t hboth)

/-- **When a restore is exact**: each table of a selected group that the file contains holds the
rows of the file, each other table, and each table of a group of which a write fails, holds what
it held before, and restoring a backup that has just been created changes nothing, if and only
if the rows may stand in their tables as they are, no table is written that the file lacks, or
whose group fails, or whose read had raised, unless it holds already what is written, and the
load has nothing to write. -/
theorem restore_exact_iff (L : Load φ) (raises : ℕ → DbTable → Bool) (unread : DbTable → Bool)
    (groups : Dict Str (GroupData φ)) (sel : List Str) (db : Database C) :
    RestoredExactly raises groups sel db (restoreBackup L raises db (.backup groups) sel).1 ∧
        RoundTrip L raises unread sel db ↔
      Restorable L raises groups sel db ∧ ReadBack L raises unread sel db :=
  and_congr (restoredExactly_iff L raises groups sel db) (roundTrip_iff L raises unread sel db)

/-! ### A file without the table -/

/-- A table whose columns hold texts, the first of them the key; a name in another case stands
for its column. -/
def textSchema (first : Str) (rest : List Str) : Schema Str (Value ℕ) where
  cols := first :: rest
  keys := [[first]]
  null := .null
  named n :=
    if n ∈ first :: rest then some n
    else (first :: rest).find? (fun c => c.map Char.toLower = n.map Char.toLower)
  store _ _ x :=
    match x with
    | some (some (.text s)) => some (.text s)
    | _ => none
  cols_ne := List.cons_ne_nil first rest
  named_of_mem _ hc := if_pos hc
  stable tbl c x v h tbl' := by
    split at h <;> cases h
    rfl

/-- `routing_config`, and tables of addresses. -/
def textCatalog : Catalog ℕ where
  schema t :=
    if t = routingConfig then textSchema "key".toList ["value".toList]
    else textSchema "address".toList []
  null t := by split <;> rfl
  config_cols := rfl
  config_keys := List.mem_singleton.mpr rfl
  config_text _ _ _ _ := rfl

/-- A row of texts. -/
def textRow (cells : List (Str × Str)) : Record Str (Value ℕ) :=
  fun c => (Dict.find c cells).map .text

/-- One favorite, and the switch history has been migrated. -/
def oneFavorite : DbTable → List (Record Str (Value ℕ)) := fun t =>
  if t = routingConfig then
    [textRow [("key".toList, switchHistKey), ("value".toList, "true".toList)]]
  else if t = (.state, "favorites".toList) then [textRow [("address".toList, "a:1".toList)]]
  else []

theorem valid_textRow {first : Str} {rest : List Str} {cells : List (Str × Str)}
    (hcols : ∀ c, (Dict.find c cells).isSome = true ↔ c ∈ first :: rest) :
    (textSchema first rest).Valid [textRow cells] where
  fits r hr := by
    rw [List.mem_singleton.mp hr]
    refine ⟨fun c => ?_, fun c v hv tbl => ?_⟩
    · rw [textRow, Option.isSome_map]
      exact hcols c
    · obtain ⟨s, -, rfl⟩ := Option.map_eq_some_iff.mp hv
      rfl
  unique := List.pairwise_singleton _ _

theorem valid_oneFavorite (t : DbTable) : (textCatalog.schema t).Valid (oneFavorite t) := by
  have hsome (k v : Str) (l : List (Str × Str)) (c : Str) :
      (Dict.find c ((k, v) :: l)).isSome = true ↔ c = k ∨ (Dict.find c l).isSome = true := by
    rw [Dict.find]
    by_cases hc : k = c
    · simp [hc]
    · simp [hc, Ne.symm hc]
  unfold oneFavorite textCatalog
  dsimp only
  split
  · refine valid_textRow (fun c => ?_)
    rw [hsome, hsome, List.mem_cons, List.mem_singleton]
    simp [Dict.find]
  · split
    · refine valid_textRow (fun c => ?_)
      rw [hsome, List.mem_singleton]
      simp [Dict.find]
    · exact .nil

/-- The favorites are selected, and the backup is of another group: they are gone. -/
theorem favorites_emptied :
    ¬ ∀ (L : Load ℕ) (raises : ℕ → DbTable → Bool) (unread : DbTable → Bool)
      (groups : Dict Str (GroupData ℕ)) (sel : List Str) (db : Database textCatalog),
      RestoredExactly raises groups sel db (restoreBackup L raises db (.backup groups) sel).1 ∧
        RoundTrip L raises unread sel db := by
  intro hall
  have h := (hall ⟨true, []⟩ (fun _ _ => false) (fun _ => false) .empty ["favorites".toList]
    ⟨oneFavorite, valid_oneFavorite⟩).1
  have hnone : fileRows (φ := ℕ) .empty (.state, "favorites".toList) = none := by decide
  have hkept := h.kept (.state, "favorites".toList) (fun rows hdue => by
    obtain ⟨gkey, -, -, hrows, -⟩ := hdue
    rw [hnone] at hrows
    cases hrows)
  exact absurd hkept.length_eq (by decide)

end HuntProxy.Backup
