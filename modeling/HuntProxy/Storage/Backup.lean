import HuntProxy.Lib.IpText
import HuntProxy.Lib.KeyedTable

/-!
# Backup and restore

`create_backup` writes the tables of the selected groups to a file, and `restore_backup` writes
them back, each table in a transaction of its own: a `DELETE`, and an `INSERT OR REPLACE` of the
rows with the columns of the first one. When a statement raises, the transaction is rolled back
and the loop goes on. Then the state is loaded again, which may write too: the migration of the
switch history sets a key of `routing_config`, and an empty `working_proxies` is filled from
`working.txt`.

What SQLite makes of a value in a column is a parameter, the schema of the table, and so is the
column that it takes a name of the file for: the one of that name in any case, or for `rowid`
the integer key. The files are those that parse, with rows that are objects whose names are
names and not more SQL, and without a `rowid` for a table that has no integer key; `true` and
`false` are the integers 1 and 0. The background writers are idle.

## Main definitions

- `backupGroups` — the groups and their tables
- `Catalog`, `Database` — the schemas, and tables that they allow
- `restoreBackup`, `createBackup` — the two functions
-/

namespace HuntProxy.Backup

open Ip (Str)

/-! ### The tables -/

/-- The two databases. -/
inductive DbAttr
  | state
  | stats
  deriving DecidableEq, Repr

/-- A table: its database and its name. -/
abbrev DbTable := DbAttr × Str

/-- `BACKUP_GROUPS`. -/
def backupGroupItems : List (Str × List DbTable) :=
  [("ratings".toList, [(.state, "ratings".toList), (.state, "working_proxies".toList)]),
    ("blacklist".toList, [(.state, "blacklist".toList)]),
    ("favorites".toList, [(.state, "favorites".toList)]),
    ("ip_blacklist".toList,
      [(.state, "ip_blacklist_entries".toList), (.state, "ip_blacklist_sources".toList)]),
    ("blocklists".toList, [(.state, "blocklist_sources".toList)]),
    ("proxy_sources".toList,
      [(.state, "proxy_sources".toList), (.state, "proxy_source_entries".toList)]),
    ("routing".toList,
      [(.state, "domain_lists".toList), (.state, "domain_entries".toList),
        (.state, "routing_config".toList)]),
    ("custom_proxies".toList, [(.state, "custom_proxies".toList)]),
    ("interception".toList,
      [(.state, "interception_resources".toList), (.state, "interception_entries".toList),
        (.state, "interception_config".toList)]),
    ("runtime_state".toList, [(.state, "runtime_state".toList)]),
    ("history".toList, [(.stats, "history".toList)]),
    ("traffic_log".toList, [(.stats, "traffic_log".toList)]),
    ("events".toList, [(.stats, "events".toList)]),
    ("actions".toList, [(.stats, "actions".toList)]),
    ("canary_history".toList, [(.stats, "canary_history".toList)]),
    ("proxy_checks".toList, [(.stats, "proxy_checks".toList)])]

theorem backupGroupItems_nodup : (backupGroupItems.map Prod.fst).Nodup := by decide

/-- `BACKUP_GROUPS` as a dictionary. -/
def backupGroups : Dict Str (List DbTable) := ⟨backupGroupItems, backupGroupItems_nodup⟩

def routingConfig : DbTable := (.state, "routing_config".toList)

def workingProxies : DbTable := (.state, "working_proxies".toList)

/-- The tables of a group; none when there is no such group. -/
def tablesOf (gkey : Str) : List DbTable := (backupGroups.get? gkey).getD []

/-- The group of a table. -/
def groupOf (t : DbTable) : Option Str :=
  (backupGroupItems.find? (fun p => t ∈ p.2)).map Prod.fst

/-- A value of SQLite; `φ` is the type of the floating-point numbers. -/
inductive Value (φ : Type*)
  | null
  | int (n : ℤ)
  | real (x : φ)
  | text (s : Str)
  deriving DecidableEq, Repr

variable {φ : Type*} [DecidableEq φ]

/-- The schemas of the tables, of which `routing_config` is written by name. -/
structure Catalog (φ : Type*) where
  schema : DbTable → Schema Str (Value φ)
  null : ∀ t, (schema t).null = .null
  config_cols : (schema routingConfig).cols = ["key".toList, "value".toList]
  config_keys : ["key".toList] ∈ (schema routingConfig).keys
  config_text : ∀ tbl c s, c ∈ (schema routingConfig).cols →
    (schema routingConfig).store tbl c (some (some (.text s))) = some (.text s)

/-- The tables, each as its schema allows it. -/
structure Database (C : Catalog φ) where
  tables : DbTable → List (Record Str (Value φ))
  valid : ∀ t, (C.schema t).Valid (tables t)

variable {C : Catalog φ}

theorem valid_write (db : Database C) {t : DbTable} {tbl : List (Record Str (Value φ))}
    (h : (C.schema t).Valid tbl) (t' : DbTable) :
    (C.schema t').Valid (if t' = t then tbl else db.tables t') := by
  split
  · next ht => exact ht ▸ h
  · exact db.valid t'

/-- Replace one table. -/
def Database.write (db : Database C) (t : DbTable) (tbl : List (Record Str (Value φ)))
    (h : (C.schema t).Valid tbl) : Database C :=
  ⟨fun t' => if t' = t then tbl else db.tables t', valid_write db h⟩

/-! ### Loading the state -/

/-- `_routing_get`. -/
def routingGet (tbl : List (Record Str (Value φ))) (key : Str) : Option (Value φ) :=
  (tbl.find? (fun r => r "key".toList = some (.text key))).bind (fun r => r "value".toList)

def switchHistKey : Str := "switch_hist_v2".toList

/-- What the statement of `_routing_set` gives to the columns. -/
def configRow (key value : Str) : Str → Option (Option (Value φ)) := fun c =>
  if c = "key".toList then some (some (.text key))
  else if c = "value".toList then some (some (.text value))
  else none

/-- `_migrate_switch_history`. -/
def migrateSwitchHistory (S : Schema Str (Value φ)) (tbl : List (Record Str (Value φ))) :
    List (Record Str (Value φ)) :=
  if routingGet tbl switchHistKey = some (.text "true".toList) then tbl
  else (S.insertOrReplace tbl (configRow switchHistKey "true".toList)).getD tbl

/-- The columns that `_migrate_working_txt` writes. -/
def workingColumns : List Str :=
  ["address".toList, "country".toList, "latency".toList, "score".toList]

/-- `_load_working_file`, as far as it writes: an empty table is filled by
`_migrate_working_txt` with the entries of `working.txt`. -/
def loadWorkingFile (S : Schema Str (Value φ)) (entries : List (FileRow Str (Value φ)))
    (tbl : List (Record Str (Value φ))) : List (Record Str (Value φ)) :=
  if tbl.isEmpty then
    entries.foldl (fun tbl e => S.insertOrIgnore tbl (S.given workingColumns e)) tbl
  else tbl

/-- What the load finds: whether `_load_state` gets as far as its migration, which a row that
does not parse prevents, and the entries of `working.txt`, none when there is no such file. -/
structure Load (φ : Type*) where
  loads : Bool
  workingTxt : List (FileRow Str (Value φ))

/-- What the load makes of a table. -/
def Load.reload (L : Load φ) (C : Catalog φ) (t : DbTable) (tbl : List (Record Str (Value φ))) :
    List (Record Str (Value φ)) :=
  -- only two tables are written by the load
  if t = routingConfig then
    if L.loads then migrateSwitchHistory (C.schema t) tbl else tbl
  else if t = workingProxies then loadWorkingFile (C.schema t) L.workingTxt tbl
  else tbl

theorem valid_loadWorkingFile {S : Schema Str (Value φ)} {tbl : List (Record Str (Value φ))}
    (h : S.Valid tbl) (entries : List (FileRow Str (Value φ))) :
    S.Valid (loadWorkingFile S entries tbl) := by
  unfold loadWorkingFile
  split
  · next hempty =>
    clear hempty
    induction entries generalizing tbl with
    | nil => exact h
    | cons e rest ih => exact ih (h.insertOrIgnore _)
  · exact h

theorem valid_migrateSwitchHistory {S : Schema Str (Value φ)}
    {tbl : List (Record Str (Value φ))} (h : S.Valid tbl) :
    S.Valid (migrateSwitchHistory S tbl) := by
  unfold migrateSwitchHistory
  split
  · exact h
  · cases hins : S.insertOrReplace tbl (configRow switchHistKey "true".toList) with
    | none => exact h
    | some tbl' => exact h.insertOrReplace hins

theorem Load.valid_reload (L : Load φ) {t : DbTable} {tbl : List (Record Str (Value φ))}
    (h : (C.schema t).Valid tbl) : (C.schema t).Valid (L.reload C t tbl) := by
  unfold Load.reload
  split
  · split
    · exact valid_migrateSwitchHistory h
    · exact h
  · split
    · exact valid_loadWorkingFile h L.workingTxt
    · exact h

/-- The reload at the end of `restore_backup`. -/
def Database.reload (L : Load φ) (db : Database C) : Database C :=
  ⟨fun t => L.reload C t (db.tables t), fun t => L.valid_reload (db.valid t)⟩

/-! ### The two functions -/

/-- The rows of the tables of a group, in a file. -/
abbrev GroupData (φ : Type*) := Dict Str (List (FileRow Str (Value φ)))

/-- The transaction for one table, with the number of rows that it adds to `gcount`; `raises`
says that the connection, a statement or the commit raises. -/
def restoreTable (raises : Bool) (rows : List (FileRow Str (Value φ))) (db : Database C)
    (t : DbTable) : Database C × ℕ :=
  if raises then (db, 0)
  else
    match h : (C.schema t).refill rows with
    | some tbl => (db.write t tbl (Schema.valid_of_refill h), rows.length)
    | none => (db, 0)

/-- The loop over the tables of a group. -/
def restoreGroup (raises : DbTable → Bool) (data : GroupData φ) :
    List DbTable → Database C → ℕ → Database C × ℕ
  | [], db, gcount => (db, gcount)
  | t :: rest, db, gcount =>
    -- a table that the file lacks counts as a table without rows
    let (db', n) := restoreTable (raises t) ((data.get? t.2).getD []) db t
    restoreGroup raises data rest db' (gcount + n)

/-- The loop over the selected groups, from the `i`-th one on. -/
def restoreGroups (raises : ℕ → DbTable → Bool) (groups : Dict Str (GroupData φ)) :
    ℕ → List Str → Database C → Dict Str ℕ → Database C × Dict Str ℕ
  | _, [], db, restored => (db, restored)
  | i, gkey :: rest, db, restored =>
    match backupGroups.get? gkey with
    | none => restoreGroups raises groups (i + 1) rest db restored
    | some tables =>
      let (db', gcount) := restoreGroup (raises i) ((groups.get? gkey).getD .empty) tables db 0
      restoreGroups raises groups (i + 1) rest db' (restored.insert gkey gcount)

/-- An uploaded file: it does not parse, it has another format, or it is a backup. -/
inductive Upload (φ : Type*)
  | invalid (e : Str)
  | foreign
  | backup (groups : Dict Str (GroupData φ))

/-- The result of `restore_backup`. -/
inductive Reply
  | error (text : Str)
  | ok (restored : Dict Str ℕ)

/-- `restore_backup`. -/
def restoreBackup (L : Load φ) (raises : ℕ → DbTable → Bool) (db : Database C)
    (data : Upload φ) (selectedGroups : List Str) : Database C × Reply :=
  match data with
  | .invalid e => (db, .error ("invalid backup file: ".toList ++ e))
  | .foreign => (db, .error "not a huntproxy backup file".toList)
  | .backup groups =>
    let (db', restored) := restoreGroups raises groups 0 selectedGroups db .empty
    (db'.reload L, .ok restored)

/-- The tables of one group for the file; a table whose read raises is stored without rows. -/
def groupData (unread : DbTable → Bool) (db : Database C) (tables : List DbTable) : GroupData φ :=
  tables.foldl (fun d t =>
    d.insert t.2 (if unread t then [] else (db.tables t).map (C.schema t).row)) .empty

/-- `create_backup`: the groups of the file. -/
def createBackup (unread : DbTable → Bool) (db : Database C) (selectedGroups : List Str) :
    Dict Str (GroupData φ) :=
  selectedGroups.foldl (fun groups gkey =>
    match backupGroups.get? gkey with
    | none => groups
    | some tables => groups.insert gkey (groupData unread db tables)) .empty

end HuntProxy.Backup
