import HuntProxy.Lib.Dict
import HuntProxy.Lib.IpText
import HuntProxy.Storage.Writer
import Mathlib.Data.Fintype.Defs
import Mathlib.Data.Finset.Insert

/-!
# Saving the state

`_save_state` empties and refills the tables of the state one after the other, each with a
`DELETE` and an `INSERT` that are submitted to the background writer as separate items, waits
until the writer has worked them off, and clears the set of dirty ratings. `_save_working_file`
does so with the working proxies, and `_save_dirty_ratings` upserts the dirty ratings without
waiting. The event loop is blocked during a call; the writer is not.

Of `runtime_state` the model has the rows under the keys that a save replaces. A row is its
key and the rest of its columns.

## Main definitions

- `Stmt`, `sqlExec` — the statements and what they do to the tables
- `Saver`, `Saver.step` — the memory, the calls and the writer
- `Saver.Whole`, `Saver.Marked` — what a save promises
-/

namespace HuntProxy

open Ip (Str)

/-- The tables that a save replaces. -/
inductive Table
  | ratings
  | blacklist
  | favorites
  | runtimeState
  | workingProxies
  deriving DecidableEq, Repr

instance : Fintype Table where
  elems := {.ratings, .blacklist, .favorites, .runtimeState, .workingProxies}
  complete t := by cases t <;> decide

/-- The statements of the calls; `other` stands for items of other modules, which touch none
of the tables. -/
inductive Stmt (ρ : Type*)
  | delete (t : Table)
  | insert (t : Table) (rows : List (Str × ρ))
  | upsert (rows : List (Str × ρ))
  | other
  deriving DecidableEq, Repr

/-- The tables of the database. -/
abbrev Tables (ρ : Type*) := Table → Dict Str ρ

/-- What an `INSERT` does with a key that is there. -/
inductive Conflict
  | abort
  | replace
  | ignore
  deriving DecidableEq, Repr

/-- The kind of `INSERT` that a save uses for a table. -/
def Table.conflict : Table → Conflict
  | .favorites => .replace
  | .workingProxies => .ignore
  | _ => .abort

variable {ρ : Type*}

/-- One row of an `INSERT`. -/
def Conflict.put (c : Conflict) (d : Dict Str ρ) (p : Str × ρ) : Option (Dict Str ρ) :=
  if d.contains p.1 then
    match c with
    | .abort => none
    | .replace => some (d.insert p.1 p.2)
    | .ignore => some d
  else some (d.insert p.1 p.2)

/-- `executemany` of an `INSERT`. -/
def insertAll (c : Conflict) : List (Str × ρ) → Dict Str ρ → Option (Dict Str ρ)
  | [], d => some d
  | p :: rest, d => (c.put d p).bind (insertAll c rest)

/-- `executemany` of the upsert. -/
def upsertAll (rows : List (Str × ρ)) (d : Dict Str ρ) : Dict Str ρ :=
  rows.foldl (fun d p => d.insert p.1 p.2) d

/-- Replace one table. -/
def Tables.update (db : Tables ρ) (t : Table) (d : Dict Str ρ) : Tables ρ :=
  fun t' => if t' = t then d else db t'

/-- What a statement does to the tables; `none` when it raises. -/
def sqlExec : Stmt ρ → Tables ρ → Option (Tables ρ)
  | .delete t, db => some (db.update t .empty)
  | .insert t rows, db => (insertAll t.conflict rows (db t)).map (db.update t)
  | .upsert rows, db => some (db.update .ratings (upsertAll rows (db .ratings)))
  | .other, db => some db

/-- The database that the writer works on: besides what SQLite refuses, the items that
`raises` names raise. -/
def sqlite (raises : ℕ → Bool) (i : ℕ × Stmt ρ) (db : Tables ρ) : Option (Tables ρ) :=
  if raises i.1 then none else sqlExec i.2 db

/-- The full saves. -/
inductive Save
  | state
  | workingFile
  deriving DecidableEq, Repr

/-- The tables of a full save, in their order. -/
def Save.tables : Save → List Table
  | .state => [.ratings, .blacklist, .favorites, .runtimeState]
  | .workingFile => [.workingProxies]

/-- The statements of a full save. -/
def Save.stmts (save : Save) (memory : Tables ρ) : List (Stmt ρ) :=
  save.tables.flatMap (fun t => [.delete t, .insert t (memory t).items])

/-- Whether the event loop is in a full save, with the statements left to submit. -/
inductive SavePc (ρ : Type*)
  | idle
  | saving (save : Save) (todo : List (Stmt ρ))
  deriving DecidableEq

/-- The memory, as the rows that a save would write, the dirty ratings, the event loop, and
the writer of the state database. `versions` records the contents of the tables since the
last full save: those it left, and those that have been submitted. -/
structure Saver (ρ : Type*) where
  memory : Tables ρ
  dirty : List Str
  pc : SavePc ρ
  writer : DbWriter (Stmt ρ) (Tables ρ)
  versions : Table → List (Dict Str ρ)

/-- A change of the memory, a call, a step of a full save, or a step of the writer. -/
inductive SaverEvent (ρ : Type*)
  | change (memory : Tables ρ)
  | beginSave (save : Save)
  | submitNext
  | drainReturns
  | saveDirtyRatings
  | worker (a : WriterEvent (Stmt ρ))

namespace Saver

/-- The rows of the dirty ratings. -/
def dirtyRows (s : Saver ρ) : List (Str × ρ) :=
  s.dirty.filterMap (fun addr => ((s.memory .ratings).get? addr).map (fun r => (addr, r)))

/-- `_save_dirty_ratings`. -/
def saveDirtyRatings (s : Saver ρ) : Saver ρ :=
  if s.dirty = [] then s
  -- none of the dirty addresses is rated any more
  else if s.dirtyRows = [] then { s with dirty := [] }
  else
    { s with
      writer := s.writer.submit (.upsert s.dirtyRows)
      dirty := []
      versions := fun t =>
        if t = .ratings then s.versions t ++ (s.versions t).map (upsertAll s.dirtyRows)
        else s.versions t }

/-- The memory changes; the ratings that change are marked dirty. -/
def change [DecidableEq ρ] (s : Saver ρ) (memory : Tables ρ) : Saver ρ :=
  { s with
    memory := memory
    dirty := s.dirty ++ (memory .ratings).keys.filter
      (fun addr => (memory .ratings).get? addr ≠ (s.memory .ratings).get? addr) }

/-- A full save begins. -/
def beginSave (s : Saver ρ) (save : Save) : Saver ρ :=
  { s with
    pc := .saving save (save.stmts s.memory)
    versions := fun t => if t ∈ save.tables then s.versions t ++ [s.memory t] else s.versions t }

/-- A full save returns from `drain`. -/
def endSave (s : Saver ρ) (save : Save) : Saver ρ :=
  { s with
    dirty := if save = .state then [] else s.dirty
    pc := .idle
    versions := fun t => [s.writer.saved t] }

/-- The transition function. -/
def step [DecidableEq ρ] (raises : ℕ → Bool) (s : Saver ρ) : SaverEvent ρ → Option (Saver ρ)
  | .change memory =>
    match s.pc with
    | .idle => some (s.change memory)
    | .saving _ _ => none
  | .beginSave save =>
    match s.pc with
    | .idle => some (s.beginSave save)
    | .saving _ _ => none
  | .submitNext =>
    match s.pc with
    | .saving save (st :: rest) =>
      some { s with writer := s.writer.submit st, pc := .saving save rest }
    | _ => none
  | .drainReturns =>
    match s.pc with
    | .saving save [] => if s.writer.drained then some (s.endSave save) else none
    | _ => none
  | .saveDirtyRatings =>
    match s.pc with
    | .idle => some s.saveDirtyRatings
    | .saving _ _ => none
  | .worker a =>
    match a with
    -- other threads submit items of other modules only
    | .submit .other => some { s with writer := s.writer.submit .other }
    | .submit _ => none
    | a => (s.writer.step (sqlite raises) a).map (fun w => { s with writer := w })

/-- The machine. -/
def machine [DecidableEq ρ] (raises : ℕ → Bool) : Machine (Saver ρ) (SaverEvent ρ) :=
  ⟨step raises⟩

/-- The state has been loaded: nothing is submitted, and every rating in memory is stored or
marked dirty. -/
structure Loaded (s : Saver ρ) : Prop where
  writer : ∃ db, s.writer = .start db
  pc : s.pc = .idle
  versions : ∀ t, s.versions t = [s.writer.saved t]
  marked : ∀ addr r, (s.memory .ratings).get? addr = some r →
    addr ∈ s.dirty ∨ (s.writer.saved .ratings).get? addr = some r

/-! ### What a save promises -/

/-- Every table holds one of its contents as a whole, whenever the process dies. -/
def Whole (s : Saver ρ) : Prop := ∀ t, s.writer.saved t ∈ s.versions t

/-- A rating whose contents have not reached the database is marked dirty, or is in an upsert
that the writer has not worked off. -/
def Marked (s : Saver ρ) : Prop :=
  ∀ addr r, (s.memory .ratings).get? addr = some r →
    addr ∈ s.dirty ∨ (s.writer.saved .ratings).get? addr = some r ∨
      ∃ n rows, (n, Stmt.upsert rows) ∈ s.writer.outstanding ∧ (addr, r) ∈ rows

end Saver

end HuntProxy
