import HuntProxy.Lib.Machine
import HuntProxy.Lib.Transaction
import Mathlib.Data.List.Range

/-!
# The background writer

`_DbWriter` takes the submitted items from its queue in batches of at most 128, as many as
it finds, and executes a batch in one transaction: when an item raises, the whole batch is
rolled back. `drain` waits until every submitted item has been worked off.

What executing an item does to the database is a parameter. Items are numbered in the order
of their submission, so that the parameter may let any of them raise.

## Main definitions

- `DbWriter`, `DbWriter.step` — the worker thread and its queue
- `DbWriter.Worked` — what has become of the submitted items
- `DbWriter.Effect` — the steps, seen from outside

## Main results

- `DbWriter.Worked.step`, `DbWriter.worked` — the database is that of the finished batches
- `DbWriter.drained_iff_allOrNone` — when a failing item costs nothing but its own effects
-/

namespace HuntProxy

open Transaction (Batch runAll runBatches isolated EachBatch AllOrNone)

/-- Where the worker thread is: at the blocking `get`, in the loop of `get_nowait`, or in the
transaction, with the items left to execute. -/
inductive WriterPc (ι : Type*)
  | waiting
  | collecting
  | executing (rest : List (ℕ × ι))
  deriving DecidableEq, Repr

/-- The worker with its queue and its connection: `conn` is the database as the connection
sees it, `saved` what has been committed, `unfinished` the counter of the queue. `submitted`
and `batches` record what has been submitted and worked off. -/
structure DbWriter (ι σ : Type*) where
  queue : List (ℕ × ι)
  batch : List (ℕ × ι)
  pc : WriterPc ι
  conn : σ
  saved : σ
  unfinished : ℕ
  submitted : List (ℕ × ι)
  batches : List (Batch (ℕ × ι))
  deriving DecidableEq

/-- A call of `submit`, or a step of the worker: `execute` runs the next item, which may
raise; connecting and committing may fail. -/
inductive WriterEvent (ι : Type*)
  | submit (i : ι)
  | get
  | getNowait
  | collected
  | noConnection
  | execute
  | commit
  | commitFails
  deriving DecidableEq, Repr

namespace DbWriter

variable {ι σ : Type*}

/-- The limit of a batch. -/
def batchLimit : ℕ := 128

/-- A writer that has just been made for a database. -/
def start (db : σ) : DbWriter ι σ := ⟨[], [], .waiting, db, db, 0, [], []⟩

/-- `submit`. -/
def submit (w : DbWriter ι σ) (i : ι) : DbWriter ι σ :=
  { w with
    queue := w.queue ++ [(w.submitted.length, i)]
    unfinished := w.unfinished + 1
    submitted := w.submitted ++ [(w.submitted.length, i)] }

/-- `drain` does not block. -/
def drained (w : DbWriter ι σ) : Bool := w.unfinished == 0

/-- The loop of `get_nowait` ends. -/
def collectedAll (w : DbWriter ι σ) : Bool :=
  w.pc matches .collecting && (batchLimit ≤ w.batch.length || w.queue.isEmpty)

/-- The batch is over: the database is `db`, and every item is reported as done. -/
def finish (w : DbWriter ι σ) (db : σ) (stands : Bool) : DbWriter ι σ :=
  { w with
    batch := []
    pc := .waiting
    conn := db
    saved := db
    unfinished := w.unfinished - w.batch.length
    batches := w.batches ++ [⟨w.batch, stands⟩] }

/-- The transition function. -/
def step (exec : ℕ × ι → σ → Option σ) (w : DbWriter ι σ) : WriterEvent ι → Option (DbWriter ι σ)
  | .submit i => some (w.submit i)
  | .get =>
    match w.pc, w.queue with
    | .waiting, i :: rest => some { w with queue := rest, batch := [i], pc := .collecting }
    | _, _ => none
  | .getNowait =>
    match w.pc, w.queue with
    | .collecting, i :: rest =>
      if w.batch.length < batchLimit then some { w with queue := rest, batch := w.batch ++ [i] }
      else none
    | _, _ => none
  | .collected => if w.collectedAll then some { w with pc := .executing w.batch } else none
  | .noConnection => if w.collectedAll then some (w.finish w.saved false) else none
  | .execute =>
    match w.pc with
    | .executing (i :: rest) =>
      match exec i w.conn with
      | some db => some { w with pc := .executing rest, conn := db }
      | none => some (w.finish w.saved true)
    | _ => none
  | .commit =>
    match w.pc with
    | .executing [] => some (w.finish w.conn true)
    | _ => none
  | .commitFails =>
    match w.pc with
    | .executing [] => some (w.finish w.saved false)
    | _ => none

/-- The writer as a machine. -/
def machine (exec : ℕ × ι → σ → Option σ) : Machine (DbWriter ι σ) (WriterEvent ι) := ⟨step exec⟩

/-! ### What becomes of the items -/

variable {exec : ℕ × ι → σ → Option σ}

/-- What a step does, and when. -/
inductive Taken (exec : ℕ × ι → σ → Option σ) (w : DbWriter ι σ) :
    WriterEvent ι → DbWriter ι σ → Prop
  | submit (i : ι) : Taken exec w (.submit i) (w.submit i)
  | get {i rest} (waiting : w.pc = .waiting) (queue : w.queue = i :: rest) :
      Taken exec w .get { w with queue := rest, batch := [i], pc := .collecting }
  | getNowait {i rest} (collecting : w.pc = .collecting) (queue : w.queue = i :: rest)
      (room : w.batch.length < batchLimit) :
      Taken exec w .getNowait { w with queue := rest, batch := w.batch ++ [i] }
  | collected (all : w.collectedAll = true) :
      Taken exec w .collected { w with pc := .executing w.batch }
  | noConnection (all : w.collectedAll = true) :
      Taken exec w .noConnection (w.finish w.saved false)
  | execute {i rest db} (executing : w.pc = .executing (i :: rest))
      (ran : exec i w.conn = some db) :
      Taken exec w .execute { w with pc := .executing rest, conn := db }
  | raised {i rest} (executing : w.pc = .executing (i :: rest)) (raises : exec i w.conn = none) :
      Taken exec w .execute (w.finish w.saved true)
  | commit (executing : w.pc = .executing []) : Taken exec w .commit (w.finish w.conn true)
  | commitFails (executing : w.pc = .executing []) :
      Taken exec w .commitFails (w.finish w.saved false)

/-- **Inversion lemma** of the transition function. -/
theorem step_cases {w w' : DbWriter ι σ} {a : WriterEvent ι} (hs : w.step exec a = some w') :
    Taken exec w a w' := by
  cases a with
  | submit i =>
    cases hs
    exact .submit i
  | get =>
    rw [DbWriter.step] at hs
    split at hs
    · next hwait hqueue =>
      cases hs
      exact .get hwait hqueue
    · cases hs
  | getNowait =>
    rw [DbWriter.step] at hs
    split at hs
    · next hcollecting hqueue =>
      obtain ⟨hroom, hs⟩ := Option.ite_none_right_eq_some.mp hs
      cases hs
      exact .getNowait hcollecting hqueue hroom
    · cases hs
  | collected =>
    obtain ⟨hall, hs⟩ := Option.ite_none_right_eq_some.mp hs
    cases hs
    exact .collected hall
  | noConnection =>
    obtain ⟨hall, hs⟩ := Option.ite_none_right_eq_some.mp hs
    cases hs
    exact .noConnection hall
  | execute =>
    rw [DbWriter.step] at hs
    split at hs
    · next hexecuting =>
      split at hs
      · next hran =>
        cases hs
        exact .execute hexecuting hran
      · next hraises =>
        cases hs
        exact .raised hexecuting hraises
    · cases hs
  | commit =>
    rw [DbWriter.step] at hs
    split at hs
    · next hexecuting =>
      cases hs
      exact .commit hexecuting
    · cases hs
  | commitFails =>
    rw [DbWriter.step] at hs
    split at hs
    · next hexecuting =>
      cases hs
      exact .commitFails hexecuting
    · cases hs

/-- A batch that is complete was being collected. -/
theorem collecting_of_all {w : DbWriter ι σ} (h : w.collectedAll = true) : w.pc = .collecting := by
  cases hpc : w.pc with
  | collecting => rfl
  | waiting => simp [collectedAll, hpc] at h
  | executing left => simp [collectedAll, hpc] at h

/-- What has become of the submitted items: every one of them has been worked off in a batch,
is in the present batch or is queued, and the database is that of the batches. -/
structure Worked (exec : ℕ × ι → σ → Option σ) (db : σ) (w : DbWriter ι σ) : Prop where
  items : w.submitted = w.batches.flatMap Batch.items ++ w.batch ++ w.queue
  saved : w.saved = runBatches exec w.batches db
  conn : ∃ executed rest, w.batch = executed ++ rest ∧
    runAll exec executed w.saved = some w.conn ∧
    match w.pc with
    | .waiting => w.batch = []
    | .collecting => executed = []
    | .executing left => rest = left
  unfinished : w.unfinished = w.batch.length + w.queue.length
  numbered : w.submitted.map Prod.fst = List.range w.submitted.length

theorem Worked.start (db : σ) : Worked exec db (start db : DbWriter ι σ) where
  items := rfl
  saved := rfl
  conn := ⟨[], [], rfl, rfl, rfl⟩
  unfinished := rfl
  numbered := rfl

/-- A batch that ends with a rollback, or with a commit after its last item. -/
theorem Worked.finish {db : σ} {w : DbWriter ι σ} (h : Worked exec db w) {db' : σ} {stands : Bool}
    (hdb : Batch.commit exec ⟨w.batch, stands⟩ w.saved = db') :
    Worked exec db (w.finish db' stands) where
  items := by
    rw [DbWriter.finish]
    dsimp only
    rw [List.flatMap_append, h.items]
    simp
  saved := by
    rw [DbWriter.finish]
    dsimp only
    rw [Transaction.runBatches_concat, ← h.saved, hdb]
  conn := ⟨[], [], rfl, rfl, rfl⟩
  unfinished := by
    rw [DbWriter.finish]
    dsimp only
    rw [h.unfinished, Nat.add_sub_cancel_left]
    simp
  numbered := h.numbered

/-- **Step lemma**: submitting, collecting, executing, committing and rolling back. -/
theorem Worked.step {db : σ} {w w' : DbWriter ι σ} (h : Worked exec db w) {a : WriterEvent ι}
    (hs : w.step exec a = some w') : Worked exec db w' := by
  obtain ⟨executed, rest, hbatch, hrun, hpc⟩ := h.conn
  cases step_cases hs with
  | submit i =>
    refine ⟨?_, h.saved, h.conn, ?_, ?_⟩
    · simp only [DbWriter.submit, h.items, List.append_assoc]
    · simp only [DbWriter.submit, h.unfinished, List.length_append, List.length_singleton]
      omega
    · simp only [DbWriter.submit, List.map_append, h.numbered, List.map_singleton,
        List.length_append, List.length_singleton, List.range_succ]
  | @get i queue hwait hqueue =>
    -- a waiting writer has no batch
    rw [hwait] at hpc
    have hnil : w.batch = [] := hpc
    have hexecuted : executed = [] := (List.append_eq_nil_iff.mp (hbatch.symm.trans hnil)).1
    rw [hexecuted] at hrun
    refine ⟨?_, h.saved, ⟨[], [i], rfl, hrun, rfl⟩, ?_, h.numbered⟩
    · rw [h.items, hnil, hqueue]
      simp
    · rw [h.unfinished, hnil, hqueue]
      simp [Nat.add_comm]
  | @getNowait i queue hcollecting hqueue _ =>
    rw [hcollecting] at hpc
    have hexecuted : executed = [] := hpc
    rw [hexecuted] at hrun
    refine ⟨?_, h.saved, ⟨[], w.batch ++ [i], rfl, hrun, ?_⟩, ?_, h.numbered⟩
    · rw [h.items, hqueue]
      simp
    · rw [hcollecting]
    · rw [h.unfinished, hqueue]
      simp only [List.length_append, List.length_cons, List.length_nil]
      omega
  | collected hall =>
    rw [collecting_of_all hall] at hpc
    have hexecuted : executed = [] := hpc
    rw [hexecuted] at hrun
    exact ⟨h.items, h.saved, ⟨[], w.batch, rfl, hrun, rfl⟩, h.unfinished, h.numbered⟩
  | noConnection _ => exact h.finish (if_neg Bool.false_ne_true)
  | @execute i left db' hexecuting hran =>
    rw [hexecuting] at hpc
    have hrest : rest = i :: left := hpc
    have hnext := Transaction.runAll_concat (i := i) hrun
    have hsplit : w.batch = (executed ++ [i]) ++ left := by
      rw [hbatch, hrest, List.append_assoc, List.singleton_append]
    exact ⟨h.items, h.saved, ⟨executed ++ [i], left, hsplit, hnext.trans hran, rfl⟩,
      h.unfinished, h.numbered⟩
  | @raised i left hexecuting hraises =>
    -- the items before it have gone through, and are rolled back with it
    rw [hexecuting] at hpc
    have hrest : rest = i :: left := hpc
    have hnext := Transaction.runAll_concat (i := i) hrun
    refine h.finish ?_
    rw [Batch.commit, if_pos rfl, hbatch, hrest, ← List.singleton_append, ← List.append_assoc,
      Transaction.runAll_append, hnext, hraises]
    rfl
  | commit hexecuting =>
    rw [hexecuting] at hpc
    have hrest : rest = [] := hpc
    refine h.finish ?_
    rw [Batch.commit, if_pos rfl, hbatch, hrest, List.append_nil, hrun]
    rfl
  | commitFails _ => exact h.finish (if_neg Bool.false_ne_true)

/-- **Run lemma**: the database is that of the finished batches. -/
theorem worked {db : σ} {w : DbWriter ι σ}
    (h : (machine exec).Reaches Machine.anyStep (start db) w) : Worked exec db w :=
  h.invariant (.start db) (fun _ _ _ hw hs _ => hw.step hs)

/-- What is left to work off: the present batch and the queue. -/
def outstanding (w : DbWriter ι σ) : List (ℕ × ι) := w.batch ++ w.queue

@[simp] theorem outstanding_submit (w : DbWriter ι σ) (i : ι) :
    (w.submit i).outstanding = w.outstanding ++ [(w.submitted.length, i)] := by
  simp [outstanding, submit]

theorem Worked.outstanding_of_drained {db : σ} {w : DbWriter ι σ} (h : Worked exec db w)
    (hdrain : w.drained = true) : w.outstanding = [] := by
  have hzero : w.batch.length + w.queue.length = 0 := by
    rw [← h.unfinished]
    exact beq_iff_eq.mp hdrain
  rw [outstanding, ← List.length_eq_zero_iff, List.length_append, hzero]

/-- After a drain every item has been worked off in one of the batches. -/
theorem Worked.of_drained {db : σ} {w : DbWriter ι σ} (h : Worked exec db w)
    (hdrain : w.drained = true) : w.submitted = w.batches.flatMap Batch.items := by
  have hempty := h.outstanding_of_drained hdrain
  rw [outstanding] at hempty
  rw [h.items, List.append_assoc, hempty, List.append_nil]

/-- The step ends the batch without a commit. -/
def loses (exec : ℕ × ι → σ → Option σ) (w : DbWriter ι σ) : WriterEvent ι → Bool
  | .noConnection => true
  | .commitFails => true
  | .execute =>
    match w.pc with
    | .executing (i :: _) => (exec i w.conn).isNone
    | _ => false
  | _ => false

/-- The steps of the writer, seen from outside: an item is submitted, the writer gets on with
what is outstanding, a batch is committed, or a batch is lost. -/
inductive Effect (exec : ℕ × ι → σ → Option σ) (w : DbWriter ι σ) : WriterEvent ι → DbWriter ι σ → Prop
  | submit (i : ι) : Effect exec w (.submit i) (w.submit i)
  | quiet {a w'} (saved : w'.saved = w.saved) (outstanding : w'.outstanding = w.outstanding)
      (starts : ∀ rest, w'.pc = .executing rest →
        a = .collected ∧ w'.batch = w.batch ∨ (∃ rest', w.pc = .executing rest') ∧ w'.batch = w.batch) :
      Effect exec w a w'
  | commit {db} (ran : runAll exec w.batch w.saved = some db) (at_ : w.pc = .executing []) :
      Effect exec w .commit (w.finish db true)
  | lost {a stands} (loses : w.loses exec a = true)
      (at_ : a = .noConnection ∨ ∃ rest, w.pc = .executing rest) :
      Effect exec w a (w.finish w.saved stands)

theorem Worked.effect {db : σ} {w w' : DbWriter ι σ} (h : Worked exec db w) {a : WriterEvent ι}
    (hs : w.step exec a = some w') : Effect exec w a w' := by
  obtain ⟨executed, rest, hbatch, hrun, hpc⟩ := h.conn
  cases step_cases hs with
  | submit i => exact .submit i
  | get hwait hqueue =>
    rw [hwait] at hpc
    have hnil : w.batch = [] := hpc
    refine .quiet rfl ?_ (fun rest hrest => by cases hrest)
    rw [outstanding, outstanding, hnil, hqueue]
    rfl
  | getNowait hcollecting hqueue _ =>
    refine .quiet rfl ?_ (fun rest hrest => ?_)
    · simp [outstanding, hqueue]
    · rw [hcollecting] at hrest
      cases hrest
  | collected _ => exact .quiet rfl rfl (fun _ _ => .inl ⟨rfl, rfl⟩)
  | noConnection _ => exact .lost rfl (.inl rfl)
  | execute hexecuting _ =>
    exact .quiet rfl rfl (fun _ _ => .inr ⟨⟨_, hexecuting⟩, rfl⟩)
  | raised hexecuting hraises =>
    exact .lost (by simp [loses, hexecuting, hraises]) (.inr ⟨_, hexecuting⟩)
  | commit hexecuting =>
    rw [hexecuting] at hpc
    have hrest : rest = [] := hpc
    refine .commit ?_ hexecuting
    rw [hbatch, hrest, List.append_nil, hrun]
  | commitFails hexecuting => exact .lost rfl (.inr ⟨_, hexecuting⟩)

/-- **A failing item discards only its own effects**, exactly when no batch is torn apart:
after a drain the database holds the effects of all items but those that fail by themselves,
in the order of submission, if and only if every batch went through as a whole or had only
items that fail. The database is the list of the items that have been applied, of which its
contents are a function; `fails` says which item raises, and may look at the database and at
the number of the item. -/
theorem drained_iff_allOrNone {ι : Type*} (fails : List (ℕ × ι) → ℕ × ι → Bool)
    {w : DbWriter ι (List (ℕ × ι))}
    (h : (machine (Transaction.apply fails)).Reaches Machine.anyStep (start []) w)
    (hdrain : w.drained = true) :
    w.saved = isolated (Transaction.apply fails) w.submitted [] ↔
      EachBatch (Transaction.apply fails) (AllOrNone (Transaction.apply fails)) w.batches [] := by
  have hw := worked h
  have hitems := hw.of_drained hdrain
  have hnodup : ([] ++ w.batches.flatMap Batch.items).Nodup := by
    rw [List.nil_append, ← hitems]
    refine List.Nodup.of_map Prod.fst ?_
    rw [hw.numbered]
    exact List.nodup_range
  rw [hw.saved, hitems]
  exact Transaction.runBatches_eq_isolated_iff hnodup

/-! ### A batch of two callers -/

/-- Two callers submit one item each, and the worker finds both of them. -/
def sharedBatch : List (WriterEvent Bool) :=
  [.submit true, .submit false, .get, .getNowait, .collected, .execute, .execute]

/-- An item of `false` raises. -/
def failsOnFalse : List (ℕ × Bool) → ℕ × Bool → Bool := fun _ i => !i.2

/-- A run in which the failing item has a batch for itself. -/
def separateBatches : List (WriterEvent Bool) :=
  [.submit true, .get, .collected, .submit false, .execute, .commit, .get, .collected, .execute]

theorem drained_iff_allOrNone_separate :
    ∃ w : DbWriter Bool (List (ℕ × Bool)),
      w.saved = isolated (Transaction.apply failsOnFalse) w.submitted [] ∧
        w.saved = [(0, true)] := by
  have hrun : ((machine (Transaction.apply failsOnFalse)).exec (fun _ _ _ => true) (start [])
      separateBatches).any (fun w => w.drained && decide (w.saved = [(0, true)]) &&
        decide (w.batches = [⟨[(0, true)], true⟩, ⟨[(1, false)], true⟩])) = true := by decide
  obtain ⟨w, hw, hp⟩ := Machine.exists_reaches_of_exec (G := Machine.anyStep)
    (fun _ _ _ _ => trivial) hrun
  simp only [Bool.and_eq_true, decide_eq_true_eq] at hp
  refine ⟨w, (drained_iff_allOrNone failsOnFalse hw hp.1.1).mpr ?_, hp.1.2⟩
  rw [hp.2]
  refine ⟨.inl ⟨rfl, rfl⟩, .inr ?_, trivial⟩
  intro i hi
  cases List.mem_singleton.mp hi
  rfl

/-- The failing item of the second caller discards the item of the first one. -/
theorem shared_batch_lost :
    ¬ ∀ (fails : List (ℕ × Bool) → ℕ × Bool → Bool) (w : DbWriter Bool (List (ℕ × Bool))),
      (machine (Transaction.apply fails)).Reaches Machine.anyStep (start []) w →
        w.drained = true → w.saved = isolated (Transaction.apply fails) w.submitted [] := by
  intro hall
  have hrun : ((machine (Transaction.apply failsOnFalse)).exec (fun _ _ _ => true) (start [])
      sharedBatch).any (fun w => w.drained &&
        !decide (w.saved = isolated (Transaction.apply failsOnFalse) w.submitted [])) = true := by
    decide
  obtain ⟨w, hw, hp⟩ := Machine.exists_reaches_of_exec (G := Machine.anyStep)
    (fun _ _ _ _ => trivial) hrun
  simp only [Bool.and_eq_true, Bool.not_eq_true', decide_eq_false_iff_not] at hp
  exact hp.2 (hall failsOnFalse w hw hp.1)

end DbWriter

end HuntProxy
