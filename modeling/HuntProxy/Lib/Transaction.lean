import Mathlib.Data.List.Nodup
import Mathlib.Data.List.Infix

/-!
# Items that share transactions

A database is changed by items, each of which may raise. Items that are executed in one
transaction stand or fall together: when one of them raises, a rollback undoes all of them.
The yardstick is the database that gives every item a transaction of its own.

## Main definitions

- `runAll` — the items of one transaction
- `Batch.commit`, `runBatches` — transactions one after the other, with rollback
- `isolated` — every item in a transaction of its own
- `EachBatch` — a condition on every batch and the state it starts from
- `AllOrNone` — no item of the batch raises, or every one does

## Main results

- `runBatches_eq_isolated` — batches that are all or none are as good as single items
- `runBatches_eq_isolated_iff` — and no others are, where the database is the list of the
  items that have been applied
-/

namespace HuntProxy.Transaction

section

variable {ι σ : Type*} (exec : ι → σ → Option σ)

/-- The items of one transaction; `none` when one of them raises. -/
def runAll : List ι → σ → Option σ
  | [], s => some s
  | i :: rest, s => (exec i s).bind (runAll rest)

/-- Every item in a transaction of its own: an item that raises leaves the state alone. -/
def isolated (l : List ι) (s : σ) : σ := l.foldl (fun s i => (exec i s).getD s) s

/-- The items of a transaction, and whether its connection was there and its commit went
through. -/
structure Batch (ι : Type*) where
  items : List ι
  stands : Bool
  deriving DecidableEq, Repr

/-- The state after a transaction. -/
def Batch.commit (b : Batch ι) (s : σ) : σ :=
  if b.stands then (runAll exec b.items s).getD s else s

/-- The state after transactions, one after the other. -/
def runBatches (bs : List (Batch ι)) (s : σ) : σ := bs.foldl (fun s b => b.commit exec s) s

/-- Every batch meets a condition in the state that it starts from. -/
def EachBatch (P : Batch ι → σ → Prop) : List (Batch ι) → σ → Prop
  | [], _ => True
  | b :: rest, s => P b s ∧ EachBatch P rest (b.commit exec s)

/-- The batch goes through as a whole, or has only items that raise. -/
def AllOrNone (b : Batch ι) (s : σ) : Prop :=
  (b.stands = true ∧ (runAll exec b.items s).isSome = true) ∨ ∀ i ∈ b.items, exec i s = none

end

variable {ι σ : Type*} {exec : ι → σ → Option σ}

@[simp] theorem runAll_nil (s : σ) : runAll exec [] s = some s := rfl

theorem runAll_append (l l' : List ι) (s : σ) :
    runAll exec (l ++ l') s = (runAll exec l s).bind (runAll exec l') := by
  induction l generalizing s with
  | nil => rfl
  | cons i rest ih =>
    rw [List.cons_append, runAll, runAll, Option.bind_assoc]
    exact congrArg _ (funext ih)

theorem runAll_concat {l : List ι} {i : ι} {s t : σ} (h : runAll exec l s = some t) :
    runAll exec (l ++ [i]) s = exec i t := by
  rw [runAll_append, h, Option.bind_some, runAll]
  cases exec i t <;> rfl

theorem isolated_append (l l' : List ι) (s : σ) :
    isolated exec (l ++ l') s = isolated exec l' (isolated exec l s) :=
  List.foldl_append

theorem runBatches_concat (bs : List (Batch ι)) (b : Batch ι) (s : σ) :
    runBatches exec (bs ++ [b]) s = b.commit exec (runBatches exec bs s) :=
  List.foldl_concat _ _ _ _

/-- Items of which none raises may share a transaction. -/
theorem isolated_of_runAll {l : List ι} {s t : σ} (h : runAll exec l s = some t) :
    isolated exec l s = t := by
  induction l generalizing s with
  | nil => exact Option.some.inj h
  | cons i rest ih =>
    rw [runAll, Option.bind_eq_some_iff] at h
    obtain ⟨u, hu, hrest⟩ := h
    change isolated exec rest ((exec i s).getD s) = t
    rw [hu]
    exact ih hrest

/-- Items that all raise change nothing. -/
theorem isolated_of_raise {l : List ι} {s : σ} (h : ∀ i ∈ l, exec i s = none) :
    isolated exec l s = s := by
  induction l with
  | nil => rfl
  | cons i rest ih =>
    change isolated exec rest ((exec i s).getD s) = s
    rw [h i List.mem_cons_self]
    exact ih (fun j hj => h j (List.mem_cons_of_mem i hj))

/-- A batch of items that all raise leaves the state alone. -/
theorem commit_of_raise {b : Batch ι} {s : σ} (h : ∀ i ∈ b.items, exec i s = none) :
    b.commit exec s = s := by
  unfold Batch.commit
  split
  · cases hb : b.items with
    | nil => rfl
    | cons i rest =>
      have hi : exec i s = none := h i (hb ▸ List.mem_cons_self)
      rw [runAll, hi]
      rfl
  · rfl

/-- A batch that is all or none does what its items do alone. -/
theorem AllOrNone.commit_eq {b : Batch ι} {s : σ} (h : AllOrNone exec b s) :
    b.commit exec s = isolated exec b.items s := by
  rcases h with ⟨hstands, hsome⟩ | hnone
  · obtain ⟨t, ht⟩ := Option.isSome_iff_exists.mp hsome
    rw [isolated_of_runAll ht, Batch.commit, if_pos hstands, ht]
    rfl
  · rw [isolated_of_raise hnone, commit_of_raise hnone]

/-- **Batches that are all or none do what their items do alone.** -/
theorem runBatches_eq_isolated {bs : List (Batch ι)} {s : σ}
    (h : EachBatch exec (AllOrNone exec) bs s) :
    runBatches exec bs s = isolated exec (bs.flatMap Batch.items) s := by
  induction bs generalizing s with
  | nil => rfl
  | cons b rest ih =>
    rw [List.flatMap_cons, isolated_append, ← h.1.commit_eq]
    exact ih h.2

/-! ### The database as the list of what has been applied -/

section

variable {ι : Type*} {fails : List ι → ι → Bool}

/-- An item is added to those that have been applied, or raises. -/
def apply (fails : List ι → ι → Bool) (i : ι) (s : List ι) : Option (List ι) :=
  if fails s i then none else some (s ++ [i])

theorem apply_of_fails {s : List ι} {i : ι} (h : fails s i = true) : apply fails i s = none :=
  if_pos h

theorem apply_of_not_fails {s : List ι} {i : ι} (h : fails s i = false) :
    apply fails i s = some (s ++ [i]) :=
  if_neg (Bool.eq_false_iff.mp h)

/-- What has been applied stays. -/
theorem prefix_isolated (l s : List ι) : s <+: isolated (apply fails) l s := by
  induction l generalizing s with
  | nil => exact List.prefix_rfl
  | cons i rest ih =>
    change s <+: isolated (apply fails) rest ((apply fails i s).getD s)
    cases hf : fails s i with
    | true =>
      rw [apply_of_fails hf]
      exact ih s
    | false =>
      rw [apply_of_not_fails hf]
      exact (List.prefix_append s [i]).trans (ih (s ++ [i]))

/-- Items are applied in their order, each once. -/
theorem isolated_sublist (l s : List ι) : (isolated (apply fails) l s).Sublist (s ++ l) := by
  induction l generalizing s with
  | nil => exact List.sublist_append_left s []
  | cons i rest ih =>
    change (isolated (apply fails) rest ((apply fails i s).getD s)).Sublist (s ++ i :: rest)
    cases hf : fails s i with
    | true =>
      rw [apply_of_fails hf]
      exact (ih s).trans ((List.sublist_cons_self i rest).append_left s)
    | false =>
      rw [apply_of_not_fails hf]
      have h := ih (s ++ [i])
      rwa [List.append_assoc] at h

/-- Batches apply none but their own items. -/
theorem mem_runBatches {bs : List (Batch ι)} {s : List ι} {x : ι}
    (h : x ∈ runBatches (apply fails) bs s) : x ∈ s ∨ x ∈ bs.flatMap Batch.items := by
  induction bs generalizing s with
  | nil => exact .inl h
  | cons b rest ih =>
    rw [List.flatMap_cons, List.mem_append]
    rcases ih h with hcommit | hrest
    · change x ∈ b.commit (apply fails) s at hcommit
      unfold Batch.commit at hcommit
      split at hcommit
      · cases hrun : runAll (apply fails) b.items s with
        | none =>
          rw [hrun] at hcommit
          exact .inl hcommit
        | some t =>
          rw [hrun, ← isolated_of_runAll hrun] at hcommit
          have hmem := (isolated_sublist b.items s).subset hcommit
          exact (List.mem_append.mp hmem).imp id .inl
      · exact .inl hcommit
    · exact .inr (.inr hrest)

/-- When one item does not raise, one is applied. -/
theorem exists_mem_isolated {l s : List ι} {i : ι} (hi : i ∈ l) (hok : fails s i = false) :
    ∃ x ∈ l, x ∈ isolated (apply fails) l s := by
  induction l with
  | nil => cases hi
  | cons j rest ih =>
    cases hf : fails s j with
    | false =>
      refine ⟨j, List.mem_cons_self, ?_⟩
      change j ∈ isolated (apply fails) rest ((apply fails j s).getD s)
      rw [apply_of_not_fails hf]
      exact (prefix_isolated rest (s ++ [j])).subset (by simp)
    | true =>
      have hrest : i ∈ rest := by
        rcases List.mem_cons.mp hi with rfl | hrest
        · rw [hf] at hok
          cases hok
        · exact hrest
      obtain ⟨x, hx, hmem⟩ := ih hrest
      refine ⟨x, List.mem_cons_of_mem j hx, ?_⟩
      change x ∈ isolated (apply fails) rest ((apply fails j s).getD s)
      rw [apply_of_fails hf]
      exact hmem

/-- A batch that is neither all nor none loses an item that does not raise. -/
theorem lost_of_not_allOrNone {b : Batch ι} {s : List ι}
    (h : ¬ AllOrNone (apply fails) b s) :
    b.commit (apply fails) s = s ∧ ∃ x ∈ b.items, x ∈ isolated (apply fails) b.items s := by
  have hcommit : ¬ (b.stands = true ∧ (runAll (apply fails) b.items s).isSome = true) :=
    fun hall => h (.inl hall)
  have hsome : ∃ i ∈ b.items, fails s i = false := by
    by_contra hnot
    refine h (.inr (fun i hi => apply_of_fails ?_))
    by_contra hok
    exact hnot ⟨i, hi, Bool.eq_false_iff.mpr hok⟩
  obtain ⟨i, hi, hok⟩ := hsome
  refine ⟨?_, exists_mem_isolated hi hok⟩
  unfold Batch.commit
  split
  · next hstands =>
    cases hrun : runAll (apply fails) b.items s with
    | none => rfl
    | some t => exact absurd ⟨hstands, by rw [hrun]; rfl⟩ hcommit
  · rfl

/-- **Only batches that are all or none do what their items do alone.** -/
theorem runBatches_eq_isolated_iff {bs : List (Batch ι)} {s : List ι}
    (hnodup : (s ++ bs.flatMap Batch.items).Nodup) :
    runBatches (apply fails) bs s = isolated (apply fails) (bs.flatMap Batch.items) s ↔
      EachBatch (apply fails) (AllOrNone (apply fails)) bs s := by
  refine ⟨fun h => ?_, runBatches_eq_isolated⟩
  induction bs generalizing s with
  | nil => trivial
  | cons b rest ih =>
    rw [List.flatMap_cons, isolated_append] at h
    rw [List.flatMap_cons, ← List.append_assoc] at hnodup
    by_cases hb : AllOrNone (apply fails) b s
    · refine ⟨hb, ih ?_ ?_⟩
      · rw [hb.commit_eq]
        exact hnodup.sublist ((isolated_sublist b.items s).append_right _)
      · rw [hb.commit_eq]
        exact hb.commit_eq ▸ h
    · -- an item of the batch is lost, and its like does not come again
      obtain ⟨hcommit, x, hx, hisolated⟩ := lost_of_not_allOrNone hb
      have hfinal : x ∈ runBatches (apply fails) (b :: rest) s := by
        rw [h]
        exact (prefix_isolated _ _).subset hisolated
      change x ∈ runBatches (apply fails) rest (b.commit (apply fails) s) at hfinal
      rw [hcommit] at hfinal
      rcases mem_runBatches hfinal with hold | hrest
      · have hdisjoint := (List.nodup_append.mp (List.nodup_append.mp hnodup).1).2.2
        exact absurd rfl (hdisjoint x hold x hx)
      · have hdisjoint := (List.nodup_append.mp hnodup).2.2
        exact absurd rfl (hdisjoint x (List.mem_append_right s hx) x hrest)

end

end HuntProxy.Transaction
