import Mathlib.Data.List.MinMax
import Mathlib.Data.List.Sort

/-!
# Ranks in a stable order

A stable sort puts one element of a list ahead of another if it is smaller, or as small and
earlier in the list. How many elements come ahead of an element is its place in the sorted
list.

## Main definitions

- `Ahead` — which of two elements comes first
- `rank` — how many elements of the list come ahead of one

## Main results

- `pairwise_ahead_insertionSort` — insertion sort puts the elements in this order
- `mem_take_iff_rank` — the first places of a list in this order
- `find?_insertionSort` — the first one in falling order is the first of the greatest
-/

namespace HuntProxy.Ranking

section

variable {α : Type*} (le : α → α → Prop)

/-- `a` comes ahead of `b`: it is smaller, or as small and earlier in the list. -/
def Ahead (l : List α) (a b : α) : Prop := le a b ∧ (le b a → [a, b].Sublist l)

instance [DecidableEq α] [DecidableRel le] (l : List α) : DecidableRel (Ahead le l) :=
  fun a b => inferInstanceAs (Decidable (le a b ∧ (le b a → [a, b].Sublist l)))

/-- The number of elements of the list that come ahead of an element. -/
def rank [DecidableEq α] [DecidableRel le] (l : List α) (a : α) : ℕ :=
  l.countP (fun b => Ahead le l b a)

variable {le}

/-- Without repetition only one of two elements is the earlier one. -/
theorem not_pair_sublist {l : List α} (h : l.Nodup) {a b : α} (hab : [a, b].Sublist l) :
    ¬ [b, a].Sublist l := by
  induction l with
  | nil => cases hab
  | cons x rest ih =>
    obtain ⟨hx, hrest⟩ := List.nodup_cons.mp h
    intro hba
    cases hab with
    | cons _ hab =>
      cases hba with
      | cons _ hba => exact ih hrest hab hba
      | cons_cons _ hba => exact hx (hab.subset (List.mem_cons_of_mem _ List.mem_cons_self))
    | cons_cons _ hab =>
      cases hba with
      | cons _ hba => exact hx (hba.subset (List.mem_cons_of_mem _ List.mem_cons_self))
      | cons_cons _ hba => exact hx (hba.subset List.mem_cons_self)

theorem Ahead.asymm {l : List α} (hl : l.Nodup) {a b : α} (hab : Ahead le l a b) :
    ¬ Ahead le l b a := by
  intro hba
  exact not_pair_sublist hl (hab.2 hba.1) (hba.2 hab.1)

theorem pair_sublist_of_mem {l : List α} {a b : α} (hne : a ≠ b) (ha : a ∈ l) (hb : b ∈ l) :
    [a, b].Sublist l ∨ [b, a].Sublist l := by
  induction l with
  | nil => cases ha
  | cons x rest ih =>
    rcases List.mem_cons.mp ha with rfl | ha'
    · rcases List.mem_cons.mp hb with rfl | hb'
      · exact absurd rfl hne
      · exact .inl ((List.singleton_sublist.mpr hb').cons_cons _)
    · rcases List.mem_cons.mp hb with rfl | hb'
      · exact .inr ((List.singleton_sublist.mpr ha').cons_cons _)
      · exact (ih ha' hb').imp (fun h => h.cons _) (fun h => h.cons _)

/-- In a list that is in order the elements in front of an element are those that come ahead
of it. -/
theorem countP_lt_iff {R : α → α → Prop} [DecidableRel R] (hasymm : ∀ a b, R a b → ¬ R b a)
    {s : List α} (hs : s.Pairwise R) {a : α} (ha : a ∈ s) (n : ℕ) :
    s.countP (fun b => R b a) < n ↔ a ∈ s.take n := by
  induction s generalizing n with
  | nil => cases ha
  | cons x rest ih =>
    obtain ⟨hx, hrest⟩ := List.pairwise_cons.mp hs
    cases n with
    | zero => simp
    | succ n =>
      rcases List.mem_cons.mp ha with rfl | ha'
      · -- nothing comes ahead of the first element
        have hself : ¬ R a a := fun h => hasymm a a h h
        have hnone : rest.countP (fun b => R b a) = 0 := by
          rw [List.countP_eq_zero]
          intro b hb
          simpa using hasymm a b (hx b hb)
        simp [hself, hnone]
      · have hahead : R x a := hx a ha'
        have hne : a ≠ x := by
          rintro rfl
          exact hasymm a a hahead hahead
        rw [List.countP_cons_of_pos (by simpa using hahead), List.take_succ_cons, List.mem_cons,
          ← ih hrest ha' n]
        constructor
        · intro h
          exact .inr (by omega)
        · rintro (heq | h)
          · exact absurd heq hne
          · omega

variable [DecidableRel le]

/-- Insertion sort is stable. -/
theorem pairwise_ahead_insertionSort [Std.Total le] [IsTrans α le] {l : List α} (hl : l.Nodup) :
    (l.insertionSort le).Pairwise (Ahead le l) := by
  have hperm : (l.insertionSort le).Perm l := List.perm_insertionSort le l
  have hnodup : (l.insertionSort le).Nodup := hperm.nodup_iff.mpr hl
  have hsorted : (l.insertionSort le).Pairwise le := List.pairwise_insertionSort le l
  rw [List.pairwise_iff_forall_sublist] at hsorted ⊢
  intro a b hab
  have hle : le a b := hsorted hab
  refine ⟨hle, fun hba => ?_⟩
  have hne : a ≠ b := by
    rintro rfl
    exact not_pair_sublist hnodup hab hab
  have ha : a ∈ l := hperm.mem_iff.mp (hab.subset List.mem_cons_self)
  have hb : b ∈ l := hperm.mem_iff.mp (hab.subset (List.mem_cons_of_mem _ List.mem_cons_self))
  rcases pair_sublist_of_mem hne ha hb with h | h
  · exact h
  · -- `b` was the earlier one, so that it would still be
    exact absurd (List.pair_sublist_insertionSort hba h) (not_pair_sublist hnodup hab)

/-- The first places of a list in order are those of the elements of the lowest ranks. -/
theorem mem_take_iff_rank [DecidableEq α] {l s : List α} (hl : l.Nodup) (hperm : s.Perm l)
    (hs : s.Pairwise (Ahead le l)) {a : α} (ha : a ∈ l) (n : ℕ) :
    a ∈ s.take n ↔ rank le l a < n := by
  rw [← countP_lt_iff (fun _ _ h => h.asymm hl) hs (hperm.mem_iff.mpr ha) n, rank,
    hperm.countP_eq]

end

/-! ### The first of the greatest -/

section

variable {α β : Type*} [LinearOrder β] (f : α → β)

/-- Falling order. -/
def Falling (a b : α) : Prop := f b ≤ f a

instance : DecidableRel (Falling f) := fun a b => inferInstanceAs (Decidable (f b ≤ f a))

instance : Std.Total (Falling f) := ⟨fun a b => le_total (f b) (f a)⟩

instance : IsTrans α (Falling f) := ⟨fun _ _ _ hab hbc => le_trans hbc hab⟩

variable {f} (p : α → Bool)

/-- Putting an element into its place changes the first one only if it is greater. -/
theorem find?_orderedInsert {l : List α} (hl : l.Pairwise (Falling f)) (a : α) :
    (l.orderedInsert (Falling f) a).find? p =
      if p a then some (match l.find? p with
        | none => a
        | some c => if f a < f c then c else a)
      else l.find? p := by
  induction l with
  | nil => cases hp : p a <;> simp [hp]
  | cons b l ih =>
    obtain ⟨hb, hrest⟩ := List.pairwise_cons.mp hl
    by_cases hab : Falling f a b
    · rw [List.orderedInsert_cons_of_le _ _ hab]
      cases hp : p a with
      | false => rw [List.find?_cons_of_neg (by simp [hp]), if_neg (by simp)]
      | true =>
        rw [List.find?_cons_of_pos hp, if_pos rfl]
        cases hfind : (b :: l).find? p with
        | none => rfl
        | some c =>
          have hc : f c ≤ f a := by
            rcases List.mem_cons.mp (List.mem_of_find?_eq_some hfind) with rfl | hc
            · exact hab
            · exact le_trans (hb c hc) hab
          simp only [if_neg (not_lt.mpr hc)]
    · have hlt : f a < f b := not_le.mp hab
      rw [List.orderedInsert_of_not_le (Falling f) l hab]
      cases hpb : p b with
      | true =>
        rw [List.find?_cons_of_pos hpb, List.find?_cons_of_pos hpb]
        simp [hlt]
      | false =>
        rw [List.find?_cons_of_neg (by simp [hpb]), List.find?_cons_of_neg (by simp [hpb]), ih hrest]

/-- **The first one in falling order** is the first of the greatest in the list. -/
theorem find?_insertionSort (l : List α) :
    (l.insertionSort (Falling f)).find? p = (l.filter p).argmax f := by
  induction l with
  | nil => rfl
  | cons a l ih =>
    rw [List.insertionSort_cons, find?_orderedInsert p (List.pairwise_insertionSort (Falling f) l), ih]
    cases hp : p a with
    | false => rw [if_neg (by simp), List.filter_cons_of_neg (by simp [hp])]
    | true =>
      rw [if_pos rfl, List.filter_cons_of_pos hp, List.argmax_cons]
      cases (l.filter p).argmax f with
      | none => rfl
      | some c => by_cases hlt : f a < f c <;> simp [hlt]

/-- Sorting once more, after an element has come. -/
theorem find?_insertionSort_concat {l s : List α} (hs : s.Pairwise (Falling f))
    (h : s.find? p = (l.filter p).argmax f) (a : α) :
    ((s ++ [a]).insertionSort (Falling f)).find? p = ((l ++ [a]).filter p).argmax f := by
  have hsorted : (s.filter p).argmax f = (l.filter p).argmax f := by
    rw [← find?_insertionSort, hs.insertionSort_eq, h]
  rw [find?_insertionSort, List.filter_append, List.filter_append]
  cases hp : p a with
  | false => rw [List.filter_cons_of_neg (by simp [hp]), List.filter_nil, List.append_nil,
      List.append_nil, hsorted]
  | true => rw [List.filter_cons_of_pos hp, List.filter_nil, List.argmax_concat, List.argmax_concat,
      hsorted]

end

end HuntProxy.Ranking
