import Mathlib.Data.List.Infix

/-!
# Lists cut at a separator

A dotted name is a list cut into labels at a separator. The joins of its last labels, each
with a separator in front, are the *dotted suffixes* of the name. They are exactly the
suffixes that begin with a separator, and the name itself with one in front. So a set of
suffixes can be probed label by label instead of being searched.

## Main definitions

- `Labels.dottedSuffixes` — the joins of the last labels

## Main results

- `Labels.mem_dottedSuffixes` — they are the suffixes that begin with a separator
-/

namespace HuntProxy.Labels

variable {α : Type*} [DecidableEq α]

/-- The last labels of a name, joined again, with a separator in front. -/
def dottedSuffixes (sep : α) (l : List α) : List (List α) :=
  (List.range (l.splitOn sep).length).map
    (fun i => sep :: [sep].intercalate ((l.splitOn sep).drop i))

/-- `x` is the join of some last ones of the labels, at least one. -/
def JoinsTail (sep : α) (labels : List (List α)) (x : List α) : Prop :=
  ∃ i < labels.length, x = [sep].intercalate (labels.drop i)

omit [DecidableEq α] in
theorem not_joinsTail_nil (sep : α) (x : List α) : ¬ JoinsTail sep [] x := by
  rintro ⟨i, hi, -⟩
  exact Nat.not_lt_zero i hi

omit [DecidableEq α] in
theorem joinsTail_cons (sep : α) (w : List α) (labels : List (List α)) (x : List α) :
    JoinsTail sep (w :: labels) x ↔ x = [sep].intercalate (w :: labels) ∨ JoinsTail sep labels x := by
  constructor
  · rintro ⟨i, hi, rfl⟩
    cases i with
    | zero => exact .inl rfl
    | succ i => exact .inr ⟨i, Nat.lt_of_succ_lt_succ hi, rfl⟩
  · rintro (rfl | ⟨i, hi, rfl⟩)
    · exact ⟨0, Nat.succ_pos _, rfl⟩
    · exact ⟨i + 1, Nat.succ_lt_succ hi, rfl⟩

/-- The joins of the last labels are the name itself and those of the labels after the
first. -/
theorem joinsTail_splitOn (sep : α) (l x : List α) :
    JoinsTail sep (l.splitOn sep) x ↔ x = l ∨ JoinsTail sep (l.splitOn sep).tail x := by
  obtain ⟨w, labels, hl⟩ := List.exists_cons_of_ne_nil (List.splitOn_ne_nil sep l)
  have hjoin : [sep].intercalate (w :: labels) = l := by
    rw [← hl]
    exact List.intercalate_splitOn sep
  rw [hl, joinsTail_cons, hjoin, List.tail_cons]

/-- Behind the first label stand the suffixes that begin with a separator. -/
theorem joinsTail_tail (sep : α) (l x : List α) :
    JoinsTail sep (l.splitOn sep).tail x ↔ (sep :: x) <:+ l := by
  induction l with
  | nil => simp [not_joinsTail_nil]
  | cons a l ih =>
    rw [List.splitOn_cons_eq_if_modifyHead, List.suffix_cons_iff]
    by_cases ha : a = sep
    · subst ha
      have hfirst : (a == a) = true := beq_self_eq_true a
      rw [if_pos hfirst, List.tail_cons, joinsTail_splitOn, ih, List.cons.injEq]
      simp
    · have hfirst : (a == sep) = false := beq_eq_false_iff_ne.mpr ha
      have htail : ((l.splitOn sep).modifyHead (List.cons a)).tail = (l.splitOn sep).tail := by
        cases l.splitOn sep <;> rfl
      have hne : ¬ (sep :: x = a :: l) := fun heq => ha (List.cons.inj heq).1.symm
      rw [hfirst, if_neg Bool.false_ne_true, htail, ih]
      simp [hne]

/-- **The dotted suffixes** are the name with a separator in front, and its suffixes that
begin with one. -/
theorem mem_dottedSuffixes (sep : α) (l x : List α) :
    (sep :: x) ∈ dottedSuffixes sep l ↔ x = l ∨ (sep :: x) <:+ l := by
  rw [← joinsTail_tail, ← joinsTail_splitOn]
  simp only [dottedSuffixes, JoinsTail, List.mem_map, List.mem_range, List.cons.injEq, true_and,
    eq_comm]

end HuntProxy.Labels
