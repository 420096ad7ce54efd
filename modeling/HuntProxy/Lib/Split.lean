import HuntProxy.Lib.Stream
import Mathlib.Algebra.BigOperators.Group.List.Basic
import Mathlib.Algebra.Ring.Nat
import Mathlib.Data.List.Basic
import Mathlib.Data.List.Infix

/-!
# Splitting a stream of which more may come

A text is split at the occurrences of a pair of letters, and its pieces at a letter. When the
text is the beginning of a longer one, all pieces but the last are those of the longer one; the
last may go on, or may have a first letter of the pair at its end that the longer text splits
off.

## Main definitions

- `splitPair` — the pieces between the occurrences of a pair of letters
- `pieceSum` — the sum of a weight over the pieces

## Main results

- `splitPair_append` — splitting at an occurrence
- `sum_splitPair` — the lengths of the pieces
- `firstPiece_append` — the first piece of a longer text
- `pieceSum_le_append` — weights that grow with a piece
-/

namespace HuntProxy

variable {α : Type*}

/-! ### Pieces between letters -/

/-- The beginning of a text that has a letter to split at. -/
theorem splitOn_eq_cons_cons [DecidableEq α] {x : α} {l m q : List α} {qs : List (List α)}
    (h : l.splitOn x = m :: q :: qs) :
    ∃ l', l = m ++ x :: l' ∧ x ∉ m ∧ l'.splitOn x = q :: qs := by
  induction l generalizing m with
  | nil =>
    rw [List.splitOn_nil] at h
    cases h
  | cons a rest ih =>
    rw [List.splitOn_cons_eq_if_modifyHead] at h
    split at h
    · next ha =>
      obtain ⟨rfl, hrest⟩ := List.cons.inj h
      rw [beq_iff_eq.mp ha]
      exact ⟨rest, rfl, List.not_mem_nil, hrest⟩
    · next ha =>
      cases hsplit : rest.splitOn x with
      | nil => exact absurd hsplit (List.splitOn_ne_nil x rest)
      | cons m' qs' =>
        rw [hsplit, List.modifyHead_cons] at h
        obtain ⟨rfl, rfl⟩ := List.cons.inj h
        obtain ⟨l', rfl, hm', hl'⟩ := ih hsplit
        refine ⟨l', rfl, ?_, hl'⟩
        rw [List.mem_cons, not_or]
        exact ⟨fun hxa => ha (beq_iff_eq.mpr hxa.symm), hm'⟩

/-- The pieces have no letter to split at. -/
theorem notMem_of_mem_splitOn [DecidableEq α] (x : α) (l : List α) : ∀ p ∈ l.splitOn x, x ∉ p := by
  induction l with
  | nil => simp [List.splitOn_nil]
  | cons a rest ih =>
    rw [List.splitOn_cons_eq_if_modifyHead]
    split
    · exact List.forall_mem_cons.mpr ⟨List.not_mem_nil, ih⟩
    · next ha =>
      cases hsplit : rest.splitOn x with
      | nil => exact absurd hsplit (List.splitOn_ne_nil x rest)
      | cons m qs =>
        rw [hsplit] at ih
        obtain ⟨hm, hqs⟩ := List.forall_mem_cons.mp ih
        rw [List.modifyHead_cons]
        refine List.forall_mem_cons.mpr ⟨?_, hqs⟩
        rw [List.mem_cons, not_or]
        exact ⟨fun hxa => ha (beq_iff_eq.mpr hxa.symm), hm⟩

/-- The first two pieces of a text stay the same when more comes after the third has begun. -/
theorem splitOn_append_of_three [DecidableEq α] {x : α} {l m p q : List α} {qs : List (List α)}
    (h : l.splitOn x = m :: p :: q :: qs) (more : List α) :
    ∃ q' qs', (l ++ more).splitOn x = m :: p :: q' :: qs' := by
  obtain ⟨l₁, rfl, hm, h₁⟩ := splitOn_eq_cons_cons h
  obtain ⟨l₂, rfl, hp, h₂⟩ := splitOn_eq_cons_cons h₁
  rw [List.append_assoc, List.cons_append, List.append_assoc, List.cons_append,
    List.splitOn_append_cons_self_of_not_mem hm, List.splitOn_append_cons_self_of_not_mem hp]
  cases hmore : (l₂ ++ more).splitOn x with
  | nil => exact absurd hmore (List.splitOn_ne_nil x _)
  | cons q' qs' => exact ⟨q', qs', rfl⟩

/-- So they do when the last letter, which is not split at, is taken away. -/
theorem splitOn_of_concat_of_three [DecidableEq α] {x a : α} (ha : a ≠ x) {l m p q : List α}
    {qs : List (List α)} (h : (l ++ [a]).splitOn x = m :: p :: q :: qs) :
    ∃ q' qs', l.splitOn x = m :: p :: q' :: qs' := by
  obtain ⟨l₁, hl₁, hm, h₁⟩ := splitOn_eq_cons_cons h
  obtain ⟨l₂, rfl, hp, h₂⟩ := splitOn_eq_cons_cons h₁
  rcases List.eq_nil_or_concat l₂ with rfl | ⟨l₃, b, rfl⟩
  · -- the text would end with the letter that is split at
    have hlast := congrArg List.getLast? hl₁
    exact absurd (by simpa [List.getLast?_cons] using hlast) ha
  · have hl : l = m ++ x :: (p ++ x :: l₃) := by
      have hcut : l ++ [a] = (m ++ x :: (p ++ x :: l₃)) ++ [b] := by
        rw [hl₁]
        simp
      exact (List.append_inj' hcut rfl).1
    rw [hl, List.splitOn_append_cons_self_of_not_mem hm,
      List.splitOn_append_cons_self_of_not_mem hp]
    cases hmore : l₃.splitOn x with
    | nil => exact absurd hmore (List.splitOn_ne_nil x _)
    | cons q' qs' => exact ⟨q', qs', rfl⟩

/-- A text of joined pieces ends with the last one. -/
theorem intercalate_concat (sep : List α) (ws : List (List α)) (z : List α) :
    ∃ before, sep.intercalate (ws ++ [z]) = before ++ z := by
  induction ws with
  | nil => exact ⟨[], by simp⟩
  | cons w ws ih =>
    obtain ⟨before, hbefore⟩ := ih
    refine ⟨w ++ sep ++ before, ?_⟩
    rw [List.cons_append, List.intercalate_cons_of_ne_nil (by simp), hbefore]
    simp only [List.append_assoc]

/-- An empty last piece is a separator at the end. -/
theorem intercalate_concat_nil (sep : List α) {ws : List (List α)} (h : ws ≠ []) :
    sep.intercalate (ws ++ [[]]) = sep.intercalate ws ++ sep := by
  induction ws with
  | nil => exact absurd rfl h
  | cons w ws ih =>
    cases ws with
    | nil => simp [List.intercalate_cons_of_ne_nil]
    | cons v vs =>
      rw [List.cons_append, List.intercalate_cons_of_ne_nil (by simp), ih (List.cons_ne_nil _ _),
        List.intercalate_cons_of_ne_nil (List.cons_ne_nil _ _)]
      simp only [List.append_assoc]

/-! ### Pieces between pairs -/

section

variable [DecidableEq α] (a b : α)

/-- A letter in front of the first piece. -/
def consPiece (x : α) : List (List α) → List (List α)
  | [] => [[x]]
  | w :: ws => (x :: w) :: ws

/-- The pieces between the occurrences of `a` followed by `b`. -/
def splitPair : List α → List (List α)
  | [] => [[]]
  | [x] => [[x]]
  | x :: y :: rest =>
    if x = a ∧ y = b then [] :: splitPair rest else consPiece x (splitPair (y :: rest))

/-- The first piece. -/
def firstPiece (l : List α) : List α := (splitPair a b l).headD []

/-- The sum of a weight over the pieces. -/
def pieceSum (weight : List α → ℕ) (l : List α) : ℕ := ((splitPair a b l).map weight).sum

variable {a b}

theorem splitPair_ne_nil (l : List α) : splitPair a b l ≠ [] := by
  fun_induction splitPair a b l with
  | case1 => exact List.cons_ne_nil _ _
  | case2 x => exact List.cons_ne_nil _ _
  | case3 x y rest h ih => exact List.cons_ne_nil _ _
  | case4 x y rest h ih =>
    unfold consPiece
    split <;> exact List.cons_ne_nil _ _

omit [DecidableEq α] in
theorem consPiece_append {x : α} {ws : List (List α)} (h : ws ≠ []) (vs : List (List α)) :
    consPiece x (ws ++ vs) = consPiece x ws ++ vs := by
  cases ws with
  | nil => exact absurd rfl h
  | cons w ws => rfl

/-- **Splitting at an occurrence of the pair.** -/
theorem splitPair_append (hab : a ≠ b) (l rest : List α) :
    splitPair a b (l ++ a :: b :: rest) = splitPair a b l ++ splitPair a b rest := by
  fun_induction splitPair a b l with
  | case1 =>
    rw [List.nil_append, splitPair, if_pos ⟨rfl, rfl⟩]
    rfl
  | case2 x =>
    rw [List.singleton_append, splitPair, if_neg (fun h => hab h.2), splitPair, if_pos ⟨rfl, rfl⟩]
    rfl
  | case3 x y l h ih =>
    rw [List.cons_append, List.cons_append, splitPair, if_pos h, ih]
    rfl
  | case4 x y l h ih =>
    rw [List.cons_append] at ih
    rw [List.cons_append, List.cons_append, splitPair, if_neg h, ih,
      consPiece_append (splitPair_ne_nil _)]

omit [DecidableEq α] in
theorem sum_consPiece (x : α) {ws : List (List α)} (h : ws ≠ []) :
    ((consPiece x ws).map (fun w => w.length + 2)).sum =
      (ws.map (fun w => w.length + 2)).sum + 1 := by
  cases ws with
  | nil => exact absurd rfl h
  | cons w ws =>
    simp only [consPiece, List.map_cons, List.sum_cons, List.length_cons]
    omega

/-- Pieces that all have a pair behind them are the text with one more pair. -/
theorem sum_splitPair (l : List α) :
    ((splitPair a b l).map (fun w => w.length + 2)).sum = l.length + 2 := by
  fun_induction splitPair a b l with
  | case1 => rfl
  | case2 x => rfl
  | case3 x y rest h ih =>
    rw [List.map_cons, List.sum_cons, ih]
    exact Nat.add_comm _ _
  | case4 x y rest h ih =>
    rw [sum_consPiece x (splitPair_ne_nil _), ih]
    rfl

omit [DecidableEq α] in
/-- The length of pieces that are joined by a pair. -/
theorem length_intercalate_pair {ws : List (List α)} (h : ws ≠ []) :
    ([a, b].intercalate ws).length + 2 = (ws.map (fun w => w.length + 2)).sum := by
  induction ws with
  | nil => exact absurd rfl h
  | cons w ws ih =>
    rcases eq_or_ne ws [] with rfl | hws
    · simp
    · rw [List.intercalate_cons_of_ne_nil hws, List.map_cons, List.sum_cons, ← ih hws]
      simp only [List.length_append, List.length_cons, List.length_nil]
      omega

/-- A text is one piece, or its first piece comes before an occurrence of the pair. -/
theorem splitPair_cases (l : List α) :
    splitPair a b l = [l] ∨ ∃ w rest, l = w ++ a :: b :: rest ∧ splitPair a b w = [w] ∧
      splitPair a b l = w :: splitPair a b rest := by
  fun_induction splitPair a b l with
  | case1 => exact .inl rfl
  | case2 x => exact .inl rfl
  | case3 x y rest h ih =>
    obtain ⟨rfl, rfl⟩ := h
    exact .inr ⟨[], rest, rfl, rfl, rfl⟩
  | case4 x y rest h ih =>
    rcases ih with ih | ⟨w, rest', hw, hone, ih⟩
    · left
      rw [ih]
      rfl
    · right
      refine ⟨x :: w, rest', by rw [hw]; rfl, ?_, by rw [ih]; rfl⟩
      cases w with
      | nil => rfl
      | cons y' w =>
        obtain ⟨rfl, -⟩ := List.cons.inj hw
        rw [splitPair, if_neg h, hone]
        rfl

/-- The first piece of a text, and that of a longer one: the same, or the text is one piece, which
goes on, or loses the first letter of the pair. -/
theorem firstPiece_append (hab : a ≠ b) (l more : List α) :
    firstPiece a b (l ++ more) = firstPiece a b l ∨
      splitPair a b l = [l] ∧
        ((∃ more', firstPiece a b (l ++ more) = l ++ more') ∨
          l = firstPiece a b (l ++ more) ++ [a]) := by
  rcases splitPair_cases (a := a) (b := b) l with hone | ⟨w, rest, rfl, hone, hl⟩
  · refine .inr ⟨hone, ?_⟩
    rcases splitPair_cases (a := a) (b := b) (l ++ more) with hone' | ⟨w, rest, hw, hone', hsplit⟩
    · exact .inl ⟨more, by rw [firstPiece, hone']; rfl⟩
    · have hfirst : firstPiece a b (l ++ more) = w := by rw [firstPiece, hsplit]; rfl
      rw [hfirst]
      rcases List.append_eq_append_iff.mp hw with ⟨l', rfl, -⟩ | ⟨l', rfl, hl'⟩
      · exact .inl ⟨l', rfl⟩
      · cases l' with
        | nil => exact .inl ⟨[], by simp⟩
        | cons x l' =>
          obtain ⟨rfl, htail⟩ := List.cons.inj hl'
          cases l' with
          | nil => exact .inr rfl
          | cons y l' =>
            -- the text itself has an occurrence of the pair
            obtain ⟨rfl, -⟩ := List.cons.inj htail
            rw [splitPair_append hab, hone'] at hone
            exact absurd (congrArg List.length hone) (by
              have := List.length_pos_iff.mpr (splitPair_ne_nil (a := a) (b := b) l')
              simp only [List.length_append, List.length_singleton]
              omega)
  · left
    rw [List.append_assoc, List.cons_append, List.cons_append, firstPiece, firstPiece,
      splitPair_append hab, splitPair_append hab, hone]
    rfl

/-- **A weight that grows with a piece**, and by no more than one when the first letter of the pair
is put behind it, sums up to no more over a beginning of the text than over the text, but for that
one. -/
theorem pieceSum_le_append (hab : a ≠ b) {weight : List α → ℕ}
    (hgrows : ∀ l more, weight l ≤ weight (l ++ more))
    (hconcat : ∀ l, weight (l ++ [a]) ≤ weight l + 1) (l more : List α) :
    pieceSum a b weight l ≤ pieceSum a b weight (l ++ more) + 1 := by
  rcases splitPair_cases (a := a) (b := b) l with hone | ⟨w, rest, hw, hone, hl⟩
  · have hsum : pieceSum a b weight l = weight l := by simp [pieceSum, hone]
    have hfirst : weight (firstPiece a b (l ++ more)) ≤ pieceSum a b weight (l ++ more) := by
      unfold pieceSum firstPiece
      cases hs : splitPair a b (l ++ more) with
      | nil => exact absurd hs (splitPair_ne_nil _)
      | cons w ws => simp
    rcases firstPiece_append hab l more with hsame | ⟨-, ⟨more', hmore⟩ | hcut⟩
    · have hself : firstPiece a b l = l := by rw [firstPiece, hone]; rfl
      rw [hsame, hself] at hfirst
      omega
    · have := hgrows l more'
      rw [hmore] at hfirst
      omega
    · have := hconcat (firstPiece a b (l ++ more))
      rw [← hcut] at this
      omega
  · have hlen : rest.length < l.length := by
      rw [hw]
      simp only [List.length_append, List.length_cons]
      omega
    have ih := pieceSum_le_append hab hgrows hconcat rest more
    have hl' : pieceSum a b weight l = weight w + pieceSum a b weight rest := by
      simp [pieceSum, hl]
    have hmore : pieceSum a b weight (l ++ more) =
        weight w + pieceSum a b weight (rest ++ more) := by
      rw [hw, List.append_assoc, List.cons_append, List.cons_append, pieceSum,
        splitPair_append hab, hone]
      simp [pieceSum]
    omega
termination_by l.length

end

end HuntProxy
