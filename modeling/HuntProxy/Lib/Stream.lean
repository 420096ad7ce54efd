import Mathlib.Data.List.Basic
import Mathlib.Data.List.Infix

/-!
# Reading a buffered stream up to a mark

A reader that waits for a mark either finds it in its buffer, and splits the buffer after
its first occurrence, or has to wait for more.

## Main definitions

- `readThrough` — split a buffer after the first occurrence of a sequence
- `Ends` — a piece that a reader takes as a whole

## Main results

- `readThrough_append` — a piece that ends with its first mark is read back exactly
- `readThrough_extend` — what has been read stays the same when more has arrived
-/

namespace HuntProxy

variable {α : Type*} [DecidableEq α]

/-- Split a buffer after the first occurrence of `mark`; `none` while there is none. -/
def readThrough (mark : List α) : List α → Option (List α × List α)
  | [] => if mark = [] then some ([], []) else none
  | a :: rest =>
    if mark.isPrefixOf (a :: rest) then some (mark, (a :: rest).drop mark.length)
    else (readThrough mark rest).map (fun p => (a :: p.1, p.2))

/-- The mark of a single element ends the piece and occurs nowhere before. -/
def Ends (a : α) (piece : List α) : Prop := ∃ l, piece = l ++ [a] ∧ a ∉ l

/-- An empty buffer has no mark. -/
theorem readThrough_nil {mark : List α} (h : mark ≠ []) : readThrough mark [] = none :=
  if_neg h

/-- A piece that ends with its only mark is read back, whatever follows. -/
theorem readThrough_append {a : α} {piece : List α} (h : Ends a piece) (rest : List α) :
    readThrough [a] (piece ++ rest) = some (piece, rest) := by
  obtain ⟨l, rfl, hnot⟩ := h
  induction l with
  | nil => simp [readThrough]
  | cons b l ih =>
    have hne : b ≠ a := fun heq => hnot (heq ▸ List.mem_cons_self)
    have hl : a ∉ l := fun hmem => hnot (List.mem_cons_of_mem b hmem)
    have hpre : [a].isPrefixOf (b :: (l ++ [a] ++ rest)) = false := by
      simp [List.isPrefixOf, Ne.symm hne]
    rw [List.cons_append, List.cons_append, readThrough, hpre, if_neg Bool.false_ne_true, ih hl]
    rfl

/-- What is read is a piece that ends with the mark, and the rest. -/
theorem readThrough_eq_some {mark l piece rest : List α}
    (h : readThrough mark l = some (piece, rest)) :
    l = piece ++ rest ∧ ∃ before, piece = before ++ mark := by
  induction l generalizing piece with
  | nil =>
    rw [readThrough, Option.ite_none_right_eq_some] at h
    obtain ⟨rfl, h⟩ := h
    cases h
    exact ⟨rfl, [], rfl⟩
  | cons a l ih =>
    rw [readThrough] at h
    split at h
    · next hprefix =>
      cases h
      exact ⟨(List.prefix_iff_eq_append.mp (List.isPrefixOf_iff_prefix.mp hprefix)).symm, [], rfl⟩
    · obtain ⟨⟨piece', rest'⟩, hread, heq⟩ := Option.map_eq_some_iff.mp h
      cases heq
      obtain ⟨rfl, before, rfl⟩ := ih hread
      exact ⟨rfl, a :: before, rfl⟩

/-- A text with the mark in it is not waited for. -/
theorem readThrough_ne_none {mark l : List α} (h : mark <:+: l) : readThrough mark l ≠ none := by
  induction l with
  | nil =>
    rw [readThrough, if_pos (List.infix_nil.mp h)]
    exact Option.some_ne_none _
  | cons a l ih =>
    rw [readThrough]
    split
    · exact Option.some_ne_none _
    · next hprefix =>
      rcases List.infix_cons_iff.mp h with hnow | hlater
      · exact absurd (List.isPrefixOf_iff_prefix.mpr hnow) hprefix
      · simpa using ih hlater

/-- A piece that has been read is read as well when more has arrived. -/
theorem readThrough_extend {mark buf piece rest : List α}
    (h : readThrough mark buf = some (piece, rest)) (more : List α) :
    readThrough mark (buf ++ more) = some (piece, rest ++ more) := by
  induction buf generalizing piece with
  | nil =>
    rw [readThrough, Option.ite_none_right_eq_some] at h
    obtain ⟨rfl, h⟩ := h
    cases h
    cases more <;> simp [readThrough]
  | cons b buf ih =>
    rw [readThrough] at h
    rw [List.cons_append, readThrough]
    split at h
    · next hprefix =>
      cases h
      have hlen := (List.isPrefixOf_iff_prefix.mp hprefix).length_le
      have hmore : mark.isPrefixOf (b :: (buf ++ more)) = true :=
        List.isPrefixOf_iff_prefix.mpr
          ((List.isPrefixOf_iff_prefix.mp hprefix).trans (List.prefix_append (b :: buf) more))
      rw [if_pos hmore, ← List.cons_append, List.drop_append_of_le_length hlen]
    · next hprefix =>
      obtain ⟨⟨piece', rest'⟩, hread, heq⟩ := Option.map_eq_some_iff.mp h
      cases heq
      have hnot : ¬ mark.isPrefixOf (b :: (buf ++ more)) = true := by
        intro hmore
        -- the mark ends in the buffer, so it would have been found
        obtain ⟨hsplit, before, hpiece⟩ := readThrough_eq_some hread
        have hlen : mark.length ≤ (b :: buf).length := by
          rw [hsplit, hpiece]
          simp only [List.length_append, List.length_cons]
          omega
        refine hprefix (List.isPrefixOf_iff_prefix.mpr ?_)
        exact List.prefix_of_prefix_length_le (List.isPrefixOf_iff_prefix.mp hmore)
          (List.prefix_append (b :: buf) more) hlen
      rw [if_neg hnot, ih hread]
      rfl

/-- A piece that has not been read yet ends behind what has arrived. -/
theorem length_lt_of_readThrough {mark buf more piece rest : List α}
    (hwait : readThrough mark buf = none)
    (h : readThrough mark (buf ++ more) = some (piece, rest)) : buf.length < piece.length := by
  by_contra hlen
  obtain ⟨hsplit, before, rfl⟩ := readThrough_eq_some h
  have hprefix : before ++ mark <+: buf :=
    List.prefix_of_prefix_length_le (hsplit ▸ List.prefix_append _ rest)
      (List.prefix_append buf more) (not_lt.mp hlen)
  refine readThrough_ne_none ?_ hwait
  exact (List.suffix_append before mark).isInfix.trans hprefix.isInfix

/-- What a reader takes from the part of a stream that has arrived is the stream's first
piece. -/
theorem readThrough_first {a : α} {buf more piece rest first stream : List α} (hends : Ends a first)
    (hstream : buf ++ more = first ++ stream) (h : readThrough [a] buf = some (piece, rest)) :
    piece = first ∧ rest ++ more = stream := by
  have hread := readThrough_extend h more
  rw [hstream, readThrough_append hends] at hread
  cases hread
  exact ⟨rfl, rfl⟩

end HuntProxy
