import Mathlib.Data.List.Basic
import Mathlib.Data.List.Infix

/-!
# Patterns of SQL

The operator `LIKE`: `%` stands for any text, `_` for any character, and ASCII letters of
either case for each other.

## Main definitions

- `Like.like` — the operator
- `Like.Plain` — characters that stand for themselves

## Main results

- `Like.suffix_iff` — a pattern of a percent sign and a plain text
-/

namespace HuntProxy.Like

/-- Lower case letters of ASCII. -/
def fold (c : Char) : Char :=
  if 65 ≤ c.toNat ∧ c.toNat ≤ 90 then Char.ofNat (c.toNat + 32) else c

/-- `text LIKE pattern`. -/
def like : List Char → List Char → Bool
  | [], text => text.isEmpty
  | '%' :: pattern, text => text.tails.any (like pattern)
  | '_' :: pattern, text =>
    match text with
    | [] => false
    | _ :: text => like pattern text
  | c :: pattern, text =>
    match text with
    | [] => false
    | d :: text => fold c == fold d && like pattern text

/-- A character that stands for itself only. -/
def Plain (c : Char) : Prop := c ≠ '%' ∧ c ≠ '_' ∧ ∀ d, fold c = fold d → d = c

/-- Characters in front of the letters have no other case. -/
theorem plain_of_lt {c : Char} (hc : c.toNat < 65) (hpercent : c ≠ '%') : Plain c := by
  refine ⟨hpercent, ?_, fun d hd => ?_⟩
  · rintro rfl
    revert hc
    decide
  · have hself : fold c = c := if_neg (by omega)
    rw [hself] at hd
    unfold fold at hd
    split at hd
    · next hupper =>
      -- what is folded is a letter
      have hvalid : (d.toNat + 32).isValidChar := by
        unfold Nat.isValidChar
        omega
      have hfolded : (Char.ofNat (d.toNat + 32)).toNat = d.toNat + 32 := by
        rw [Char.ofNat, dif_pos hvalid]
        rfl
      rw [← hd] at hfolded
      omega
    · exact hd.symm

theorem plain_iff {pattern text : List Char} (h : ∀ c ∈ pattern, Plain c) :
    like pattern text = true ↔ text = pattern := by
  induction pattern generalizing text with
  | nil => simp [like]
  | cons c pattern ih =>
    obtain ⟨⟨hpercent, hunder, hfold⟩, hrest⟩ := List.forall_mem_cons.mp h
    cases text with
    | nil =>
      rw [like]
      · simp
      · exact hpercent
      · exact hunder
    | cons d text =>
      have hlike : like (c :: pattern) (d :: text) = (fold c == fold d && like pattern text) := by
        rw [like]
        · exact hpercent
        · exact hunder
      rw [hlike]
      simp only [Bool.and_eq_true, beq_iff_eq, List.cons.injEq, ih hrest]
      constructor
      · rintro ⟨heq, htext⟩
        exact ⟨hfold d heq, htext⟩
      · rintro ⟨rfl, htext⟩
        exact ⟨rfl, htext⟩

/-- A pattern of a percent sign and a plain text is for the texts that end with it. -/
theorem suffix_iff {pattern text : List Char} (h : ∀ c ∈ pattern, Plain c) :
    like ('%' :: pattern) text = true ↔ pattern <:+ text := by
  rw [like, List.any_eq_true]
  constructor
  · rintro ⟨tail, htail, hmatch⟩
    rw [(plain_iff h).mp hmatch] at htail
    exact (List.mem_tails _ _).mp htail
  · intro hsuffix
    exact ⟨pattern, (List.mem_tails _ _).mpr hsuffix, (plain_iff h).mpr rfl⟩

end HuntProxy.Like
