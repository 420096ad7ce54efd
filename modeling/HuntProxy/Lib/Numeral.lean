import Mathlib.Algebra.Group.Nat.Defs
import Mathlib.Data.List.Basic
import Mathlib.Data.Nat.Notation

/-!
# Numerals

Numbers written in a base up to sixteen, and read back. What is written has no superfluous
zeros in front; what is read may have them, and letters of either case.

## Main definitions

- `Numeral.read` — the number that a text is a numeral of

## Main results

- `Numeral.read_toDigits` — a number that has been written is read back
-/

namespace HuntProxy

/-- Texts are compared by their characters. -/
instance lawfulBEqText : LawfulBEq (List Char) := inferInstance

namespace Numeral

/-- The value of a hexadecimal digit. -/
def digit? (c : Char) : Option ℕ :=
  if 48 ≤ c.toNat ∧ c.toNat ≤ 57 then some (c.toNat - 48)
  else if 97 ≤ c.toNat ∧ c.toNat ≤ 102 then some (c.toNat - 87)
  else if 65 ≤ c.toNat ∧ c.toNat ≤ 70 then some (c.toNat - 55)
  else none

/-- Read one more digit. -/
def shift (b : ℕ) (acc : Option ℕ) (c : Char) : Option ℕ :=
  acc.bind (fun n => ((digit? c).filter (· < b)).map (fun d => n * b + d))

/-- The number that a text is a numeral of in base `b`. -/
def read (b : ℕ) (s : List Char) : Option ℕ :=
  if s = [] then none else s.foldl (shift b) (some 0)

theorem digit?_digitChar {d : ℕ} (hd : d < 16) : digit? d.digitChar = some d := by
  decide +revert

theorem foldl_toDigits {b : ℕ} (hb : 1 < b) (hb' : b ≤ 16) (n : ℕ) :
    (Nat.toDigits b n).foldl (shift b) (some 0) = some n := by
  induction n using Nat.strongRecOn with
  | ind n ih =>
    rw [Nat.toDigits_eq_if hb]
    split
    · next hn =>
      have hd := digit?_digitChar (Nat.lt_of_lt_of_le hn hb')
      simp [shift, hd, hn]
    · next hn =>
      have hlt : n % b < b := Nat.mod_lt n (Nat.zero_lt_of_lt hb)
      have hd := digit?_digitChar (Nat.lt_of_lt_of_le hlt hb')
      rw [List.foldl_append, ih (n / b) (Nat.div_lt_self (by omega) hb)]
      simp [shift, hd, hlt, Nat.div_add_mod']

/-- **A number that has been written is read back.** -/
theorem read_toDigits {b : ℕ} (hb : 1 < b) (hb' : b ≤ 16) (n : ℕ) :
    read b (Nat.toDigits b n) = some n := by
  rw [read, if_neg Nat.toDigits_ne_nil, foldl_toDigits hb hb']

theorem toDigits_injective {b : ℕ} (hb : 1 < b) (hb' : b ≤ 16) :
    Function.Injective (Nat.toDigits b) := by
  intro m n h
  have hm := read_toDigits hb hb' m
  rw [h, read_toDigits hb hb' n] at hm
  exact (Option.some.inj hm).symm

/-- A written number has no superfluous zero in front. -/
theorem head?_toDigits {b : ℕ} (hb : 1 < b) {n : ℕ} (hn : n ≠ 0) :
    (Nat.toDigits b n).head? ≠ some '0' := by
  induction n using Nat.strongRecOn with
  | ind n ih =>
    rw [Nat.toDigits_eq_if hb]
    split
    · simpa using hn
    · next hle =>
      have hpos : n / b ≠ 0 := Nat.ne_of_gt (Nat.div_pos (Nat.not_lt.mp hle) (Nat.zero_lt_of_lt hb))
      obtain ⟨c, cs, hc⟩ := List.exists_cons_of_ne_nil (Nat.toDigits_ne_nil (b := b) (n := n / b))
      have hhead := ih (n / b) (Nat.div_lt_self (Nat.pos_of_ne_zero hn) hb) hpos
      rw [hc] at hhead ⊢
      exact hhead

/-- A written number consists of digits. -/
theorem digit?_of_mem_toDigits {b : ℕ} (hb : 1 < b) (hb' : b ≤ 16) {n : ℕ} {c : Char}
    (hc : c ∈ Nat.toDigits b n) : (digit? c).isSome = true := by
  induction n using Nat.strongRecOn with
  | ind n ih =>
    rw [Nat.toDigits_eq_if hb] at hc
    split at hc
    · next hn =>
      rw [List.mem_singleton.mp hc, digit?_digitChar (Nat.lt_of_lt_of_le hn hb')]
      rfl
    · rcases List.mem_append.mp hc with hc | hc
      · exact ih (n / b) (Nat.div_lt_self (by omega) hb) hc
      · have hlt : n % b < b := Nat.mod_lt n (Nat.zero_lt_of_lt hb)
        rw [List.mem_singleton.mp hc, digit?_digitChar (Nat.lt_of_lt_of_le hlt hb')]
        rfl

/-- A character that is no digit does not occur in a written number. -/
theorem not_mem_toDigits {b : ℕ} (hb : 1 < b) (hb' : b ≤ 16) (n : ℕ) {c : Char}
    (hc : digit? c = none) : c ∉ Nat.toDigits b n := by
  intro hmem
  have hsome := digit?_of_mem_toDigits hb hb' hmem
  rw [hc] at hsome
  cases hsome

end Numeral

end HuntProxy
