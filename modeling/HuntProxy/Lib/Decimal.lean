import HuntProxy.Lib.Text
import Mathlib.Data.List.Basic
import Mathlib.Data.Nat.Notation

/-!
# Decimal digits of all scripts

The decimal digits of Unicode come in runs of ten, from zero to nine; the class `\d` of a
pattern has them all, and `int` reads them all. Those of ASCII are the first run.

## Main definitions

- `isDecimal`, `digitValue` — the digits and their values
- `int` — the integer of a text

## Main results

- `int_toDigits` — a number that has been written is read back
-/

namespace HuntProxy.Decimal

/-- The zeros of all scripts. -/
def zeros : List ℕ :=
  [0x30, 0x660, 0x6F0, 0x7C0, 0x966, 0x9E6, 0xA66, 0xAE6, 0xB66, 0xBE6, 0xC66, 0xCE6, 0xD66,
    0xDE6, 0xE50, 0xED0, 0xF20, 0x1040, 0x1090, 0x17E0, 0x1810, 0x1946, 0x19D0, 0x1A80, 0x1A90,
    0x1B50, 0x1BB0, 0x1C40, 0x1C50, 0xA620, 0xA8D0, 0xA900, 0xA9D0, 0xA9F0, 0xAA50, 0xABF0,
    0xFF10, 0x104A0, 0x10D30, 0x11066, 0x110F0, 0x11136, 0x111D0, 0x112F0, 0x11450, 0x114D0,
    0x11650, 0x116C0, 0x11730, 0x118E0, 0x11950, 0x11C50, 0x11D50, 0x11DA0, 0x11F50, 0x16A60,
    0x16AC0, 0x16B50, 0x1D7CE, 0x1D7D8, 0x1D7E2, 0x1D7EC, 0x1D7F6, 0x1E140, 0x1E2F0, 0x1E4F0,
    0x1E950, 0x1FBF0]

/-- The letter is in the run of digits that begins at a zero. -/
def inRun (c : Char) (z : ℕ) : Bool := z ≤ c.toNat && c.toNat < z + 10

/-- `\d`. -/
def isDecimal (c : Char) : Bool := zeros.any (inRun c)

/-- The value of a decimal digit. -/
def digitValue (c : Char) : ℕ := ((zeros.find? (inRun c)).map (fun z => c.toNat - z)).getD 0

/-- `int` of a text of decimal digits. -/
def value (s : List Char) : ℕ := s.foldl (fun n c => 10 * n + digitValue c) 0

theorem zeros_eq_or_le : ∀ z ∈ zeros, z = 48 ∨ 1632 ≤ z := by decide

theorem inRun_ascii (c : Char) : inRun c 48 = true ↔ c.isDigit = true := by
  simp only [inRun, Char.isDigit, Bool.and_eq_true, decide_eq_true_eq, Char.toNat, ge_iff_le,
    UInt32.le_iff_toNat_le]
  change 48 ≤ c.val.toNat ∧ c.val.toNat < 48 + 10 ↔ 48 ≤ c.val.toNat ∧ c.val.toNat ≤ 57
  omega

theorem isDecimal_of_isDigit {c : Char} (h : c.isDigit = true) : isDecimal c = true :=
  List.any_eq_true.mpr ⟨48, List.mem_cons_self, (inRun_ascii c).mpr h⟩

/-- The digits of ASCII are the first run. -/
theorem isDigit_of_isDecimal {c : Char} (h : isDecimal c = true) (hc : c.toNat < 128) :
    c.isDigit = true := by
  obtain ⟨z, hz, hrun⟩ := List.any_eq_true.mp h
  rcases zeros_eq_or_le z hz with rfl | hlarge
  · exact (inRun_ascii c).mp hrun
  · simp only [inRun, Bool.and_eq_true, decide_eq_true_eq] at hrun
    omega

theorem not_isDecimal_of_ascii {c : Char} (hc : c.toNat < 128) (h : c.isDigit = false) :
    isDecimal c = false := by
  rw [← Bool.not_eq_true]
  intro hdecimal
  rw [isDigit_of_isDecimal hdecimal hc] at h
  cases h

/-! ### Integers -/

/-- How many digits `int` reads at most. -/
def maxDigits : ℕ := 4300

/-- The number of a text of digits, between which single underscores may stand. -/
def natural (s : List Char) : Option ℕ :=
  let digits := (s.splitOn '_').flatten
  if [] ∉ s.splitOn '_' ∧ digits.all isDecimal = true ∧ digits.length ≤ maxDigits then
    some (value digits)
  else none

/-- `int` of a text. -/
def int (s : List Char) : Option ℤ :=
  match Text.strip s with
  | '-' :: d => (natural d).map (fun n => -(n : ℤ))
  | '+' :: d => (natural d).map (fun n => (n : ℤ))
  | d => (natural d).map (fun n => (n : ℤ))

/-- The value of a digit of ASCII. -/
theorem digitValue_of_isDigit {c : Char} (h : c.isDigit = true) : digitValue c = c.toNat - 48 := by
  have hfind : zeros.find? (inRun c) = some 48 := List.find?_cons_of_pos ((inRun_ascii c).mpr h)
  rw [digitValue, hfind]
  rfl

theorem digit?_of_isDigit {c : Char} (h : c.isDigit = true) :
    Numeral.digit? c = some (c.toNat - 48) := by
  have hrange : 48 ≤ c.toNat ∧ c.toNat ≤ 57 := by
    have hrun := (inRun_ascii c).mpr h
    simp only [inRun, Bool.and_eq_true, decide_eq_true_eq] at hrun
    omega
  rw [Numeral.digit?, if_pos hrange]

/-- Digits of ASCII are read as a numeral. -/
theorem foldl_shift {s : List Char} (h : ∀ c ∈ s, c.isDigit = true) (n : ℕ) :
    s.foldl (Numeral.shift 10) (some n) =
      some (s.foldl (fun n c => 10 * n + digitValue c) n) := by
  induction s generalizing n with
  | nil => rfl
  | cons c rest ih =>
    obtain ⟨hc, hrest⟩ := List.forall_mem_cons.mp h
    have hlt : c.toNat - 48 < 10 := by
      have hrun := (inRun_ascii c).mpr hc
      simp only [inRun, Bool.and_eq_true, decide_eq_true_eq] at hrun
      omega
    have hshift : Numeral.shift 10 (some n) c = some (10 * n + digitValue c) := by
      simp [Numeral.shift, digit?_of_isDigit hc, hlt, digitValue_of_isDigit hc, Nat.mul_comm]
    rw [List.foldl_cons, List.foldl_cons, hshift, ih hrest]

theorem isDigit_toDigits {n : ℕ} : ∀ c ∈ Nat.toDigits 10 n, c.isDigit = true := fun _ hc =>
  Nat.isDigit_of_mem_toDigits (by decide) (by decide) hc

/-- No other character stands in a number that has been written. -/
theorem ne_of_mem_toDigits {n : ℕ} {c d : Char} (hc : c ∈ Nat.toDigits 10 n)
    (hd : d.isDigit = false) : c ≠ d := by
  rintro rfl
  rw [isDigit_toDigits c hc] at hd
  cases hd

theorem value_toDigits (n : ℕ) : value (Nat.toDigits 10 n) = n :=
  Option.some.inj ((foldl_shift isDigit_toDigits 0).symm.trans
    (Numeral.foldl_toDigits (by decide) (by decide) n))

theorem natural_toDigits {n : ℕ} (h : (Nat.toDigits 10 n).length ≤ maxDigits) :
    natural (Nat.toDigits 10 n) = some n := by
  have hsplit : (Nat.toDigits 10 n).splitOn '_' = [Nat.toDigits 10 n] :=
    List.splitOn_eq_singleton (fun hmem => absurd (isDigit_toDigits '_' hmem) (by decide))
  have hall : (Nat.toDigits 10 n).all isDecimal = true :=
    List.all_eq_true.mpr (fun c hc => isDecimal_of_isDigit (isDigit_toDigits c hc))
  have hne : [] ∉ [Nat.toDigits 10 n] := by simp [Nat.toDigits_ne_nil]
  simp only [natural, hsplit, List.flatten_singleton]
  rw [if_pos ⟨hne, hall, h⟩, value_toDigits]

theorem isSpace_toDigits {n : ℕ} : ∀ c ∈ Nat.toDigits 10 n, Text.isSpace c = false := fun c hc =>
  Text.isSpace_of_digit (by rw [digit?_of_isDigit (isDigit_toDigits c hc)]; rfl)

/-- `int` reads a number that has been written, if it is not too long. -/
theorem int_toDigits {n : ℕ} (h : (Nat.toDigits 10 n).length ≤ maxDigits) :
    int (Nat.toDigits 10 n) = some (n : ℤ) := by
  rw [int, Text.strip_of_noSpace isSpace_toDigits]
  split
  · next d heq => exact absurd (isDigit_toDigits '-' (heq ▸ List.mem_cons_self)) (by decide)
  · next d heq => exact absurd (isDigit_toDigits '+' (heq ▸ List.mem_cons_self)) (by decide)
  · rw [natural_toDigits h]
    rfl

/-- `int` reads a negative number that has been written. -/
theorem int_neg_toDigits {n : ℕ} (h : (Nat.toDigits 10 n).length ≤ maxDigits) :
    int ('-' :: Nat.toDigits 10 n) = some (-(n : ℤ)) := by
  have hspace : ∀ c ∈ '-' :: Nat.toDigits 10 n, Text.isSpace c = false := by
    intro c hc
    rcases List.mem_cons.mp hc with rfl | hc
    · decide
    · exact isSpace_toDigits c hc
  rw [int, Text.strip_of_noSpace hspace]
  split
  · next d heq =>
    rw [← (List.cons.inj heq).2, natural_toDigits h]
    rfl
  · next d heq => exact absurd (List.cons.inj heq).1 (by decide)
  · next hne hplus => exact absurd rfl (hne _)

end HuntProxy.Decimal
