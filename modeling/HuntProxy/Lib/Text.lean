import HuntProxy.Lib.Numeral
import HuntProxy.Lib.Trim
import Mathlib.Data.Int.Notation

/-!
# Lines and words

Texts as lists of characters, cut the way Python cuts them: `splitlines` at every line
boundary of Unicode, `strip` and `split` at every white space.
-/

namespace HuntProxy.Text

/-- `str.isspace` of a character. -/
def isSpace (c : Char) : Bool :=
  let n := c.toNat
  (9 ≤ n && n ≤ 13) || (28 ≤ n && n ≤ 32) || n = 0x85 || n = 0xA0 || n = 0x1680 ||
    (0x2000 ≤ n && n ≤ 0x200A) || n = 0x2028 || n = 0x2029 || n = 0x202F || n = 0x205F || n = 0x3000

/-- A line boundary. -/
def isBreak (c : Char) : Bool :=
  let n := c.toNat
  (10 ≤ n && n ≤ 13) || (28 ≤ n && n ≤ 30) || n = 0x85 || n = 0x2028 || n = 0x2029

/-- The lines of a text that goes on behind the part `line` of its first line. -/
def linesFrom (line : List Char) : List Char → List (List Char)
  | [] => if line = [] then [] else [line]
  | '\r' :: '\n' :: rest => line :: linesFrom [] rest
  | c :: rest => if isBreak c then line :: linesFrom [] rest else linesFrom (line ++ [c]) rest

/-- `str.splitlines`. -/
def splitlines (s : List Char) : List (List Char) := linesFrom [] s

/-- `str.strip`. -/
def strip (s : List Char) : List Char := ((s.dropWhile isSpace).reverse.dropWhile isSpace).reverse

theorem strip_eq_trim : strip = trim isSpace := rfl

/-- The first word of a text that begins with one, `s.split()[0]`. -/
def firstWord (s : List Char) : List Char := s.takeWhile (fun c => !isSpace c)

/-- `s.split(sep, 1)`, when the separator occurs. -/
def splitOnce (sep : Char) (s : List Char) : List Char × List Char :=
  (s.takeWhile (· ≠ sep), (s.dropWhile (· ≠ sep)).tail)

/-- The number of a text of decimal digits, which underscores may set apart. -/
def natOfText (s : List Char) : Option ℕ :=
  if [] ∈ s.splitOn '_' then none else Numeral.read 10 (s.splitOn '_').flatten

/-- `int(s)`, for ASCII digits. -/
def intOfText (s : List Char) : Option ℤ :=
  match strip s with
  | '-' :: d => (natOfText d).map (fun n => -(n : ℤ))
  | '+' :: d => (natOfText d).map (fun n => (n : ℤ))
  | d => (natOfText d).map (fun n => (n : ℤ))

/-! ### Words without white space -/

theorem strip_of_noSpace {s : List Char} (h : ∀ c ∈ s, isSpace c = false) : strip s = s :=
  trim_of_bare (Bare.of_all h)

/-- What is stripped is white space. -/
theorem strip_split (s : List Char) : ∃ left right, s = left ++ strip s ++ right ∧
    (∀ c ∈ left, isSpace c = true) ∧ ∀ c ∈ right, isSpace c = true := trim_split isSpace s

/-- White space around a word is stripped. -/
theorem strip_append {left s right : List Char} (hleft : ∀ c ∈ left, isSpace c = true)
    (hs : ∀ c ∈ s, isSpace c = false) (hright : ∀ c ∈ right, isSpace c = true) :
    strip (left ++ s ++ right) = s := trim_append hleft (Bare.of_all hs) hright

theorem isSpace_of_digit {c : Char} (h : (Numeral.digit? c).isSome = true) : isSpace c = false := by
  unfold Numeral.digit? at h
  have hrange : 48 ≤ c.toNat ∧ c.toNat ≤ 102 := by
    split at h
    · omega
    · split at h
      · omega
      · split at h
        · omega
        · cases h
  unfold isSpace
  simp only [Bool.or_eq_false_iff, Bool.and_eq_false_iff, decide_eq_false_iff_not]
  omega

/-- `int` reads a number that has been written. -/
theorem intOfText_toDigits (n : ℕ) : intOfText (Nat.toDigits 10 n) = some (n : ℤ) := by
  have hdigit : ∀ c ∈ Nat.toDigits 10 n, (Numeral.digit? c).isSome = true :=
    fun c hc => Numeral.digit?_of_mem_toDigits (by decide) (by decide) hc
  have hread : natOfText (Nat.toDigits 10 n) = some n := by
    have hsplit : (['_'].intercalate [Nat.toDigits 10 n]).splitOn '_' = [Nat.toDigits 10 n] :=
      List.splitOn_intercalate '_' (by simp) (by simp)
    rw [List.intercalate_singleton] at hsplit
    have hne : [] ∉ [Nat.toDigits 10 n] := by simp [Nat.toDigits_ne_nil]
    rw [natOfText, hsplit, if_neg hne, List.flatten_singleton,
      Numeral.read_toDigits (by decide) (by decide)]
  rw [intOfText, strip_of_noSpace (fun c hc => isSpace_of_digit (hdigit c hc))]
  split
  · next d heq => exact absurd (hdigit '-' (heq ▸ List.mem_cons_self)) (by decide)
  · next d heq => exact absurd (hdigit '+' (heq ▸ List.mem_cons_self)) (by decide)
  · rw [hread]
    rfl

end HuntProxy.Text
