import HuntProxy.Lib.Casing
import HuntProxy.Lib.Text
import HuntProxy.Lib.Utf8
import Mathlib.Data.List.SplitBy

/-!
# The parts of a URL

The scheme and the port of a URL, as texts of letters of ASCII; and the bytes that stand behind
percent signs.
-/

namespace HuntProxy.Url

abbrev Str := List Char

/-- A scheme: a letter, and letters, digits, `+`, `-` and `.` behind it. -/
structure Scheme where
  first : Char
  more : Str
  isAlpha : first.isAlpha = true
  letters : ∀ c ∈ more, c.isAlphanum = true ∨ c ∈ "+-.".toList
  deriving DecidableEq

/-- The text of a scheme. -/
def Scheme.text (s : Scheme) : Str := s.first :: s.more

/-- The number of a port. -/
abbrev Port := { s : Str // s ≠ [] ∧ ∀ c ∈ s, c.isDigit = true }

/-- The scheme in front of an address. -/
def schemeText (scheme : Option Scheme) : Str :=
  scheme.elim [] (fun s => s.text ++ "://".toList)

/-- The port behind an address. -/
def portText (port : Option Port) : Str := port.elim [] (fun p => ':' :: p.val)

/-- A letter of an address, a scheme or a port. -/
def isValueChar (c : Char) : Bool :=
  c.isAlphanum || c == '+' || c == '-' || c == '.' || c == ':' || c == '/'

theorem ascii_of_isValueChar {c : Char} (h : isValueChar c = true) : c.toNat < 128 := by
  simp only [isValueChar, Bool.or_eq_true, beq_iff_eq] at h
  obtain ((((h | rfl) | rfl) | rfl) | rfl) | rfl := h
  · exact LowerCase.ascii_of_isAlphanum h
  all_goals decide

theorem not_space_of_isValueChar {c : Char} (h : isValueChar c = true) : Text.isSpace c = false :=
  LowerCase.of_ascii (P := fun c => isValueChar c = true → Text.isSpace c = false) (by decide)
    (ascii_of_isValueChar h) h

theorem schemeText_chars (scheme : Option Scheme) : ∀ c ∈ schemeText scheme, isValueChar c = true := by
  intro c hc
  cases scheme with
  | none => cases hc
  | some s =>
    rcases List.mem_append.mp hc with hc | hc
    · rcases List.mem_cons.mp hc with rfl | hc
      · simp [isValueChar, Char.isAlphanum, s.isAlpha]
      · rcases s.letters c hc with h | h
        · simp [isValueChar, h]
        · have hall : ∀ c ∈ "+-.".toList, isValueChar c = true := by simp [isValueChar]
          exact hall c h
    · have hall : ∀ c ∈ "://".toList, isValueChar c = true := by simp [isValueChar]
      exact hall c hc

theorem portText_chars (port : Option Port) : ∀ c ∈ portText port, isValueChar c = true := by
  intro c hc
  cases port with
  | none => cases hc
  | some p =>
    rcases List.mem_cons.mp hc with rfl | hc
    · rfl
    · simp [isValueChar, Char.isAlphanum, p.property.2 c hc]

/-- A scheme has no colon. -/
theorem Scheme.noColon (s : Scheme) : ∀ c ∈ s.text, (c != ':') = true := by
  intro c hc
  rw [bne_iff_ne]
  rintro rfl
  rcases List.mem_cons.mp hc with h | h
  · have halpha := s.isAlpha
    rw [← h] at halpha
    cases halpha
  · rcases s.letters _ h with h | h
    · cases h
    · revert h
      decide

/-! ### Percent signs -/

/-- The value of a hexadecimal digit. -/
def hexValue? (c : Char) : Option ℕ :=
  if '0' ≤ c ∧ c ≤ '9' then some (c.toNat - 48)
  else if 'a' ≤ c ∧ c ≤ 'f' then some (c.toNat - 87)
  else if 'A' ≤ c ∧ c ≤ 'F' then some (c.toNat - 55)
  else none

/-- `unquote_to_bytes`, for letters of ASCII. -/
def unquoteBytes : Str → List UInt8
  | '%' :: a :: b :: s =>
    match hexValue? a, hexValue? b with
    | some x, some y => UInt8.ofNat (16 * x + y) :: unquoteBytes s
    | _, _ => 37 :: unquoteBytes (a :: b :: s)
  | c :: s => UInt8.ofNat c.toNat :: unquoteBytes s
  | [] => []

/-- A letter of ASCII. -/
def isAscii (c : Char) : Bool := c.toNat < 128

/-- `unquote`: the runs of letters of ASCII are decoded, the others stay as they are. -/
def unquote (s : Str) : Str :=
  (s.splitBy (fun a b => isAscii a == isAscii b)).flatMap
    (fun run => if run.all isAscii then Utf8.decodeReplace (unquoteBytes run) else run)

theorem unquote_of_ascii {s : Str} (h : ∀ c ∈ s, isAscii c = true) :
    unquote s = Utf8.decodeReplace (unquoteBytes s) := by
  by_cases hnil : s = []
  · subst hnil
    rfl
  · have hchain : s.IsChain (fun a b => (isAscii a == isAscii b) = true) :=
      List.Pairwise.isChain (List.pairwise_of_forall_mem_list (fun a ha b hb => by
        rw [h a ha, h b hb]
        rfl))
    rw [unquote, List.splitBy_of_isChain hnil hchain, List.flatMap_singleton,
      if_pos (List.all_eq_true.mpr h)]

/-- A letter that is no percent sign stands for itself. -/
theorem unquoteBytes_cons {c : Char} (h : c ≠ '%') (s : Str) :
    unquoteBytes (c :: s) = UInt8.ofNat c.toNat :: unquoteBytes s := by
  rw [unquoteBytes.eq_2]
  intro a b s' heq _
  exact h heq

end HuntProxy.Url
