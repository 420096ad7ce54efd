import Mathlib.Data.List.Basic
import Mathlib.Data.Nat.Notation

/-!
# UTF-8 texts

Encoding, and the decoder that puts a replacement character in the place of what is malformed: the
longest beginning of a character that is there, or else one byte, is replaced.

## Main definitions

- `Utf8.encode`, `Utf8.decodeReplace`

## Main results

- `Utf8.decodeReplace_encode` — what has been encoded is decoded
-/

namespace HuntProxy.Utf8

/-- `str.encode`. -/
def encode (s : List Char) : List UInt8 := s.flatMap String.utf8EncodeChar

/-- A continuation byte. -/
def isContinuation (b : UInt8) : Bool := 0x80 ≤ b && b ≤ 0xBF

/-- A byte that can be the second one of a character of three or four bytes. -/
def isSecond (lead b : UInt8) : Bool :=
  if lead = 0xE0 then 0xA0 ≤ b && b ≤ 0xBF
  else if lead = 0xED then 0x80 ≤ b && b ≤ 0x9F
  else if lead = 0xF0 then 0x90 ≤ b && b ≤ 0xBF
  else if lead = 0xF4 then 0x80 ≤ b && b ≤ 0x8F
  else isContinuation b

/-- The number of bytes that are replaced together, when no character begins here. -/
def malformed : List UInt8 → ℕ
  | lead :: second :: rest =>
    if 0xE0 ≤ lead ∧ lead ≤ 0xF4 ∧ isSecond lead second = true then
      if 0xF0 ≤ lead ∧ (rest.head?.any isContinuation) = true then 3 else 2
    else 1
  | _ => 1

/-- The decoder, for texts of a bounded length. -/
def decodeUpTo : ℕ → List UInt8 → List Char
  | 0, _ => []
  | _, [] => []
  | n + 1, b :: rest =>
    -- the core library decodes the first character
    match (b :: rest).toByteArray.utf8DecodeChar? 0 with
    | some c => c :: decodeUpTo n ((b :: rest).drop c.utf8Size)
    | none => Char.ofNat 0xFFFD :: decodeUpTo n ((b :: rest).drop (malformed (b :: rest)))

/-- `bytes.decode(errors="replace")`. -/
def decodeReplace (l : List UInt8) : List Char := decodeUpTo l.length l

theorem encode_cons (c : Char) (s : List Char) :
    encode (c :: s) = String.utf8EncodeChar c ++ encode s := List.flatMap_cons

theorem decodeUpTo_encode (s : List Char) {n : ℕ} (hn : (encode s).length ≤ n) :
    decodeUpTo n (encode s) = s := by
  induction s generalizing n with
  | nil => cases n <;> rfl
  | cons c s ih =>
    have hsize := String.length_utf8EncodeChar c
    have hpos := c.utf8Size_pos
    rw [encode_cons, List.length_append, hsize] at hn
    obtain ⟨n, rfl⟩ : ∃ m, n = m + 1 := ⟨n - 1, by omega⟩
    have hdecode : (encode (c :: s)).toByteArray.utf8DecodeChar? 0 = some c := by
      rw [encode_cons, List.toByteArray_append]
      exact ByteArray.utf8DecodeChar?_utf8EncodeChar_append
    have hdrop : (encode (c :: s)).drop c.utf8Size = encode s := by
      rw [encode_cons, ← hsize, List.drop_left]
    cases henc : encode (c :: s) with
    | nil =>
      have hlen := congrArg List.length henc
      rw [encode_cons, List.length_append, hsize, List.length_nil] at hlen
      omega
    | cons b rest =>
      rw [henc] at hdecode hdrop
      rw [decodeUpTo, hdecode]
      dsimp only
      rw [hdrop, ih (by omega)]

/-- **What has been encoded is decoded.** -/
theorem decodeReplace_encode (s : List Char) : decodeReplace (encode s) = s :=
  decodeUpTo_encode s (Nat.le_refl _)

/-- A letter of ASCII is one byte. -/
theorem utf8EncodeChar_of_ascii {c : Char} (hc : c.toNat < 128) :
    String.utf8EncodeChar c = [UInt8.ofNat c.toNat] := by
  have hsize : c.utf8Size = 1 := by
    rw [Char.utf8Size_eq_one_iff, UInt32.le_iff_toNat_le]
    exact Nat.le_of_lt_succ hc
  rw [String.utf8EncodeChar_eq_singleton hsize]
  rfl

/-- A text of ASCII is encoded letter by letter. -/
theorem encode_of_ascii {s : List Char} (h : ∀ c ∈ s, c.toNat < 128) :
    encode s = s.map (fun c => UInt8.ofNat c.toNat) := by
  induction s with
  | nil => rfl
  | cons c s ih =>
    obtain ⟨hc, hs⟩ := List.forall_mem_cons.mp h
    rw [encode_cons, utf8EncodeChar_of_ascii hc, ih hs, List.map_cons, List.singleton_append]

end HuntProxy.Utf8
