import HuntProxy.Lib.IpText

/-!
# Packed addresses

The functions of the socket library between addresses of four or sixteen bytes and their texts.
`inet_aton` takes one to four numbers, of which the last one stands for all bytes that are left, in
the notation of C, and ignores what follows a white space.

## Main definitions

- `inetAton`, `inetNtoa`, `inetNtop6`

## Main results

- `inetAton_text4`, `inetNtoa_octets` — the canonical text of an address and its bytes
-/

namespace HuntProxy.Ip

/-- A number in the notation of C. -/
def cNumber : Str → Option ℕ
  -- hexadecimal, octal and decimal, by the beginning
  | '0' :: 'x' :: h => Numeral.read 16 h
  | '0' :: 'X' :: h => Numeral.read 16 h
  | ['0'] => some 0
  | '0' :: o => Numeral.read 8 o
  | d => Numeral.read 10 d

/-- The number of an address whose last part stands for all bytes that are left. -/
def ofParts (ns : List ℕ) : Option ℕ :=
  match ns.getLast? with
  | none => none
  | some last =>
    if ns.length ≤ 4 ∧ (∀ d ∈ ns.dropLast, d < 256) ∧ last < 256 ^ (5 - ns.length) then
      some (valueOf 256 ns.dropLast * 256 ^ (5 - ns.length) + last)
    else none

/-- White space of C. -/
def isCSpace (c : Char) : Bool := c = ' ' || (9 ≤ c.toNat && c.toNat ≤ 13)

/-- The four bytes of an address. -/
def octets (n : ℕ) : List UInt8 := (places 256 4 n).map UInt8.ofNat

/-- `socket.inet_aton`. -/
def inetAton (s : Str) : Option (List UInt8) :=
  ((((s.takeWhile (fun c => !isCSpace c)).splitOn '.').mapM cNumber).bind ofParts).map octets

/-- `socket.inet_ntoa`. -/
def inetNtoa (l : List UInt8) : Str :=
  ['.'].intercalate (l.map (fun b => Nat.toDigits 10 b.toNat))

/-- `socket.inet_ntop` of an IPv6 address: an embedded IPv4 address is written as four octets. -/
def inetNtop6 (l : List UInt8) : Str :=
  let n := valueOf 256 (l.map UInt8.toNat)
  let groups := places 65536 8 n
  if longestRun groups = 0 ∧ zerosAt groups 0 = 6 then "::".toList ++ text4 (n % 2 ^ 32)
  else if longestRun groups = 0 ∧ zerosAt groups 0 = 5 ∧ groups[5]? = some 0xFFFF then
    "::ffff:".toList ++ text4 (n % 2 ^ 32)
  else text6 n

theorem length_octets (n : ℕ) : (octets n).length = 4 := by
  rw [octets, List.length_map, length_places]

theorem cNumber_toDigits (n : ℕ) : cNumber (Nat.toDigits 10 n) = some n := by
  by_cases hzero : n = 0
  · rw [hzero, Nat.toDigits_zero]
    rfl
  · have hhead := Numeral.head?_toDigits (b := 10) (by decide) hzero
    have hread := Numeral.read_toDigits (b := 10) (by decide) (by decide) n
    unfold cNumber
    split
    case h_5 => exact hread
    all_goals
      next heq =>
      rw [heq] at hhead
      exact absurd rfl hhead

theorem ofParts_places {n : ℕ} (hn : n < 2 ^ 32) : ofParts (places 256 4 n) = some n := by
  have hlt : n % 256 < 256 := Nat.mod_lt n (by decide)
  have hvalue : valueOf 256 (places 256 3 (n / 256)) = n / 256 := by
    rw [valueOf_places]
    exact Nat.mod_eq_of_lt (by omega)
  rw [ofParts, places, List.getLast?_concat, List.dropLast_concat]
  dsimp only
  rw [if_pos]
  · rw [hvalue, List.length_append, length_places, List.length_singleton]
    exact congrArg some (by omega)
  · rw [List.length_append, length_places, List.length_singleton]
    exact ⟨le_refl _, fun d hd => lt_of_mem_places (by decide) hd, by simpa using hlt⟩

/-- A canonical text consists of digits and dots. -/
theorem mem_text4 {n : ℕ} {c : Char} (h : c ∈ text4 n) : c = '.' ∨ c.isDigit = true := by
  refine (mem_intercalate h).imp_right ?_
  rintro ⟨p, hp, hc⟩
  obtain ⟨d, -, rfl⟩ := List.mem_map.mp hp
  exact Nat.isDigit_of_mem_toDigits (by decide) (by decide) hc

theorem isCSpace_of_isDigit {c : Char} (h : c.isDigit = true) : isCSpace c = false := by
  have hlow : 48 ≤ c.toNat := (Char.isDigit_iff_toNat.mp h).1
  have hspace : c ≠ ' ' := by
    rintro rfl
    exact absurd hlow (by decide)
  have hcontrol : ¬ c.toNat ≤ 13 := by omega
  simp [isCSpace, hspace, hcontrol]

/-- The bytes of a canonical text. -/
theorem inetAton_text4 {n : ℕ} (hn : n < 2 ^ 32) : inetAton (text4 n) = some (octets n) := by
  have hall : (text4 n).takeWhile (fun c => !isCSpace c) = text4 n := by
    refine List.takeWhile_eq_self_iff.mpr (fun c hc => ?_)
    rcases mem_text4 hc with rfl | hdigit
    · rfl
    · rw [isCSpace_of_isDigit hdigit]
      rfl
  rw [inetAton, hall, splitOn_text4, mapM_map_of (fun d _ => cNumber_toDigits d), Option.bind_some,
    ofParts_places hn, Option.map_some]

/-- The text of the bytes is the canonical one. -/
theorem inetNtoa_octets (n : ℕ) : inetNtoa (octets n) = text4 n := by
  rw [inetNtoa, octets, text4, List.map_map]
  refine congrArg _ (List.map_congr_left (fun d hd => ?_))
  exact congrArg (Nat.toDigits 10) (UInt8.toNat_ofNat_of_lt' (lt_of_mem_places (by decide) hd))

end HuntProxy.Ip
