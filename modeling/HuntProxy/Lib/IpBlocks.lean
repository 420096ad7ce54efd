import HuntProxy.Lib.IpText

/-!
# Blocks of IP addresses

A network is a block of addresses that agree in their first bits. The reader of the
`ipaddress` module takes a length or, for IPv4, a net mask or a host mask behind the slash,
and clears the host bits. A range of addresses is cut into the largest blocks that fit,
from its first address on.

## Main definitions

- `Network`, `Network.text`, `ipNetwork` — blocks, their canonical texts and their reader
- `summarizeAddressRange` — the blocks of a range

## Main results

- `Network.text_injective` — a block is known by its canonical text
- `mem_summarizeAddressRange` — the blocks of a range hold exactly its addresses
-/

namespace HuntProxy.Ip

/-- A block of addresses: its first address and the length of the common prefix. -/
@[ext] structure Network where
  address : Address
  prefixlen : ℕ
  prefixlen_le : prefixlen ≤ address.family.bits
  aligned : 2 ^ (address.family.bits - prefixlen) ∣ address.value
  deriving DecidableEq

namespace Network

/-- The number of addresses in the block. -/
def size (net : Network) : ℕ := 2 ^ (net.address.family.bits - net.prefixlen)

/-- `int(net.network_address)`. -/
def lo (net : Network) : ℕ := net.address.value

/-- `int(net.broadcast_address)`. -/
def hi (net : Network) : ℕ := net.address.value + (net.size - 1)

/-- The block holds the number. -/
def Holds (net : Network) (n : ℕ) : Prop := net.lo ≤ n ∧ n ≤ net.hi

instance (net : Network) (n : ℕ) : Decidable (net.Holds n) := inferInstanceAs (Decidable (_ ∧ _))

/-- The block of a single address. -/
def isHost (net : Network) : Bool := net.prefixlen = net.address.family.bits

/-- `str` of a network. -/
def text (net : Network) : Str := net.address.text ++ '/' :: Nat.toDigits 10 net.prefixlen

/-- The block of an address, whose host bits are cleared. -/
def of (a : Address) (prefixlen : ℕ) (h : prefixlen ≤ a.family.bits) : Network :=
  if ha : 2 ^ (a.family.bits - prefixlen) ∣ a.value then ⟨a, prefixlen, h, ha⟩
  else
    { address :=
        { family := a.family
          value := a.value - a.value % 2 ^ (a.family.bits - prefixlen)
          zone := none
          inRange := Nat.lt_of_le_of_lt (Nat.sub_le _ _) a.inRange
          unzoned := fun _ => rfl }
      prefixlen := prefixlen
      prefixlen_le := h
      aligned := Nat.dvd_sub_mod a.value }

/-- The block of the address alone. -/
def host (a : Address) : Network :=
  ⟨a, a.family.bits, Nat.le_refl _, by rw [Nat.sub_self, Nat.pow_zero]; exact Nat.one_dvd _⟩

end Network

/-- A length behind the slash. -/
def prefixString (bits : ℕ) (s : Str) : Option ℕ := (Numeral.read 10 s).filter (· ≤ bits)

/-- The length that a net mask stands for, or else a host mask. -/
def prefixOfMask (n : ℕ) : Option ℕ :=
  ((List.range 33).find? (fun p => n = 2 ^ 32 - 2 ^ (32 - p))).or
    ((List.range 33).find? (fun p => n = 2 ^ (32 - p) - 1))

/-- The block with a given number of common bits, unless there are too many. -/
def Network.mk? (a : Address) (prefixlen : ℕ) : Option Network :=
  if h : prefixlen ≤ a.family.bits then some (.of a prefixlen h) else none

/-- `ip_network(s, strict=False)`. -/
def ipNetwork (s : Str) : Option Network :=
  match s.splitOn '/' with
  | [a] => (ipAddress a).map Network.host
  | [a, m] =>
    match read4 a with
    | some n =>
      (Address.v4 n).bind fun a =>
        ((prefixString 32 m).or ((read4 m).bind prefixOfMask)).bind (Network.mk? a)
    | none => (ipv6Address a).bind fun a => (prefixString 128 m).bind (Network.mk? a)
  | _ => none

/-! ### Ranges -/

/-- `_count_righthand_zero_bits`: how often two divides the number, up to the given bits. -/
def trailingZeros (bits n : ℕ) : ℕ :=
  ((List.range bits).takeWhile (fun k => 2 ^ (k + 1) ∣ n)).length

/-- The host bits of the largest block that begins at `first` and ends with `last` or
before. -/
def blockBits (bits first last : ℕ) : ℕ :=
  min (trailingZeros bits first) (Nat.log2 (last + 1 - first))

theorem trailingZeros_le (bits n : ℕ) : trailingZeros bits n ≤ bits := by
  have h := (List.takeWhile_prefix (l := List.range bits)
    (fun k => decide (2 ^ (k + 1) ∣ n))).length_le
  rwa [List.length_range] at h

theorem two_pow_trailingZeros_dvd (bits n : ℕ) : 2 ^ trailingZeros bits n ∣ n := by
  generalize hz : trailingZeros bits n = z
  cases z with
  | zero => exact Nat.one_dvd n
  | succ k =>
    have hk : k < ((List.range bits).takeWhile (fun k => decide (2 ^ (k + 1) ∣ n))).length :=
      Nat.lt_of_lt_of_eq (Nat.lt_succ_self k) hz.symm
    have hmem := List.getElem_mem hk
    have hget : ((List.range bits).takeWhile (fun k => decide (2 ^ (k + 1) ∣ n)))[k] = k := by
      rw [(List.takeWhile_prefix _).getElem hk, List.getElem_range]
    rw [hget] at hmem
    have hdvd := List.mem_takeWhile_imp (p := fun k => decide (2 ^ (k + 1) ∣ n)) hmem
    exact of_decide_eq_true hdvd

theorem blockBits_le (bits first last : ℕ) : blockBits bits first last ≤ bits :=
  (Nat.min_le_left _ _).trans (trailingZeros_le bits first)

theorem two_pow_blockBits_dvd (bits first last : ℕ) : 2 ^ blockBits bits first last ∣ first :=
  Nat.dvd_trans (Nat.pow_dvd_pow 2 (Nat.min_le_left _ _)) (two_pow_trailingZeros_dvd bits first)

theorem two_pow_blockBits_le (bits : ℕ) {first last : ℕ} (h : first ≤ last) :
    2 ^ blockBits bits first last ≤ last + 1 - first := by
  refine (Nat.pow_le_pow_right (by decide) (Nat.min_le_right _ _)).trans ?_
  exact Nat.log2_self_le (by omega)

/-- The block at `first` of which `blockBits` speaks. -/
def blockAt (family : Family) (first last : ℕ) (h : first < 2 ^ family.bits) : Network where
  address := ⟨family, first, none, h, fun _ => rfl⟩
  prefixlen := family.bits - blockBits family.bits first last
  prefixlen_le := Nat.sub_le _ _
  aligned := by
    rw [Nat.sub_sub_self (blockBits_le _ _ _)]
    exact two_pow_blockBits_dvd _ _ _

/-- The loop of `summarize_address_range`, for at most the given number of blocks. -/
def blocksFrom (family : Family) (last : ℕ) (hlast : last < 2 ^ family.bits) :
    ℕ → ℕ → List Network
  | 0, _ => []
  | fuel + 1, first =>
    if h : first ≤ last then
      blockAt family first last (Nat.lt_of_le_of_lt h hlast) ::
        blocksFrom family last hlast fuel (first + 2 ^ blockBits family.bits first last)
    else []

/-- `summarize_address_range`; `none` says that it raises. Addresses of different zones are
not equal, but neither is less than the other if their numbers are the same. -/
def summarizeAddressRange (first last : Address) : Option (List Network) :=
  if first.family ≠ last.family then none
  else if last.value < first.value ∨ last.value = first.value ∧ first.zone ≠ last.zone then none
  else some (blocksFrom last.family last.value last.inRange (last.value + 1 - first.value) first.value)

/-! ### What the blocks hold -/

namespace Network

theorem size_pos (net : Network) : 0 < net.size := Nat.two_pow_pos _

theorem size_host (a : Address) : (host a).size = 1 := by
  rw [size, host, Nat.sub_self, Nat.pow_zero]

theorem lo_eq_hi_iff (net : Network) : net.lo = net.hi ↔ net.isHost = true := by
  have hpow : net.size = 1 ↔ net.address.family.bits - net.prefixlen = 0 := by
    rw [size, Nat.pow_eq_one]
    simp
  have hle := net.prefixlen_le
  have hpos := net.size_pos
  simp only [lo, hi, isHost, decide_eq_true_eq]
  omega

/-- The last address of a block is an address of its family. -/
theorem hi_lt (net : Network) : net.hi < 2 ^ net.address.family.bits := by
  obtain ⟨q, hq⟩ := net.aligned
  have hbits : net.address.family.bits =
      net.address.family.bits - net.prefixlen + net.prefixlen := by
    have hle := net.prefixlen_le
    omega
  have hlt := net.address.inRange
  have hpos := net.size_pos
  have hpow : 2 ^ net.address.family.bits = net.size * 2 ^ net.prefixlen := by
    rw [size, ← Nat.pow_add, ← hbits]
  change net.address.value = net.size * q at hq
  rw [hq, hpow] at hlt
  have hq' : q + 1 ≤ 2 ^ net.prefixlen := Nat.lt_of_mul_lt_mul_left hlt
  have hmul := Nat.mul_le_mul_left net.size hq'
  rw [Nat.mul_succ] at hmul
  rw [hi, hq, hpow]
  omega

end Network

theorem holds_blockAt {family : Family} {first last : ℕ} (h : first < 2 ^ family.bits) (n : ℕ) :
    (blockAt family first last h).Holds n ↔
      first ≤ n ∧ n < first + 2 ^ blockBits family.bits first last := by
  have hsize : (blockAt family first last h).size = 2 ^ blockBits family.bits first last := by
    rw [Network.size, blockAt, Nat.sub_sub_self (blockBits_le _ _ _)]
  have hpos := (blockAt family first last h).size_pos
  rw [Network.Holds, Network.hi, hsize]
  rw [hsize] at hpos
  change first ≤ n ∧ n ≤ first + _ ↔ _
  omega

theorem exists_holds_blocksFrom {family : Family} {last : ℕ} (hlast : last < 2 ^ family.bits)
    (fuel first n : ℕ) (hfuel : last + 1 - first ≤ fuel) :
    (∃ net ∈ blocksFrom family last hlast fuel first, net.Holds n) ↔ first ≤ n ∧ n ≤ last := by
  induction fuel generalizing first with
  | zero =>
    simp only [blocksFrom, List.not_mem_nil, false_and, exists_false, false_iff]
    omega
  | succ fuel ih =>
    rw [blocksFrom]
    split
    · next hle =>
      have hpos : 0 < 2 ^ blockBits family.bits first last := Nat.two_pow_pos _
      have hfits := two_pow_blockBits_le family.bits hle
      simp only [List.mem_cons, exists_eq_or_imp, holds_blockAt,
        ih (first + 2 ^ blockBits family.bits first last) (by omega)]
      omega
    · simp only [List.not_mem_nil, false_and, exists_false, false_iff]
      omega

/-- **The blocks of a range hold exactly its addresses.** -/
theorem mem_summarizeAddressRange {first last : Address} {nets : List Network}
    (h : summarizeAddressRange first last = some nets) (n : ℕ) :
    (∃ net ∈ nets, net.Holds n) ↔ first.value ≤ n ∧ n ≤ last.value := by
  unfold summarizeAddressRange at h
  split at h
  · cases h
  · split at h
    · cases h
    · cases h
      exact exists_holds_blocksFrom _ _ _ n (Nat.le_refl _)

/-! ### Texts -/

theorem slash_notMem_text (a : Address) : '/' ∉ a.text := by
  intro h
  have hread := ipAddress_text a
  rw [ipAddress, if_pos h] at hread
  cases hread

theorem splitOn_text (net : Network) :
    net.text.splitOn '/' = [net.address.text, Nat.toDigits 10 net.prefixlen] := by
  have hdigits : '/' ∉ Nat.toDigits 10 net.prefixlen :=
    Numeral.not_mem_toDigits (by decide) (by decide) _ (by decide)
  have hsplit : (['/'].intercalate [net.address.text, Nat.toDigits 10 net.prefixlen]).splitOn '/' =
      [net.address.text, Nat.toDigits 10 net.prefixlen] :=
    List.splitOn_intercalate '/' (by simpa using ⟨slash_notMem_text net.address, hdigits⟩) (by simp)
  simpa [List.intercalate_cons_cons, Network.text] using hsplit

theorem slash_mem_text (net : Network) : '/' ∈ net.text :=
  List.mem_append_right _ List.mem_cons_self

/-- **A block is known by its canonical text.** -/
theorem Network.text_injective : Function.Injective Network.text := by
  intro net net' h
  have hsplit := splitOn_text net
  rw [h, splitOn_text net'] at hsplit
  obtain ⟨haddress, hprefix⟩ := List.cons.inj hsplit
  have haddress := Ip.text_injective haddress
  have hprefix := Numeral.toDigits_injective (by decide) (by decide) (List.cons.inj hprefix).1
  exact Network.ext haddress.symm hprefix.symm

theorem Network.of_self (net : Network) :
    Network.of net.address net.prefixlen net.prefixlen_le = net := by
  rw [Network.of, dif_pos net.aligned]

theorem prefixString_toDigits {bits p : ℕ} (h : p ≤ bits) :
    prefixString bits (Nat.toDigits 10 p) = some p := by
  rw [prefixString, Numeral.read_toDigits (by decide) (by decide)]
  simp [h]

/-- The canonical text of a block is read back. -/
theorem ipNetwork_text (net : Network) : ipNetwork net.text = some net := by
  have hself : Network.mk? net.address net.prefixlen = some net := by
    rw [Network.mk?, dif_pos net.prefixlen_le, net.of_self]
  have hread := ipAddress_text net.address
  rw [ipAddress, if_neg (slash_notMem_text net.address)] at hread
  rw [ipNetwork, splitOn_text]
  dsimp only
  cases hfour : read4 net.address.text with
  | some n =>
    rw [hfour] at hread
    have hfamily : net.address.family = .v4 := by
      dsimp only at hread
      unfold Address.v4 at hread
      split at hread
      · rw [← Option.some.inj hread]
      · cases hread
    have hle : net.prefixlen ≤ 32 := by
      have hle := net.prefixlen_le
      rwa [hfamily] at hle
    dsimp only at hread ⊢
    rw [hread, Option.bind_some, prefixString_toDigits hle, Option.some_or, Option.bind_some, hself]
  | none =>
    rw [hfour] at hread
    have hle : net.prefixlen ≤ 128 := by
      refine net.prefixlen_le.trans ?_
      cases net.address.family <;> decide
    dsimp only at hread ⊢
    rw [hread, Option.bind_some, prefixString_toDigits hle, Option.bind_some, hself]

theorem ipNetwork_addressText (a : Address) : ipNetwork a.text = some (.host a) := by
  have hsplit : (['/'].intercalate [a.text]).splitOn '/' = [a.text] :=
    List.splitOn_intercalate '/' (by simpa using slash_notMem_text a) (by simp)
  rw [List.intercalate_singleton] at hsplit
  rw [ipNetwork, hsplit]
  dsimp only
  rw [ipAddress_text, Option.map_some]

end HuntProxy.Ip
