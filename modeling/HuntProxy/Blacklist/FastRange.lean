import HuntProxy.Blacklist.Persist

/-!
# The fast reader of the stored entries

What the parser stores is the canonical text of an address or of a block. The loader reads
it with a reader of its own, which is meant to know IPv4 and to leave everything else to
`ip_network`. It takes three dots for the mark of an IPv4 text, and the dots may also stand
in the zone of an IPv6 address.

## Main definitions

- `Storable` — the entries that the parser can store
- `Agrees` — the fast reader gives what `ip_network` gives
- `DottedZone` — the entry is an IPv6 block with three dots in its zone and a long prefix

## Main results

- `storable_cases` — a stored entry is a canonical text
- `fast_agrees_iff` — when the two readers agree
-/

namespace HuntProxy

open Ip (Str Address Network)

/-- The parser stores the entry when it reads some list. -/
def Storable (entry : Str) : Prop := ∃ text sourceName, ∃ p ∈ parsedEntries text sourceName, p.key = entry

/-- The fast reader gives the first and the last address that `ip_network` gives. -/
def Agrees (entry : Str) : Prop :=
  ∃ net, Ip.ipNetwork entry = some net ∧ fastCidrRange entry = some (net.lo, net.hi)

/-- The dots in the zone of an address. -/
def zoneDots (a : Address) : ℕ := a.zone.elim 0 (fun z => z.val.count '.')

/-- The entry is an IPv6 block whose zone has three dots and whose prefix is longer than any
of IPv4. -/
def DottedZone (entry : Str) : Prop :=
  ∃ net : Network, entry = net.text ∧ zoneDots net.address = 3 ∧ 32 < net.prefixlen

/-- A stored entry is the canonical text of an address or of a block. -/
theorem storable_cases {entry : Str} (h : Storable entry) :
    (∃ a : Address, entry = a.text) ∨ ∃ net : Network, entry = net.text := by
  obtain ⟨text, sourceName, p, -, rfl⟩ := h
  have hkey := p.key_eq
  by_cases hhost : p.isHost = true
  · rw [if_pos hhost] at hkey
    exact .inl ⟨p.net.address, hkey⟩
  · rw [if_neg hhost] at hkey
    exact .inr ⟨p.net, hkey⟩

/-- All dots of an IPv6 text are in its zone. -/
theorem count_dot_text {a : Address} (h : a.family = .v6) : a.text.count '.' = zoneDots a := by
  have hnone : (Ip.text6 a.value).count '.' = 0 :=
    List.count_eq_zero.mpr (Ip.not_mem_text6 a.value (by decide) (by decide))
  rw [Address.text, h]
  show (Ip.text6 a.value ++ _).count '.' = _
  rw [List.count_append, hnone, Nat.zero_add, zoneDots]
  cases a.zone with
  | none => rfl
  | some z =>
    show ('%' :: z.val).count '.' = z.val.count '.'
    rw [List.count_cons_of_ne (by decide)]

/-- The fast reader takes a block for one of IPv4 just when the dots are in its zone. -/
theorem misread_iff (net : Network) :
    Network.Misread net ↔ zoneDots net.address = 3 ∧ 32 < net.prefixlen := by
  cases hfamily : net.address.family with
  | v4 =>
    -- no prefix of an IPv4 block is longer than 32
    have hle : net.prefixlen ≤ 32 := by
      have hle := net.prefixlen_le
      rw [hfamily] at hle
      exact hle
    constructor
    · rintro ⟨-, hlong⟩
      omega
    · rintro ⟨-, hlong⟩
      omega
  | v6 => rw [Network.Misread, count_dot_text hfamily]

theorem dottedZone_text_iff (net : Network) : DottedZone net.text ↔ Network.Misread net := by
  rw [misread_iff]
  constructor
  · rintro ⟨net', htext, hdots⟩
    rw [Network.text_injective htext]
    exact hdots
  · intro hdots
    exact ⟨net, rfl, hdots⟩

theorem not_dottedZone_addressText (a : Address) : ¬ DottedZone a.text := by
  rintro ⟨net, htext, -⟩
  exact Ip.slash_notMem_text a (htext ▸ Ip.slash_mem_text net)

theorem agrees_addressText (a : Address) : Agrees a.text := by
  refine ⟨.host a, Ip.ipNetwork_addressText a, ?_⟩
  rw [fastCidrRange_addressText, Network.hi, Network.size_host]
  rfl

theorem agrees_text_iff (net : Network) : Agrees net.text ↔ ¬ Network.Misread net := by
  unfold Agrees
  rw [Ip.ipNetwork_text, fastCidrRange_text]
  constructor
  · rintro ⟨net', -, hfast⟩ hmisread
    rw [if_pos hmisread] at hfast
    cases hfast
  · intro hread
    exact ⟨net, rfl, if_neg hread⟩

/-- **The two readers agree on a stored entry unless it is a block whose zone has three
dots.** -/
theorem fast_agrees_iff {entry : Str} (h : Storable entry) : Agrees entry ↔ ¬ DottedZone entry := by
  rcases storable_cases h with ⟨a, rfl⟩ | ⟨net, rfl⟩
  · exact iff_of_true (agrees_addressText a) (not_dottedZone_addressText a)
  · rw [agrees_text_iff, dottedZone_text_iff]

/-- A list stores `10.0.0.0/8`. -/
theorem storable_ten : Storable "10.0.0.0/8".toList :=
  ⟨"10.1.2.3/8 # internal".toList, ['S'], by decide⟩

theorem fast_agrees_ten : Agrees "10.0.0.0/8".toList ↔ ¬ DottedZone "10.0.0.0/8".toList :=
  fast_agrees_iff storable_ten

/-- **A stored IPv6 block that the fast reader does not read.** -/
theorem fast_disagrees_zone :
    Storable "fe80::%a.b.c.d/64".toList ∧ ¬ Agrees "fe80::%a.b.c.d/64".toList := by
  refine ⟨⟨"fe80::%a.b.c.d/64".toList, ['S'], by decide⟩, ?_⟩
  rintro ⟨net, -, hfast⟩
  have hnone : fastCidrRange "fe80::%a.b.c.d/64".toList = none := by decide
  rw [hnone] at hfast
  cases hfast

end HuntProxy
