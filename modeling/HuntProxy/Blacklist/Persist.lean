import HuntProxy.Blacklist.Lookup
import Mathlib.Data.Nat.Bitwise

/-!
# The index that is rebuilt from the table

The table keeps the keys of the entries, and the loader tells from a key alone whether it is
a single address or a block: it reads the key as a range and takes a range of one address
for a single address. A single address that was cut out of a range has the key of a block,
which no query is spelled like, so that the rebuilt index does not find it. A block of IPv6
addresses whose zone has three dots is read as an IPv4 block and is lost as well when its
prefix is longer than 32.

## Main definitions

- `LoadedFrom` — an index holds exactly the given rows
- `ParsedEntry.Lost` — the entries that the loader does not read back as blocks

## Main results

- `fastCidrRange_text` — what the loader reads from the key of a block
- `mem_reload_iff` — what a lookup in the rebuilt index finds
- `reload_same_iff` — when rebuilding the index preserves every lookup
- `lone_range_lost` — a range of one address
-/

namespace HuntProxy

open Ip (Str Address Network Family)

/-! ### The fast reader -/

theorem fastOctet_toDigits {d : ℕ} (hd : d < 256) : fastOctet (Nat.toDigits 10 d) = some d := by
  have hdigits : (Nat.toDigits 10 d).all Char.isDigit = true := by
    refine List.all_eq_true.mpr fun c hc => ?_
    exact Nat.isDigit_of_mem_toDigits (by decide) (by decide) hc
  rw [fastOctet, if_pos ⟨Nat.toDigits_ne_nil, hdigits⟩,
    Numeral.read_toDigits (by decide) (by decide)]
  simp [Nat.le_of_lt_succ hd]

/-- Octets are put together by shifting. -/
theorem foldl_shiftLeft_or {l : List ℕ} (hl : ∀ d ∈ l, d < 256) (acc : ℕ) :
    l.foldl (fun val n => val <<< 8 ||| n) acc = l.foldl (fun acc d => acc * 256 + d) acc := by
  induction l generalizing acc with
  | nil => rfl
  | cons d l ih =>
    have hd : d < 2 ^ 8 := hl d List.mem_cons_self
    rw [List.foldl_cons, List.foldl_cons, ← Nat.shiftLeft_add_eq_or_of_lt hd,
      Nat.shiftLeft_eq, ih (fun d hd => hl d (List.mem_cons_of_mem _ hd))]

/-- The net mask that leaves `k` bits. -/
theorem mask_eq {k : ℕ} (hk : k ≤ 32) : (0xFFFFFFFF <<< k) &&& 0xFFFFFFFF = 2 ^ 32 - 2 ^ k := by
  have hall : ∀ k < 33, (0xFFFFFFFF <<< k) &&& 0xFFFFFFFF = 2 ^ 32 - 2 ^ k := by decide
  exact hall k (Nat.lt_succ_of_le hk)

/-- A number without low bits passes the mask. -/
theorem and_mask {k val : ℕ} (hk : k ≤ 32) (hval : val < 2 ^ 32) (hdvd : 2 ^ k ∣ val) :
    val &&& (2 ^ 32 - 2 ^ k) = val := by
  obtain ⟨q, rfl⟩ := hdvd
  have hpow : 2 ^ 32 = 2 ^ (32 - k) * 2 ^ k := by rw [← Nat.pow_add, Nat.sub_add_cancel hk]
  have hq : q < 2 ^ (32 - k) := by
    rw [hpow, Nat.mul_comm] at hval
    exact Nat.lt_of_mul_lt_mul_right hval
  have hmask : 2 ^ 32 - 2 ^ k = (2 ^ (32 - k) - 1) <<< k := by
    rw [Nat.shiftLeft_eq, Nat.sub_mul, ← hpow, Nat.one_mul]
  rw [hmask, Nat.mul_comm, ← Nat.shiftLeft_eq, ← Nat.shiftLeft_and_distrib,
    Nat.and_two_pow_sub_one_eq_mod, Nat.mod_eq_of_lt hq]

/-- The low bits of a number without low bits. -/
theorem or_low {k val : ℕ} (hdvd : 2 ^ k ∣ val) : val ||| (2 ^ k - 1) = val + (2 ^ k - 1) := by
  obtain ⟨q, rfl⟩ := hdvd
  have hlow : 2 ^ k - 1 < 2 ^ k := Nat.sub_lt (Nat.two_pow_pos k) Nat.one_pos
  rw [Nat.mul_comm, ← Nat.shiftLeft_eq, Nat.shiftLeft_add_eq_or_of_lt hlow]

theorem mapM_fastOctet_text4 (n : ℕ) :
    ((Ip.text4 n).splitOn '.').mapM fastOctet = some (Ip.places 256 4 n) := by
  rw [Ip.splitOn_text4]
  exact Ip.mapM_map_of fun d hd => fastOctet_toDigits (Ip.lt_of_mem_places (by decide) hd)

/-- The fast reader gives up on a text with a colon. -/
theorem mapM_fastOctet_of_colon {s : Str} (h : ':' ∈ s) : (s.splitOn '.').mapM fastOctet = none := by
  cases hread : (s.splitOn '.').mapM fastOctet with
  | none => rfl
  | some octets =>
    have hself : ['.'].intercalate (s.splitOn '.') = s := List.intercalate_splitOn '.'
    rw [← hself] at h
    rcases Ip.mem_intercalate h with hdot | ⟨piece, hpiece, hcolon⟩
    · cases hdot
    · obtain ⟨d, hd⟩ := Ip.exists_of_mapM hread hpiece
      unfold fastOctet at hd
      split at hd
      · next hdigits => exact absurd (List.all_eq_true.mp hdigits.2 ':' hcolon) (by decide)
      · cases hd

/-- The two parts of a key. -/
theorem partition_slash {a : Str} (ha : '/' ∉ a) (d : Str) :
    (a ++ '/' :: d).takeWhile (· ≠ '/') = a ∧ ((a ++ '/' :: d).dropWhile (· ≠ '/')).tail = d := by
  have hfront : ∀ c ∈ a, decide (c ≠ '/') = true := by
    intro c hc
    exact decide_eq_true (fun h => ha (h ▸ hc))
  constructor
  · rw [List.takeWhile_append_of_pos hfront]
    simp
  · rw [List.dropWhile_append_of_pos hfront]
    simp

theorem partition_noSlash {a : Str} (ha : '/' ∉ a) :
    a.takeWhile (· ≠ '/') = a ∧ (a.dropWhile (· ≠ '/')).tail = [] := by
  have hfront : ∀ c ∈ a, decide (c ≠ '/') = true := by
    intro c hc
    exact decide_eq_true (fun h => ha (h ▸ hc))
  constructor
  · exact List.takeWhile_eq_self_iff.mpr hfront
  · rw [List.dropWhile_eq_nil_iff.mpr hfront, List.tail_nil]

/-- What the fast reader computes from the octets of an IPv4 block. -/
theorem fastRange_eq (net : Network) (hfamily : net.address.family = .v4) :
    let val := (Ip.places 256 4 net.lo).foldl (fun val n => val <<< 8 ||| n) 0
    let mask := (0xFFFFFFFF <<< (32 - net.prefixlen)) &&& 0xFFFFFFFF
    (val &&& mask, val &&& mask ||| (0xFFFFFFFF - mask)) = (net.lo, net.hi) := by
  have hbits : net.address.family.bits = 32 := by rw [hfamily]; rfl
  have hrange : net.lo < 2 ^ 32 := hbits ▸ net.address.inRange
  have hdvd : 2 ^ (32 - net.prefixlen) ∣ net.lo := hbits ▸ net.aligned
  have hk : 32 - net.prefixlen ≤ 32 := Nat.sub_le _ _
  have hval : (Ip.places 256 4 net.lo).foldl (fun val n => val <<< 8 ||| n) 0 = net.lo := by
    rw [foldl_shiftLeft_or fun d hd => Ip.lt_of_mem_places (by decide) hd]
    have hplaces := Ip.valueOf_places 256 4 net.lo
    rw [Nat.mod_eq_of_lt (by simpa using hrange)] at hplaces
    exact hplaces
  have hsize : net.size = 2 ^ (32 - net.prefixlen) := by rw [Network.size, hbits]
  have hlow : 0xFFFFFFFF - (2 ^ 32 - 2 ^ (32 - net.prefixlen)) = 2 ^ (32 - net.prefixlen) - 1 := by
    have hle : 2 ^ (32 - net.prefixlen) ≤ 2 ^ 32 := Nat.pow_le_pow_right (by decide) hk
    have hpos : 0 < 2 ^ (32 - net.prefixlen) := Nat.two_pow_pos _
    omega
  dsimp only
  rw [hval, mask_eq hk, and_mask hk hrange hdvd, hlow, or_low hdvd, ← hsize]
  rfl

/-- The fast reader takes the prefix for one of an IPv4 block: three dots and a length that
only an IPv6 block can have. -/
def Network.Misread (net : Network) : Prop := net.address.text.count '.' = 3 ∧ 32 < net.prefixlen

instance (net : Network) : Decidable (Network.Misread net) := inferInstanceAs (Decidable (_ ∧ _))

theorem slowCidrRange_text (net : Network) : slowCidrRange net.text = some (net.lo, net.hi) := by
  rw [slowCidrRange, Ip.ipNetwork_text, Option.map_some]

/-- **What the loader reads from the key of a block.** -/
theorem fastCidrRange_text (net : Network) :
    fastCidrRange net.text = if Network.Misread net then none else some (net.lo, net.hi) := by
  obtain ⟨hip, hplen⟩ := partition_slash (Ip.slash_notMem_text net.address)
    (Nat.toDigits 10 net.prefixlen)
  have hlen : (if Nat.toDigits 10 net.prefixlen = [] then some 32
      else Text.intOfText (Nat.toDigits 10 net.prefixlen)) = some (net.prefixlen : ℤ) := by
    rw [if_neg Nat.toDigits_ne_nil, Text.intOfText_toDigits]
  unfold fastCidrRange
  dsimp only
  rw [Network.text, hip, hplen, hlen, ← Network.text]
  by_cases hdots : net.address.text.count '.' = 3
  · rw [if_neg (not_not.mpr hdots)]
    dsimp only
    by_cases hlong : 32 < net.prefixlen
    · rw [if_pos (.inr (by omega)), if_pos ⟨hdots, hlong⟩]
    · rw [if_neg (by omega), if_neg (fun h => hlong h.2)]
      cases hfamily : net.address.family with
      | v4 =>
        have htext : net.address.text = Ip.text4 net.lo := by rw [Address.text, hfamily]; rfl
        have hfast := fastRange_eq net hfamily
        rw [htext, mapM_fastOctet_text4]
        exact congrArg some hfast
      | v6 =>
        have hcolon : ':' ∈ net.address.text := by
          rw [Address.text, hfamily]
          exact List.mem_append_left _ (Ip.colon_mem_text6 _)
        rw [mapM_fastOctet_of_colon hcolon]
        exact slowCidrRange_text net
  · rw [if_pos hdots, if_neg (fun h => hdots h.1)]
    exact slowCidrRange_text net

/-- What the loader reads from the key of a single address. -/
theorem fastCidrRange_addressText (a : Address) : fastCidrRange a.text = some (a.value, a.value) := by
  have hslow : slowCidrRange a.text = some (a.value, a.value) := by
    rw [slowCidrRange, Ip.ipNetwork_addressText, Option.map_some, Network.hi, Network.size_host]
    rfl
  obtain ⟨hip, hplen⟩ := partition_noSlash (Ip.slash_notMem_text a)
  unfold fastCidrRange
  dsimp only
  rw [hip, hplen, if_pos rfl]
  by_cases hdots : a.text.count '.' = 3
  · rw [if_neg (not_not.mpr hdots)]
    dsimp only
    rw [if_neg (by decide)]
    cases hfamily : a.family with
    | v4 =>
      have htext : a.text = Ip.text4 a.value := by rw [Address.text, hfamily]
      have hbits : (Network.host a).prefixlen = 32 := congrArg Family.bits hfamily
      have hfast := fastRange_eq (.host a) hfamily
      have hhi : (Network.host a).hi = a.value := by rw [Network.hi, Network.size_host]; rfl
      rw [htext, mapM_fastOctet_text4]
      rw [hbits, hhi] at hfast
      exact congrArg some hfast
    | v6 =>
      have hcolon : ':' ∈ a.text := by
        rw [Address.text, hfamily]
        exact List.mem_append_left _ (Ip.colon_mem_text6 _)
      rw [mapM_fastOctet_of_colon hcolon]
      exact hslow
  · rw [if_pos hdots]
    exact hslow

/-! ### The rebuilt index -/

/-- The table has a row with the key and the source. -/
def HasRow (rows : List IpRow) (key s : Str) : Prop :=
  ∃ row ∈ rows, row.entry = key ∧ row.sourceId = s

/-- The index holds exactly the given rows, each key as the loader reads it. -/
structure LoadedFrom (ix : IpIndex) (rows : List IpRow) : Prop where
  entries : ∀ key s, s ∈ sourcesOf ((ix.entries.get? key).getD []) ↔ HasRow rows key s
  known : ∀ key, ix.entries.get? key = none ↔ ∀ row ∈ rows, row.entry ≠ key
  exact_ : ∀ key, key ∈ ix.exact_ ↔
    (∃ row ∈ rows, row.entry = key) ∧ ∀ lo hi, fastCidrRange key = some (lo, hi) → lo = hi
  networks : ∀ lo hi key, (lo, hi, key) ∈ ix.networks ↔
    (∃ row ∈ rows, row.entry = key) ∧ fastCidrRange key = some (lo, hi) ∧ lo ≠ hi

/-- A row enters the metas as an entry of a list does. -/
theorem addRow_entries (ix : IpIndex) (row : IpRow) :
    (ix.addRow row).entries =
      (ix.addIpblEntry row.entry ⟨row.sourceId, row.sourceName, row.reason⟩).1.entries := by
  unfold IpIndex.addRow IpIndex.addIpblEntry
  dsimp only
  cases ix.entries.get? row.entry with
  | none =>
    dsimp only
    split
    · rfl
    · split <;> rfl
  | some existing =>
    dsimp only
    split <;> rfl

/-- A row whose text is new goes among the addresses or among the blocks, by its range. -/
theorem mem_addRow (ix : IpIndex) (row : IpRow) :
    (∀ key, key ∈ (ix.addRow row).exact_ ↔ key ∈ ix.exact_ ∨
      (key = row.entry ∧ ix.entries.get? row.entry = none ∧
        ∀ lo hi, fastCidrRange key = some (lo, hi) → lo = hi)) ∧
    (∀ lo hi key, (lo, hi, key) ∈ (ix.addRow row).networks ↔ (lo, hi, key) ∈ ix.networks ∨
      (key = row.entry ∧ ix.entries.get? row.entry = none ∧
        fastCidrRange key = some (lo, hi) ∧ lo ≠ hi)) := by
  unfold IpIndex.addRow
  dsimp only
  cases ix.entries.get? row.entry with
  | none =>
    dsimp only
    cases hrange : fastCidrRange row.entry with
    | none => constructor <;> grind
    | some range =>
      dsimp only
      split
      · constructor <;> grind
      · constructor <;> grind
  | some existing =>
    dsimp only
    split <;> simp

theorem addIpblEntry_known (ix : IpIndex) (key : Str) (m : Meta) (key' : Str) :
    (ix.addIpblEntry key m).1.entries.get? key' = none ↔
      ix.entries.get? key' = none ∧ key' ≠ key := by
  unfold IpIndex.addIpblEntry
  by_cases hkey : key' = key
  · subst hkey
    cases hget : ix.entries.get? key' with
    | none => simp
    | some existing =>
      dsimp only
      split <;> simp [hget]
  · cases ix.entries.get? key with
    | none => simp [hkey]
    | some existing =>
      dsimp only
      split <;> simp [hkey]

theorem LoadedFrom.empty : LoadedFrom .empty [] := by
  constructor <;> simp [IpIndex.empty, sourcesOf, HasRow]

/-- A row is added to what is loaded. -/
theorem LoadedFrom.addRow {ix : IpIndex} {rows : List IpRow} (h : LoadedFrom ix rows) (row : IpRow) :
    LoadedFrom (ix.addRow row) (rows ++ [row]) where
  entries key s := by
    rw [addRow_entries, sourcesOf_addIpblEntry, h.entries]
    simp only [HasRow, List.mem_append, List.mem_singleton]
    grind
  known key := by
    rw [addRow_entries, addIpblEntry_known, h.known]
    simp only [List.mem_append, List.mem_singleton]
    grind
  exact_ key := by
    rw [(mem_addRow _ _).1, h.exact_, h.known]
    simp only [List.mem_append, List.mem_singleton]
    grind
  networks lo hi key := by
    rw [(mem_addRow _ _).2, h.networks, h.known]
    simp only [List.mem_append, List.mem_singleton]
    grind

theorem LoadedFrom.foldl {ix : IpIndex} {rows : List IpRow} (h : LoadedFrom ix rows)
    (more : List IpRow) : LoadedFrom (more.foldl IpIndex.addRow ix) (rows ++ more) := by
  induction more generalizing ix rows with
  | nil => simpa using h
  | cons row more ih =>
    have hstep := ih (h.addRow row)
    rwa [List.append_assoc, List.singleton_append] at hstep

theorem loadedFrom_reload (s : IpStore) : LoadedFrom s.loadIpBlacklistFromDb.index s.rows :=
  LoadedFrom.empty.foldl s.rows

/-- A lookup finds the row. -/
def IpRow.Found (row : IpRow) (ip : Str) (a : Address) : Prop :=
  (row.entry = ip ∧ ∀ lo hi, fastCidrRange ip = some (lo, hi) → lo = hi) ∨
    ∃ lo hi, fastCidrRange row.entry = some (lo, hi) ∧ lo ≠ hi ∧ lo ≤ a.value ∧ a.value ≤ hi

theorem LoadedFrom.mem_sourcesOf_matches {ix : IpIndex} {rows : List IpRow} (h : LoadedFrom ix rows)
    {ip : Str} {a : Address} (ha : Ip.ipAddress ip = some a) (s : Str) :
    s ∈ sourcesOf (ix.matches_ ip) ↔ ∃ row ∈ rows, row.sourceId = s ∧ row.Found ip a := by
  rw [mem_sourcesOf_matches_iff ha, h.exact_, h.entries]
  constructor
  · rintro (⟨⟨-, hpoint⟩, row, hrow, hkey, hs⟩ | ⟨⟨lo, hi, key⟩, hb, hholds, hmem⟩)
    · exact ⟨row, hrow, hs, .inl ⟨hkey, hpoint⟩⟩
    · obtain ⟨-, hrange, hne⟩ := (h.networks lo hi key).mp hb
      obtain ⟨row, hrow, rfl, hs⟩ := (h.entries key s).mp hmem
      exact ⟨row, hrow, hs, .inr ⟨lo, hi, hrange, hne, hholds⟩⟩
  · rintro ⟨row, hrow, hs, ⟨hkey, hpoint⟩ | ⟨lo, hi, hrange, hne, hholds⟩⟩
    · exact .inl ⟨⟨⟨row, hrow, hkey⟩, hpoint⟩, row, hrow, hkey, hs⟩
    · refine .inr ⟨(lo, hi, row.entry), ?_, hholds, ?_⟩
      · exact (h.networks _ _ _).mpr ⟨⟨row, hrow, rfl⟩, hrange, hne⟩
      · exact (h.entries _ _).mpr ⟨row, hrow, rfl, hs⟩

/-! ### The rows of the lists -/

theorem hasRow_insertIpRow (rows : List IpRow) (row : IpRow) (key s : Str) :
    HasRow (insertIpRow rows row) key s ↔ HasRow rows key s ∨ row.entry = key ∧ row.sourceId = s := by
  simp only [HasRow, insertIpRow, List.mem_append, List.mem_filter, List.mem_singleton,
    decide_eq_true_eq]
  grind

theorem hasRow_deleteSourceRows (rows : List IpRow) (sourceId key s : Str) :
    HasRow (deleteSourceRows rows sourceId) key s ↔ HasRow rows key s ∧ s ≠ sourceId := by
  simp only [HasRow, deleteSourceRows, List.mem_filter, decide_eq_true_eq]
  grind

theorem hasRow_foldl_insert (sourceId sourceName : Str) (entries : List (Str × Str))
    (rows : List IpRow) (key s : Str) :
    HasRow (entries.foldl (fun rows e => insertIpRow rows ⟨e.1, sourceId, sourceName, e.2⟩) rows)
        key s ↔
      HasRow rows key s ∨ (∃ e ∈ entries, e.1 = key) ∧ sourceId = s := by
  induction entries generalizing rows with
  | nil => simp
  | cons e entries ih =>
    rw [List.foldl_cons, ih, hasRow_insertIpRow]
    simp only [List.mem_cons]
    grind

/-- Reading a list for good replaces the rows of its source, unless the list is empty. -/
theorem hasRow_parseIpBlacklist (s : IpStore) (l : ListText) (hpersist : l.persist = true)
    (key source : Str) :
    HasRow (s.parseIpBlacklist l.text l.sourceId l.sourceName true l.persist).1.rows key source ↔
      if l.entries = [] then HasRow s.rows key source
      else HasRow s.rows key source ∧ source ≠ l.sourceId ∨
        ∃ p, (source, p) ∈ l.entries ∧ p.key = key := by
  have hempty : l.entries = [] ↔ parsedEntries l.text l.sourceName = [] := List.map_eq_nil_iff
  rw [IpStore.parseIpBlacklist]
  dsimp only
  by_cases hnone : l.entries = []
  · rw [if_pos hnone, if_neg (fun h => h.2 (hempty.mp hnone))]
  · rw [if_neg hnone, if_pos ⟨hpersist, fun h => hnone (hempty.mpr h)⟩, replaceIpBlacklistSource,
      hasRow_foldl_insert, hasRow_deleteSourceRows]
    simp only [ListText.entries, List.mem_map, Prod.mk.injEq]
    grind

/-- **The rows after lists have been read for good.** Those of the sources whose lists are
not empty are replaced. -/
theorem hasRow_readLists (s : IpStore) (ls : List ListText) (hpersist : ∀ l ∈ ls, l.persist = true)
    (hsources : (ls.map ListText.sourceId).Nodup) (key source : Str) :
    HasRow (s.readLists ls).rows key source ↔
      (HasRow s.rows key source ∧ ∀ l ∈ ls, l.entries ≠ [] → source ≠ l.sourceId) ∨
        ∃ p, (source, p) ∈ ls.flatMap ListText.entries ∧ p.key = key := by
  induction ls generalizing s with
  | nil => simp [IpStore.readLists]
  | cons l ls ih =>
    obtain ⟨hnot, hnodup⟩ := List.nodup_cons.mp hsources
    have hone := hasRow_parseIpBlacklist s l (hpersist l List.mem_cons_self) key source
    have hrest := ih (s.parseIpBlacklist l.text l.sourceId l.sourceName true l.persist).1
      (fun l' hl' => hpersist l' (List.mem_cons_of_mem _ hl')) hnodup
    have hother : ∀ l' ∈ ls, l'.sourceId ≠ l.sourceId :=
      fun l' hl' heq => hnot (heq ▸ List.mem_map_of_mem hl')
    have hsource : ∀ p, (source, p) ∈ l.entries → source = l.sourceId :=
      fun p hp => ListText.fst_of_mem_entries hp
    change HasRow (IpStore.readLists _ ls).rows key source ↔ _
    rw [hrest, hone, List.flatMap_cons]
    simp only [List.mem_append, List.forall_mem_cons]
    by_cases hempty : l.entries = []
    · simp [hempty]
    · rw [if_neg hempty]
      grind

/-! ### What is lost -/

namespace ParsedEntry

/-- The loader does not read the entry back as a block: it holds one address of a range, or
its key is misread. -/
def Lost (p : ParsedEntry) : Prop :=
  p.isHost = false ∧ (p.net.isHost = true ∨ Network.Misread p.net)

instance (p : ParsedEntry) : Decidable p.Lost := inferInstanceAs (Decidable (_ ∧ _))

/-- The entry is found by a lookup of `ip`, a text of the address `a`, in the rebuilt index. -/
def FoundAgain (p : ParsedEntry) (ip : Str) (a : Address) : Prop :=
  (p.isHost = true ∧ p.key = ip) ∨ (p.isHost = false ∧ ¬ p.Lost ∧ p.net.Holds a.value)

theorem FoundAgain.found {p : ParsedEntry} {ip : Str} {a : Address} (h : p.FoundAgain ip a) :
    p.Found ip a :=
  h.imp_right fun h => ⟨h.1, h.2.2⟩

/-- What becomes of an entry when its row is read back. -/
theorem found_row_iff (p : ParsedEntry) {ip : Str} {a : Address} (ha : Ip.ipAddress ip = some a)
    {row : IpRow} (hrow : row.entry = p.key) : row.Found ip a ↔ p.FoundAgain ip a := by
  have hkey := p.key_eq
  unfold IpRow.Found FoundAgain
  rw [hrow]
  cases hhost : p.isHost with
  | true =>
    rw [hhost, if_pos rfl] at hkey
    have hrange := fastCidrRange_addressText p.net.address
    rw [← hkey] at hrange
    grind
  | false =>
    rw [hhost, if_neg Bool.false_ne_true] at hkey
    have hrange := fastCidrRange_text p.net
    have hone := p.net.lo_eq_hi_iff
    have hne : p.key ≠ ip := by
      intro heq
      rw [Ip.ipAddress, if_pos (heq ▸ hkey ▸ Ip.slash_mem_text p.net)] at ha
      cases ha
    rw [← hkey] at hrange
    simp only [Lost, Network.Holds, hhost, hne, hrange]
    grind

end ParsedEntry

/-- **A lookup in the rebuilt index.** -/
theorem mem_reload_iff {s : IpStore} {ls : List ListText}
    (h : ∀ key source, HasRow s.rows key source ↔
      ∃ p, (source, p) ∈ ls.flatMap ListText.entries ∧ p.key = key) {ip : Str} {a : Address} (ha : Ip.ipAddress ip = some a) (source : Str) :
    source ∈ sourcesOf (s.loadIpBlacklistFromDb.index.isIpBlacklisted ip).2 ↔
      ∃ p, (source, p) ∈ ls.flatMap ListText.entries ∧ p.FoundAgain ip a := by
  rw [mem_sourcesOf_lookup ha, (loadedFrom_reload s).mem_sourcesOf_matches ha]
  constructor
  · rintro ⟨row, hrow, hsource, hfound⟩
    obtain ⟨p, hp, hkey⟩ := (h row.entry source).mp ⟨row, hrow, rfl, hsource⟩
    exact ⟨p, hp, (p.found_row_iff ha hkey.symm).mp hfound⟩
  · rintro ⟨p, hp, hfound⟩
    obtain ⟨row, hrow, hkey, hsource⟩ := (h p.key source).mpr ⟨p, hp, rfl⟩
    exact ⟨row, hrow, hsource, (p.found_row_iff ha hkey).mpr hfound⟩

/-- Rebuilding the index from the table changes no lookup of an IP address. -/
def ReloadSame (s : IpStore) : Prop :=
  ∀ ip a, Ip.ipAddress ip = some a → ∀ source,
    source ∈ sourcesOf (s.index.isIpBlacklisted ip).2 ↔
      source ∈ sourcesOf (s.loadIpBlacklistFromDb.index.isIpBlacklisted ip).2

/-- Whatever is lost is held by another block of the list, which is not. -/
def ListText.Covered (l : ListText) : Prop :=
  ∀ p ∈ parsedEntries l.text l.sourceName, p.Lost → ∀ n, p.net.Holds n →
    ∃ p' ∈ parsedEntries l.text l.sourceName, p'.isHost = false ∧ ¬ p'.Lost ∧ p'.net.Holds n

theorem mem_entries_iff {ls : List ListText} {s : Str} {p : ParsedEntry} :
    (s, p) ∈ ls.flatMap ListText.entries ↔
      ∃ l ∈ ls, l.sourceId = s ∧ p ∈ parsedEntries l.text l.sourceName := by
  simp only [List.mem_flatMap, ListText.entries, List.mem_map, Prod.mk.injEq]
  grind

theorem eq_of_sourceId {ls : List ListText} (h : (ls.map ListText.sourceId).Nodup) {l l' : ListText}
    (hl : l ∈ ls) (hl' : l' ∈ ls) (heq : l.sourceId = l'.sourceId) : l = l' :=
  List.inj_on_of_nodup_map h hl hl' heq

/-- When the index and the table have the entries of the same lists, rebuilding the index
preserves every lookup just when nothing lost goes uncovered. -/
theorem reloadSame_iff_covered {s : IpStore} {ls : List ListText}
    (hsources : (ls.map ListText.sourceId).Nodup)
    (hindex : IndexOf s.index (ls.flatMap ListText.entries))
    (hrows : ∀ key source, HasRow s.rows key source ↔
      ∃ p, (source, p) ∈ ls.flatMap ListText.entries ∧ p.key = key) :
    ReloadSame s ↔ ∀ l ∈ ls, l.Covered := by
  have hlookup : ∀ {ip : Str} {a : Address}, Ip.ipAddress ip = some a → ∀ source,
      source ∈ sourcesOf (s.index.isIpBlacklisted ip).2 ↔
        ∃ p, (source, p) ∈ ls.flatMap ListText.entries ∧ p.Found ip a := by
    intro ip a ha source
    rw [mem_sourcesOf_lookup ha, hindex.mem_sourcesOf_matches ha]
  constructor
  · intro h l hl p hp hlost n hn
    have hlt : n < 2 ^ 128 := by
      refine Nat.lt_of_le_of_lt hn.2 (Nat.lt_of_lt_of_le p.net.hi_lt ?_)
      cases p.net.address.family <;> decide
    -- a spelling that no key has leaves only the blocks
    obtain ⟨ip, ha, hother⟩ := Ip.exists_other_text hlt
    have hfound := (hlookup ha l.sourceId).mpr
      ⟨p, mem_entries_iff.mpr ⟨l, hl, rfl, hp⟩, .inr ⟨hlost.1, hn⟩⟩
    obtain ⟨p', hp', hagain⟩ := (mem_reload_iff hrows ha l.sourceId).mp ((h ip _ ha _).mp hfound)
    obtain ⟨l', hl', heq, hp'⟩ := mem_entries_iff.mp hp'
    rw [eq_of_sourceId hsources hl' hl heq] at hp'
    rcases hagain with ⟨hhost, hkey⟩ | hblock
    · have hspelled := p'.key_eq
      rw [hhost, if_pos rfl, hkey] at hspelled
      exact absurd hspelled (hother p'.net.address)
    · exact ⟨p', hp', hblock⟩
  · intro h ip a ha source
    rw [hlookup ha, mem_reload_iff hrows ha]
    constructor
    · rintro ⟨p, hp, hhost | ⟨hhost, hholds⟩⟩
      · exact ⟨p, hp, .inl hhost⟩
      · by_cases hlost : p.Lost
        · obtain ⟨l, hl, hsource, hmem⟩ := mem_entries_iff.mp hp
          obtain ⟨p', hp', hblock⟩ := h l hl p hmem hlost a.value hholds
          exact ⟨p', mem_entries_iff.mpr ⟨l, hl, hsource, hp'⟩, .inr hblock⟩
        · exact ⟨p, hp, .inr ⟨hhost, hlost, hholds⟩⟩
    · rintro ⟨p, hp, hagain⟩
      exact ⟨p, hp, hagain.found⟩

/-- **Rebuilding the index preserves every lookup just when nothing lost goes uncovered.** -/
theorem reload_same_iff (ls : List ListText) (hpersist : ∀ l ∈ ls, l.persist = true)
    (hsources : (ls.map ListText.sourceId).Nodup) :
    ReloadSame (IpStore.readLists ⟨.empty, []⟩ ls) ↔ ∀ l ∈ ls, l.Covered := by
  have hindex : IndexOf (IpStore.readLists ⟨.empty, []⟩ ls).index (ls.flatMap ListText.entries) :=
    IndexOf.readLists (s := ⟨.empty, []⟩) .empty ls
  refine reloadSame_iff_covered hsources hindex (fun key source => ?_)
  rw [hasRow_readLists ⟨.empty, []⟩ ls hpersist hsources]
  simp [HasRow]

/-- A list that holds `1.2.3.0/24` only. -/
def wholeBlock : ListText :=
  ⟨['s'], ['S'], ['1', '.', '2', '.', '3', '.', '0', '/', '2', '4'], true⟩

theorem reload_same_wholeBlock : ReloadSame (IpStore.readLists ⟨.empty, []⟩ [wholeBlock]) := by
  refine (reload_same_iff [wholeBlock] (by simp [wholeBlock]) (by simp)).mpr ?_
  intro l hl
  rw [List.mem_singleton.mp hl]
  have hnone : ∀ p ∈ parsedEntries wholeBlock.text wholeBlock.sourceName, ¬ p.Lost := by decide
  exact fun p hp hlost => absurd hlost (hnone p hp)

/-- A list that holds the range `1.2.3.4-1.2.3.4` only. -/
def loneRange : ListText :=
  ⟨['r'], ['R'], ['1', '.', '2', '.', '3', '.', '4', '-', '1', '.', '2', '.', '3', '.', '4'], true⟩

/-- **A range of one address is not found after a restart.** -/
theorem lone_range_lost : ¬ ReloadSame (IpStore.readLists ⟨.empty, []⟩ [loneRange]) := by
  intro h
  have hsame := h ['1', '.', '2', '.', '3', '.', '4'] ⟨.v4, 16909060, none, by decide, fun _ => rfl⟩
    (by decide) ['r']
  exact absurd (hsame.mp (by decide)) (by decide)

end HuntProxy
