import HuntProxy.Blacklist.Index

/-!
# What a lookup finds

`IndexOf` says which entries of which sources an index holds. Every list that is read adds
its own, so that a lookup can be answered from the lists: it finds the sources with a
single address that is spelled like the query, and those with a block that holds the
query's number, whichever family the block is of.

A source lists an address when it has an item of the same family that contains it. The two
agree unless a block of the other family holds the number, or a single address is asked for
in another spelling than the canonical one.

## Main definitions

- `IndexOf` — an index holds exactly the given entries
- `ListText`, `IpStore.readLists` — lists that are read one after the other
- `Item`, `itemOf` — what a line of a list says
- `Lists`, `LookupExact` — the sources that list an address, and an exact lookup

## Main results

- `IndexOf.addParsed`, `IndexOf.readLists` — reading an entry, and lists
- `mem_lookup_iff` — what a lookup finds
- `lookup_exact_iff` — when the lookup is exact
- `block_of_other_family_reported` — a block of the other family
-/

namespace HuntProxy

open Ip (Str Address Network Family)

/-- The sources of some metas. -/
def sourcesOf (ms : List Meta) : List Str := ms.map Meta.sourceId

namespace ParsedEntry

/-- The entry is found by a lookup of `ip`, which is a text of the address `a`. -/
def Found (p : ParsedEntry) (ip : Str) (a : Address) : Prop :=
  (p.isHost = true ∧ p.key = ip) ∨ (p.isHost = false ∧ p.net.Holds a.value)

/-- The key of an entry tells what it was. -/
theorem eq_of_key {p p' : ParsedEntry} (h : p.key = p'.key) :
    p.isHost = p'.isHost ∧ (p.isHost = false → p.net = p'.net) := by
  have hkey := p.key_eq
  have hkey' := p'.key_eq
  rw [h] at hkey
  cases hhost : p.isHost with
  | true =>
    cases hhost' : p'.isHost with
    | true => exact ⟨rfl, nofun⟩
    | false =>
      rw [hhost, if_pos rfl] at hkey
      rw [hhost', if_neg Bool.false_ne_true, hkey] at hkey'
      exact absurd (hkey' ▸ Ip.slash_mem_text p'.net) (Ip.slash_notMem_text p.net.address)
  | false =>
    rw [hhost, if_neg Bool.false_ne_true] at hkey
    cases hhost' : p'.isHost with
    | true =>
      rw [hhost', if_pos rfl, hkey] at hkey'
      exact absurd (hkey' ▸ Ip.slash_mem_text p.net) (Ip.slash_notMem_text p'.net.address)
    | false =>
      rw [hhost', if_neg Bool.false_ne_true, hkey] at hkey'
      exact ⟨rfl, fun _ => Network.text_injective hkey'⟩

end ParsedEntry

/-! ### The entries of an index -/

/-- The index holds exactly the entries in `seen`, each under its source. -/
structure IndexOf (ix : IpIndex) (seen : List (Str × ParsedEntry)) : Prop where
  entries : ∀ key s, s ∈ sourcesOf ((ix.entries.get? key).getD []) ↔
    ∃ p, (s, p) ∈ seen ∧ p.key = key
  exact_ : ∀ key, key ∈ ix.exact_ ↔ ∃ s p, (s, p) ∈ seen ∧ p.isHost = true ∧ p.key = key
  networks : ∀ lo hi key, (lo, hi, key) ∈ ix.networks ↔
    ∃ s p, (s, p) ∈ seen ∧ p.isHost = false ∧ p.net.lo = lo ∧ p.net.hi = hi ∧ p.key = key

namespace IndexOf

theorem empty : IndexOf .empty [] := by
  constructor <;> simp [IpIndex.empty, sourcesOf]

end IndexOf

/-- Whether an entry is new is told by the sources that have it. -/
theorem any_source_iff (ms : List Meta) (s : Str) :
    ms.any (fun m => m.sourceId = s) = true ↔ s ∈ sourcesOf ms := by
  simp [sourcesOf]

theorem sourcesOf_addIpblEntry (ix : IpIndex) (key : Str) (m : Meta) (key' s : Str) :
    s ∈ sourcesOf (((ix.addIpblEntry key m).1.entries.get? key').getD []) ↔
      s ∈ sourcesOf ((ix.entries.get? key').getD []) ∨ key' = key ∧ s = m.sourceId := by
  unfold IpIndex.addIpblEntry
  by_cases hkey : key' = key
  · subst hkey
    cases hget : ix.entries.get? key' with
    | none => simp [sourcesOf]
    | some existing =>
      dsimp only
      split
      · next hany =>
        have hmem : m.sourceId ∈ sourcesOf existing := (any_source_iff existing m.sourceId).mp hany
        simp only [hget, Option.getD_some, true_and]
        constructor
        · exact .inl
        · rintro (hs | rfl)
          · exact hs
          · exact hmem
      · simp [sourcesOf]
  · cases ix.entries.get? key with
    | none => simp [hkey]
    | some existing =>
      dsimp only
      split <;> simp [hkey]

theorem addIpblEntry_new_iff (ix : IpIndex) (key : Str) (m : Meta) :
    (ix.addIpblEntry key m).2 = true ↔ m.sourceId ∉ sourcesOf ((ix.entries.get? key).getD []) := by
  unfold IpIndex.addIpblEntry
  cases ix.entries.get? key with
  | none => simp [sourcesOf]
  | some existing =>
    rw [Option.getD_some, ← any_source_iff]
    dsimp only
    split
    · next hany => simp [hany]
    · next hany => simp [hany]

@[simp] theorem addIpblEntry_exact (ix : IpIndex) (key : Str) (m : Meta) :
    (ix.addIpblEntry key m).1.exact_ = ix.exact_ := by
  unfold IpIndex.addIpblEntry
  split
  · rfl
  · split <;> rfl

@[simp] theorem addIpblEntry_networks (ix : IpIndex) (key : Str) (m : Meta) :
    (ix.addIpblEntry key m).1.networks = ix.networks := by
  unfold IpIndex.addIpblEntry
  split
  · rfl
  · split <;> rfl

@[simp] theorem addParsed_entries (ix : IpIndex) (sourceId sourceName : Str) (p : ParsedEntry) :
    (ix.addParsed sourceId sourceName p).1.entries =
      (ix.addIpblEntry p.key ⟨sourceId, sourceName, p.reason⟩).1.entries := by
  unfold IpIndex.addParsed
  dsimp only
  split
  · split <;> rfl
  · rfl

/-- Only an entry that is new to its source is put among the addresses or the blocks. -/
theorem addParsed_eq (ix : IpIndex) (sourceId sourceName : Str) (p : ParsedEntry) :
    (ix.addParsed sourceId sourceName p).1 =
      let ix' := (ix.addIpblEntry p.key ⟨sourceId, sourceName, p.reason⟩).1
      if sourceId ∈ sourcesOf ((ix.entries.get? p.key).getD []) then ix'
      else if p.isHost then { ix' with exact_ := p.key :: ix'.exact_ }
      else { ix' with networks := ix'.networks ++ [(p.net.lo, p.net.hi, p.key)] } := by
  have hnew := addIpblEntry_new_iff ix p.key ⟨sourceId, sourceName, p.reason⟩
  unfold IpIndex.addParsed
  dsimp only at hnew ⊢
  split
  · next h =>
    rw [if_neg (hnew.mp h)]
    split <;> rfl
  · next h => rw [if_pos (Decidable.not_not.mp (mt hnew.mpr h))]

theorem mem_addParsed_exact (ix : IpIndex) (sourceId sourceName : Str) (p : ParsedEntry) (key : Str) :
    key ∈ (ix.addParsed sourceId sourceName p).1.exact_ ↔
      key ∈ ix.exact_ ∨ p.isHost = true ∧ key = p.key ∧
        sourceId ∉ sourcesOf ((ix.entries.get? p.key).getD []) := by
  rw [addParsed_eq]
  dsimp only
  split
  · next h => simp [h]
  · next h => split <;> simp [*, or_comm]

theorem mem_addParsed_networks (ix : IpIndex) (sourceId sourceName : Str) (p : ParsedEntry)
    (b : ℕ × ℕ × Str) :
    b ∈ (ix.addParsed sourceId sourceName p).1.networks ↔
      b ∈ ix.networks ∨ p.isHost = false ∧ b = (p.net.lo, p.net.hi, p.key) ∧
        sourceId ∉ sourcesOf ((ix.entries.get? p.key).getD []) := by
  rw [addParsed_eq]
  dsimp only
  split
  · next h => simp [h]
  · next h => split <;> simp [*]

/-- **An entry is added to an index.** When its source has the key already, the earlier entry
under this key was of the same kind and the same block. -/
theorem IndexOf.addParsed {ix : IpIndex} {seen : List (Str × ParsedEntry)} (h : IndexOf ix seen)
    (sourceId sourceName : Str) (p : ParsedEntry) :
    IndexOf (ix.addParsed sourceId sourceName p).1 (seen ++ [(sourceId, p)]) where
  entries key s := by
    rw [addParsed_entries, sourcesOf_addIpblEntry, h.entries]
    constructor
    · rintro (⟨p', hp', hkey⟩ | ⟨hkey, rfl⟩)
      · exact ⟨p', List.mem_append_left _ hp', hkey⟩
      · exact ⟨p, by simp, hkey.symm⟩
    · rintro ⟨p', hp', hkey⟩
      rcases List.mem_append.mp hp' with hp' | hp'
      · exact .inl ⟨p', hp', hkey⟩
      · cases List.mem_singleton.mp hp'
        exact .inr ⟨hkey.symm, rfl⟩
  exact_ key := by
    rw [mem_addParsed_exact, h.exact_, h.entries]
    constructor
    · rintro (⟨s, p', hp', hhost, hkey⟩ | ⟨hhost, hkey, -⟩)
      · exact ⟨s, p', List.mem_append_left _ hp', hhost, hkey⟩
      · exact ⟨sourceId, p, by simp, hhost, hkey.symm⟩
    · rintro ⟨s, p', hp', hhost, hkey⟩
      rcases List.mem_append.mp hp' with hp' | hp'
      · exact .inl ⟨s, p', hp', hhost, hkey⟩
      · cases List.mem_singleton.mp hp'
        by_cases hold : ∃ p₀, (sourceId, p₀) ∈ seen ∧ p₀.key = p.key
        · obtain ⟨p₀, hp₀, hkey₀⟩ := hold
          exact .inl ⟨sourceId, p₀, hp₀, (ParsedEntry.eq_of_key hkey₀).1.trans hhost, hkey₀.trans hkey⟩
        · exact .inr ⟨hhost, hkey.symm, hold⟩
  networks lo hi key := by
    rw [mem_addParsed_networks, h.networks, h.entries]
    constructor
    · rintro (⟨s, p', hp', hrest⟩ | ⟨hhost, hb, -⟩)
      · exact ⟨s, p', List.mem_append_left _ hp', hrest⟩
      · cases hb
        exact ⟨sourceId, p, by simp, hhost, rfl, rfl, rfl⟩
    · rintro ⟨s, p', hp', hhost, hlo, hhi, hkey⟩
      rcases List.mem_append.mp hp' with hp' | hp'
      · exact .inl ⟨s, p', hp', hhost, hlo, hhi, hkey⟩
      · cases List.mem_singleton.mp hp'
        by_cases hold : ∃ p₀, (sourceId, p₀) ∈ seen ∧ p₀.key = p.key
        · obtain ⟨p₀, hp₀, hkey₀⟩ := hold
          obtain ⟨hsame, hnet⟩ := ParsedEntry.eq_of_key hkey₀
          have hhost₀ : p₀.isHost = false := hsame.trans hhost
          rw [← hnet hhost₀] at hlo hhi
          exact .inl ⟨sourceId, p₀, hp₀, hhost₀, hlo, hhi, hkey₀.trans hkey⟩
        · rw [← hlo, ← hhi, ← hkey]
          exact .inr ⟨hhost, rfl, hold⟩

/-! ### The lookup -/

theorem ipAddress_nil : Ip.ipAddress [] = none := by decide

theorem mem_sourcesOf_matches_iff {ix : IpIndex} {ip : Str} {a : Address}
    (ha : Ip.ipAddress ip = some a) {s : Str} :
    s ∈ sourcesOf (ix.matches_ ip) ↔
      (ip ∈ ix.exact_ ∧ s ∈ sourcesOf ((ix.entries.get? ip).getD [])) ∨
        ∃ b ∈ ix.networks, (b.1 ≤ a.value ∧ a.value ≤ b.2.1) ∧
          s ∈ sourcesOf ((ix.entries.get? b.2.2).getD []) := by
  simp only [IpIndex.matches_, ha, sourcesOf, List.map_append, List.mem_append, List.map_flatMap,
    List.mem_flatMap, List.mem_filter, decide_eq_true_eq, and_assoc]
  by_cases hexact : ip ∈ ix.exact_ <;> simp [hexact]

/-- What a lookup finds, before duplicates are dropped. -/
theorem IndexOf.mem_sourcesOf_matches {ix : IpIndex} {seen : List (Str × ParsedEntry)}
    (h : IndexOf ix seen) {ip : Str} {a : Address} (ha : Ip.ipAddress ip = some a) (s : Str) :
    s ∈ sourcesOf (ix.matches_ ip) ↔ ∃ p, (s, p) ∈ seen ∧ p.Found ip a := by
  rw [mem_sourcesOf_matches_iff ha, h.exact_, h.entries]
  constructor
  · rintro (⟨⟨s', p', -, hhost', hkey'⟩, p, hp, hkey⟩ | ⟨⟨lo, hi, key⟩, hb, hholds, hs⟩)
    · have hhost := (ParsedEntry.eq_of_key (hkey.trans hkey'.symm)).1.trans hhost'
      exact ⟨p, hp, .inl ⟨hhost, hkey⟩⟩
    · obtain ⟨s', p', -, hhost', rfl, rfl, hkey'⟩ := (h.networks lo hi key).mp hb
      obtain ⟨p, hp, hkey⟩ := (h.entries key s).mp hs
      obtain ⟨hsame, hnet⟩ := ParsedEntry.eq_of_key (hkey'.trans hkey.symm)
      refine ⟨p, hp, .inr ⟨hsame ▸ hhost', ?_⟩⟩
      rw [← hnet hhost']
      exact hholds
  · rintro ⟨p, hp, ⟨hhost, hkey⟩ | ⟨hhost, hholds⟩⟩
    · exact .inl ⟨⟨s, p, hp, hhost, hkey⟩, p, hp, hkey⟩
    · refine .inr ⟨(p.net.lo, p.net.hi, p.key), ?_, hholds, ?_⟩
      · exact (h.networks _ _ _).mpr ⟨s, p, hp, hhost, rfl, rfl, rfl⟩
      · exact (h.entries _ _).mpr ⟨p, hp, rfl⟩

/-- Dropping duplicates drops no source. -/
theorem mem_sourcesOf_dedupe (ms : List Meta) (seen : List Str) (s : Str) :
    s ∈ sourcesOf (IpIndex.dedupe seen ms) ↔ s ∈ sourcesOf ms ∧ (s = [] ∨ s ∉ seen) := by
  induction ms generalizing seen with
  | nil => simp [IpIndex.dedupe, sourcesOf]
  | cons m ms ih =>
    have hcons : ∀ l, sourcesOf (m :: l) = m.sourceId :: sourcesOf l := fun _ => rfl
    rw [IpIndex.dedupe, hcons]
    split
    · next hseen =>
      rw [ih, List.mem_cons]
      constructor
      · rintro ⟨hs, hnot⟩
        exact ⟨.inr hs, hnot⟩
      · rintro ⟨rfl | hs, hnot⟩
        · exact absurd hseen.2 (hnot.resolve_left hseen.1)
        · exact ⟨hs, hnot⟩
    · next hseen =>
      rw [hcons, List.mem_cons, List.mem_cons, ih, List.mem_cons]
      grind

/-- Each source is kept once. -/
theorem nodup_dedupe (ms : List Meta) (seen : List Str) (h : [] ∉ sourcesOf ms) :
    (sourcesOf (IpIndex.dedupe seen ms)).Nodup := by
  induction ms generalizing seen with
  | nil => exact List.nodup_nil
  | cons m ms ih =>
    have hm : [] ≠ m.sourceId := List.ne_of_not_mem_cons h
    have hms : [] ∉ sourcesOf ms := List.not_mem_of_not_mem_cons h
    rw [IpIndex.dedupe]
    split
    · exact ih seen hms
    · refine List.nodup_cons.mpr ⟨fun hin => ?_, ih _ hms⟩
      obtain ⟨-, hnil | hnot⟩ := (mem_sourcesOf_dedupe _ _ _).mp hin
      · exact hm hnil.symm
      · exact hnot List.mem_cons_self

theorem isIpBlacklisted_of {ix : IpIndex} {ip : Str} {a : Address} (ha : Ip.ipAddress ip = some a) :
    (ix.isIpBlacklisted ip).2 = IpIndex.dedupe [] (ix.matches_ ip) := by
  have hip : ip ≠ [] := by
    rintro rfl
    rw [ipAddress_nil] at ha
    cases ha
  rw [IpIndex.isIpBlacklisted, if_neg hip]

/-- What a lookup reports. -/
theorem mem_sourcesOf_lookup {ix : IpIndex} {ip : Str} {a : Address} (ha : Ip.ipAddress ip = some a)
    (s : Str) :
    s ∈ sourcesOf (ix.isIpBlacklisted ip).2 ↔ s ∈ sourcesOf (ix.matches_ ip) := by
  rw [isIpBlacklisted_of ha, mem_sourcesOf_dedupe]
  simp

/-! ### Reading lists -/

/-- A list that is read under a source. -/
structure ListText where
  sourceId : Str
  sourceName : Str
  text : Str
  persist : Bool

namespace ListText

/-- The entries of the list, each under its source. -/
def entries (l : ListText) : List (Str × ParsedEntry) :=
  (parsedEntries l.text l.sourceName).map (Prod.mk l.sourceId)

end ListText

theorem ListText.fst_of_mem_entries {l : ListText} {e : Str × ParsedEntry} (h : e ∈ l.entries) :
    e.1 = l.sourceId := by
  obtain ⟨p, -, rfl⟩ := List.mem_map.mp h
  rfl

/-- Lists are read one after the other. -/
def IpStore.readLists (s : IpStore) (ls : List ListText) : IpStore :=
  ls.foldl (fun s l => (s.parseIpBlacklist l.text l.sourceId l.sourceName true l.persist).1) s

theorem parseIpBlacklist_index (s : IpStore) (text sourceId sourceName : Str)
    (accumulate persist : Bool) :
    (s.parseIpBlacklist text sourceId sourceName accumulate persist).1.index =
      (parsedEntries text sourceName).foldl (fun ix p => (ix.addParsed sourceId sourceName p).1)
        (if accumulate then s.index else .empty) := by
  rw [IpStore.parseIpBlacklist]
  dsimp only
  generalize (if accumulate then s.index else IpIndex.empty) = ix
  generalize 0 = count
  induction parsedEntries text sourceName generalizing ix count with
  | nil => rfl
  | cons p ps ih =>
    rw [List.foldl_cons, List.foldl_cons]
    exact ih _ _

theorem IndexOf.foldl {ix : IpIndex} {seen : List (Str × ParsedEntry)} (h : IndexOf ix seen)
    (sourceId sourceName : Str) (ps : List ParsedEntry) :
    IndexOf (ps.foldl (fun ix p => (ix.addParsed sourceId sourceName p).1) ix)
      (seen ++ ps.map (Prod.mk sourceId)) := by
  induction ps generalizing ix seen with
  | nil => simpa using h
  | cons p ps ih =>
    have hstep := ih (h.addParsed sourceId sourceName p)
    rwa [List.append_assoc, List.singleton_append] at hstep

/-- **Reading lists adds their entries.** -/
theorem IndexOf.readLists {s : IpStore} {seen : List (Str × ParsedEntry)} (h : IndexOf s.index seen)
    (ls : List ListText) :
    IndexOf (s.readLists ls).index (seen ++ ls.flatMap ListText.entries) := by
  induction ls generalizing s seen with
  | nil => simpa [IpStore.readLists] using h
  | cons l ls ih =>
    have hone : IndexOf (s.parseIpBlacklist l.text l.sourceId l.sourceName true l.persist).1.index
        (seen ++ l.entries) := by
      rw [parseIpBlacklist_index]
      exact h.foldl _ _ _
    have hrest := ih hone
    rwa [List.append_assoc, ← List.flatMap_cons] at hrest

/-- What a lookup reports after lists have been read into an empty index. -/
theorem mem_readLists_iff (ls : List ListText) (rows : List IpRow) {ip : Str} {a : Address}
    (ha : Ip.ipAddress ip = some a) (s : Str) :
    s ∈ sourcesOf ((IpStore.readLists ⟨.empty, rows⟩ ls).index.isIpBlacklisted ip).2 ↔
      ∃ p, (s, p) ∈ ls.flatMap ListText.entries ∧ p.Found ip a := by
  have hix : IndexOf (IpStore.readLists ⟨.empty, rows⟩ ls).index (ls.flatMap ListText.entries) :=
    IndexOf.readLists (s := ⟨.empty, rows⟩) .empty ls
  rw [mem_sourcesOf_lookup ha, hix.mem_sourcesOf_matches ha]

/-! ### What the lists say -/

/-- What a line of a list says: a single address, or the addresses of a family from a first
to a last one. -/
inductive Item
  | single (a : Address)
  | block (family : Family) (first last : ℕ)
  deriving DecidableEq

namespace Item

/-- The item contains the address. -/
def Contains : Item → Address → Prop
  | .single b, a => b.family = a.family ∧ b.value = a.value
  | .block family first last, a => family = a.family ∧ first ≤ a.value ∧ a.value ≤ last

/-- The item is a block that holds the number, in whichever family. -/
def Spans : Item → ℕ → Prop
  | .single _, _ => False
  | .block _ first last, n => first ≤ n ∧ n ≤ last

/-- The item is a single address whose canonical text this is. -/
def Spelled (item : Item) (ip : Str) : Prop := ∃ b, item = .single b ∧ b.text = ip

end Item

/-- The item that a word of a list stands for, if it is well formed. -/
def itemOf (token : Str) : Option Item :=
  if '-' ∈ token ∧ '/' ∉ token then
    let parts := Text.splitOnce '-' token
    match Ip.ipAddress (Text.strip parts.1), Ip.ipAddress (Text.strip parts.2) with
    | some first, some last =>
      (Ip.summarizeAddressRange first last).map
        (fun _ => .block last.family first.value last.value)
    | _, _ => none
  else
    (Ip.ipNetwork token).map fun net =>
      if net.isHost then .single net.address else .block net.address.family net.lo net.hi

/-- The items of a list. -/
def ListText.items (l : ListText) : List Item :=
  ((Text.splitlines l.text).filterMap tokenOf).filterMap itemOf

/-- The source has an item with the property. -/
def HasItem (ls : List ListText) (s : Str) (P : Item → Prop) : Prop :=
  ∃ l ∈ ls, l.sourceId = s ∧ ∃ item ∈ l.items, P item

/-- The source lists the address: one of its items contains it. -/
def Lists (ls : List ListText) (s : Str) (a : Address) : Prop := HasItem ls s (·.Contains a)

/-- The lookup of `ip`, a text of the address `a`, reports exactly the sources that list it. -/
def LookupExact (ix : IpIndex) (ls : List ListText) (ip : Str) (a : Address) : Prop :=
  (sourcesOf (ix.isIpBlacklisted ip).2).Nodup ∧
    (∀ s, s ∈ sourcesOf (ix.isIpBlacklisted ip).2 ↔ Lists ls s a) ∧
    ((ix.isIpBlacklisted ip).1 = true ↔ ∃ s, Lists ls s a)

theorem found_range_iff {token sourceName ip : Str} {a : Address} :
    (∃ p ∈ parseIpRange token sourceName, p.Found ip a) ↔
      ∃ first last nets,
        Ip.ipAddress (Text.strip (Text.splitOnce '-' token).1) = some first ∧
        Ip.ipAddress (Text.strip (Text.splitOnce '-' token).2) = some last ∧
        Ip.summarizeAddressRange first last = some nets ∧
        first.value ≤ a.value ∧ a.value ≤ last.value := by
  unfold parseIpRange
  dsimp only
  cases Ip.ipAddress (Text.strip (Text.splitOnce '-' token).1) with
  | none => simp
  | some first =>
    cases Ip.ipAddress (Text.strip (Text.splitOnce '-' token).2) with
    | none => simp
    | some last =>
      cases hrange : Ip.summarizeAddressRange first last with
      | none => simp [hrange]
      | some nets =>
        have hmem := Ip.mem_summarizeAddressRange hrange a.value
        simp [ParsedEntry.Found, hrange, hmem]

/-- The entries of a word find what its item says: a single address by its canonical text,
and a block by the number alone. -/
theorem found_iff (token sourceName ip : Str) (a : Address) :
    (∃ p ∈ parseIpBlacklistEntry token sourceName, p.Found ip a) ↔
      ∃ item, itemOf token = some item ∧ (item.Spelled ip ∨ item.Spans a.value) := by
  unfold parseIpBlacklistEntry itemOf
  by_cases hdash : '-' ∈ token ∧ '/' ∉ token
  · rw [if_pos hdash, if_pos hdash, found_range_iff]
    dsimp only
    cases Ip.ipAddress (Text.strip (Text.splitOnce '-' token).1) with
    | none => simp
    | some first =>
      cases Ip.ipAddress (Text.strip (Text.splitOnce '-' token).2) with
      | none => simp
      | some last => cases Ip.summarizeAddressRange first last <;> simp [Item.Spelled, Item.Spans]
  · rw [if_neg hdash, if_neg hdash]
    unfold parseIpNetwork
    cases Ip.ipNetwork token with
    | none => simp
    | some net =>
      cases hhost : net.isHost <;>
        simp [ParsedEntry.Found, hhost, Item.Spelled, Item.Spans, Network.Holds]

theorem found_list_iff (l : ListText) (s ip : Str) (a : Address) :
    (∃ p, (s, p) ∈ l.entries ∧ p.Found ip a) ↔
      l.sourceId = s ∧ ∃ item ∈ l.items, item.Spelled ip ∨ item.Spans a.value := by
  have hitems : (∃ item ∈ l.items, item.Spelled ip ∨ item.Spans a.value) ↔
      ∃ token ∈ (Text.splitlines l.text).filterMap tokenOf,
        ∃ item, itemOf token = some item ∧ (item.Spelled ip ∨ item.Spans a.value) := by
    simp only [ListText.items, List.mem_filterMap]
    grind
  rw [hitems]
  simp only [← found_iff _ l.sourceName]
  simp only [ListText.entries, parsedEntries, List.mem_map, List.mem_flatMap, Prod.mk.injEq]
  grind

/-- **A lookup finds what the items of the lists say.** -/
theorem mem_lookup_iff (ls : List ListText) (rows : List IpRow) {ip : Str} {a : Address}
    (ha : Ip.ipAddress ip = some a) (s : Str) :
    s ∈ sourcesOf ((IpStore.readLists ⟨.empty, rows⟩ ls).index.isIpBlacklisted ip).2 ↔
      HasItem ls s (fun item => item.Spelled ip ∨ item.Spans a.value) := by
  rw [mem_readLists_iff ls rows ha]
  simp only [HasItem, ← found_list_iff, List.mem_flatMap]
  grind

/-- Each source is reported once when every list has a source. -/
theorem nodup_lookup (ls : List ListText) (rows : List IpRow) {ip : Str} {a : Address}
    (ha : Ip.ipAddress ip = some a) (hids : ∀ l ∈ ls, l.sourceId ≠ []) :
    (sourcesOf ((IpStore.readLists ⟨.empty, rows⟩ ls).index.isIpBlacklisted ip).2).Nodup := by
  rw [isIpBlacklisted_of ha]
  refine nodup_dedupe _ _ fun hnil => ?_
  obtain ⟨l, hl, hid, -⟩ := (mem_lookup_iff ls rows ha []).mp ((mem_sourcesOf_lookup ha []).mpr hnil)
  exact hids l hl hid

/-! ### When the lookup is exact -/

/-- Every source with a block of the other family that holds the number of `a` lists `a` as
well, and every source with `a` as a single address has it spelled like `ip`, or else has a
block that holds its number. -/
structure Apart (ls : List ListText) (ip : Str) (a : Address) : Prop where
  otherFamily : ∀ s, HasItem ls s (fun item => item.Spans a.value ∧ ¬ item.Contains a) → Lists ls s a
  spelling : ∀ s, HasItem ls s (fun item => ∃ b, item = .single b ∧ item.Contains a) →
    HasItem ls s (fun item => item.Spelled ip ∨ item.Spans a.value)

theorem HasItem.imp {ls : List ListText} {s : Str} {P Q : Item → Prop} (h : HasItem ls s P)
    (hPQ : ∀ item, P item → Q item) : HasItem ls s Q := by
  obtain ⟨l, hl, hs, item, hitem, hP⟩ := h
  exact ⟨l, hl, hs, item, hitem, hPQ item hP⟩

/-- A single address that is spelled like the query is the query. -/
theorem Item.Spelled.contains {item : Item} {ip : Str} {a : Address} (h : item.Spelled ip)
    (ha : Ip.ipAddress ip = some a) : item.Contains a := by
  obtain ⟨b, rfl, rfl⟩ := h
  rw [Ip.ipAddress_text b] at ha
  cases ha
  exact ⟨rfl, rfl⟩

theorem isIpBlacklisted_iff (ix : IpIndex) (ip : Str) :
    (ix.isIpBlacklisted ip).1 = true ↔ ∃ s, s ∈ sourcesOf (ix.isIpBlacklisted ip).2 := by
  unfold IpIndex.isIpBlacklisted
  split
  · simp [sourcesOf]
  · dsimp only
    rw [decide_eq_true_eq]
    constructor
    · intro h
      obtain ⟨m, hm⟩ := List.exists_mem_of_ne_nil _ h
      exact ⟨m.sourceId, List.mem_map_of_mem hm⟩
    · rintro ⟨s, hs⟩ h
      rw [h] at hs
      cases hs

/-- **The lookup is exact just when families and spellings do not mislead it.** -/
theorem lookup_exact_iff (ls : List ListText) (rows : List IpRow) (hids : ∀ l ∈ ls, l.sourceId ≠ [])
    (ip : Str) (a : Address) (ha : Ip.ipAddress ip = some a) :
    LookupExact (IpStore.readLists ⟨.empty, rows⟩ ls).index ls ip a ↔ Apart ls ip a := by
  have hnodup := nodup_lookup ls rows ha hids
  have hfound := mem_lookup_iff ls rows ha
  have hreported := isIpBlacklisted_iff (IpStore.readLists ⟨.empty, rows⟩ ls).index ip
  constructor
  · rintro ⟨-, hexact, -⟩
    refine ⟨fun s hs => ?_, fun s hs => ?_⟩
    · exact (hexact s).mp ((hfound s).mpr (hs.imp fun _ h => .inr h.1))
    · exact (hfound s).mp ((hexact s).mpr (hs.imp fun _ ⟨_, _, h⟩ => h))
  · intro h
    have hexact : ∀ s, s ∈ sourcesOf
        ((IpStore.readLists ⟨.empty, rows⟩ ls).index.isIpBlacklisted ip).2 ↔ Lists ls s a := by
      intro s
      rw [hfound]
      constructor
      · rintro ⟨l, hl, hs, item, hitem, hitem'⟩
        by_cases hcontains : item.Contains a
        · exact ⟨l, hl, hs, item, hitem, hcontains⟩
        · have hspans := hitem'.resolve_left fun hsp => hcontains (hsp.contains ha)
          exact h.otherFamily s ⟨l, hl, hs, item, hitem, hspans, hcontains⟩
      · rintro ⟨l, hl, hs, item, hitem, hcontains⟩
        cases item with
        | single b => exact h.spelling s ⟨l, hl, hs, _, hitem, b, rfl, hcontains⟩
        | block family first last => exact ⟨l, hl, hs, _, hitem, .inr hcontains.2⟩
    exact ⟨hnodup, hexact, hreported.trans (exists_congr hexact)⟩

theorem someHost_inRange : 16909060 < 2 ^ Ip.Family.v4.bits := by decide

theorem someHost_unzoned : Ip.Family.v4 = .v4 → (none : Option Ip.Zone) = none := fun _ => rfl

/-- The address 1.2.3.4. -/
def someHost : Address := ⟨.v4, 16909060, none, someHost_inRange, someHost_unzoned⟩

/-- A list that holds `1.2.3.0/24` only. -/
def someBlock : ListText :=
  ⟨['s'], ['S'], ['1', '.', '2', '.', '3', '.', '0', '/', '2', '4'], false⟩

theorem lookup_exact_someBlock :
    LookupExact (IpStore.readLists ⟨.empty, []⟩ [someBlock]).index [someBlock]
      ['1', '.', '2', '.', '3', '.', '4'] someHost := by
  have hitems : someBlock.items = [.block .v4 16909056 16909311] := by decide
  refine (lookup_exact_iff [someBlock] [] (by simp [someBlock]) _ _ (by decide)).mpr ⟨?_, ?_⟩
  · rintro s ⟨l, hl, -, item, hitem, hspans, hnot⟩
    rw [List.mem_singleton.mp hl, hitems, List.mem_singleton] at hitem
    subst hitem
    exact absurd ⟨rfl, hspans⟩ hnot
  · rintro s ⟨l, hl, -, item, hitem, b, rfl, -⟩
    rw [List.mem_singleton.mp hl, hitems, List.mem_singleton] at hitem
    cases hitem

/-- A list that holds `::/96` only. -/
def mappedBlock : ListText := ⟨['m'], ['M'], [':', ':', '/', '9', '6'], false⟩

/-- **A block of IPv6 addresses is reported for an IPv4 address.** -/
theorem block_of_other_family_reported :
    Ip.ipAddress ['1', '.', '2', '.', '3', '.', '4'] = some someHost ∧
      ¬ LookupExact (IpStore.readLists ⟨.empty, []⟩ [mappedBlock]).index [mappedBlock]
        ['1', '.', '2', '.', '3', '.', '4'] someHost := by
  have hitems : mappedBlock.items = [.block .v6 0 (2 ^ 32 - 1)] := by decide
  refine ⟨by decide, fun h => ?_⟩
  obtain ⟨l, hl, -, item, hitem, hcontains⟩ := (h.2.1 ['m']).mp (by decide)
  rw [List.mem_singleton.mp hl, hitems, List.mem_singleton] at hitem
  rw [hitem] at hcontains
  exact absurd hcontains.1 (by decide)

end HuntProxy
