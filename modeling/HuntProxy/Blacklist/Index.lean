import HuntProxy.Lib.Dict
import HuntProxy.Lib.IpBlocks
import HuntProxy.Lib.Text

/-!
# The index of the IP blacklists

Lists of addresses, CIDR blocks and ranges are read line by line into an index: the metas
of each entry under its text, the single addresses as a set of texts, and the blocks as
pairs of numbers. With `persist` the entries of the source are also written to the table
`ip_blacklist_entries`, from which the index is rebuilt at a start.

## Main definitions

- `IpIndex`, `IpRow`, `IpStore` — the index, the rows of the table, and both
- `parseIpBlacklist` — a list is read
- `isIpBlacklisted` — the lookup
- `loadIpBlacklistFromDb` — the index is rebuilt from the table
-/

namespace HuntProxy

open Ip (Str Address Network)

/-- What is known about an entry of one source. -/
structure Meta where
  sourceId : Str
  sourceName : Str
  reason : Str
  deriving DecidableEq, Repr

/-- `ip_blacklist_entries`, `ip_blacklist_exact` and `ip_blacklist_networks`. -/
structure IpIndex where
  entries : Dict Str (List Meta)
  exact_ : List Str
  networks : List (ℕ × ℕ × Str)

/-- A row of `ip_blacklist_entries`. -/
structure IpRow where
  entry : Str
  sourceId : Str
  sourceName : Str
  reason : Str
  deriving DecidableEq, Repr

/-- The index and the table. -/
structure IpStore where
  index : IpIndex
  rows : List IpRow

/-- What a line of a list says: its block, whether it is looked up as a single address, and
the text under which it is kept. -/
structure ParsedEntry where
  key : Str
  reason : Str
  net : Network
  isHost : Bool
  key_eq : key = if isHost then net.address.text else net.text
  host : isHost = true → net.isHost = true

/-- `_parse_ip_range`. -/
def parseIpRange (token sourceName : Str) : List ParsedEntry :=
  let parts := Text.splitOnce '-' token
  match Ip.ipAddress (Text.strip parts.1), Ip.ipAddress (Text.strip parts.2) with
  | some first, some last =>
    ((Ip.summarizeAddressRange first last).getD []).map fun net =>
      ⟨net.text, "range from ".toList ++ sourceName, net, false, rfl, nofun⟩
  | _, _ => []

/-- `_parse_ip_network`. -/
def parseIpNetwork (token sourceName : Str) : List ParsedEntry :=
  match Ip.ipNetwork token with
  | none => []
  | some net =>
    [⟨if net.isHost then net.address.text else net.text, "blacklist from ".toList ++ sourceName, net,
      net.isHost, rfl, id⟩]

/-- `_parse_ip_blacklist_entry`. -/
def parseIpBlacklistEntry (token sourceName : Str) : List ParsedEntry :=
  if '-' ∈ token ∧ '/' ∉ token then parseIpRange token sourceName
  else parseIpNetwork token sourceName

/-- The word of a line that `_parse_ip_blacklist` reads. -/
def tokenOf (raw : Str) : Option Str :=
  let line := Text.strip raw
  if line = [] ∨ "#".toList.isPrefixOf line ∨ ";".toList.isPrefixOf line ∨
      "//".toList.isPrefixOf line then none
  else some (Text.firstWord line)

/-- The entries of a list, in their order. -/
def parsedEntries (text sourceName : Str) : List ParsedEntry :=
  ((Text.splitlines text).filterMap tokenOf).flatMap (parseIpBlacklistEntry · sourceName)

namespace IpIndex

/-- The index after it has been cleared. -/
def empty : IpIndex := ⟨.empty, [], []⟩

/-- `_add_ipbl_entry`. -/
def addIpblEntry (ix : IpIndex) (key : Str) (m : Meta) : IpIndex × Bool :=
  match ix.entries.get? key with
  | none => ({ ix with entries := ix.entries.insert key [m] }, true)
  | some existing =>
    if existing.any (fun m' => m'.sourceId = m.sourceId) then (ix, false)
    else ({ ix with entries := ix.entries.insert key (existing ++ [m]) }, true)

/-- An entry of a list is read. -/
def addParsed (ix : IpIndex) (sourceId sourceName : Str) (p : ParsedEntry) : IpIndex × Bool :=
  let d := ix.addIpblEntry p.key ⟨sourceId, sourceName, p.reason⟩
  if d.2 then
    if p.isHost then ({ d.1 with exact_ := p.key :: d.1.exact_ }, true)
    else ({ d.1 with networks := d.1.networks ++ [(p.net.lo, p.net.hi, p.key)] }, true)
  else (d.1, false)

/-- The metas that `_is_ip_blacklisted` finds, before duplicates are dropped. -/
def matches_ (ix : IpIndex) (ip : Str) : List Meta :=
  (if ip ∈ ix.exact_ then (ix.entries.get? ip).getD [] else []) ++
    match Ip.ipAddress ip with
    | none => []
    | some a =>
      (ix.networks.filter (fun b => b.1 ≤ a.value ∧ a.value ≤ b.2.1)).flatMap
        (fun b => (ix.entries.get? b.2.2).getD [])

/-- The loop that keeps the first meta of each source. -/
def dedupe (seen : List Str) : List Meta → List Meta
  | [] => []
  | m :: ms =>
    if m.sourceId ≠ [] ∧ m.sourceId ∈ seen then dedupe seen ms
    else m :: dedupe (m.sourceId :: seen) ms

/-- `_is_ip_blacklisted`. -/
def isIpBlacklisted (ix : IpIndex) (ip : Str) : Bool × List Meta :=
  if ip = [] then (false, [])
  else
    let deduped := dedupe [] (ix.matches_ ip)
    (deduped ≠ [], deduped)

end IpIndex

/-- `INSERT OR REPLACE INTO ip_blacklist_entries`. -/
def insertIpRow (rows : List IpRow) (row : IpRow) : List IpRow :=
  rows.filter (fun r => ¬ (r.entry = row.entry ∧ r.sourceId = row.sourceId)) ++ [row]

/-- `_delete_ip_blacklist_source_entries`. -/
def deleteSourceRows (rows : List IpRow) (sourceId : Str) : List IpRow :=
  rows.filter (fun r => r.sourceId ≠ sourceId)

/-- `_replace_ip_blacklist_source`. -/
def replaceIpBlacklistSource (rows : List IpRow) (sourceId sourceName : Str)
    (entries : List (Str × Str)) : List IpRow :=
  entries.foldl (fun rows e => insertIpRow rows ⟨e.1, sourceId, sourceName, e.2⟩)
    (deleteSourceRows rows sourceId)

namespace IpStore

/-- `_parse_ip_blacklist`, with the number of entries that are new. -/
def parseIpBlacklist (s : IpStore) (text sourceId sourceName : Str) (accumulate persist : Bool) :
    IpStore × ℕ :=
  let parsed := parsedEntries text sourceName
  let start := if accumulate then s.index else .empty
  let d := parsed.foldl (fun d p =>
    let d' := d.1.addParsed sourceId sourceName p
    (d'.1, if d'.2 then d.2 + 1 else d.2)) (start, 0)
  ({ index := d.1
     rows :=
      if persist ∧ parsed ≠ [] then
        replaceIpBlacklistSource s.rows sourceId sourceName (parsed.map (fun p => (p.key, p.reason)))
      else s.rows }, d.2)

end IpStore

/-! ### Rebuilding the index -/

/-- An octet of an entry, as the fast reader takes it. -/
def fastOctet (s : Str) : Option ℕ :=
  if s ≠ [] ∧ s.all Char.isDigit then (Numeral.read 10 s).filter (· ≤ 255) else none

/-- The range of a CIDR by `ip_network`. -/
def slowCidrRange (entry : Str) : Option (ℕ × ℕ) := (Ip.ipNetwork entry).map (fun net => (net.lo, net.hi))

/-- `_fast_cidr_range`. -/
def fastCidrRange (entry : Str) : Option (ℕ × ℕ) :=
  let ipPart := entry.takeWhile (· ≠ '/')
  let plen := (entry.dropWhile (· ≠ '/')).tail
  if ipPart.count '.' ≠ 3 then slowCidrRange entry
  else
    match (if plen = [] then some 32 else Text.intOfText plen) with
    | none => slowCidrRange entry
    | some plen =>
      if plen < 0 ∨ 32 < plen then none
      else
        match (ipPart.splitOn '.').mapM fastOctet with
        | none => slowCidrRange entry
        | some octets =>
          let val := octets.foldl (fun val n => val <<< 8 ||| n) 0
          let mask := (0xFFFFFFFF <<< (32 - plen.toNat)) &&& 0xFFFFFFFF
          let lo := val &&& mask
          some (lo, lo ||| (0xFFFFFFFF - mask))

namespace IpIndex

/-- A row is read back. -/
def addRow (ix : IpIndex) (row : IpRow) : IpIndex :=
  let m : Meta := ⟨row.sourceId, row.sourceName, row.reason⟩
  match ix.entries.get? row.entry with
  | none =>
    let ix' := { ix with entries := ix.entries.insert row.entry [m] }
    match fastCidrRange row.entry with
    | none => { ix' with exact_ := row.entry :: ix'.exact_ }
    | some (lo, hi) =>
      if lo = hi then { ix' with exact_ := row.entry :: ix'.exact_ }
      else { ix' with networks := ix'.networks ++ [(lo, hi, row.entry)] }
  | some existing =>
    if existing.any (fun m' => m'.sourceId = m.sourceId) then ix
    else { ix with entries := ix.entries.insert row.entry (existing ++ [m]) }

end IpIndex

/-- `_load_ip_blacklist_from_db(accumulate=False)`. -/
def IpStore.loadIpBlacklistFromDb (s : IpStore) : IpStore :=
  { s with index := s.rows.foldl IpIndex.addRow .empty }

/-- `_load_ip_blacklist`: an empty table leaves the index alone. -/
def IpStore.loadIpBlacklist (s : IpStore) : IpStore :=
  if s.rows = [] then s else s.loadIpBlacklistFromDb

end HuntProxy
