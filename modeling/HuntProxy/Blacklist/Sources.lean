import HuntProxy.Blacklist.Persist
import HuntProxy.Routing.Cache

/-!
# The sources of the lists

The tables `ip_blacklist_sources` and `blocklist_sources` say where lists are downloaded
from. Both kinds of sources write into `ip_blacklist_entries`, and the operations on them
write the index as well, each in its own way: some rebuild it from the table, some fill it
while they write the table, and some change the table only.

## Main definitions

- `IpSource`, `BlocklistRow` — the rows of the two tables
- `ListState` — the index and the tables
- `ListOp`, `ListState.apply` — the completed operations
-/

namespace HuntProxy

open Ip (Str)
open Routing.RoutingState (restoreTable)

/-- A row of `ip_blacklist_sources`. -/
structure IpSource where
  id : Str
  name : Str
  url : Str
  enabled : Bool
  priority : ℤ
  deriving DecidableEq, Repr

/-- A row of `blocklist_sources`. -/
structure BlocklistRow where
  id : Str
  name : Str
  country : Str
  direction : Str
  listType : Str
  url : Str
  klass : Str
  route : Str
  downloadProxy : Str
  enabled : Bool
  priority : ℤ
  deriving DecidableEq, Repr

/-- The fields of a request about a source; `none` stands for a field that is not given. -/
structure SourceFields where
  id : Option Str := none
  name : Option Str := none
  url : Option Str := none
  country : Option Str := none
  direction : Option Str := none
  listType : Option Str := none
  klass : Option Str := none
  route : Option Str := none
  downloadProxy : Option Str := none
  enabled : Option Bool := none

/-- The index and the tables. -/
structure ListState where
  store : IpStore
  ipSources : List IpSource
  blocklists : List BlocklistRow

/-- The rows of a backup, for each table that is restored from it. -/
structure ListBackup where
  rows : Option (List IpRow)
  ipSources : Option (List IpSource)
  blocklists : Option (List BlocklistRow)

/-! ### The rows of the sources -/

/-- `data.get(key, default).strip()`. -/
def given (field : Option Str) (default_ : String) : Str :=
  Text.strip (field.getD default_.toList)

/-- `COALESCE(MAX(priority),-1)+1`. -/
def nextOf (priorities : List ℤ) : ℤ := priorities.foldl max (-1) + 1

/-- A text that is not one of the allowed ones is replaced by the first one. -/
def oneOf (s : Str) (first : String) (others : List String) : Str :=
  if s ∈ (first :: others).map String.toList then s else first.toList

section

variable (lower upper : Str → Str)

/-- The row that `create_blocklist_source` inserts. -/
def createdBlocklist (rows : List BlocklistRow) (data : SourceFields) : BlocklistRow where
  id := given data.id ""
  name := given data.name ""
  country := upper (given data.country "")
  direction := oneOf (lower (given data.direction "inside")) "inside" ["outside", "domestic"]
  listType := lower (given data.listType "ip")
  url := given data.url ""
  klass := oneOf (lower (given data.klass "block")) "block" ["white"]
  route := given data.route ""
  downloadProxy := given data.downloadProxy ""
  enabled := data.enabled.getD true
  priority := nextOf (rows.map BlocklistRow.priority)

/-- `create_blocklist_source`: an identifier that is taken leaves the table as it was. -/
def createBlocklistSource (rows : List BlocklistRow) (data : SourceFields) : List BlocklistRow :=
  let row := createdBlocklist lower upper rows data
  if row.id = [] ∨ row.name = [] ∨ row.url = [] ∨ rows.any (fun b => b.id = row.id) then rows
  else rows ++ [row]

/-- `update_blocklist_source`: without a name nothing is changed, and with one every field
is, also those that are not given. -/
def updateBlocklistSource (rows : List BlocklistRow) (id : Str) (data : SourceFields) :
    List BlocklistRow :=
  if given data.name "" = [] then rows
  else
    rows.map fun b =>
      if b.id = id then
        { b with
          name := given data.name ""
          country := upper (given data.country "")
          direction := oneOf (lower (given data.direction "inside")) "inside" ["outside", "domestic"]
          listType := given data.listType "ip"
          url := given data.url ""
          klass := oneOf (lower (given data.klass "block")) "block" ["white"]
          route := given data.route ""
          downloadProxy := given data.downloadProxy ""
          enabled := data.enabled.getD true }
      else b

end

/-- `toggle_blocklist_source`. -/
def toggleBlocklistSource (rows : List BlocklistRow) (id : Str) : List BlocklistRow :=
  rows.map fun b => if b.id = id then { b with enabled := !b.enabled } else b

/-- `create_ip_blacklist_source`, with its `INSERT OR IGNORE`. -/
def createIpBlacklistSource (rows : List IpSource) (data : SourceFields) : List IpSource :=
  let id := given data.id ""
  let name := given data.name ""
  let url := given data.url ""
  if id = [] ∨ name = [] ∨ url = [] ∨ rows.any (fun src => src.id = id) then rows
  else rows ++ [⟨id, name, url, data.enabled.getD true, nextOf (rows.map IpSource.priority)⟩]

/-! ### The operations -/

namespace ListState

/-- Rows of an IP source are deleted and the index is rebuilt. -/
def dropIpSource (s : ListState) (id : Str) : ListState :=
  { s with
    store := IpStore.loadIpBlacklistFromDb { s.store with rows := deleteSourceRows s.store.rows id } }

/-- `update_ip_blacklist_source`. -/
def updateIpBlacklistSource (s : ListState) (id : Str) (data : SourceFields) : ListState :=
  if s.ipSources.any (fun src => src.id = id) then
    let name := given data.name ""
    let url := given data.url ""
    let s' : ListState :=
      { s with
        ipSources := s.ipSources.map fun src =>
          if src.id = id then
            { src with
              name := if name = [] then src.name else name
              url := if url = [] then src.url else url
              enabled := data.enabled.getD src.enabled }
          else src }
    if data.enabled = some false then s'.dropIpSource id else s'
  else s

/-- `delete_ip_blacklist_source`. -/
def deleteIpBlacklistSource (s : ListState) (id : Str) : ListState :=
  { s with ipSources := s.ipSources.filter (fun src => src.id ≠ id) }.dropIpSource id

/-- `toggle_ip_blacklist_source`. -/
def toggleIpBlacklistSource (s : ListState) (id : Str) : ListState :=
  match s.ipSources.find? (fun src => src.id = id) with
  | none => s
  | some row =>
    let s' : ListState :=
      { s with
        ipSources := s.ipSources.map fun src =>
          if src.id = id then { src with enabled := !row.enabled } else src }
    if row.enabled then s'.dropIpSource id else s'

/-- The list that was fetched for an enabled IP source. -/
def ipListOf (s : ListState) (d : Str × Str) : Option ListText :=
  (s.ipSources.find? (fun src => src.id = d.1 && src.enabled)).map fun src =>
    ⟨src.id, src.name, d.2, true⟩

/-- `_download_ip_blacklists`: the index is cleared and filled with the lists that arrive,
in the order in which they do. A source that is disabled, fails or is skipped is not in
`done`. -/
def downloadIpBlacklists (s : ListState) (done : Dict Str Str) : ListState :=
  { s with store := IpStore.readLists { s.store with index := .empty } (done.items.filterMap s.ipListOf) }

/-- The list that was fetched for an enabled blocklist source of type `ip`. -/
def blocklistOf (s : ListState) (d : Str × Str) : Option ListText :=
  (s.blocklists.find? (fun b => b.id = d.1 && b.enabled && b.listType = "ip".toList)).map fun b =>
    ⟨b.id, b.name, d.2, true⟩

/-- `_download_blocklists`, as far as the lists of addresses go: the lists that arrive are
added to the index, and it is rebuilt if any enabled source is of type `ip`. -/
def downloadBlocklists (s : ListState) (done : Dict Str Str) : ListState :=
  let store := s.store.readLists (done.items.filterMap s.blocklistOf)
  if s.blocklists.any (fun b => b.enabled && b.listType = "ip".toList) then
    { s with store := store.loadIpBlacklistFromDb }
  else { s with store := store }

/-- `delete_blocklist_source`, as far as the lists of addresses go. The index stays. -/
def deleteBlocklistSource (s : ListState) (id : Str) : ListState :=
  match s.blocklists.find? (fun b => b.id = id) with
  | none => s
  | some b =>
    { s with
      store :=
        if b.listType = "ip".toList then
          { s.store with rows := deleteSourceRows s.store.rows id }
        else s.store
      blocklists := s.blocklists.filter (fun b => b.id ≠ id) }

/-- `restore_backup`, with `_load_ip_blacklist` at its end. -/
def restoreBackup (s : ListState) (backup : ListBackup) : ListState where
  store :=
    IpStore.loadIpBlacklist
      { s.store with
        rows := restoreTable (fun row => (row.entry, row.sourceId)) s.store.rows backup.rows }
  ipSources := restoreTable IpSource.id s.ipSources backup.ipSources
  blocklists := restoreTable BlocklistRow.id s.blocklists backup.blocklists

/-- The state after a start, with the given tables. -/
def start (rows : List IpRow) (ipSources : List IpSource) (blocklists : List BlocklistRow) :
    ListState :=
  ⟨IpStore.loadIpBlacklist ⟨.empty, rows⟩, ipSources, blocklists⟩

end ListState

/-- The completed operations. A download brings the texts of the sources that answered. -/
inductive ListOp
  | downloadIpBlacklists (done : Dict Str Str)
  | createIpBlacklistSource (data : SourceFields)
  | updateIpBlacklistSource (id : Str) (data : SourceFields)
  | toggleIpBlacklistSource (id : Str)
  | deleteIpBlacklistSource (id : Str)
  | downloadBlocklists (done : Dict Str Str)
  | createBlocklistSource (data : SourceFields)
  | updateBlocklistSource (id : Str) (data : SourceFields)
  | toggleBlocklistSource (id : Str)
  | deleteBlocklistSource (id : Str)
  | restoreBackup (backup : ListBackup)

/-- One completed operation. -/
def ListState.apply (lower upper : Str → Str) (s : ListState) : ListOp → ListState
  | .downloadIpBlacklists done => s.downloadIpBlacklists done
  | .createIpBlacklistSource data =>
    { s with ipSources := HuntProxy.createIpBlacklistSource s.ipSources data }
  | .updateIpBlacklistSource id data => s.updateIpBlacklistSource id data
  | .toggleIpBlacklistSource id => s.toggleIpBlacklistSource id
  | .deleteIpBlacklistSource id => s.deleteIpBlacklistSource id
  | .downloadBlocklists done => s.downloadBlocklists done
  | .createBlocklistSource data =>
    { s with blocklists := HuntProxy.createBlocklistSource lower upper s.blocklists data }
  | .updateBlocklistSource id data =>
    { s with blocklists := HuntProxy.updateBlocklistSource lower upper s.blocklists id data }
  | .toggleBlocklistSource id =>
    { s with blocklists := HuntProxy.toggleBlocklistSource s.blocklists id }
  | .deleteBlocklistSource id => s.deleteBlocklistSource id
  | .restoreBackup backup => s.restoreBackup backup

/-- The machine of the operations. -/
def ListState.machine (lower upper : Str → Str) : Machine ListState ListOp :=
  ⟨fun s op => some (s.apply lower upper op)⟩

/-- A source of one list of addresses. -/
def sampleSource : IpSource := ⟨['s'], ['S'], ['u'], true, 0⟩

/-- A row of the source. -/
def sampleRow : IpRow := ⟨['1', '.', '2', '.', '3', '.', '4'], ['s'], ['S'], []⟩

end HuntProxy
