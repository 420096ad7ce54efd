import HuntProxy.Blacklist.Sources
import Mathlib.Data.Char
import Mathlib.Data.List.Lex
import Mathlib.Data.List.Sort

/-!
# The blocklist sources and their migration

The sources of blocklists come from a default set, which is read from files and changes from
version to version, or from the user. At a start the table is brought up to the default set of
the version: sources of the set are added or updated, and sources whose identifiers are not in
it are taken for ones of an older set and removed, with what was downloaded for them. Lists of
domains live in the tables of routing, where the user keeps lists of his own, under the same
kind of identifiers.

Who made a source, and for whom the rows under an identifier were last written, is not in the
tables; the state keeps it beside them.

## Main definitions

- `DefaultBlocklists` — a default set
- `BlocklistDb`, `BlocklistOp` — the tables and the operations on them
- `BlocklistDb.migrateBlocklists` — the migration
-/

namespace HuntProxy

open Ip (Str)
open Routing (Database DomainList DomainEntry RoutingState ListFields)

/-- A source of a default set. -/
structure DefaultBlocklist where
  id : Str
  name : Str
  country : Str
  direction : Str
  listType : Str
  url : Str
  klass : Str
  route : Str
  deriving DecidableEq, Repr

/-- `DEFAULT_BLOCKLIST_SOURCES`: the loader skips a section whose identifier it has seen. -/
structure DefaultBlocklists where
  sources : List DefaultBlocklist
  nodup : (sources.map DefaultBlocklist.id).Nodup

/-- White lists come first, then by the identifier. -/
def DefaultBlocklist.precedes (a b : DefaultBlocklist) : Bool :=
  let white (d : DefaultBlocklist) := decide (d.klass = "white".toList)
  if white a = white b then decide (a.id ≤ b.id) else white a

namespace DefaultBlocklists

/-- The set in the order of its priorities, which count from 0. -/
def ordered (ds : DefaultBlocklists) : List (DefaultBlocklist × ℕ) :=
  (ds.sources.insertionSort fun a b => a.precedes b = true).zipIdx

/-- The identifiers of the set. -/
def ids (ds : DefaultBlocklists) : List Str := ds.sources.map DefaultBlocklist.id

end DefaultBlocklists

/-- The row that is inserted for a source of the set. -/
def DefaultBlocklist.row (d : DefaultBlocklist) (priority : ℕ) : BlocklistRow :=
  ⟨d.id, d.name, d.country, d.direction, d.listType, d.url, d.klass, d.route, [], true, priority⟩

/-- The row of a source that is updated from the set. -/
def BlocklistRow.refresh (b : BlocklistRow) (d : DefaultBlocklist) (priority : ℕ) : BlocklistRow :=
  { b with
    name := d.name
    country := d.country
    direction := d.direction
    listType := d.listType
    url := d.url
    klass := d.klass
    route := d.route
    priority := priority }

/-- The tables: the sources, the rows of addresses and the tables of routing. Beside them,
whether a source was made by the user, and whether the addresses and the domains under an
identifier were last written by the user or for a source of his. -/
structure BlocklistDb where
  blocklists : List BlocklistRow
  rows : List IpRow
  db : Database
  userMade : Str → Bool
  userRows : Str → Bool
  userEntries : Str → Bool

/-- The operations. A download brings the texts of the sources that answered; one of the
lists of addresses that are no blocklists has its own kind of source. -/
inductive BlocklistOp
  | createBlocklistSource (data : SourceFields)
  | updateBlocklistSource (id : Str) (data : SourceFields)
  | toggleBlocklistSource (id : Str)
  | deleteBlocklistSource (id : Str)
  | downloadBlocklists (done : Dict Str Str)
  | downloadIpBlacklist (id name text : Str) (userMade : Bool)
  | createDomainList (id : Str) (data : ListFields)
  | updateDomainList (id : Str) (data : ListFields)
  | deleteDomainList (id : Str)
  | toggleDomainList (id : Str)
  | reorderDomainLists (order : List Str)
  | seedDefaultBlocklists (ds : DefaultBlocklists)
  | migrateBlocklists (ds : DefaultBlocklists)

namespace BlocklistDb

/-! ### What is stored under an identifier -/

/-- The source. -/
def source (s : BlocklistDb) (id : Str) : Option BlocklistRow := s.blocklists.find? (fun b => b.id = id)

/-- The rows of addresses. -/
def rowsOf (s : BlocklistDb) (id : Str) : List IpRow := s.rows.filter (fun r => r.sourceId = id)

/-- The domain lists; there is at most one. -/
def listsOf (s : BlocklistDb) (id : Str) : List DomainList := s.db.lists.filter (fun l => l.id = id)

/-- The domains. -/
def entriesOf (s : BlocklistDb) (id : Str) : List DomainEntry :=
  s.db.entries.filter (fun e => e.listId = id)

/-! ### The operations -/

/-- An operation on the tables of routing; what it does to the cache of routing is of no
concern here. -/
def onRouting (s : BlocklistDb) (f : RoutingState → RoutingState) : BlocklistDb :=
  { s with db := (f ⟨s.db, [], none, 0⟩).db }

/-- `_parse_ip_blacklist` with `persist`, as far as the table goes. -/
def persistRows (s : BlocklistDb) (id name text : Str) (user : Bool) : BlocklistDb :=
  let parsed := parsedEntries text name
  if parsed = [] then s
  else
    { s with
      rows := replaceIpBlacklistSource s.rows id name (parsed.map fun p => (p.key, p.reason))
      userRows := Function.update s.userRows id user }

/-- The removal of a source with what was downloaded for it, as `delete_blocklist_source` and
the migration do it. -/
def dropSource (s : BlocklistDb) (id : Str) : BlocklistDb :=
  match s.source id with
  | none => s
  | some b =>
    let s :=
      if b.listType = "ip".toList then { s with rows := deleteSourceRows s.rows id }
      else
        let db := s.db.dropEntries id
        { s with
          db := { db with
            lists := db.lists.filter fun l => !(l.id == id && RoutingState.isBlocklist l.source) } }
    { s with
      blocklists := s.blocklists.filter (fun b => b.id ≠ id)
      userMade := Function.update s.userMade id false }

/-- The migration of one source of the default set. -/
def addDefault (s : BlocklistDb) (p : DefaultBlocklist × ℕ) : BlocklistDb :=
  { s with
    blocklists :=
      if s.blocklists.any (fun b => b.id = p.1.id) then
        s.blocklists.map fun b => if b.id = p.1.id then b.refresh p.1 p.2 else b
      else s.blocklists ++ [p.1.row p.2] }

/-- The identifiers of the sources that are not in the default set. -/
def stale (s : BlocklistDb) (ds : DefaultBlocklists) : List Str :=
  (s.blocklists.map BlocklistRow.id).filter (fun id => id ∉ ds.ids)

/-- `_migrate_blocklists`. -/
def migrateBlocklists (s : BlocklistDb) (ds : DefaultBlocklists) : BlocklistDb :=
  let s := ds.ordered.foldl addDefault s
  (s.stale ds).foldl dropSource s

/-- `_seed_default_blocklists`. -/
def seedDefaultBlocklists (s : BlocklistDb) (ds : DefaultBlocklists) : BlocklistDb :=
  if s.blocklists = [] then { s with blocklists := ds.ordered.map fun p => p.1.row p.2 } else s

/-- `_route_for_source`. -/
def routeForSource (lower : Str → Str) (b : BlocklistRow) : Str :=
  let route := Text.strip b.route
  if route ≠ [] then route
  else if lower b.klass = "white".toList then "direct".toList else "pool".toList

section

variable (lower upper : Str → Str) (normalize : Str → Option Str)

/-- `_parse_domain_blocklist`, and then `_update_blocklist_domain_url`. -/
def persistDomains (s : BlocklistDb) (b : BlocklistRow) (text : Str) : BlocklistDb :=
  let lines := Text.splitlines text
  let s' := s.onRouting fun r =>
    r.parseDomainBlocklist normalize lines b.id b.name (routeForSource lower b)
  { s' with
    db := s'.db.updateList b.id fun l =>
      if RoutingState.isBlocklist l.source then { l with url := b.url } else l
    userEntries :=
      if (lines.filterMap normalize).filter (fun d => d != []) = [] then s.userEntries
      else Function.update s.userEntries b.id (s.userMade b.id) }

/-- A list that has arrived, if its source is enabled. -/
def fetched (s : BlocklistDb) (d : Str × Str) : BlocklistDb :=
  match s.blocklists.find? (fun b => b.id = d.1 && b.enabled) with
  | none => s
  | some b =>
    if b.listType = "ip".toList then s.persistRows b.id b.name d.2 (s.userMade b.id)
    else s.persistDomains lower normalize b d.2

/-- `create_blocklist_source`. -/
def createBlocklistSource (s : BlocklistDb) (data : SourceFields) : BlocklistDb :=
  let blocklists := HuntProxy.createBlocklistSource lower upper s.blocklists data
  { s with
    blocklists := blocklists
    userMade :=
      if blocklists = s.blocklists then s.userMade
      else Function.update s.userMade (given data.id "") true }

/-- `create_domain_list`. -/
def createDomainList (s : BlocklistDb) (id : Str) (data : ListFields) : BlocklistDb :=
  let s' := s.onRouting fun r => r.createDomainList lower Text.strip id data
  { s' with
    userEntries :=
      if s'.db.lists = s.db.lists then s.userEntries
      else Function.update s.userEntries (Text.strip id) true }

/-- `update_domain_list`. -/
def updateDomainList (s : BlocklistDb) (id : Str) (data : ListFields) : BlocklistDb :=
  { s.onRouting fun r => r.updateDomainList lower Text.strip id data with
    userEntries :=
      if s.db.lists.any (fun l => l.id = id) && data.domains.isSome then Function.update s.userEntries id true
      else s.userEntries }

/-- One completed operation. -/
def apply (s : BlocklistDb) : BlocklistOp → BlocklistDb
  | .createBlocklistSource data => s.createBlocklistSource lower upper data
  | .updateBlocklistSource id data =>
    { s with blocklists := HuntProxy.updateBlocklistSource lower upper s.blocklists id data }
  | .toggleBlocklistSource id =>
    { s with blocklists := HuntProxy.toggleBlocklistSource s.blocklists id }
  | .deleteBlocklistSource id => s.dropSource id
  | .downloadBlocklists done => done.items.foldl (fetched lower normalize) s
  | .downloadIpBlacklist id name text user => s.persistRows id name text user
  | .createDomainList id data => s.createDomainList lower id data
  | .updateDomainList id data => s.updateDomainList lower id data
  | .deleteDomainList id => s.onRouting fun r => r.deleteDomainList id
  | .toggleDomainList id => s.onRouting fun r => r.toggleDomainList id
  | .reorderDomainLists order => s.onRouting fun r => r.reorderDomainLists order
  | .seedDefaultBlocklists ds => s.seedDefaultBlocklists ds
  | .migrateBlocklists ds => s.migrateBlocklists ds

/-- The machine of the operations. -/
def machine : Machine BlocklistDb BlocklistOp :=
  ⟨fun s op => some (s.apply lower upper normalize op)⟩

end

/-- The tables before the first start. -/
def empty : BlocklistDb := ⟨[], [], ⟨[], [], .empty⟩, fun _ => false, fun _ => false, fun _ => false⟩

end BlocklistDb

end HuntProxy
