import HuntProxy.Lib.Machine
import HuntProxy.Routing.Resolve
import Mathlib.Algebra.Order.Ring.Rat

/-!
# The coherence of the route cache

`_route_cache` is dropped by the operations on domain lists and by the routing settings,
and it is rebuilt at the first lookup after that or when it has become too old. Three
writers of the same tables do not drop it: the parser of a downloaded domain blocklist,
the deletion of a blocklist source and the restoration of a backup.

In the runs in which these three find no cache, or leave the rows of the routing queries
as they were, every lookup answers as a freshly built cache would.

## Main definitions

- `RoutingState`, `RoutingState.step` — the tables, the cache and the operations on them

## Main results

- `CacheSound.step` — what such operations keep
- `route_cache_coherent` — the coherence of the cache
- `stale_route` — a lookup after a blocklist source has been deleted
-/

namespace HuntProxy.Routing

/-- A row of `blocklist_sources`. -/
structure BlocklistSource where
  id : Str
  listType : Str
  deriving DecidableEq, Repr

/-- The fields of a request to create or to change a domain list; `none` stands for a field
that is not given. -/
structure ListFields where
  name : Option Str := none
  source : Option Str := none
  url : Option Str := none
  route : Option Str := none
  enabled : Option Bool := none
  domains : Option (List Str) := none

/-- The operations that change what routing depends on, and the lookup. The restoration of
a backup brings, for each table it restores, the rows of the backup. -/
inductive Op
  | createDomainList (id : Str) (data : ListFields)
  | updateDomainList (id : Str) (data : ListFields)
  | deleteDomainList (id : Str)
  | toggleDomainList (id : Str)
  | reorderDomainLists (order : List Str)
  | routingEnable
  | routingDisable
  | routingSetDefault (route : Str)
  | parseDomainBlocklist (text : List Str) (sourceId name route : Str)
  | deleteBlocklistSource (id : Str)
  | restoreBackup (lists : Option (List DomainList)) (entries : Option (List DomainEntry))
      (config : Option (List (Str × Str))) (sources : Option (List BlocklistSource))
  | resolveRoute (now : ℚ) (host : Str)

/-- The operation writes the tables without dropping the cache. -/
def Op.keepsCache : Op → Bool
  | .parseDomainBlocklist .. => true
  | .deleteBlocklistSource _ => true
  | .restoreBackup .. => true
  | _ => false

/-- The tables, the cache and the time at which it was built. -/
structure RoutingState where
  db : Database
  sources : List BlocklistSource
  cache : Option RouteCache
  cacheTs : ℚ

namespace Database

/-- `INSERT OR IGNORE INTO domain_entries`. -/
def addEntry (db : Database) (e : DomainEntry) : Database :=
  if db.entries.contains e then db else { db with entries := db.entries ++ [e] }

/-- Add the patterns of a request, trimmed, in lower case and without the empty ones. -/
def addPatterns (lower strip : Str → Str) (db : Database) (id : Str) (domains : List Str) :
    Database :=
  domains.foldl
    (fun db raw =>
      let p := lower (strip raw)
      if p = [] then db else db.addEntry ⟨id, p⟩) db

/-- `DELETE FROM domain_entries WHERE list_id=?`. -/
def dropEntries (db : Database) (id : Str) : Database :=
  { db with entries := db.entries.filter (fun e => e.listId != id) }

/-- `UPDATE domain_lists SET ... WHERE id=?`. -/
def updateList (db : Database) (id : Str) (f : DomainList → DomainList) : Database :=
  { db with lists := db.lists.map (fun l => if l.id = id then f l else l) }

/-- `COALESCE(MAX(priority),-1)+1`. -/
def nextPriority (db : Database) : ℤ := (db.lists.map DomainList.priority).foldl max (-1) + 1

/-- `INSERT OR REPLACE INTO` a table with a key. -/
def insertOrReplace {ρ κ : Type*} [DecidableEq κ] (key : ρ → κ) (rows : List ρ) (r : ρ) : List ρ :=
  rows.filter (fun r' => key r' != key r) ++ [r]

end Database

namespace RoutingState

/-- `_route_cache_invalidate`. -/
def routeCacheInvalidate (s : RoutingState) : RoutingState := { s with cache := none }

/-- `_routing_set`. -/
def routingSet (s : RoutingState) (key value : Str) : RoutingState :=
  { s with db := { s.db with config := s.db.config.insert key value } }

section

variable (lower strip : Str → Str)

/-- `create_domain_list`: a name or an identifier that is empty, or an identifier that is
taken, leaves everything as it was. -/
def createDomainList (s : RoutingState) (id : Str) (data : ListFields) : RoutingState :=
  let id := strip id
  let name := strip (data.name.getD [])
  if id = [] ∨ name = [] ∨ s.db.lists.any (fun l => l.id == id) then s
  else
    let row : DomainList :=
      ⟨id, name, data.source.getD "manual".toList, data.url.getD [], data.route.getD [],
        data.enabled.getD true, s.db.nextPriority⟩
    let db := { s.db with lists := s.db.lists ++ [row] }
    { s with db := db.addPatterns lower strip id (data.domains.getD []) }.routeCacheInvalidate

/-- `update_domain_list`. -/
def updateDomainList (s : RoutingState) (id : Str) (data : ListFields) : RoutingState :=
  match s.db.lists.find? (fun l => l.id == id) with
  | none => s
  | some existing =>
    let name := strip (data.name.getD [])
    let source :=
      if data.source.getD [] ≠ [] then data.source.getD []
      else if existing.source ≠ [] then existing.source else "manual".toList
    let db₁ :=
      if name = [] then s.db
      else s.db.updateList id (fun l =>
        { l with
          name := name, source := source, url := data.url.getD existing.url,
          route := data.route.getD [], enabled := data.enabled.getD true })
    let db₂ :=
      match data.domains with
      | none => db₁
      | some domains => (db₁.dropEntries id).addPatterns lower strip id domains
    { s with db := db₂ }.routeCacheInvalidate

/-- `delete_domain_list`. -/
def deleteDomainList (s : RoutingState) (id : Str) : RoutingState :=
  let db := s.db.dropEntries id
  { s with db := { db with lists := db.lists.filter (fun l => l.id != id) } }.routeCacheInvalidate

/-- `toggle_domain_list`. -/
def toggleDomainList (s : RoutingState) (id : Str) : RoutingState :=
  match s.db.lists.find? (fun l => l.id == id) with
  | none => s
  | some l₀ =>
    { s with db := s.db.updateList id (fun l => { l with enabled := !l₀.enabled }) }.routeCacheInvalidate

/-- `reorder_domain_lists`. -/
def reorderDomainLists (s : RoutingState) (order : List Str) : RoutingState :=
  { s with
    db := order.zipIdx.foldl
      (fun db (p : Str × ℕ) => db.updateList p.1 (fun l => { l with priority := (p.2 : ℤ) })) s.db
  }.routeCacheInvalidate

/-- `_parse_domain_blocklist` on the lines of a text: `normalize` is what is left of a line,
if anything. The cache stays. -/
def parseDomainBlocklist (normalize : Str → Option Str) (s : RoutingState) (text : List Str)
    (sourceId name route : Str) : RoutingState :=
  let domains := (text.filterMap normalize).filter (fun d => d != []) |>.eraseDups
  if domains = [] then s
  else
    let db₁ :=
      if s.db.lists.any (fun l => l.id == sourceId) then
        (s.db.updateList sourceId (fun l => { l with name := name, route := route })).dropEntries
          sourceId
      else
        { s.db with
          lists := s.db.lists ++
            [⟨sourceId, name, "blocklist".toList, [], route, true, s.db.nextPriority⟩] }
    { s with db := domains.foldl (fun db d => db.addEntry ⟨sourceId, d⟩) db₁ }

/-- `source LIKE 'blocklist%%'`. -/
def isBlocklist (source : Str) : Bool :=
  "blocklist".toList.isPrefixOf (source.map Char.toLower)

/-- `delete_blocklist_source`. The cache stays. -/
def deleteBlocklistSource (s : RoutingState) (id : Str) : RoutingState :=
  match s.sources.find? (fun b => b.id == id) with
  | none => s
  | some b =>
    let db :=
      if b.listType = "ip".toList then s.db
      else
        let db := s.db.dropEntries id
        { db with lists := db.lists.filter (fun l => !(l.id == id && isBlocklist l.source)) }
    { s with db := db, sources := s.sources.filter (fun b => b.id != id) }

/-- The rows of a restored table. -/
def restoreTable {ρ κ : Type*} [DecidableEq κ] (key : ρ → κ) (rows : List ρ) :
    Option (List ρ) → List ρ
  | none => rows
  | some backup => backup.foldl (Database.insertOrReplace key) []

/-- `restore_backup`, as far as the tables of routing and `blocklist_sources` go. The cache
stays. -/
def restoreBackup (s : RoutingState) (lists : Option (List DomainList))
    (entries : Option (List DomainEntry)) (config : Option (List (Str × Str)))
    (sources : Option (List BlocklistSource)) : RoutingState :=
  { s with
    db :=
      { lists := restoreTable DomainList.id s.db.lists lists
        entries := restoreTable (fun e => e) s.db.entries entries
        config :=
          match config with
          | none => s.db.config
          | some rows => rows.foldl (fun d p => d.insert p.1 p.2) .empty }
    sources := restoreTable BlocklistSource.id s.sources sources }

/-- `_ROUTE_CACHE_TTL`. -/
def routeCacheTtl : ℚ := 30

variable (order : (db : Database) → db.RoutedLists)

/-- The cache that `_route_cache_build` would store now. -/
def fresh (s : RoutingState) : RouteCache := routeCacheBuild lower strip s.db (order s.db)

/-- `_route_cache_get`. -/
def routeCacheGet (s : RoutingState) (now : ℚ) : RoutingState × RouteCache :=
  match s.cache with
  | none => ({ s with cache := some (s.fresh lower strip order), cacheTs := now },
      s.fresh lower strip order)
  | some c =>
    if routeCacheTtl ≤ now - s.cacheTs then
      ({ s with cache := some (s.fresh lower strip order), cacheTs := now },
        s.fresh lower strip order)
    else (s, c)

/-- `_resolve_route`: the answer of a lookup at `now`. -/
def lookup (s : RoutingState) (now : ℚ) (runner : Option ProxyRunner) (host : Str) : Str :=
  Routing.resolveRoute lower (s.routeCacheGet lower strip order now).2 runner host

variable (normalize : Str → Option Str)

/-- One completed operation. -/
def apply (s : RoutingState) : Op → RoutingState
  | .createDomainList id data => s.createDomainList lower strip id data
  | .updateDomainList id data => s.updateDomainList lower strip id data
  | .deleteDomainList id => s.deleteDomainList id
  | .toggleDomainList id => s.toggleDomainList id
  | .reorderDomainLists order => s.reorderDomainLists order
  | .routingEnable =>
    (s.routingSet "routing_enabled".toList "true".toList).routeCacheInvalidate
  | .routingDisable =>
    (s.routingSet "routing_enabled".toList "false".toList).routeCacheInvalidate
  | .routingSetDefault route =>
    (s.routingSet "default_route".toList route).routeCacheInvalidate
  | .parseDomainBlocklist text sourceId name route =>
    s.parseDomainBlocklist normalize text sourceId name route
  | .deleteBlocklistSource id => s.deleteBlocklistSource id
  | .restoreBackup lists entries config sources => s.restoreBackup lists entries config sources
  | .resolveRoute now _ => (s.routeCacheGet lower strip order now).1

/-- The machine of the operations. -/
def machine : Machine RoutingState Op :=
  ⟨fun s op => some (s.apply lower strip order normalize op)⟩

end

/-! ### What the answers depend on -/

section

variable {lower strip : Str → Str} {order : (db : Database) → db.RoutedLists}
  {normalize : Str → Option Str}

/-- The routing queries give the same routes, with the same patterns, in the same order. -/
def SameRouting (order : (db : Database) → db.RoutedLists) (db db' : Database) : Prop :=
  db'.routingEnabled = db.routingEnabled ∧ db'.defaultRoute = db.defaultRoute ∧
    List.Forall₂
      (fun l l' => l.route = l'.route ∧ ∀ raw, raw ∈ db.patterns l.id ↔ raw ∈ db'.patterns l'.id)
      (order db).rows (order db').rows

/-- The cache answers as one built from the tables would. -/
def Answers (lower strip : Str → Str) (order : (db : Database) → db.RoutedLists)
    (cache : RouteCache) (db : Database) : Prop :=
  ∀ runner host, Routing.resolveRoute lower cache runner host =
    Routing.resolveRoute lower (routeCacheBuild lower strip db (order db)) runner host

/-- Lists with the same patterns match the same hosts. -/
theorem compileList_congr {route route' : Str} {patterns patterns' : List Str}
    (h : ∀ raw, raw ∈ patterns ↔ raw ∈ patterns') (host : Str) :
    (compileList lower strip route patterns).matchesHost host =
      (compileList lower strip route' patterns').matchesHost host := by
  rw [Bool.eq_iff_iff, hits_compileList, hits_compileList]
  constructor
  · rintro ⟨raw, hraw, hit⟩
    exact ⟨raw, (h raw).mp hraw, hit⟩
  · rintro ⟨raw, hraw, hit⟩
    exact ⟨raw, (h raw).mpr hraw, hit⟩

/-- The first list that matches has the same route. -/
theorem find_congr {db db' : Database} {rows rows' : List DomainList}
    (h : List.Forall₂
      (fun l l' => l.route = l'.route ∧ ∀ raw, raw ∈ db.patterns l.id ↔ raw ∈ db'.patterns l'.id)
      rows rows') (host : Str) :
    ((rows.map (fun l => compileList lower strip l.route (db.patterns l.id))).find?
        (fun l => l.matchesHost host)).map CompiledList.route =
      ((rows'.map (fun l => compileList lower strip l.route (db'.patterns l.id))).find?
        (fun l => l.matchesHost host)).map CompiledList.route := by
  induction h with
  | nil => rfl
  | @cons l l' rows rows' hl _ ih =>
    obtain ⟨hroute, hpatterns⟩ := hl
    have hmatch := @compileList_congr lower strip l.route l'.route _ _ hpatterns host
    rw [List.map_cons, List.map_cons, List.find?_cons, List.find?_cons, hmatch]
    split
    · exact congrArg some hroute
    · exact ih

/-- A resolution by the route of the first list that matches. -/
theorem resolveRoute_eq (cache : RouteCache) (runner : Option ProxyRunner) (host : Str) :
    Routing.resolveRoute lower cache runner host =
      if cache.enabled = true then
        ((cache.lists.find? (fun l => l.matchesHost (lower host))).map CompiledList.route).getD
          cache.default_
      else disabledRoute runner := by
  unfold Routing.resolveRoute
  split
  · cases cache.lists.find? (fun l => l.matchesHost (lower host)) <;> rfl
  · rfl

/-- What the queries give decides on the answers. -/
theorem SameRouting.answers {db db' : Database} (h : SameRouting order db db') :
    Answers lower strip order (routeCacheBuild lower strip db (order db)) db' := by
  obtain ⟨henabled, hdefault, hrows⟩ := h
  intro runner host
  rw [resolveRoute_eq, resolveRoute_eq]
  simp only [routeCacheBuild, henabled, hdefault]
  by_cases hon : db.routingEnabled = true
  · have hfind := @find_congr lower strip db db' _ _ hrows (lower host)
    simp only [if_pos hon, hfind]
  · simp only [if_neg hon]

theorem Answers.trans {cache : RouteCache} {db db' : Database}
    (h : Answers lower strip order cache db) (hsame : SameRouting order db db') :
    Answers lower strip order cache db' :=
  fun runner host => (h runner host).trans (hsame.answers runner host)

/-! ### Runs -/

/-- A writer that does not drop the cache finds none, or does not change what the routing
queries give. -/
def Harmless (order : (db : Database) → db.RoutedLists) : Machine.Guard RoutingState Op :=
  fun s op s' => op.keepsCache = true → s.cache = none ∨ SameRouting order s.db s'.db

/-- The cache, if there is one, answers as one built from the tables would. -/
def CacheSound (lower strip : Str → Str) (order : (db : Database) → db.RoutedLists)
    (s : RoutingState) : Prop :=
  ∀ c, s.cache = some c → Answers lower strip order c s.db

theorem cacheSound_of_none {s : RoutingState} (h : s.cache = none) :
    CacheSound lower strip order s := by
  intro c hc
  rw [h] at hc
  cases hc

/-- A writer keeps a cache whose answers it does not change. -/
theorem CacheSound.harmless {s s' : RoutingState} (h : CacheSound lower strip order s)
    (hcache : s'.cache = s.cache) (hdb : s.cache = none ∨ SameRouting order s.db s'.db) :
    CacheSound lower strip order s' := by
  rcases hdb with hnone | hsame
  · exact cacheSound_of_none (hcache.trans hnone)
  · intro c hc
    exact (h c (hcache ▸ hc)).trans hsame

theorem parseDomainBlocklist_cache (s : RoutingState) (text : List Str)
    (sourceId name route : Str) :
    (s.parseDomainBlocklist normalize text sourceId name route).cache = s.cache := by
  unfold parseDomainBlocklist
  dsimp only
  split <;> rfl

theorem deleteBlocklistSource_cache (s : RoutingState) (id : Str) :
    (s.deleteBlocklistSource id).cache = s.cache := by
  unfold deleteBlocklistSource
  split <;> rfl

/-- A lookup leaves a cache that answers as the tables say. -/
theorem CacheSound.routeCacheGet {s : RoutingState} (h : CacheSound lower strip order s)
    (now : ℚ) :
    CacheSound lower strip order (s.routeCacheGet lower strip order now).1 ∧
      Answers lower strip order (s.routeCacheGet lower strip order now).2 s.db := by
  have hfresh : Answers lower strip order (s.fresh lower strip order) s.db := fun _ _ => rfl
  have hbuilt : CacheSound lower strip order
      { s with cache := some (s.fresh lower strip order), cacheTs := now } := by
    intro c hc
    cases hc
    exact hfresh
  unfold RoutingState.routeCacheGet
  cases hc : s.cache with
  | none => exact ⟨hbuilt, hfresh⟩
  | some c =>
    dsimp only
    split
    · exact ⟨hbuilt, hfresh⟩
    · exact ⟨h, h c hc⟩

/-- **Step lemma**: a harmless operation keeps the cache sound. -/
theorem CacheSound.step {s s' : RoutingState} {op : Op} (h : CacheSound lower strip order s)
    (hs : (machine lower strip order normalize).step s op = some s')
    (hharmless : Harmless order s op s') : CacheSound lower strip order s' := by
  obtain rfl : s.apply lower strip order normalize op = s' := Option.some.inj hs
  cases op with
  | createDomainList id data =>
    simp only [apply, createDomainList]
    split
    · exact h
    · exact cacheSound_of_none rfl
  | updateDomainList id data =>
    simp only [apply, updateDomainList]
    split
    · exact h
    · exact cacheSound_of_none rfl
  | deleteDomainList id => exact cacheSound_of_none rfl
  | toggleDomainList id =>
    simp only [apply, toggleDomainList]
    split
    · exact h
    · exact cacheSound_of_none rfl
  | reorderDomainLists ids => exact cacheSound_of_none rfl
  | routingEnable => exact cacheSound_of_none rfl
  | routingDisable => exact cacheSound_of_none rfl
  | routingSetDefault route => exact cacheSound_of_none rfl
  | parseDomainBlocklist text sourceId name route =>
    exact h.harmless (s.parseDomainBlocklist_cache text sourceId name route) (hharmless rfl)
  | deleteBlocklistSource id =>
    exact h.harmless (s.deleteBlocklistSource_cache id) (hharmless rfl)
  | restoreBackup lists entries config sources => exact h.harmless rfl (hharmless rfl)
  | resolveRoute now host => exact (h.routeCacheGet now).1

/-- **The route cache is coherent**: in every run whose writers are harmless, starting
without a cache, a lookup at any time answers as a freshly built cache would. -/
theorem route_cache_coherent {s s' : RoutingState} (h₀ : s.cache = none)
    (h : (machine lower strip order normalize).Reaches (Harmless order) s s') (now : ℚ)
    (runner : Option ProxyRunner) (host : Str) :
    s'.lookup lower strip order now runner host =
      Routing.resolveRoute lower (s'.fresh lower strip order) runner host := by
  have hsound : CacheSound lower strip order s' :=
    h.invariant (cacheSound_of_none h₀) (fun _ _ _ hi hs hg => hi.step hs hg)
  exact (hsound.routeCacheGet now).2 runner host

end

/-- The tables of the sample, with the source that one of its lists was made from. -/
def sampleState : RoutingState where
  db := { sampleRouting with
    lists := sampleRouting.lists.map (fun l =>
      if l.id = "news".toList then { l with source := "blocklist".toList, route := "pool".toList }
      else l) }
  sources := [⟨"news".toList, "domain".toList⟩]
  cache := none
  cacheTs := 0

/-- A list is disabled after a lookup; the next lookup does without it. -/
theorem route_cache_coherent_sample :
    ∃ s', (machine asciiLower asciiStrip Database.byPriority some).Reaches
        (Harmless Database.byPriority) sampleState s' ∧
      s'.lookup asciiLower asciiStrip Database.byPriority 2 none "www.example.org".toList =
        Routing.resolveRoute asciiLower (s'.fresh asciiLower asciiStrip Database.byPriority) none
          "www.example.org".toList ∧
      s'.lookup asciiLower asciiStrip Database.byPriority 2 none "www.example.org".toList =
        "direct".toList := by
  have hrun : ∃ s', (machine asciiLower asciiStrip Database.byPriority some).Reaches
        (Harmless Database.byPriority) sampleState s' ∧
      decide (s'.lookup asciiLower asciiStrip Database.byPriority 2 none
        "www.example.org".toList = "direct".toList) = true :=
    Machine.exists_reaches_of_exec (g := fun _ op _ => !op.keepsCache)
      (l := [.resolveRoute 1 "www.example.org".toList, .toggleDomainList "news".toList,
        .resolveRoute 2 "www.example.org".toList])
      (fun s op s' hop hkeeps => by rw [hkeeps] at hop; cases hop) (by decide +kernel)
  obtain ⟨s', hs', hroute⟩ := hrun
  exact ⟨s', hs', route_cache_coherent rfl hs' 2 none _, of_decide_eq_true hroute⟩

/-- The deletion of a blocklist source leaves its list in the cache: the next lookup still
sends the host to the pool. -/
theorem stale_route :
    ¬ ∀ s s' : RoutingState, s.cache = none →
      (machine asciiLower asciiStrip Database.byPriority some).Reaches Machine.anyStep s s' →
        ∀ now runner host, s'.lookup asciiLower asciiStrip Database.byPriority now runner host =
          Routing.resolveRoute asciiLower (s'.fresh asciiLower asciiStrip Database.byPriority)
            runner host := by
  intro hall
  have hrun : ∃ s', (machine asciiLower asciiStrip Database.byPriority some).Reaches
        Machine.anyStep sampleState s' ∧
      decide (s'.lookup asciiLower asciiStrip Database.byPriority 2 none
          "www.example.org".toList = "pool".toList ∧
        Routing.resolveRoute asciiLower (s'.fresh asciiLower asciiStrip Database.byPriority) none
          "www.example.org".toList = "direct".toList) = true :=
    Machine.exists_reaches_of_exec (g := fun _ _ _ => true)
      (l := [.resolveRoute 1 "www.example.org".toList, .deleteBlocklistSource "news".toList])
      (fun _ _ _ _ => trivial) (by decide +kernel)
  obtain ⟨s', hs', hend⟩ := hrun
  obtain ⟨hstale, hfresh⟩ := of_decide_eq_true hend
  have heq := hall sampleState s' rfl hs' 2 none "www.example.org".toList
  rw [hstale, hfresh] at heq
  revert heq
  decide

end RoutingState

end HuntProxy.Routing
