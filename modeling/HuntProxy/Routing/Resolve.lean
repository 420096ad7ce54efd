import HuntProxy.Lib.Dict
import HuntProxy.Lib.Labels
import Mathlib.Data.List.Sort

/-!
# Route resolution, compiled and tested

`_resolve_route` answers from a cache in which the patterns of every enabled domain list
are compiled to a set of exact names and a set of dotted suffixes; it probes the latter
with the label suffixes of the host. `routing_test` goes through the stored patterns one
by one with `_domain_matches`. Both read the same rows.

Strings are lists of characters. What `str.lower` and `str.strip` do is a parameter, so
the results hold for the whole of Unicode.

## Main definitions

- `Database`, `RoutedLists` — the tables of the routing and the rows of its query
- `routeCacheBuild`, `resolveRoute` — the compiled form
- `domainMatches`, `routingTest` — the reference

## Main results

- `compileList_matches` — a compiled list matches as its patterns do
- `resolveRoute_eq_routingTest` — both forms give the same route
-/

namespace HuntProxy.Routing

abbrev Str := List Char

/-- A row of `domain_lists`. -/
structure DomainList where
  id : Str
  name : Str
  source : Str
  url : Str
  route : Str
  enabled : Bool
  priority : ℤ
  deriving DecidableEq, Repr

/-- A row of `domain_entries`. -/
structure DomainEntry where
  listId : Str
  pattern : Str
  deriving DecidableEq, Repr

/-- The tables that routing depends on. -/
structure Database where
  lists : List DomainList
  entries : List DomainEntry
  config : Dict Str Str

/-- The attributes of the proxy runner that decide while routing is disabled. -/
structure ProxyRunner where
  directMode : Bool
  activeProxyAddr : Option Str
  deriving DecidableEq, Repr

namespace Database

/-- `_routing_get`. -/
def routingGet (db : Database) (key default : Str) : Str := (db.config.get? key).getD default

/-- `_routing_get("routing_enabled", "false") == "true"`. -/
def routingEnabled (db : Database) : Bool :=
  db.routingGet "routing_enabled".toList "false".toList == "true".toList

/-- `_routing_get("default_route", "direct")`. -/
def defaultRoute (db : Database) : Str := db.routingGet "default_route".toList "direct".toList

/-- `SELECT pattern FROM domain_entries WHERE list_id=?`. -/
def patterns (db : Database) (id : Str) : List Str :=
  (db.entries.filter (fun e => e.listId == id)).map DomainEntry.pattern

/-- The row is selected by `WHERE dl.enabled=1 AND dl.route!=''`. -/
def routed (l : DomainList) : Bool := l.enabled && l.route != []

/-- The rows of the routing query, in an order by priority; lists of the same priority may
come in any order. -/
structure RoutedLists (db : Database) where
  rows : List DomainList
  perm : rows.Perm (db.lists.filter routed)
  sorted : rows.Pairwise (fun a b => a.priority ≤ b.priority)

/-- The rows in the order in which a stable sort by priority puts them. -/
def byPriority (db : Database) : RoutedLists db where
  rows := (db.lists.filter routed).insertionSort (fun a b => a.priority ≤ b.priority)
  perm := List.perm_insertionSort _ _
  sorted := by
    have : Std.Total (fun a b : DomainList => a.priority ≤ b.priority) :=
      ⟨fun a b => le_total a.priority b.priority⟩
    have : IsTrans DomainList (fun a b => a.priority ≤ b.priority) :=
      ⟨fun a b c hab hbc => le_trans hab hbc⟩
    exact List.pairwise_insertionSort _ _

end Database

/-- A list of the route cache: its route, the exact names and the suffixes. -/
structure CompiledList where
  route : Str
  exact_ : List Str
  suffixes : List Str
  deriving DecidableEq, Repr

/-- The route cache. -/
structure RouteCache where
  enabled : Bool
  default_ : Str
  lists : List CompiledList
  deriving DecidableEq, Repr

/-- The first characters of a pattern that is an exact name. -/
def exactPrefix : Str := "exact:".toList

section

variable (lower strip : Str → Str)

/-! ### The compiled form -/

/-- What the compilation of one trimmed pattern adds to the exact names and the suffixes. -/
def compilePattern (p : Str) : List Str × List Str :=
  if p = [] then ([], [])
  else if exactPrefix.isPrefixOf p then ([p.drop 6], [])
  else if "*.".toList.isPrefixOf p then ([p.drop 2], ['.' :: p.drop 2])
  else if ".".toList.isPrefixOf p then ([p.drop 1], ['.' :: p.drop 1])
  else ([p], ['.' :: p])

/-- The compilation of the patterns of a list. -/
def compileList (route : Str) (patterns : List Str) : CompiledList where
  route := route
  exact_ := patterns.flatMap (fun raw => (compilePattern (strip (lower raw))).1)
  suffixes := patterns.flatMap (fun raw => (compilePattern (strip (lower raw))).2)

/-- `_route_cache_build`. -/
def routeCacheBuild (db : Database) (rows : db.RoutedLists) : RouteCache where
  enabled := db.routingEnabled
  default_ := db.defaultRoute
  lists :=
    if db.routingEnabled then
      rows.rows.map (fun l => compileList lower strip l.route (db.patterns l.id))
    else []

/-- What a disabled routing answers. -/
def disabledRoute (runner : Option ProxyRunner) : Str :=
  match runner with
  | none => "pool".toList
  | some r =>
    if r.directMode then "direct".toList
    else
      match r.activeProxyAddr with
      | none => "pool".toList
      | some addr => if addr = [] then "pool".toList else "proxy:".toList ++ addr

/-- A compiled list matches: the host is an exact name, or one of its dotted suffixes is
in the set. -/
def CompiledList.matchesHost (l : CompiledList) (host : Str) : Bool :=
  l.exact_.contains host || (Labels.dottedSuffixes '.' host).any (fun s => l.suffixes.contains s)

/-- `_resolve_route` on a given cache. -/
def resolveRoute (cache : RouteCache) (runner : Option ProxyRunner) (host : Str) : Str :=
  if cache.enabled then
    match cache.lists.find? (fun l => l.matchesHost (lower host)) with
    | some l => l.route
    | none => cache.default_
  else disabledRoute runner

/-! ### The reference -/

/-- One pattern of `_domain_matches`, with the host in lower case. -/
def patternMatches (host raw : Str) : Bool :=
  let p := strip (lower raw)
  if exactPrefix.isPrefixOf p then host == p.drop 6
  else if "*.".toList.isPrefixOf p then (p.drop 1).isSuffixOf host || host == p.drop 2
  else if ".".toList.isPrefixOf p then p.isSuffixOf host || host == p.drop 1
  else host == p || ('.' :: p).isSuffixOf host

/-- `_domain_matches`. -/
def domainMatches (host : Str) (patterns : List Str) : Bool :=
  patterns.any (patternMatches lower strip (lower host))

/-- The result of `routing_test`. -/
structure RoutingResult where
  domain : Str
  route : Str
  matchedList : Option Str
  routingEnabled : Bool
  deriving DecidableEq, Repr

/-- `routing_test`. -/
def routingTest (db : Database) (rows : db.RoutedLists) (runner : Option ProxyRunner)
    (domain : Str) : RoutingResult :=
  if db.routingEnabled then
    match rows.rows.find? (fun l => domainMatches lower strip domain (db.patterns l.id)) with
    | some l => ⟨domain, l.route, some l.name, true⟩
    | none => ⟨domain, db.defaultRoute, none, true⟩
  else ⟨domain, disabledRoute runner, none, false⟩

end

/-! ### Agreement -/

/-- The host is one of the exact names or has one of the suffixes. -/
def Hits (exact_ suffixes : List Str) (host : Str) : Prop :=
  host ∈ exact_ ∨ ∃ s ∈ Labels.dottedSuffixes '.' host, s ∈ suffixes

theorem matchesHost_iff (l : CompiledList) (host : Str) :
    l.matchesHost host = true ↔ Hits l.exact_ l.suffixes host := by
  simp [CompiledList.matchesHost, Hits]

/-- A name and the suffix of its subdomains: the host is the name or ends in the suffix. -/
theorem hits_name (x host : Str) : Hits [x] ['.' :: x] host ↔ ('.' :: x) <:+ host ∨ host = x := by
  have hsuffix : (∃ s ∈ Labels.dottedSuffixes '.' host, s ∈ ['.' :: x]) ↔
      x = host ∨ ('.' :: x) <:+ host := by
    rw [← Labels.mem_dottedSuffixes]
    simp
  rw [Hits, hsuffix, List.mem_singleton]
  constructor
  · rintro (rfl | rfl | h)
    · exact .inr rfl
    · exact .inr rfl
    · exact .inl h
  · rintro (h | rfl)
    · exact .inr (.inr h)
    · exact .inl rfl

theorem hits_exact (x host : Str) : Hits [x] [] host ↔ host = x := by
  simp [Hits]

/-- A prefix test, as a decomposition. -/
theorem drop_of_isPrefixOf {pre p : Str} (h : pre.isPrefixOf p = true) :
    p = pre ++ p.drop pre.length := by
  obtain ⟨rest, rfl⟩ := List.isPrefixOf_iff_prefix.mp h
  rw [List.drop_left]

/-- A compiled pattern matches as the pattern does, unless it is empty. -/
theorem compilePattern_hits (lower strip : Str → Str) (host raw : Str)
    (hne : strip (lower raw) ≠ []) :
    Hits (compilePattern (strip (lower raw))).1 (compilePattern (strip (lower raw))).2 host ↔
      patternMatches lower strip host raw = true := by
  generalize hp : strip (lower raw) = p at hne
  simp only [compilePattern, patternMatches, hp, if_neg hne]
  split
  · rw [hits_exact, beq_iff_eq]
  · split
    · -- `*.x`: the pattern without its star is the suffix
      next h =>
      have hsuffix : p.drop 1 = '.' :: p.drop 2 := by
        have heq := drop_of_isPrefixOf h
        rw [heq]
        rfl
      rw [hits_name, Bool.or_eq_true, List.isSuffixOf_iff_suffix, beq_iff_eq, hsuffix]
    · split
      · next h =>
        have hself : '.' :: p.drop 1 = p := (drop_of_isPrefixOf h).symm
        rw [hits_name, Bool.or_eq_true, List.isSuffixOf_iff_suffix, beq_iff_eq, hself]
      · rw [hits_name, Bool.or_eq_true, List.isSuffixOf_iff_suffix, beq_iff_eq, or_comm]

/-- A compiled list is hit when one of its patterns is. -/
theorem hits_compileList (lower strip : Str → Str) (route : Str) (patterns : List Str)
    (host : Str) :
    (compileList lower strip route patterns).matchesHost host = true ↔
      ∃ raw ∈ patterns, Hits (compilePattern (strip (lower raw))).1
        (compilePattern (strip (lower raw))).2 host := by
  rw [matchesHost_iff]
  simp only [Hits, compileList, List.mem_flatMap]
  constructor
  · rintro (⟨raw, hraw, h⟩ | ⟨s, hs, raw, hraw, h⟩)
    · exact ⟨raw, hraw, .inl h⟩
    · exact ⟨raw, hraw, .inr ⟨s, hs, h⟩⟩
  · rintro ⟨raw, hraw, h | ⟨s, hs, h⟩⟩
    · exact .inl ⟨raw, hraw, h⟩
    · exact .inr ⟨s, hs, raw, hraw, h⟩

/-- **A compiled list matches as its patterns do**, provided that none is empty. -/
theorem compileList_matches (lower strip : Str → Str) (route : Str) {patterns : List Str}
    (hne : ∀ raw ∈ patterns, strip (lower raw) ≠ []) (host : Str) :
    (compileList lower strip route patterns).matchesHost (lower host) =
      domainMatches lower strip host patterns := by
  rw [Bool.eq_iff_iff, hits_compileList, domainMatches, List.any_eq_true]
  constructor
  · rintro ⟨raw, hraw, h⟩
    exact ⟨raw, hraw, (compilePattern_hits lower strip _ raw (hne raw hraw)).mp h⟩
  · rintro ⟨raw, hraw, h⟩
    exact ⟨raw, hraw, (compilePattern_hits lower strip _ raw (hne raw hraw)).mpr h⟩

/-- The patterns of every list are stored patterns. -/
theorem mem_patterns {db : Database} {id raw : Str} (h : raw ∈ db.patterns id) :
    ∃ e ∈ db.entries, e.pattern = raw := by
  obtain ⟨e, he, rfl⟩ := List.mem_map.mp h
  exact ⟨e, (List.mem_filter.mp he).1, rfl⟩

/-- **Compiled routing equals the reference**: on a freshly built cache both give the same
route, when no stored pattern is empty after trimming. -/
theorem resolveRoute_eq_routingTest (lower strip : Str → Str) (db : Database)
    (rows : db.RoutedLists) (runner : Option ProxyRunner) (host : Str)
    (hne : ∀ e ∈ db.entries, strip (lower e.pattern) ≠ []) :
    resolveRoute lower (routeCacheBuild lower strip db rows) runner host =
      (routingTest lower strip db rows runner host).route := by
  unfold resolveRoute routingTest
  cases henabled : db.routingEnabled with
  | false => simp [routeCacheBuild, henabled]
  | true =>
    have hlists : (routeCacheBuild lower strip db rows).lists =
        rows.rows.map (fun l => compileList lower strip l.route (db.patterns l.id)) := by
      rw [routeCacheBuild, if_pos henabled]
    have hmatch : ∀ l : DomainList,
        (compileList lower strip l.route (db.patterns l.id)).matchesHost (lower host) =
          domainMatches lower strip host (db.patterns l.id) := by
      intro l
      apply compileList_matches
      intro raw hraw
      obtain ⟨e, he, rfl⟩ := mem_patterns hraw
      exact hne e he
    have hcache : (routeCacheBuild lower strip db rows).enabled = true := henabled
    rw [if_pos hcache, if_pos rfl, hlists, List.find?_map]
    have hfind : (fun l => CompiledList.matchesHost l (lower host)) ∘
          (fun l => compileList lower strip l.route (db.patterns l.id)) =
        fun l : DomainList => domainMatches lower strip host (db.patterns l.id) := by
      funext l
      exact hmatch l
    rw [hfind]
    cases rows.rows.find? (fun l => domainMatches lower strip host (db.patterns l.id)) with
    | none => rfl
    | some l => rfl

/-- A list with patterns of all four forms. -/
def sampleRouting : Database where
  lists := [⟨"news".toList, "News".toList, "manual".toList, [], "custom:vpn".toList, true, 1⟩,
    ⟨"home".toList, "Home".toList, "manual".toList, [], "direct".toList, true, 0⟩]
  entries := [⟨"news".toList, " *.Example.ORG ".toList⟩, ⟨"news".toList, ".press".toList⟩,
    ⟨"home".toList, "exact:example.org".toList⟩, ⟨"home".toList, "lan".toList⟩]
  config := Dict.empty.insert "routing_enabled".toList "true".toList

/-- `str.lower` and `str.strip` on the characters of the sample. -/
def asciiLower : Str → Str := List.map Char.toLower

def asciiStrip (s : Str) : Str :=
  ((s.dropWhile (· == ' ')).reverse.dropWhile (· == ' ')).reverse

/-- The subdomain goes by the list of lower priority, which the exact name does not reach. -/
theorem resolveRoute_eq_routingTest_sample :
    resolveRoute asciiLower
        (routeCacheBuild asciiLower asciiStrip sampleRouting sampleRouting.byPriority) none
        "WWW.example.org".toList =
      (routingTest asciiLower asciiStrip sampleRouting sampleRouting.byPriority none
        "WWW.example.org".toList).route ∧
    (routingTest asciiLower asciiStrip sampleRouting sampleRouting.byPriority none
        "WWW.example.org".toList).route = "custom:vpn".toList :=
  ⟨resolveRoute_eq_routingTest asciiLower asciiStrip sampleRouting sampleRouting.byPriority none
    "WWW.example.org".toList (by decide +kernel), by decide +kernel⟩

end HuntProxy.Routing
