import HuntProxy.Lib.Ranking
import HuntProxy.Rating.Pool
import HuntProxy.Routing.Connect

/-!
# The pool and the first eight of it

`_build_pool` collects the ratings that may carry traffic, those of proxies that answered
their last check first, and each part with the best scores first. `_connect_via_pool` goes
through the first eight of them until one of the attempts succeeds.

An address is split at its last colon outside of every `try`, so that an address without one
ends the call with an exception. Ratings get such addresses when a proxy is selected by hand.

## Main definitions

- `RatingMap`, `ProxyRating.ofRating` — the ratings, and what routing sees of one
- `PoolOf` — what is promised about the pool
- `trials`, `FirstOf` — what comes of each candidate, and the first success

## Main results

- `buildPool_poolOf` — the members of the pool and their order
- `pool_iff_ported` — when the connections are those that the claim promises
- `pool_selected_address` — the exception
-/

namespace HuntProxy.Routing

/-! ### The ratings -/

/-- The text of a status. -/
def statusName : Status → Str
  | .ok => "ok".toList
  | .failed => "failed".toList
  | .untested => "untested".toList

/-- The text of a protocol. -/
def protocolName : Protocol → Str
  | .http => "http".toList
  | .https => "https".toList
  | .socks4 => "socks4".toList
  | .socks5 => "socks5".toList

/-- What routing sees of a rating at a time. -/
def ProxyRating.ofRating (now : ℚ) (r : HuntProxy.ProxyRating) : ProxyRating where
  address := r.address
  protocol := protocolName r.protocol
  inBlacklist := r.inBlacklist
  sslSupported := r.sslSupported
  supportsConnect := r.supportsConnect
  lastStatus := statusName r.lastStatus
  countryCode := r.countryCode
  egressCountryCode := r.egressCountryCode
  poolEligible := r.poolEligible
  score := r.score now

/-- `state.ratings` with all the fields: every rating is stored under its own address. -/
structure RatingMap where
  byAddress : Dict Str HuntProxy.ProxyRating
  keyed : ∀ addr r, byAddress.get? addr = some r → r.address = addr

/-- What routing sees of the ratings at a time. -/
def RatingMap.seen (m : RatingMap) (now : ℚ) : Ratings where
  byAddress := m.byAddress.mapValues (ProxyRating.ofRating now)
  keyed := by
    intro addr v hv
    rw [Dict.get?_mapValues] at hv
    obtain ⟨r, hr, rfl⟩ := Option.map_eq_some_iff.mp hv
    exact m.keyed addr r hr

/-- The settings with some ratings at a time. -/
def Settings.withRatings (cfg : Settings) (m : RatingMap) (now : ℚ) : Settings :=
  { cfg with ratings := m.seen now }

/-- No two ratings of a map have the same address. -/
theorem Ratings.nodup_values (m : Ratings) : m.byAddress.values.Nodup := by
  have haddr : m.byAddress.values.map ProxyRating.address = m.byAddress.keys := by
    unfold Dict.values Dict.keys
    rw [List.map_map]
    refine List.map_congr_left fun p hp => ?_
    exact m.keyed p.1 p.2 (Dict.get?_eq_some_iff.mpr hp)
  have hkeys : (m.byAddress.values.map ProxyRating.address).Nodup := by
    rw [haddr]
    exact m.byAddress.nodup
  exact hkeys.of_map

theorem RatingMap.mem_seen_values {m : RatingMap} {now : ℚ} {v : ProxyRating} :
    v ∈ (m.seen now).byAddress.values ↔
      ∃ addr r, m.byAddress.get? addr = some r ∧ v = .ofRating now r := by
  simp only [RatingMap.seen, Dict.values, Dict.mapValues, List.mem_map, Dict.get?_eq_some_iff]
  constructor
  · rintro ⟨_, ⟨p, hp, rfl⟩, rfl⟩
    exact ⟨p.1, p.2, hp, rfl⟩
  · rintro ⟨addr, r, hr, rfl⟩
    exact ⟨_, ⟨(addr, r), hr, rfl⟩, rfl⟩

/-! ### The pool -/

section

variable (upper : Str → Str) (cfg : Settings) (target : Target)

/-- `_eligible`. -/
def eligible (r : ProxyRating) : Bool :=
  r.poolEligible &&
    poolCountryAllowsCode upper
      (if r.egressCountryCode = [] then r.countryCode else r.egressCountryCode)
      cfg.countryMode cfg.countryCodes &&
    (!target.needConnect || r.supportsConnect || isSocks r.protocol)

/-- The ratings that may carry traffic, in the order of the map. -/
def candidates : List ProxyRating := cfg.ratings.byAddress.values.filter (eligible upper cfg target)

/-- The last check of the proxy was answered. -/
def isLive (r : ProxyRating) : Bool := r.lastStatus == "ok".toList

/-- The order within a part of the pool. -/
def Scored (r r' : ProxyRating) : Prop := r'.score ≤ r.score

/-- The order of the pool. -/
def Better (r r' : ProxyRating) : Prop :=
  (isLive r' = true → isLive r = true) ∧ (isLive r = isLive r' → r'.score ≤ r.score)

instance : DecidableRel Scored := fun r r' => inferInstanceAs (Decidable (r'.score ≤ r.score))

instance : DecidableRel Better := fun r r' =>
  inferInstanceAs
    (Decidable ((isLive r' = true → isLive r = true) ∧ (isLive r = isLive r' → r'.score ≤ r.score)))

instance : Std.Total Scored := ⟨fun r r' => le_total r'.score r.score⟩

instance : IsTrans ProxyRating Scored := ⟨fun _ _ _ h h' => le_trans h' h⟩

theorem buildPool_eq :
    buildPool upper cfg target =
      ((candidates upper cfg target).filter isLive).insertionSort Scored ++
        ((candidates upper cfg target).filter (fun r => !isLive r)).insertionSort Scored := by
  rfl

theorem nodup_candidates : (candidates upper cfg target).Nodup :=
  cfg.ratings.nodup_values.filter _

theorem buildPool_perm : (buildPool upper cfg target).Perm (candidates upper cfg target) := by
  rw [buildPool_eq]
  have hlive := List.perm_insertionSort Scored ((candidates upper cfg target).filter isLive)
  have hgrace :=
    List.perm_insertionSort Scored ((candidates upper cfg target).filter (fun r => !isLive r))
  exact (hlive.append hgrace).trans (List.filter_append_perm isLive _)

/-- Within a part of the pool the order is that of the scores. -/
theorem better_of_scored {live : Bool} {r r' : ProxyRating} (h : isLive r = live)
    (h' : isLive r' = live) : Better r r' ↔ Scored r r' := by
  unfold Better Scored
  simp [h, h']

theorem ahead_of_part {l : List ProxyRating} (part : ProxyRating → Bool) {live : Bool}
    (hpart : ∀ r, part r = true ↔ isLive r = live) {r r' : ProxyRating}
    (hr : r ∈ l.filter part) (hr' : r' ∈ l.filter part)
    (h : Ranking.Ahead Scored (l.filter part) r r') : Ranking.Ahead Better l r r' := by
  have hlive := (hpart r).mp (List.mem_filter.mp hr).2
  have hlive' := (hpart r').mp (List.mem_filter.mp hr').2
  refine ⟨(better_of_scored hlive hlive').mpr h.1, fun hback => ?_⟩
  exact (h.2 ((better_of_scored hlive' hlive).mp hback)).trans List.filter_sublist

/-- A part of the pool is in order. -/
theorem pairwise_part {l : List ProxyRating} (hl : l.Nodup) (part : ProxyRating → Bool)
    (live : Bool) (hpart : ∀ r, part r = true ↔ isLive r = live) :
    ((l.filter part).insertionSort Scored).Pairwise (Ranking.Ahead Better l) := by
  have hsorted : ((l.filter part).insertionSort Scored).Pairwise
      (Ranking.Ahead Scored (l.filter part)) :=
    Ranking.pairwise_ahead_insertionSort (hl.filter part)
  refine hsorted.imp_of_mem fun hr hr' h => ?_
  exact ahead_of_part part hpart ((List.mem_insertionSort Scored).mp hr)
    ((List.mem_insertionSort Scored).mp hr') h

/-- The pool is in order. -/
theorem buildPool_pairwise :
    (buildPool upper cfg target).Pairwise
      (Ranking.Ahead Better (candidates upper cfg target)) := by
  have hnodup := nodup_candidates upper cfg target
  rw [buildPool_eq, List.pairwise_append]
  refine ⟨pairwise_part hnodup isLive true (fun _ => Iff.rfl),
    pairwise_part hnodup _ false (fun r => by simp), ?_⟩
  intro r hr r' hr'
  -- a proxy that works, and one in its grace period
  have hlive : isLive r = true :=
    (List.mem_filter.mp ((List.mem_insertionSort Scored).mp hr)).2
  have hgrace : isLive r' = false := by
    simpa using (List.mem_filter.mp ((List.mem_insertionSort Scored).mp hr')).2
  refine ⟨⟨fun _ => hlive, fun heq => ?_⟩, fun hback => ?_⟩
  · rw [hlive, hgrace] at heq
    cases heq
  · have := hback.1 hlive
    rw [hgrace] at this
    cases this

end

section

variable (upper : Str → Str) (cfg : Settings) (m : RatingMap) (now : ℚ) (target : Target)

/-- The rating may carry traffic: it belongs to the pool, the policy allows the country at
which its traffic leaves, and a tunnel through it can be had if one is needed. -/
structure Candidate (r : HuntProxy.ProxyRating) : Prop where
  pool : r.poolEligible = true
  country : poolCountryAllowsCode upper
    (if r.egressCountryCode = [] then r.countryCode else r.egressCountryCode)
    cfg.countryMode cfg.countryCodes = true
  tunnel : target.needConnect = true →
    r.supportsConnect = true ∨ r.protocol = .socks4 ∨ r.protocol = .socks5

/-- What is promised about the pool: its members, and their order. -/
structure PoolOf (pool : List ProxyRating) : Prop where
  nodup : pool.Nodup
  mem : ∀ v, v ∈ pool ↔ ∃ addr r, m.byAddress.get? addr = some r ∧ v = .ofRating now r ∧
    Candidate upper cfg target r
  liveFirst : pool.Pairwise fun v v' => v'.lastStatus = "ok".toList → v.lastStatus = "ok".toList
  scored : pool.Pairwise fun v v' =>
    (v.lastStatus = "ok".toList ↔ v'.lastStatus = "ok".toList) → v'.score ≤ v.score

variable {upper cfg m now target}

theorem isSocks_protocolName (p : Protocol) :
    isSocks (protocolName p) = true ↔ p = .socks4 ∨ p = .socks5 := by
  cases p <;> decide

theorem eligible_ofRating (r : HuntProxy.ProxyRating) :
    eligible upper (cfg.withRatings m now) target (.ofRating now r) = true ↔
      Candidate upper cfg target r := by
  have hsocks := isSocks_protocolName r.protocol
  simp only [eligible, Settings.withRatings, ProxyRating.ofRating, Bool.and_eq_true, Bool.or_eq_true,
    Bool.not_eq_true', hsocks]
  constructor
  · rintro ⟨⟨hpool, hcountry⟩, htunnel⟩
    refine ⟨hpool, hcountry, fun hneed => ?_⟩
    rcases htunnel with (hno | hconnect) | hsocks
    · rw [hno] at hneed
      cases hneed
    · exact .inl hconnect
    · exact .inr hsocks
  · rintro ⟨hpool, hcountry, htunnel⟩
    refine ⟨⟨hpool, hcountry⟩, ?_⟩
    cases hneed : target.needConnect with
    | false => exact .inl (.inl rfl)
    | true => exact (htunnel hneed).elim (fun h => .inl (.inr h)) .inr

theorem isLive_iff (v : ProxyRating) : isLive v = true ↔ v.lastStatus = "ok".toList :=
  beq_iff_eq

/-- **The pool** has the members and the order that are promised, for every map. -/
theorem buildPool_poolOf :
    PoolOf upper cfg m now target (buildPool upper (cfg.withRatings m now) target) := by
  have hperm := buildPool_perm upper (cfg.withRatings m now) target
  have hpairs := buildPool_pairwise upper (cfg.withRatings m now) target
  refine ⟨hperm.nodup_iff.mpr (nodup_candidates _ _ _), fun v => ?_, ?_, ?_⟩
  · rw [hperm.mem_iff, candidates, List.mem_filter]
    constructor
    · rintro ⟨hv, helig⟩
      obtain ⟨addr, r, hr, rfl⟩ := RatingMap.mem_seen_values.mp hv
      exact ⟨addr, r, hr, rfl, (eligible_ofRating r).mp helig⟩
    · rintro ⟨addr, r, hr, rfl, hcand⟩
      exact ⟨RatingMap.mem_seen_values.mpr ⟨addr, r, hr, rfl⟩, (eligible_ofRating r).mpr hcand⟩
  · refine hpairs.imp fun {v v'} h => ?_
    intro hlive
    exact (isLive_iff v).mp (h.1.1 ((isLive_iff v').mpr hlive))
  · refine hpairs.imp fun {v v'} h => ?_
    intro hsame
    exact h.1.2 (Bool.eq_iff_iff.mpr (by rw [isLive_iff, isLive_iff, hsame]))

end

/-! ### The attempts -/

section

variable (int : Str → Option ℤ) (net : Network) (target : Target)

/-- What comes of opening connection number `n` to a candidate. -/
def trial (p : ProxyRating) (c : Contact) (n : ℕ) : Option Conn :=
  match net n with
  | .refused => none
  | .opened h =>
    if negotiateProxy target p h = .accepted then
      some ⟨n, c, !target.needConnect && !isSocks p.protocol⟩
    else none

/-- What comes of each candidate on its own, when the first connection has number `n`. No
connection is opened to an address whose port is no number. -/
def trials : List ProxyRating → ℕ → List (ProxyRating × Option Conn)
  | [], _ => []
  | p :: rest, n =>
    match openProxyConn int p with
    | .ok (some c) => (p, trial net target p c n) :: trials rest (n + 1)
    | _ => (p, none) :: trials rest n

/-- The result is the first success, and nothing if and only if there is none. -/
structure FirstOf (results : List (ProxyRating × Option Conn))
    (result : Except Exc (Option Conn)) : Prop where
  found : ∀ conn, result = .ok (some conn) ↔ ∃ before p after,
    results = before ++ (p, some conn) :: after ∧ ∀ o ∈ before, o.2 = none
  nothing : result = .ok none ↔ ∀ o ∈ results, o.2 = none

variable {int net target}

theorem firstOf_nil : FirstOf [] (.ok none) := by
  refine ⟨fun conn => ⟨fun h => (by cases h), ?_⟩, ⟨fun _ => ?_, fun _ => rfl⟩⟩
  · rintro ⟨before, p, after, heq, _⟩
    cases before <;> cases heq
  · intro o ho
    cases ho

/-- A failure in front changes nothing. -/
theorem FirstOf.cons_none {results : List (ProxyRating × Option Conn)}
    {result : Except Exc (Option Conn)} (h : FirstOf results result) (p : ProxyRating) :
    FirstOf ((p, none) :: results) result := by
  refine ⟨fun conn => ?_, ?_⟩
  · rw [h.found conn]
    constructor
    · rintro ⟨before, q, after, rfl, hnone⟩
      refine ⟨(p, none) :: before, q, after, rfl, ?_⟩
      intro o ho
      rcases List.mem_cons.mp ho with rfl | ho
      · rfl
      · exact hnone o ho
    · rintro ⟨before, q, after, heq, hnone⟩
      cases before with
      | nil => cases heq
      | cons o before =>
        rw [List.cons_append, List.cons.injEq] at heq
        exact ⟨before, q, after, heq.2, fun o ho => hnone o (List.mem_cons_of_mem _ ho)⟩
  · rw [h.nothing, List.forall_mem_cons]
    exact ⟨fun hall => ⟨rfl, hall⟩, fun hall => hall.2⟩

/-- A success in front is the first one. -/
theorem firstOf_cons_some (p : ProxyRating) (conn : Conn)
    (results : List (ProxyRating × Option Conn)) :
    FirstOf ((p, some conn) :: results) (.ok (some conn)) := by
  refine ⟨fun conn' => ?_, ?_⟩
  · constructor
    · intro h
      cases h
      exact ⟨[], p, results, rfl, fun o ho => (by cases ho)⟩
    · rintro ⟨before, q, after, heq, hnone⟩
      cases before with
      | nil =>
        cases heq
        rfl
      | cons o before =>
        rw [List.cons_append, List.cons.injEq] at heq
        have := hnone o List.mem_cons_self
        rw [← heq.1] at this
        cases this
  · constructor
    · intro h
      cases h
    · intro h
      cases h _ List.mem_cons_self

/-- The attempt at one candidate. -/
theorem poolAttempts_cons {p : ProxyRating} {c : Contact}
    (hc : openProxyConn int p = .ok (some c)) (rest : List ProxyRating) (log : Log) :
    (∃ conn log', trial net target p c log.contacts.length = some conn ∧
        poolAttempts int net target (p :: rest) log = (.ok (some conn), log')) ∨
      ∃ log', trial net target p c log.contacts.length = none ∧
        log'.contacts.length = log.contacts.length + 1 ∧
        poolAttempts int net target (p :: rest) log = poolAttempts int net target rest log' := by
  simp only [poolAttempts, hc, openConnection, trial]
  cases net log.contacts.length with
  | refused => exact .inr ⟨_, rfl, by simp [Log.contact], rfl⟩
  | opened h =>
    dsimp only
    cases hneg : negotiateProxy target p h with
    | accepted => exact .inl ⟨_, _, rfl, rfl⟩
    | broken => exact .inr ⟨_, rfl, by simp [Log.contact, Log.answer, Log.close], rfl⟩
    | declined => exact .inr ⟨_, rfl, by simp [Log.contact, Log.answer, Log.close], rfl⟩

/-- The loop returns the first success, if every address has a port. -/
theorem poolAttempts_firstOf {ps : List ProxyRating} (hport : ∀ p ∈ ps, ':' ∈ p.address)
    (log : Log) :
    FirstOf (trials int net target ps log.contacts.length)
      (poolAttempts int net target ps log).1 := by
  induction ps generalizing log with
  | nil => exact firstOf_nil
  | cons p rest ih =>
    have ih := ih (fun q hq => hport q (List.mem_cons_of_mem _ hq))
    cases hc : openProxyConn int p with
    | error e =>
      -- the address can be split
      have hsplit : rsplitColon p.address ≠ none := fun h =>
        rsplitColon_eq_none.mp h (hport p List.mem_cons_self)
      unfold openProxyConn at hc
      split at hc
      · next h => exact absurd h hsplit
      · cases hc
    | ok peer =>
      cases peer with
      | none =>
        -- the port is no number: there is no connection to count
        simp only [poolAttempts, trials, hc]
        exact (ih log).cons_none p
      | some c =>
        simp only [trials, hc]
        rcases @poolAttempts_cons int net target p c hc rest log with
          ⟨conn, log', htrial, heq⟩ | ⟨log', htrial, hlen, heq⟩
        · rw [htrial, heq]
          exact firstOf_cons_some p conn _
        · rw [htrial, heq, ← hlen]
          exact (ih log').cons_none p

/-- Nothing succeeds when every connection is refused. -/
theorem trials_refused (ps : List ProxyRating) (n : ℕ) :
    ∀ o ∈ trials int (fun _ => .refused) target ps n, o.2 = none := by
  induction ps generalizing n with
  | nil => exact fun o ho => (by cases ho)
  | cons p rest ih =>
    unfold trials
    split
    · exact List.forall_mem_cons.mpr ⟨rfl, ih (n + 1)⟩
    · exact List.forall_mem_cons.mpr ⟨rfl, ih n⟩

/-- An address without a port is reached when every connection is refused. -/
theorem poolAttempts_refused {ps : List ProxyRating} {p : ProxyRating} (hp : p ∈ ps)
    (hport : ':' ∉ p.address) (log : Log) :
    (poolAttempts int (fun _ => .refused) target ps log).1 ≠ .ok none := by
  induction ps generalizing log with
  | nil => cases hp
  | cons q rest ih =>
    cases hc : openProxyConn int q with
    | error e =>
      simp only [poolAttempts, hc]
      exact fun h => (by cases h)
    | ok peer =>
      have hrest : p ∈ rest := by
        rcases List.mem_cons.mp hp with rfl | hrest
        · rw [openProxyConn, rsplitColon_eq_none.mpr hport] at hc
          cases hc
        · exact hrest
      cases peer with
      | none =>
        simp only [poolAttempts, hc]
        exact ih hrest log
      | some c =>
        simp only [poolAttempts, hc, openConnection]
        exact ih hrest _

end

/-! ### The promise -/

section

variable (int : Str → Option ℤ) (upper : Str → Str) (cfg : Settings) (m : RatingMap) (now : ℚ)
  (target : Target)

/-- What is promised: the pool is as it should be, and whatever the network answers, a call
returns a connection through the first of the first eight that succeeds. -/
structure PoolPromise : Prop where
  pool : PoolOf upper cfg m now target (buildPool upper (cfg.withRatings m now) target)
  first : ∀ net log,
    FirstOf
      (trials int net target ((buildPool upper (cfg.withRatings m now) target).take 8)
        log.contacts.length)
      (connectViaPool int upper (cfg.withRatings m now) net target log).1

/-- The address of each of the eight best candidates has a colon. -/
def Ported : Prop :=
  ∀ v ∈ candidates upper (cfg.withRatings m now) target,
    Ranking.rank Better (candidates upper (cfg.withRatings m now) target) v < 8 →
      ':' ∈ v.address

variable {int upper cfg m now target}

theorem mem_take_buildPool {v : ProxyRating}
    (hv : v ∈ candidates upper (cfg.withRatings m now) target) :
    v ∈ (buildPool upper (cfg.withRatings m now) target).take 8 ↔
      Ranking.rank Better (candidates upper (cfg.withRatings m now) target) v < 8 :=
  Ranking.mem_take_iff_rank (nodup_candidates _ _ _) (buildPool_perm _ _ _)
    (buildPool_pairwise _ _ _) hv 8

/-- **The pool and its use**, exactly: everything promised holds if and only if the address
of each of the eight best candidates has a colon. -/
theorem pool_iff_ported (int : Str → Option ℤ) (upper : Str → Str) (cfg : Settings)
    (m : RatingMap) (now : ℚ) (target : Target) :
    PoolPromise int upper cfg m now target ↔ Ported upper cfg m now target := by
  constructor
  · intro h v hv hrank
    by_contra hport
    -- refuse all connections: the loop comes to the address without a port
    have hmem := (mem_take_buildPool hv).mpr hrank
    have hfirst := h.first (fun _ => .refused) (.start [])
    exact poolAttempts_refused hmem hport (.start [])
      (hfirst.nothing.mpr (trials_refused _ _))
  · intro h
    refine ⟨buildPool_poolOf, fun net log => ?_⟩
    refine poolAttempts_firstOf (fun v hv => ?_) log
    have hcand : v ∈ candidates upper (cfg.withRatings m now) target :=
      (buildPool_perm _ _ _).mem_iff.mp (List.mem_of_mem_take hv)
    exact h v hcand ((mem_take_buildPool hcand).mp hv)

/-! ### A selected proxy -/

/-- The ratings after the proxy at an address has been selected by hand. -/
def selectedMap (addr : Str) (haddr : addr ≠ []) : RatingMap where
  byAddress := ((PoolState.start [] 1000).select addr).ratings
  keyed := by
    intro addr' r hr
    have hsel : ((PoolState.start [] 1000).select addr).ratings =
        Dict.empty.insert addr (.selected addr 1000) := by
      unfold PoolState.select
      rw [if_pos ⟨haddr, rfl⟩]
      rfl
    rw [hsel, Dict.get?_insert, Dict.get?_empty] at hr
    split at hr
    · next h =>
      cases hr
      exact h.symm
    · cases hr

/-- A proxy that has been selected as `localhost` belongs to the pool for plain requests, and
every such request ends with an exception. -/
theorem pool_selected_address :
    ¬ ∀ (cfg : Settings) (m : RatingMap) (now : ℚ) (target : Target),
      PoolPromise digitsInt id cfg m now target := by
  intro hall
  have hpromise := hall (sampleSettings []) (selectedMap "localhost".toList (by decide)) 1000
    ⟨"example.org".toList, 80, false⟩
  have hfirst := hpromise.first (fun _ => .refused) (.start [])
  have hreply : (connectViaPool digitsInt id
      ((sampleSettings []).withRatings (selectedMap "localhost".toList (by decide)) 1000)
      (fun _ => .refused) ⟨"example.org".toList, 80, false⟩ (.start [])).1 =
        .error .valueError := by decide +kernel
  rw [hreply] at hfirst
  have hnothing := hfirst.nothing.mpr (trials_refused _ _)
  cases hnothing

end

end HuntProxy.Routing
