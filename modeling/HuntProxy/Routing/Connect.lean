import HuntProxy.Routing.Resolve
import Mathlib.Algebra.Order.Ring.Rat
import Mathlib.Data.List.Sort
import Mathlib.Data.List.TakeWhile

/-!
# Connecting by a route

`_connect_by_route` turns a route into a connection: a direct one, one through a custom
proxy, one through the address that the route pins, or one through the pool. A pinned
address is tried up to three times by the connector that custom proxies use as well; when
it fails, the pool is tried only if `fallback_pool` is set.

What the network answers is a parameter: the outcome of the connection attempts, in order.
A call leaves a log of what it did.

## Main definitions

- `Network`, `Log` — the outcomes of the attempts and the record of a call
- `Connector.attempts` — the retrying connector
- `connectByRoute` — the dispatch over the routes
- `Pins`, `Strict` — the routes that pin an address, and what strict mode promises

## Main results

- `attempts_tried` — what the connector does to one peer
- `strict_iff_dialable` — when a pinned route keeps what strict mode promises
- `selected_without_port` — a call that fails with an exception
-/

namespace HuntProxy.Routing

/-! ### The settings -/

/-- The fields of `ProxyRating` that routing reads; `poolEligible` and `score` are
properties computed from others. -/
structure ProxyRating where
  address : Str
  protocol : Str
  inBlacklist : Bool
  sslSupported : Bool
  supportsConnect : Bool
  lastStatus : Str
  countryCode : Str
  egressCountryCode : Str
  poolEligible : Bool
  score : ℚ
  deriving DecidableEq, Repr

/-- `state.ratings`: every rating is stored under its own address. -/
structure Ratings where
  byAddress : Dict Str ProxyRating
  keyed : ∀ addr r, byAddress.get? addr = some r → r.address = addr

/-- A row of `custom_proxies`. -/
structure CustomProxy where
  enabled : Bool
  protocol : Str
  host : Str
  port : ℤ
  deriving DecidableEq, Repr

/-- What a call reads: the routing settings, the ratings, the proxy runner, the custom
proxies, whether a channel is set, and the country policy of the pool. -/
structure Settings where
  db : Database
  ratings : Ratings
  runner : ProxyRunner
  customProxy : Str → Option CustomProxy
  channelIsSet : Bool
  countryMode : Str
  countryCodes : List Str

/-- The target of a call, and whether a tunnel is needed to reach it. -/
structure Target where
  host : Str
  port : ℤ
  needConnect : Bool
  deriving DecidableEq, Repr

/-! ### The network and the log -/

/-- A peer that a connection is opened to. -/
inductive Contact
  | proxy (host : Str) (port : ℤ) (tls : Bool)
  | custom (host : Str) (port : ℤ)
  | direct (host : Str) (port : ℤ)
  | channel (host : Str) (port : ℤ)
  deriving DecidableEq, Repr

/-- How a handshake goes: the connection breaks, the proxy refuses the target, or it
accepts it. -/
inductive Handshake
  | broken
  | declined
  | accepted
  deriving DecidableEq, Repr

/-- What comes of an attempt to open a connection. -/
inductive Answer
  | refused
  | opened (h : Handshake)
  deriving DecidableEq, Repr

/-- The answers to the attempts of a call, in order. -/
abbrev Network := ℕ → Answer

/-- The record of a call: the peers contacted, what the negotiations came to by the number
of the connection, the connections closed again, the pauses, the arguments of
`_record_traffic_fail`, and the chain. -/
structure Log where
  contacts : List Contact
  answers : List (ℕ × Handshake)
  closed : List ℕ
  sleeps : List ℚ
  fails : List Str
  chain : List Str
  deriving DecidableEq, Repr

/-- The exceptions that a call may end with. -/
inductive Exc
  | valueError
  | recursionError
  deriving DecidableEq, Repr

/-- A returned connection: its number, its peer, and whether the peer is a raw proxy. -/
structure Conn where
  id : ℕ
  contact : Contact
  isRawProxy : Bool
  deriving DecidableEq, Repr

/-- The result of a call and its log. -/
abbrev Reply := Except Exc (Option Conn) × Log

namespace Log

/-- The log at the start of a call. -/
def start (chain : List Str) : Log := ⟨[], [], [], [], [], chain⟩

def contact (log : Log) (c : Contact) : Log := { log with contacts := log.contacts ++ [c] }

def answer (log : Log) (id : ℕ) (h : Handshake) : Log :=
  { log with answers := log.answers ++ [(id, h)] }

/-- `_safe_close`. -/
def close (log : Log) (id : ℕ) : Log := { log with closed := log.closed ++ [id] }

/-- `_record_traffic_fail`. -/
def recordTrafficFail (log : Log) (addr : Str) : Log := { log with fails := log.fails ++ [addr] }

def note (log : Log) (tag : Str) : Log := { log with chain := log.chain ++ [tag] }

/-- `_CONNECT_RETRIES`. -/
def connectRetries : ℕ := 3

/-- `_RETRY_DELAYS`. -/
def retryDelays : List ℚ := [1 / 10, 1 / 5, 2 / 5]

/-- The pause between two attempts. -/
def backoff (log : Log) (attempt : ℕ) : Log :=
  if attempt < connectRetries - 1 then
    { log with sleeps := log.sleeps ++ [retryDelays.getD attempt 0] }
  else log

@[simp] theorem backoff_contacts (log : Log) (attempt : ℕ) :
    (log.backoff attempt).contacts = log.contacts := by
  unfold backoff
  split <;> rfl

@[simp] theorem backoff_answers (log : Log) (attempt : ℕ) :
    (log.backoff attempt).answers = log.answers := by
  unfold backoff
  split <;> rfl

@[simp] theorem backoff_fails (log : Log) (attempt : ℕ) :
    (log.backoff attempt).fails = log.fails := by
  unfold backoff
  split <;> rfl

end Log

/-- `asyncio.open_connection`: the number of the connection and the handshake that would
follow, or nothing. -/
def openConnection (net : Network) (c : Contact) (log : Log) : Option (ℕ × Handshake) × Log :=
  match net log.contacts.length with
  | .refused => (none, log.contact c)
  | .opened h => (some (log.contacts.length, h), log.contact c)

/-! ### The retrying connector -/

/-- What the two users of the connector differ in: the peer (nothing, if an exception in
the attempt is caught), how the handshake is used, and what is noted and returned. -/
structure Connector where
  contact : Except Exc (Option Contact)
  negotiate : Handshake → Handshake
  tag : ℕ → Str
  isRawProxy : Bool

/-- Up to `left` more attempts, the next of them being number `attempt`. -/
def Connector.attempts (k : Connector) (net : Network) : ℕ → ℕ → Log → Reply
  | 0, _, log => (.ok none, log)
  | left + 1, attempt, log =>
    match k.contact with
    | .error e => (.error e, log)
    | .ok none => k.attempts net left (attempt + 1) (log.backoff attempt)
    | .ok (some c) =>
      match openConnection net c log with
      | (none, log) => k.attempts net left (attempt + 1) (log.backoff attempt)
      | (some (id, h), log) =>
        match k.negotiate h with
        | .broken =>
          k.attempts net left (attempt + 1) (((log.answer id .broken).close id).backoff attempt)
        | .declined => (.ok none, (log.answer id .declined).close id)
        | .accepted =>
          (.ok (some ⟨id, c, k.isRawProxy⟩), (log.answer id .accepted).note (k.tag attempt))

/-- `f" (retry:{attempt})" if attempt else ""`. -/
def retryTag (attempt : ℕ) : Str :=
  if attempt = 0 then [] else " (retry:".toList ++ (toString attempt).toList ++ ")".toList

/-- `addr.rsplit(":", 1)` into two parts. -/
def rsplitColon (addr : Str) : Option (Str × Str) :=
  match addr.reverse.dropWhile (· != ':') with
  | [] => none
  | _ :: rest => some (rest.reverse, (addr.reverse.takeWhile (· != ':')).reverse)

/-- `protocol in ("socks4", "socks5")`. -/
def isSocks (protocol : Str) : Bool := protocol == "socks4".toList || protocol == "socks5".toList

section

variable (int : Str → Option ℤ) (upper : Str → Str) (cfg : Settings) (net : Network)
  (target : Target)

/-! ### The branches -/

/-- The peer that `_open_proxy_conn` opens a connection to. Splitting the address is not
within its `try`; a port that is no number is. -/
def openProxyConn (r : ProxyRating) : Except Exc (Option Contact) :=
  match rsplitColon r.address with
  | none => .error .valueError
  | some (phost, pport) => .ok ((int pport).map (fun p => .proxy phost p r.sslSupported))

/-- `_negotiate_proxy`: without a tunnel there is nothing to negotiate with an HTTP proxy. -/
def negotiateProxy (r : ProxyRating) (h : Handshake) : Handshake :=
  if isSocks r.protocol || target.needConnect then h else .accepted

/-- The connector of `_connect_via_rating`. -/
def ratingConnector (r : ProxyRating) : Connector where
  contact := openProxyConn int r
  negotiate := negotiateProxy target r
  tag := fun attempt => "proxy:".toList ++ r.address ++ retryTag attempt
  isRawProxy := !target.needConnect && !isSocks r.protocol

/-- `_connect_via_rating`. -/
def connectViaRating (r : ProxyRating) (log : Log) : Reply :=
  (ratingConnector int target r).attempts net Log.connectRetries 0 log

/-- `_connect_via_addr`. -/
def connectViaAddr (addr : Str) (log : Log) : Reply :=
  match cfg.ratings.byAddress.get? addr with
  | none => (.ok none, log)
  | some r => if r.inBlacklist then (.ok none, log) else connectViaRating int net target r log

/-- `_connect_direct`. -/
def connectDirect (log : Log) : Reply :=
  let c := if cfg.channelIsSet then Contact.channel target.host target.port
    else Contact.direct target.host target.port
  match openConnection net c log with
  | (none, log) => (.ok none, log)
  | (some (id, _), log) =>
    (.ok (some ⟨id, c, false⟩),
      log.note (if cfg.channelIsSet then "direct via channel".toList else "direct".toList))

/-- `_connect_via_custom`; `next` connects by the default route. -/
def connectViaCustom (next : Log → Reply) (id : Str) (log : Log) : Reply :=
  match (cfg.customProxy id).filter CustomProxy.enabled with
  | none => next (log.note ("custom:".toList ++ id ++ " (disabled)".toList))
  | some proxy =>
    let tunnel := proxy.protocol == "socks5".toList || target.needConnect
    Connector.attempts
      { contact := .ok (some (.custom proxy.host proxy.port))
        negotiate := fun h => if tunnel then h else .accepted
        tag := fun attempt =>
          "custom:".toList ++ id ++ (if tunnel then retryTag attempt else [])
        isRawProxy := !tunnel }
      net Log.connectRetries 0 log

/-- `pool_country_allows_code`. -/
def poolCountryAllowsCode (code mode : Str) (codes : List Str) : Bool :=
  if mode = "off".toList ∨ codes = [] then true
  else
    let listed := upper code != [] && codes.contains (upper code)
    if mode = "only".toList then listed else !listed

/-- `_build_pool`. -/
def buildPool : List ProxyRating :=
  let eligible := cfg.ratings.byAddress.values.filter (fun r =>
    r.poolEligible &&
      poolCountryAllowsCode upper
        (if r.egressCountryCode = [] then r.countryCode else r.egressCountryCode)
        cfg.countryMode cfg.countryCodes &&
      (!target.needConnect || r.supportsConnect || isSocks r.protocol))
  let live := eligible.filter (fun r => r.lastStatus == "ok".toList)
  let grace := eligible.filter (fun r => r.lastStatus != "ok".toList)
  live.insertionSort (fun a b => b.score ≤ a.score) ++
    grace.insertionSort (fun a b => b.score ≤ a.score)

/-- The loop of `_connect_via_pool`. -/
def poolAttempts : List ProxyRating → Log → Reply
  | [], log => (.ok none, log)
  | p :: rest, log =>
    match openProxyConn int p with
    | .error e => (.error e, log)
    | .ok none => poolAttempts rest log
    | .ok (some c) =>
      match openConnection net c log with
      | (none, log) => poolAttempts rest log
      | (some (id, h), log) =>
        match negotiateProxy target p h with
        | .accepted =>
          (.ok (some ⟨id, c, !target.needConnect && !isSocks p.protocol⟩),
            (log.answer id .accepted).note ("pool:".toList ++ p.address))
        | h => poolAttempts rest ((log.answer id h).close id)

/-- `_connect_via_pool`. -/
def connectViaPool (log : Log) : Reply :=
  poolAttempts int net target ((buildPool upper cfg target).take 8) log

/-- `_pool_fallback_enabled`. -/
def poolFallbackEnabled : Bool :=
  cfg.db.routingGet "fallback_pool".toList "false".toList == "true".toList

/-- The block that the routes with a pinned address share. -/
def connectPinned (addr : Str) (log : Log) : Reply :=
  match connectViaAddr int cfg net target addr log with
  | (.ok none, log) =>
    let log := log.recordTrafficFail addr
    if poolFallbackEnabled cfg then
      connectViaPool int upper cfg net target
        (log.note ("proxy:".toList ++ addr ++ " (fallback→pool)".toList))
    else (.ok none, log)
  | reply => reply

/-- The active proxy, if it is a non-empty address. -/
def activeProxy : Option Str := cfg.runner.activeProxyAddr.filter (· ≠ [])

/-- `_connect_fallback`. -/
def connectFallback (log : Log) : Reply :=
  if cfg.runner.directMode then connectDirect cfg net target log
  else
    match activeProxy cfg with
    | some addr => connectPinned int upper cfg net target addr log
    | none => connectViaPool int upper cfg net target log

/-- One level of `_connect_by_route`; `next` connects by the default route. -/
def dispatch (next : Log → Reply) (route : Str) (log : Log) : Reply :=
  if route = "direct".toList then connectDirect cfg net target log
  else if "custom:".toList.isPrefixOf route then
    connectViaCustom cfg net target next (route.drop 7) log
  else if "proxy:".toList.isPrefixOf route then
    connectPinned int upper cfg net target (route.drop 6) log
  else if route = "pool_selected".toList then
    match activeProxy cfg with
    | some addr => connectPinned int upper cfg net target addr log
    | none => connectViaPool int upper cfg net target log
  else if route = "pool".toList ∨ route = [] then connectViaPool int upper cfg net target log
  else connectFallback int upper cfg net target log

/-- `_connect_by_route`. A disabled custom proxy leads to the default route, which may lead
to a disabled custom proxy again, as often as the recursion limit allows. -/
def connectByRoute : ℕ → Str → Log → Reply
  | 0 => dispatch int upper cfg net target (fun log => (.error .recursionError, log))
  | depth + 1 => dispatch int upper cfg net target (connectByRoute depth cfg.db.defaultRoute)

end

/-! ### One peer -/

section

variable {int : Str → Option ℤ} {upper : Str → Str} {cfg : Settings} {net : Network}
  {target : Target}

/-- A call of the connector keeps to one peer: it makes at most `left` attempts, records no
failure, and stops at the first refusal; a connection that it returns was opened and
negotiated. -/
structure Tried (c : Contact) (left : ℕ) (log : Log) (reply : Reply) : Prop where
  contacts : ∃ n ≤ left, reply.2.contacts = log.contacts ++ List.replicate n c
  fails : reply.2.fails = log.fails
  declined : ∀ id, (id, Handshake.declined) ∈ reply.2.answers →
    (id, Handshake.declined) ∈ log.answers ∨ id + 1 = reply.2.contacts.length
  result : reply.1 = .ok none ∨
    ∃ conn, reply.1 = .ok (some conn) ∧ conn.contact = c ∧
      reply.2.contacts[conn.id]? = some c ∧ (conn.id, Handshake.accepted) ∈ reply.2.answers

/-- An attempt that fails without a refusal, before the others. -/
theorem Tried.cons {c : Contact} {left : ℕ} {log log' : Log} {reply : Reply}
    (h : Tried c left log' reply) (hcontacts : log'.contacts = log.contacts ++ [c])
    (hfails : log'.fails = log.fails)
    (hanswers : ∀ id, (id, Handshake.declined) ∈ log'.answers →
      (id, Handshake.declined) ∈ log.answers) :
    Tried c (left + 1) log reply := by
  obtain ⟨n, hn, heq⟩ := h.contacts
  refine ⟨⟨n + 1, by omega, ?_⟩, h.fails.trans hfails, ?_, h.result⟩
  · rw [heq, hcontacts, List.append_assoc, List.replicate_succ]
    rfl
  · intro id hid
    exact (h.declined id hid).imp (hanswers id) (fun hlast => hlast)

/-- **What the connector does to one peer.** -/
theorem attempts_tried {k : Connector} {c : Contact} (hc : k.contact = .ok (some c))
    (left attempt : ℕ) (log : Log) : Tried c left log (k.attempts net left attempt log) := by
  induction left generalizing attempt log with
  | zero =>
    refine ⟨⟨0, le_rfl, ?_⟩, rfl, fun id hid => .inl hid, .inl rfl⟩
    exact (List.append_nil _).symm
  | succ left ih =>
    simp only [Connector.attempts, hc, openConnection]
    cases hnet : net log.contacts.length with
    | refused =>
      refine (ih _ _).cons ?_ ?_ ?_
      · simp [Log.contact]
      · simp [Log.contact]
      · intro id hid
        simpa [Log.contact] using hid
    | opened h =>
      dsimp only
      have hone : log.contacts ++ List.replicate 1 c = (log.contact c).contacts := rfl
      cases k.negotiate h with
      | broken =>
        refine (ih _ _).cons ?_ ?_ ?_
        · simp [Log.contact, Log.answer, Log.close]
        · simp [Log.contact, Log.answer, Log.close]
        · intro id hid
          simpa [Log.contact, Log.answer, Log.close] using hid
      | declined =>
        refine ⟨⟨1, by omega, hone.symm⟩, rfl, ?_, .inl rfl⟩
        intro id hid
        rcases List.mem_append.mp hid with hold | hnew
        · exact .inl hold
        · right
          cases List.mem_singleton.mp hnew
          simp [Log.contact, Log.answer, Log.close]
      | accepted =>
        refine ⟨⟨1, by omega, hone.symm⟩, rfl, ?_, .inr ⟨_, rfl, rfl, ?_, ?_⟩⟩
        · intro id hid
          rcases List.mem_append.mp hid with hold | hnew
          · exact .inl hold
          · cases List.mem_singleton.mp hnew
        · simp [Log.contact, Log.answer, Log.note]
        · simp [Log.contact, Log.answer, Log.note]

/-- Without a peer the connector only pauses. -/
theorem attempts_no_contact {k : Connector} (hc : k.contact = .ok none) (left attempt : ℕ)
    (log : Log) :
    ∃ sleeps, k.attempts net left attempt log = (.ok none, { log with sleeps := sleeps }) := by
  induction left generalizing attempt log with
  | zero => exact ⟨log.sleeps, rfl⟩
  | succ left ih =>
    simp only [Connector.attempts, hc]
    obtain ⟨sleeps, heq⟩ := ih (attempt + 1) (log.backoff attempt)
    refine ⟨sleeps, ?_⟩
    rw [heq]
    unfold Log.backoff
    split <;> rfl

/-! ### Addresses -/

theorem rsplitColon_eq_none {addr : Str} : rsplitColon addr = none ↔ ':' ∉ addr := by
  unfold rsplitColon
  constructor
  · intro h hmem
    split at h
    · next hnil =>
      have hall := List.dropWhile_eq_nil_iff.mp hnil ':' (List.mem_reverse.mpr hmem)
      simp at hall
    · cases h
  · intro h
    have hnil : addr.reverse.dropWhile (· != ':') = [] := by
      rw [List.dropWhile_eq_nil_iff]
      intro x hx
      have hne : x ≠ ':' := by
        rintro rfl
        exact h (List.mem_reverse.mp hx)
      simpa using hne
    rw [hnil]

/-- The two parts of an address, at its last colon. -/
theorem rsplitColon_eq_some {addr host port : Str} (h : rsplitColon addr = some (host, port)) :
    addr = host ++ ':' :: port ∧ ':' ∉ port := by
  unfold rsplitColon at h
  split at h
  · cases h
  · next x rest hdrop =>
    cases h
    have hx : x = ':' := by
      have hhead := List.head?_dropWhile_not (· != ':') addr.reverse
      rw [hdrop] at hhead
      simpa using hhead
    subst hx
    have hsplit := List.takeWhile_append_dropWhile (p := (· != ':')) (l := addr.reverse)
    constructor
    · rw [hdrop] at hsplit
      have hrev := congrArg List.reverse hsplit
      rw [List.reverse_reverse, List.reverse_append, List.reverse_cons] at hrev
      rw [List.append_assoc] at hrev
      exact hrev.symm
    · intro hmem
      have hmem := List.mem_takeWhile_imp (List.mem_reverse.mp hmem)
      simp at hmem

/-! ### Strict mode -/

/-- The route pins the address. -/
inductive Pins (cfg : Settings) : Str → Str → Prop
  | proxy (addr : Str) : Pins cfg ("proxy:".toList ++ addr) addr
  | selected {addr : Str} (h : activeProxy cfg = some addr) :
    Pins cfg "pool_selected".toList addr
  | unrecognised {route addr : Str} (hdirect : route ≠ "direct".toList)
    (hcustom : ¬ "custom:".toList <+: route) (hproxy : ¬ "proxy:".toList <+: route)
    (hselected : route ≠ "pool_selected".toList) (hpool : route ≠ "pool".toList)
    (hempty : route ≠ []) (hmode : cfg.runner.directMode = false)
    (h : activeProxy cfg = some addr) : Pins cfg route addr

/-- The peer is the one that the address names. -/
def AtAddress (int : Str → Option ℤ) (addr : Str) (c : Contact) : Prop :=
  ∃ host port p tls, c = .proxy host p tls ∧ addr = host ++ ':' :: port ∧ ':' ∉ port ∧
    int port = some p

/-- What strict mode promises about a call on a route that pins the address. -/
structure Strict (int : Str → Option ℤ) (addr : Str) (reply : Reply) : Prop where
  result : (∃ conn, reply.1 = .ok (some conn) ∧ AtAddress int addr conn.contact ∧
      reply.2.contacts[conn.id]? = some conn.contact ∧
      (conn.id, Handshake.accepted) ∈ reply.2.answers) ∨
    reply.1 = .ok none ∧ reply.2.fails = [addr]
  contacts : ∀ c ∈ reply.2.contacts, AtAddress int addr c
  bound : reply.2.contacts.length ≤ 3
  declined : ∀ id, (id, Handshake.declined) ∈ reply.2.answers →
    id + 1 = reply.2.contacts.length

/-- An address whose rating is used has a port. -/
def Dialable (cfg : Settings) (addr : Str) : Prop :=
  ∀ r, cfg.ratings.byAddress.get? addr = some r → r.inBlacklist = false → ':' ∈ addr

/-- A route that pins an address leads to the block for pinned addresses. -/
theorem dispatch_of_pins {next : Log → Reply} {route addr : Str} (h : Pins cfg route addr)
    (log : Log) :
    dispatch int upper cfg net target next route log =
      connectPinned int upper cfg net target addr log := by
  cases h with
  | proxy => rfl
  | selected h =>
    have hactive : dispatch int upper cfg net target next "pool_selected".toList log =
        match activeProxy cfg with
        | some addr => connectPinned int upper cfg net target addr log
        | none => connectViaPool int upper cfg net target log := rfl
    rw [hactive, h]
  | unrecognised hdirect hcustom hproxy hselected hpool hempty hmode h =>
    have hcustom : ¬ "custom:".toList.isPrefixOf route = true := by
      rwa [List.isPrefixOf_iff_prefix]
    have hproxy : ¬ "proxy:".toList.isPrefixOf route = true := by
      rwa [List.isPrefixOf_iff_prefix]
    have hneither : ¬ (route = "pool".toList ∨ route = []) := fun hor => hor.elim hpool hempty
    have hmode : ¬ cfg.runner.directMode = true := by simp [hmode]
    unfold dispatch connectFallback
    rw [if_neg hdirect, if_neg hcustom, if_neg hproxy, if_neg hselected, if_neg hneither,
      if_neg hmode, h]

theorem connectByRoute_of_pins {route addr : Str} (h : Pins cfg route addr) (depth : ℕ)
    (log : Log) :
    connectByRoute int upper cfg net target depth route log =
      connectPinned int upper cfg net target addr log := by
  cases depth with
  | zero => exact dispatch_of_pins h log
  | succ depth => exact dispatch_of_pins h log

/-- A reply, with its failure recorded. -/
def recorded (addr : Str) : Reply → Reply
  | (.ok none, log) => (.ok none, log.recordTrafficFail addr)
  | reply => reply

/-- In strict mode a failure is recorded and the call is over. -/
theorem connectPinned_strict (hstrict : poolFallbackEnabled cfg = false) (addr : Str)
    (log : Log) :
    connectPinned int upper cfg net target addr log =
      recorded addr (connectViaAddr int cfg net target addr log) := by
  unfold connectPinned recorded
  split
  · simp [hstrict]
  · rfl

/-- A failed call that contacted nobody and whose failure is recorded. -/
theorem strict_of_silent (addr : Str) (sleeps : List ℚ) (chain : List Str) :
    Strict int addr
      (.ok none, { Log.start chain with sleeps := sleeps, fails := [addr] }) := by
  refine ⟨.inr ⟨rfl, rfl⟩, ?_, Nat.zero_le _, ?_⟩
  · intro c hc
    cases hc
  · intro id hid
    cases hid

/-- Strict mode after the attempts at the peer that the address names. -/
theorem Tried.strict {addr : Str} {c : Contact} {chain : List Str} {reply : Reply}
    (h : Tried c Log.connectRetries (Log.start chain) reply) (hc : AtAddress int addr c) :
    Strict int addr (recorded addr reply) := by
  obtain ⟨n, hn, hcontacts⟩ := h.contacts
  have hcontacts : reply.2.contacts = List.replicate n c := hcontacts
  have hat : ∀ c' ∈ reply.2.contacts, AtAddress int addr c' := by
    intro c' hc'
    rw [hcontacts] at hc'
    rwa [List.eq_of_mem_replicate hc']
  have hbound : reply.2.contacts.length ≤ 3 := by
    rw [hcontacts, List.length_replicate]
    exact hn
  have hdeclined : ∀ id, (id, Handshake.declined) ∈ reply.2.answers →
      id + 1 = reply.2.contacts.length := by
    intro id hid
    rcases h.declined id hid with hold | hlast
    · cases hold
    · exact hlast
  obtain ⟨result, log⟩ := reply
  rcases h.result with hnone | ⟨conn, hsome, rfl, hopened, haccepted⟩
  · obtain rfl : result = .ok none := hnone
    have hfails : log.fails ++ [addr] = [addr] := by rw [h.fails]; rfl
    exact ⟨.inr ⟨rfl, hfails⟩, hat, hbound, hdeclined⟩
  · obtain rfl : result = .ok (some conn) := hsome
    exact ⟨.inl ⟨conn, rfl, hc, hopened, haccepted⟩, hat, hbound, hdeclined⟩

/-- The peer of a rating whose address has a port. -/
theorem ratingConnector_of_port {r : ProxyRating} {host port : Str}
    (h : rsplitColon r.address = some (host, port)) :
    (ratingConnector int target r).contact =
      .ok ((int port).map (fun p => .proxy host p r.sslSupported)) := by
  change openProxyConn int r = _
  rw [openProxyConn, h]

/-- A rating whose address has a port keeps strict mode. -/
theorem connectViaRating_strict {r : ProxyRating} (hport : ':' ∈ r.address) (chain : List Str) :
    Strict int r.address
      (recorded r.address (connectViaRating int net target r (.start chain))) := by
  unfold connectViaRating
  cases hsplit : rsplitColon r.address with
  | none => exact absurd hport (rsplitColon_eq_none.mp hsplit)
  | some parts =>
    obtain ⟨host, port⟩ := parts
    obtain ⟨heq, hlast⟩ := rsplitColon_eq_some hsplit
    have hcontact := @ratingConnector_of_port int target r host port hsplit
    cases hint : int port with
    | none =>
      rw [hint, Option.map_none] at hcontact
      obtain ⟨sleeps, hsleeps⟩ :=
        @attempts_no_contact net _ hcontact Log.connectRetries 0 (.start chain)
      rw [hsleeps]
      exact strict_of_silent r.address sleeps chain
    | some p =>
      rw [hint, Option.map_some] at hcontact
      have hat : AtAddress int r.address (.proxy host p r.sslSupported) :=
        ⟨host, port, p, r.sslSupported, rfl, heq, hlast, hint⟩
      exact (attempts_tried hcontact Log.connectRetries 0 (.start chain)).strict hat

/-- A rating whose address has no port ends the call with an exception. -/
theorem connectViaRating_no_port {r : ProxyRating} (hport : ':' ∉ r.address) (log : Log) :
    connectViaRating int net target r log = (.error .valueError, log) := by
  have hcontact : (ratingConnector int target r).contact = .error .valueError := by
    change openProxyConn int r = _
    rw [openProxyConn, rsplitColon_eq_none.mpr hport]
  simp only [connectViaRating, Log.connectRetries, Connector.attempts, hcontact]

/-- **Strict mode never leaks to another path**, exactly for addresses that can be dialled:
a call on a route that pins an address returns a connection negotiated there, or nothing
after at most three attempts and one recorded failure, if and only if the address, when a
rating of it is used, has a port. -/
theorem strict_iff_dialable (int : Str → Option ℤ) (upper : Str → Str) (cfg : Settings)
    (net : Network) (target : Target) {route addr : Str}
    (hstrict : cfg.db.routingGet "fallback_pool".toList "false".toList ≠ "true".toList)
    (hpins : Pins cfg route addr) (depth : ℕ) (chain : List Str) :
    Strict int addr (connectByRoute int upper cfg net target depth route (.start chain)) ↔
      Dialable cfg addr := by
  have hoff : poolFallbackEnabled cfg = false := by
    unfold poolFallbackEnabled
    simpa using hstrict
  have hsilent := @strict_of_silent int addr [] chain
  rw [connectByRoute_of_pins hpins, connectPinned_strict hoff]
  unfold connectViaAddr Dialable
  cases hr : cfg.ratings.byAddress.get? addr with
  | none => exact ⟨fun _ r h => (by cases h), fun _ => hsilent⟩
  | some r =>
    obtain rfl : r.address = addr := cfg.ratings.keyed addr r hr
    cases hblack : r.inBlacklist with
    | true =>
      simp only [hblack, if_true]
      refine ⟨fun _ r' h hused => ?_, fun _ => hsilent⟩
      cases h
      rw [hblack] at hused
      cases hused
    | false =>
      simp only [hblack, Bool.false_eq_true, if_false]
      constructor
      · intro h r' hr' _
        cases hr'
        by_contra hport
        -- the exception of the unpacking reaches the caller
        rw [connectViaRating_no_port hport] at h
        rcases h.result with ⟨conn, heq, _⟩ | ⟨heq, _⟩
        · cases heq
        · cases heq
      · intro h
        exact connectViaRating_strict (h r rfl hblack) chain

/-! ### Samples -/

/-- A rating of an HTTP proxy that has been selected by hand. -/
def selectedRating (addr : Str) : ProxyRating :=
  ⟨addr, "http".toList, false, false, false, "ok".toList, [], [], false, 0⟩

/-- Settings in strict mode with an active proxy. -/
def sampleSettings (addr : Str) : Settings where
  db := ⟨[], [], .empty⟩
  ratings :=
    { byAddress := Dict.empty.insert addr (selectedRating addr)
      keyed := by
        intro addr' r hr
        rw [Dict.get?_insert, Dict.get?_empty] at hr
        split at hr
        · next h =>
          cases hr
          exact h.symm
        · cases hr }
  runner := ⟨false, some addr⟩
  customProxy := fun _ => none
  channelIsSet := false
  countryMode := "off".toList
  countryCodes := []

/-- `int` on the digits of the sample. -/
def digitsInt (s : Str) : Option ℤ :=
  if s.all Char.isDigit && s != [] then
    some (s.foldl (fun n c => 10 * n + (c.toNat - 48 : ℕ)) 0)
  else none

/-- The proxy is down, then it breaks off, then it refuses the target. -/
theorem strict_iff_dialable_refused :
    let net : Network := fun n => if n = 0 then .refused else if n = 1 then .opened .broken
      else .opened .declined
    let reply := connectByRoute digitsInt id (sampleSettings "10.0.0.7:3128".toList) net
      ⟨"example.org".toList, 443, true⟩ 0 "pool_selected".toList (.start [])
    Strict digitsInt "10.0.0.7:3128".toList reply ∧ reply.2.contacts.length = 3 :=
  ⟨(strict_iff_dialable digitsInt id _ _ _ (by decide) (.selected (by decide)) 0 []).mpr
    (fun _ _ _ => by decide), by decide⟩

/-- A proxy that has been selected without a port: the call ends with an exception, and no
failure is recorded. -/
theorem selected_without_port :
    ¬ ∀ (cfg : Settings) (net : Network) (target : Target) (route addr : Str),
      cfg.db.routingGet "fallback_pool".toList "false".toList ≠ "true".toList →
        Pins cfg route addr → ∀ depth chain,
          Strict digitsInt addr
            (connectByRoute digitsInt id cfg net target depth route (.start chain)) := by
  intro hall
  have hpins : Pins (sampleSettings "localhost".toList) "pool_selected".toList
      "localhost".toList := .selected (by decide)
  have hcall := hall _ (fun _ => .refused) ⟨"example.org".toList, 443, true⟩ _ _ (by decide)
    hpins 0 []
  have hreply : (connectByRoute digitsInt id (sampleSettings "localhost".toList)
      (fun _ => .refused) ⟨"example.org".toList, 443, true⟩ 0 "pool_selected".toList
      (.start [])).1 = .error .valueError := by rfl
  rcases hcall.result with ⟨conn, heq, _⟩ | ⟨heq, _⟩
  · rw [hreply] at heq
    cases heq
  · rw [hreply] at heq
    cases heq

end

end HuntProxy.Routing
