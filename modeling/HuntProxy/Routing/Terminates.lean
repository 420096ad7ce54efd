import HuntProxy.Routing.Connect

/-!
# Whether a call by a route comes to an end

A route through a custom proxy that is missing or disabled is *dead*: `_connect_via_custom`
starts over with the stored default route. Nothing keeps the default route from being dead
as well, and then the call starts over for ever. A call that does not start over is over
after one dispatch, with a connection or without one, unless it comes to an address that has
no port.

## Main definitions

- `dead`, `landing` — the routes that lead to the default route, and where a call ends up
- `Settles` — a call gives one result, whatever the bound on the recursion from some depth on
- `RouteDialable` — the addresses that a route can come to have ports

## Main results

- `connectByRoute_loops` — a dead default route: the call starts over at every depth
- `settles_iff` — when every call on a route settles
-/

namespace HuntProxy.Routing

section

variable (int : Str → Option ℤ) (upper : Str → Str) (cfg : Settings) (target : Target)

/-! ### Dead routes -/

/-- The route names a custom proxy that is missing or disabled. -/
def dead (route : Str) : Bool :=
  "custom:".toList.isPrefixOf route &&
    ((cfg.customProxy (route.drop 7)).filter CustomProxy.enabled).isNone

/-- The route that a call ends up on, if it ends up on one. -/
def landing (route : Str) : Str := if dead cfg route then cfg.db.defaultRoute else route

/-- The call gives one result when the recursion may go deep enough. -/
def Settles (net : Network) (route : Str) (log : Log) : Prop :=
  ∃ (d : ℕ) (conn : Option Conn) (log' : Log), ∀ depth, d ≤ depth →
    connectByRoute int upper cfg net target depth route log = (.ok conn, log')

/-! ### Addresses without a port -/

/-- The proxies that the pool offers have ports. -/
def PoolDialable : Prop := ∀ p ∈ (buildPool upper cfg target).take 8, ':' ∈ p.address

/-- The block for a pinned address comes to addresses with ports only. -/
def PinDialable (addr : Str) : Prop :=
  Dialable cfg addr ∧ (poolFallbackEnabled cfg = true → PoolDialable upper cfg target)

/-- The block for the active proxy, or the pool without one. -/
def ActiveDialable : Prop :=
  match activeProxy cfg with
  | some addr => PinDialable upper cfg target addr
  | none => PoolDialable upper cfg target

/-- The route comes to addresses with ports only. -/
def RouteDialable (route : Str) : Prop :=
  if route = "direct".toList then True
  else if "custom:".toList.isPrefixOf route then True
  else if "proxy:".toList.isPrefixOf route then PinDialable upper cfg target (route.drop 6)
  else if route = "pool_selected".toList then ActiveDialable upper cfg target
  else if route = "pool".toList ∨ route = [] then PoolDialable upper cfg target
  else cfg.runner.directMode = true ∨ ActiveDialable upper cfg target

end

variable {int : Str → Option ℤ} {upper : Str → Str} {cfg : Settings} {target : Target}

/-- The call has ended with a connection or without one. -/
def Reply.Answered (reply : Reply) : Prop := ∃ conn, reply.1 = .ok conn

/-- No peer can be reached. -/
def offline : Network := fun _ => .refused

/-- A call ends without an exception whatever the network answers, exactly when `P` holds;
where `P` fails, the network that refuses everything brings the exception about. -/
structure AnswersIff (f : Network → Log → Reply) (P : Prop) : Prop where
  answered : P → ∀ net log, (f net log).Answered
  exact_ : ∀ log, (f offline log).Answered → P

/-! ### The branches -/

theorem connectDirect_answers :
    AnswersIff (fun net log => connectDirect cfg net target log) True where
  answered _ net log := by
    simp only [connectDirect]
    split <;> exact ⟨_, rfl⟩
  exact_ _ _ := trivial

/-- A connector whose peer can be named raises nothing. -/
theorem attempts_answered {k : Connector} (hk : ∀ e, k.contact ≠ .error e) (net : Network)
    (left attempt : ℕ) (log : Log) : (k.attempts net left attempt log).Answered := by
  induction left generalizing attempt log with
  | zero => exact ⟨none, rfl⟩
  | succ left ih =>
    unfold Connector.attempts
    split
    · next e hcontact => exact absurd hcontact (hk e)
    · exact ih _ _
    · split
      · exact ih _ _
      · split
        · exact ih _ _
        · exact ⟨_, rfl⟩
        · exact ⟨_, rfl⟩

/-- A connector that reaches nobody gives nothing. -/
theorem attempts_offline {k : Connector} (hk : ∀ e, k.contact ≠ .error e)
    (left attempt : ℕ) (log : Log) : (k.attempts offline left attempt log).1 = .ok none := by
  induction left generalizing attempt log with
  | zero => rfl
  | succ left ih =>
    unfold Connector.attempts
    split
    · next e hcontact => exact absurd hcontact (hk e)
    · exact ih _ _
    · exact ih _ _

/-- The peer of a rating can be named when its address has a port. -/
theorem openProxyConn_ne_error {r : ProxyRating} (hport : ':' ∈ r.address) (e : Exc) :
    openProxyConn int r ≠ .error e := by
  unfold openProxyConn
  split
  · next hnone => exact absurd hport (rsplitColon_eq_none.mp hnone)
  · exact fun h => by cases h

theorem openProxyConn_error {r : ProxyRating} (hport : ':' ∉ r.address) :
    openProxyConn int r = .error .valueError := by
  rw [openProxyConn, rsplitColon_eq_none.mpr hport]

theorem connectViaAddr_answers (addr : Str) :
    AnswersIff (fun net log => connectViaAddr int cfg net target addr log) (Dialable cfg addr) where
  answered h net log := by
    unfold connectViaAddr
    cases hr : cfg.ratings.byAddress.get? addr with
    | none => exact ⟨none, rfl⟩
    | some r =>
      dsimp only
      split
      · exact ⟨none, rfl⟩
      · next hused =>
        have hport : ':' ∈ r.address := by
          rw [cfg.ratings.keyed addr r hr]
          exact h r hr (Bool.eq_false_iff.mpr hused)
        exact attempts_answered (openProxyConn_ne_error hport) net _ _ log
  exact_ log h := by
    intro r hr hused
    by_contra hport
    rw [← cfg.ratings.keyed addr r hr] at hport
    simp only [connectViaAddr, hr, hused, Bool.false_eq_true, if_false,
      connectViaRating_no_port hport] at h
    obtain ⟨conn, hconn⟩ := h
    cases hconn

/-- Nobody is reached at a pinned address. -/
theorem connectViaAddr_offline {addr : Str} (h : Dialable cfg addr) (log : Log) :
    (connectViaAddr int cfg offline target addr log).1 = .ok none := by
  unfold connectViaAddr
  cases hr : cfg.ratings.byAddress.get? addr with
  | none => rfl
  | some r =>
    dsimp only
    split
    · rfl
    · next hused =>
      have hport : ':' ∈ r.address := by
        rw [cfg.ratings.keyed addr r hr]
        exact h r hr (Bool.eq_false_iff.mpr hused)
      exact attempts_offline (openProxyConn_ne_error hport) _ _ log

theorem poolAttempts_answers (pool : List ProxyRating) :
    AnswersIff (fun net log => poolAttempts int net target pool log)
      (∀ p ∈ pool, ':' ∈ p.address) where
  answered h net log := by
    induction pool generalizing log with
    | nil => exact ⟨none, rfl⟩
    | cons p rest ih =>
      have hrest : ∀ p ∈ rest, ':' ∈ p.address := fun q hq => h q (List.mem_cons_of_mem p hq)
      unfold poolAttempts
      split
      · next e hcontact =>
        exact absurd hcontact (openProxyConn_ne_error (h p List.mem_cons_self) e)
      · exact ih hrest log
      · split
        · exact ih hrest _
        · split
          · exact ⟨_, rfl⟩
          · exact ih hrest _
  exact_ log h := by
    induction pool generalizing log with
    | nil => simp
    | cons p rest ih =>
      by_cases hport : ':' ∈ p.address
      · -- the refused attempt leads to the next proxy
        have hnext : ∃ log', (poolAttempts int offline target rest log').Answered := by
          unfold poolAttempts at h
          split at h
          · next e hcontact => exact absurd hcontact (openProxyConn_ne_error hport e)
          · exact ⟨_, h⟩
          · exact ⟨_, h⟩
        obtain ⟨log', hlog'⟩ := hnext
        intro q hq
        rcases List.mem_cons.mp hq with rfl | hq
        · exact hport
        · exact ih log' hlog' q hq
      · simp only [poolAttempts, openProxyConn_error hport] at h
        obtain ⟨conn, hconn⟩ := h
        cases hconn

theorem connectViaPool_answers :
    AnswersIff (fun net log => connectViaPool int upper cfg net target log)
      (PoolDialable upper cfg target) :=
  poolAttempts_answers _

theorem connectPinned_answers (addr : Str) :
    AnswersIff (fun net log => connectPinned int upper cfg net target addr log)
      (PinDialable upper cfg target addr) where
  answered h net log := by
    unfold connectPinned
    have haddr : AnswersIff (fun net log => connectViaAddr int cfg net target addr log)
        (Dialable cfg addr) := connectViaAddr_answers addr
    obtain ⟨conn, hconn⟩ := haddr.answered h.1 net log
    dsimp only at hconn ⊢
    split
    · split
      · next hon => exact connectViaPool_answers.answered (h.2 hon) net _
      · exact ⟨none, rfl⟩
    · exact ⟨conn, hconn⟩
  exact_ log h := by
    have hdial : Dialable cfg addr := by
      have haddr : AnswersIff (fun net log => connectViaAddr int cfg net target addr log)
          (Dialable cfg addr) := connectViaAddr_answers addr
      apply haddr.exact_ log
      unfold connectPinned at h
      split at h
      · next hnone => exact ⟨none, congrArg Prod.fst hnone⟩
      · exact h
    refine ⟨hdial, fun hon => ?_⟩
    have hnone : (connectViaAddr int cfg offline target addr log).1 = .ok none :=
      connectViaAddr_offline hdial log
    have hpinned : connectPinned int upper cfg offline target addr log =
        connectViaPool int upper cfg offline target
          (((connectViaAddr int cfg offline target addr log).2.recordTrafficFail addr).note
            ("proxy:".toList ++ addr ++ " (fallback→pool)".toList)) := by
      unfold connectPinned
      split
      · next hreply => rw [if_pos hon, hreply]
      · next hother => exact (hother _ (Prod.ext hnone rfl)).elim
    rw [hpinned] at h
    exact connectViaPool_answers.exact_ _ h

theorem activeProxy_answers :
    AnswersIff
      (fun net log => match activeProxy cfg with
        | some addr => connectPinned int upper cfg net target addr log
        | none => connectViaPool int upper cfg net target log)
      (ActiveDialable upper cfg target) := by
  unfold ActiveDialable
  cases activeProxy cfg with
  | some addr => exact connectPinned_answers addr
  | none => exact connectViaPool_answers

theorem connectFallback_answers :
    AnswersIff (fun net log => connectFallback int upper cfg net target log)
      (cfg.runner.directMode = true ∨ ActiveDialable upper cfg target) := by
  unfold connectFallback
  cases hmode : cfg.runner.directMode with
  | true => exact ⟨fun _ => connectDirect_answers.answered trivial, fun _ _ => .inl rfl⟩
  | false =>
    simp only [Bool.false_eq_true, if_false, false_or]
    exact activeProxy_answers

/-! ### One dispatch -/

/-- A dead route leads to the default route. -/
theorem dispatch_of_dead {route : Str} (h : dead cfg route = true) (net : Network)
    (next : Log → Reply) (log : Log) :
    dispatch int upper cfg net target next route log =
      next (log.note ("custom:".toList ++ route.drop 7 ++ " (disabled)".toList)) := by
  simp only [dead, Bool.and_eq_true, Option.isNone_iff_eq_none] at h
  obtain ⟨hcustom, hnone⟩ := h
  have hdirect : route ≠ "direct".toList := by
    rintro rfl
    exact absurd hcustom (by decide)
  unfold dispatch connectViaCustom
  rw [if_neg hdirect, if_pos hcustom, hnone]

/-- Any other route is decided on the spot. -/
theorem dispatch_of_alive {route : Str} (h : dead cfg route = false) (next : Log → Reply) :
    AnswersIff (fun net log => dispatch int upper cfg net target next route log)
      (RouteDialable upper cfg target route) := by
  unfold dispatch RouteDialable
  by_cases hdirect : route = "direct".toList
  · simpa only [if_pos hdirect] using connectDirect_answers
  simp only [if_neg hdirect]
  by_cases hcustom : "custom:".toList.isPrefixOf route = true
  · simp only [if_pos hcustom]
    cases hproxy : (cfg.customProxy (route.drop 7)).filter CustomProxy.enabled with
    | none =>
      rw [dead, hcustom, hproxy] at h
      cases h
    | some proxy =>
      simp only [connectViaCustom, hproxy]
      refine ⟨fun _ net log => attempts_answered (fun e he => ?_) net _ _ log, fun _ _ => trivial⟩
      cases he
  simp only [if_neg hcustom]
  by_cases hproxy : "proxy:".toList.isPrefixOf route = true
  · simpa only [if_pos hproxy] using connectPinned_answers (route.drop 6)
  simp only [if_neg hproxy]
  by_cases hselected : route = "pool_selected".toList
  · simp only [if_pos hselected]
    exact activeProxy_answers
  simp only [if_neg hselected]
  by_cases hpool : route = "pool".toList ∨ route = []
  · simpa only [if_pos hpool] using connectViaPool_answers
  simpa only [if_neg hpool] using connectFallback_answers

/-- The default route does not matter to a route that is not dead. -/
theorem dispatch_next {route : Str} (h : dead cfg route = false) (net : Network)
    (next next' : Log → Reply) (log : Log) :
    dispatch int upper cfg net target next route log =
      dispatch int upper cfg net target next' route log := by
  unfold dispatch
  split
  · rfl
  · split
    · next hcustom =>
      unfold connectViaCustom
      split
      · next hnone =>
        rw [dead, hcustom, hnone] at h
        cases h
      · rfl
    · rfl

/-! ### The recursion -/

/-- **A dead default route** makes the call start over as often as it is allowed to, noting
the custom proxy every time. -/
theorem connectByRoute_loops (h : dead cfg cfg.db.defaultRoute = true) (net : Network) (depth : ℕ)
    {route : Str} (hroute : dead cfg route = true) (log : Log) :
    (connectByRoute int upper cfg net target depth route log).1 = .error .recursionError ∧
      (connectByRoute int upper cfg net target depth route log).2.chain.length =
        log.chain.length + depth + 1 := by
  induction depth generalizing route log with
  | zero =>
    rw [connectByRoute, dispatch_of_dead hroute]
    exact ⟨rfl, by simp [Log.note]⟩
  | succ depth ih =>
    rw [connectByRoute, dispatch_of_dead hroute]
    obtain ⟨herror, hchain⟩ := ih h
      (log.note ("custom:".toList ++ route.drop 7 ++ " (disabled)".toList))
    refine ⟨herror, hchain.trans ?_⟩
    simp only [Log.note, List.length_append, List.length_singleton]
    omega

/-- A call on a route that is not dead is decided at every depth alike. -/
theorem connectByRoute_of_alive {route : Str} (h : dead cfg route = false) (net : Network)
    (depth : ℕ) (log : Log) :
    connectByRoute int upper cfg net target depth route log =
      dispatch int upper cfg net target (connectByRoute int upper cfg net target 0 route)
        route log := by
  cases depth with
  | zero => exact dispatch_next h net _ _ log
  | succ depth => exact dispatch_next h net _ _ log

theorem settles_of_alive {route : Str} (h : dead cfg route = false) (net : Network) (log : Log) :
    Settles int upper cfg target net route log ↔
      (dispatch int upper cfg net target (connectByRoute int upper cfg net target 0 route)
        route log).Answered := by
  constructor
  · rintro ⟨d, conn, log', hreply⟩
    refine ⟨conn, ?_⟩
    rw [← connectByRoute_of_alive h net d log, hreply d le_rfl]
  · rintro ⟨conn, hconn⟩
    refine ⟨0, conn, (dispatch int upper cfg net target
      (connectByRoute int upper cfg net target 0 route) route log).2, fun depth _ => ?_⟩
    rw [connectByRoute_of_alive h net depth log]
    exact Prod.ext hconn rfl

/-- A call on a dead route settles as the call on the default route does. -/
theorem settles_of_dead {route : Str} (h : dead cfg route = true) (net : Network) (log : Log) :
    Settles int upper cfg target net route log ↔
      Settles int upper cfg target net cfg.db.defaultRoute
        (log.note ("custom:".toList ++ route.drop 7 ++ " (disabled)".toList)) := by
  constructor
  · rintro ⟨d, conn, log', hreply⟩
    refine ⟨d, conn, log', fun depth hd => ?_⟩
    have hnext := hreply (depth + 1) (Nat.le_succ_of_le hd)
    rwa [connectByRoute, dispatch_of_dead h] at hnext
  · rintro ⟨d, conn, log', hreply⟩
    refine ⟨d + 1, conn, log', fun depth hd => ?_⟩
    obtain ⟨k, rfl⟩ := Nat.exists_eq_add_of_le hd
    rw [Nat.add_right_comm, connectByRoute, dispatch_of_dead h]
    exact hreply (d + k) (Nat.le_add_right d k)

/-- **Route resolution terminates**, exactly outside the self-referential settings: every
call on a route gives a connection or none after finitely many recursive calls, if and only
if the route and the default route do not both name custom proxies that are missing or
disabled, and no address without a port is come to. -/
theorem settles_iff (int : Str → Option ℤ) (upper : Str → Str) (cfg : Settings) (target : Target)
    (route : Str) :
    (∀ net log, Settles int upper cfg target net route log) ↔
      ¬ (dead cfg route = true ∧ dead cfg cfg.db.defaultRoute = true) ∧
        RouteDialable upper cfg target (landing cfg route) := by
  unfold landing
  cases hroute : dead cfg route with
  | false =>
    simp only [settles_of_alive hroute, Bool.false_eq_true, false_and, not_false_eq_true,
      true_and, if_false]
    constructor
    · intro h
      exact (dispatch_of_alive hroute _).exact_ (.start []) (h offline (.start []))
    · intro h net log
      exact (dispatch_of_alive hroute _).answered h net log
  | true =>
    simp only [settles_of_dead hroute, true_and, if_true]
    cases hdefault : dead cfg cfg.db.defaultRoute with
    | true =>
      simp only [not_true_eq_false, false_and, iff_false]
      intro h
      obtain ⟨d, conn, log', hreply⟩ := h offline (.start [])
      have hloop : (connectByRoute int upper cfg offline target d cfg.db.defaultRoute
          ((Log.start []).note ("custom:".toList ++ route.drop 7 ++ " (disabled)".toList))).1 =
          .error .recursionError := (connectByRoute_loops hdefault offline d hdefault _).1
      rw [hreply d le_rfl] at hloop
      cases hloop
    | false =>
      simp only [settles_of_alive hdefault, Bool.false_eq_true, not_false_eq_true, true_and]
      constructor
      · intro h
        exact (dispatch_of_alive hdefault _).exact_ _ (h offline (.start []))
      · intro h net log
        exact (dispatch_of_alive hdefault _).answered h net _

/-! ### The self-referential default -/

/-- The default route names a custom proxy that has been deleted. -/
def staleSettings : Settings where
  db := ⟨[], [], Dict.empty.insert "default_route".toList "custom:7".toList⟩
  ratings := ⟨.empty, fun _ _ h => by cases h⟩
  runner := ⟨false, none⟩
  customProxy := fun _ => none
  channelIsSet := false
  countryMode := "off".toList
  countryCodes := []

/-- No depth of the recursion is enough for a request on the stale default route. -/
theorem stale_default_route :
    ¬ ∀ (cfg : Settings) (target : Target) (net : Network) (route : Str) (log : Log),
      Settles digitsInt id cfg target net route log := by
  intro hall
  obtain ⟨d, conn, log', hreply⟩ := hall staleSettings ⟨"example.org".toList, 443, true⟩ offline
    "custom:7".toList (.start [])
  have hdead : dead staleSettings "custom:7".toList = true := by decide
  have hloop : (connectByRoute digitsInt id staleSettings offline
      ⟨"example.org".toList, 443, true⟩ d "custom:7".toList (.start [])).1 =
      .error .recursionError := (connectByRoute_loops hdead offline d hdead _).1
  rw [hreply d le_rfl] at hloop
  cases hloop

end HuntProxy.Routing
