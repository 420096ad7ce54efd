import HuntProxy.Lib.HangUp
import HuntProxy.Proxy.Socks5
import HuntProxy.Routing.Connect

/-!
# Refusals of the SOCKS5 server

`Socks5Runner` writes two bytes and closes the connection when it declines a request, while
`socks5_connect` reads four bytes of a reply before it looks at the second of them. So a
refusal is a broken handshake to the client, and the router, which tries a broken handshake
again, makes three attempts.

## Main definitions

- `Declines` — the requests that the server declines
- `Outcome` — how a client can end that has been let in and asks for something
- `Recognised` — what is promised about a refusal

## Main results

- `declines_out` — what is written when a request is declined
- `refusal_never_recognised` — no refusal is recognised
-/

namespace HuntProxy.Socks5

open Ip (Str)
open Routing (Connector Contact Handshake Log Network Target)

/-- The server declines the request: it closes the connection without an upstream. -/
def Declines (connectUpstream : Str → ℕ → Option Sockname) (req : Bytes) : Prop :=
  ∃ b n out, Says b n (readRequest connectUpstream) req out ∧ ∀ host port, b ≠ .tunnel host port

/-- How a client can end that has been let in and writes `req`, in any run that lasts until
the server has returned. -/
def Outcome (connectUpstream : Str → ℕ → Option Sockname) (req : Bytes) (e : ClientEnd) : Prop :=
  ∃ s b, (Dialog.closing ClientEnd.raised).Reaches Dialog.Closing
      (Dialog.start (.write req readReply) (readRequest connectUpstream)) s ∧
    s.Finished e b

/-- What the router makes of the end of a client with `raise_on_broken`. -/
def handshakeOf : ClientEnd → Handshake
  | .raised => .broken
  | .returned false => .declined
  | .returned true => .accepted

/-- A router that asks the server, with a connector of `_connect_via_rating` or
`_connect_via_custom`: the peer, the handshakes, the calls. -/
structure Router where
  connector : Connector
  peer : Contact
  contact : connector.contact = .ok (some peer)
  negotiate : connector.negotiate = id

/-- The call of a router when the handshakes end in some way. -/
def Router.call (router : Router) (ends : ℕ → ClientEnd) (log : Log) : Routing.Reply :=
  router.connector.attempts (fun n => .opened (handshakeOf (ends n))) Log.connectRetries 0 log

/-- What is promised about a request that is declined: the client returns `False`, and the
router does not ask again. -/
structure Recognised (connectUpstream : Str → ℕ → Option Sockname) (req : Bytes) : Prop where
  refused : ∀ e, Outcome connectUpstream req e → e = .returned false
  once : ∀ (router : Router) (ends : ℕ → ClientEnd), (∀ n, Outcome connectUpstream req (ends n)) →
    ∀ log, (router.call ends log).2.contacts = log.contacts ++ [router.peer]

/-- A refusal that looks like a broken handshake. -/
structure Mistaken (connectUpstream : Str → ℕ → Option Sockname) (req : Bytes) : Prop where
  ends : ∃ e, Outcome connectUpstream req e
  raised : ∀ e, Outcome connectUpstream req e → e = .raised
  retried : ∀ (router : Router) (ends : ℕ → ClientEnd),
    (∀ n, Outcome connectUpstream req (ends n)) → ∀ log,
      (router.call ends log).1 = .ok none ∧
        (router.call ends log).2.contacts = log.contacts ++ List.replicate 3 router.peer

/-! ### The users of the connector -/

/-- `_connect_via_rating` of a SOCKS5 proxy. -/
def Router.ofRating (int : Str → Option ℤ) (target : Target) (r : Routing.ProxyRating)
    (peer : Contact) (hprotocol : r.protocol = "socks5".toList)
    (hpeer : Routing.openProxyConn int r = .ok (some peer)) : Router where
  connector := Routing.ratingConnector int target r
  peer := peer
  contact := hpeer
  negotiate := by
    have hsocks : Routing.isSocks r.protocol = true := by
      rw [hprotocol]
      decide
    funext h
    exact if_pos (by rw [hsocks]; rfl)

theorem Router.ofRating_call {int : Str → Option ℤ} {target : Target} {r : Routing.ProxyRating}
    {peer : Contact} (hprotocol : r.protocol = "socks5".toList)
    (hpeer : Routing.openProxyConn int r = .ok (some peer)) (ends : ℕ → ClientEnd) (log : Log) :
    (Router.ofRating int target r peer hprotocol hpeer).call ends log =
      Routing.connectViaRating int (fun n => .opened (handshakeOf (ends n))) target r log := rfl

/-- `_connect_via_custom` of a SOCKS5 proxy. -/
def Router.ofCustom (id : Str) (proxy : Routing.CustomProxy) : Router where
  connector :=
    { contact := .ok (some (.custom proxy.host proxy.port))
      negotiate := fun h => h
      tag := fun attempt => "custom:".toList ++ id ++ Routing.retryTag attempt
      isRawProxy := false }
  peer := .custom proxy.host proxy.port
  contact := rfl
  negotiate := rfl

theorem Router.ofCustom_call {cfg : Routing.Settings} {target : Target} {id : Str}
    {proxy : Routing.CustomProxy} (hprotocol : proxy.protocol = "socks5".toList)
    (hproxy : (cfg.customProxy id).filter Routing.CustomProxy.enabled = some proxy)
    (next : Log → Routing.Reply) (ends : ℕ → ClientEnd) (log : Log) :
    (Router.ofCustom id proxy).call ends log =
      Routing.connectViaCustom cfg (fun n => .opened (handshakeOf (ends n))) target next id log := by
  have htunnel : (proxy.protocol == "socks5".toList || target.needConnect) = true := by
    rw [hprotocol]
    rfl
  unfold Routing.connectViaCustom
  rw [hproxy]
  simp only [htunnel, if_true]
  rfl

/-! ### The server -/

section

variable {connectUpstream : Str → ℕ → Option Sockname} {req out : Bytes} {b : ServerEnd} {n : ℕ}

theorem readPort_out {host : Str} (h : Says b n (readPort connectUpstream host) req out)
    (hb : ∀ host port, b ≠ .tunnel host port) : out = [5, 5] := by
  obtain ⟨_, _, _, h⟩ := h.of_read
  dsimp only at h
  split at h
  · exact h.write_ret.2
  · -- an upstream has been connected
    exact absurd h.write_ret.1.symm (hb _ _)

/-- What the server writes when it declines a request, before it closes the connection. -/
theorem declines_out (h : Says b n (readRequest connectUpstream) req out)
    (hb : ∀ host port, b ≠ .tunnel host port) : out = [5, 7] ∨ out = [5, 8] ∨ out = [5, 5] := by
  obtain ⟨_, _, _, h⟩ := h.of_read
  split at h
  · exact .inl h.write_ret.2
  · right
    split at h
    · obtain ⟨_, _, _, h⟩ := h.of_read
      exact .inr (readPort_out h hb)
    · obtain ⟨_, _, _, h⟩ := h.of_read
      obtain ⟨_, _, _, h⟩ := h.of_read
      exact .inr (readPort_out h hb)
    · obtain ⟨_, _, _, h⟩ := h.of_read
      exact .inr (readPort_out h hb)
    · exact .inl h.write_ret.2

/-- The client fails. -/
theorem Declines.fails (h : Declines connectUpstream req) {s : Dialog UInt8 ClientEnd ServerEnd}
    (hrun : (Dialog.closing ClientEnd.raised).Reaches Dialog.Closing
      (Dialog.start (.write req readReply) (readRequest connectUpstream)) s) :
    ∃ b, s.Fails ClientEnd.raised b := by
  obtain ⟨b, n, out, htold, hb⟩ := h
  refine ⟨b, Dialog.cutOff htold ?_ hrun⟩
  -- two bytes are written, and four are read
  rcases declines_out htold hb with rfl | rfl | rfl <;> decide

/-! ### The router -/

/-- A broken handshake is tried again. -/
theorem Router.call_broken (router : Router) (log : Log) :
    (router.call (fun _ => .raised) log).1 = .ok none ∧
      (router.call (fun _ => .raised) log).2.contacts =
        log.contacts ++ List.replicate 3 router.peer := by
  suffices h : ∀ left attempt log,
      (router.connector.attempts (fun _ => .opened .broken) left attempt log).1 = .ok none ∧
        (router.connector.attempts (fun _ => .opened .broken) left attempt log).2.contacts =
          log.contacts ++ List.replicate left router.peer from h Log.connectRetries 0 log
  intro left
  induction left with
  | zero => exact fun attempt log => ⟨rfl, (List.append_nil _).symm⟩
  | succ left ih =>
    intro attempt log
    simp only [Connector.attempts, router.contact, router.negotiate, Routing.openConnection, id]
    refine ⟨(ih _ _).1, ?_⟩
    rw [(ih _ _).2]
    simp [Log.contact, Log.answer, Log.close, List.replicate_succ]

theorem Declines.ends (h : Declines connectUpstream req) : ∃ e, Outcome connectUpstream req e := by
  obtain ⟨b, hfails⟩ := h.fails (.refl _)
  obtain ⟨s, hrun, hfin⟩ := hfails.finishes
  exact ⟨.raised, s, b, hrun, hfin⟩

theorem Declines.raised (h : Declines connectUpstream req) {e : ClientEnd}
    (he : Outcome connectUpstream req e) : e = .raised := by
  obtain ⟨s, b, hrun, hfin⟩ := he
  obtain ⟨b', hfails⟩ := h.fails hrun
  exact hfails.left e hfin.1

theorem Declines.not_recognised (h : Declines connectUpstream req) :
    ¬ Recognised connectUpstream req := by
  intro hrec
  obtain ⟨e, he⟩ := h.ends
  have hrefused := hrec.refused e he
  rw [h.raised he] at hrefused
  cases hrefused

/-- **No refusal is recognised**: whatever request is declined, the client raises the error of a
broken handshake in every run, and the router makes three attempts. -/
theorem refusal_never_recognised (connectUpstream : Str → ℕ → Option Sockname) (req : Bytes)
    (h : Declines connectUpstream req) :
    ¬ Recognised connectUpstream req ∧ Mistaken connectUpstream req := by
  refine ⟨h.not_recognised, h.ends, fun e => h.raised, fun router ends hout log => ?_⟩
  obtain rfl : ends = fun _ => .raised := funext fun n => h.raised (hout n)
  exact router.call_broken log

end

/-- A request for the port of the server itself, which has no upstream. -/
def ownPort : Bytes := [5, 1, 0, 1, 127, 0, 0, 1, 67, 126]

theorem declines_ownPort : Declines (fun _ _ => none) ownPort :=
  ⟨.noUpstream "127.0.0.1".toList 17278, _, [5, 5] ++ [],
    .read (by decide) (.read (by decide) (.read (by decide) (.write .done))), fun _ _ h => (by cases h)⟩

theorem refusal_never_recognised_ownPort :
    ¬ Recognised (fun _ _ => none) ownPort ∧ Mistaken (fun _ _ => none) ownPort :=
  refusal_never_recognised _ _ declines_ownPort

/-- The server declines its own port with two bytes, and the client waits for four. -/
theorem own_port_raises :
    ¬ ∀ (connectUpstream : Str → ℕ → Option Sockname) (req : Bytes),
      Declines connectUpstream req → Recognised connectUpstream req := by
  intro hall
  have hown := declines_ownPort
  exact hown.not_recognised (hall _ _ hown)

end HuntProxy.Socks5
