import HuntProxy.Rating.Pool

/-!
# The channel

The engine's own connections go through a proxy, the channel, if the operator has selected
one: a rated proxy or a custom one. There are two ways out. A connection over a socket asks a
cache for the proxy, which is kept until the route changes; a download by curl looks the proxy
up afresh and hands it over as an argument, where an empty text means that there is none.

Every connection is entered into a log, with the proxy that the route stood for at the time.

## Main definitions

- `ChannelState`, `ChannelOp` — what the channel depends on, and the operations
- `ChannelState.channelProxy`, `ChannelState.channelProxyCached` — the proxy of a route
- `ChannelState.outboundConnect`, `ChannelState.download` — the two ways out
-/

namespace HuntProxy

open Ip (Str)

/-! ### Proxies -/

/-- A row of `custom_proxies`, without the results of its tests. -/
structure CustomRow where
  name : Str
  protocol : Str
  host : Str
  port : ℤ
  username : Str
  password : Str
  testUrl : Str
  enabled : Bool
  deriving DecidableEq

/-- What `create_custom_proxy` is given; the port is `none` where it is no number. -/
structure CustomData where
  id : Str
  name : Str
  host : Str
  port : Option ℤ
  protocol : Str := "socks5".toList
  username : Str := []
  password : Str := []
  testUrl : Str := []

/-- What `update_custom_proxy` is given; a field that is missing is `none`. -/
structure CustomFields where
  name : Option Str := none
  protocol : Option Str := none
  host : Option Str := none
  port : Option (Option ℤ) := none
  username : Option Str := none
  password : Option Str := none
  testUrl : Option Str := none
  enabled : Option Bool := none

/-- The dictionary that `_channel_proxy` returns. -/
structure ChannelProxy where
  protocol : Str
  host : Str
  port : ℤ
  username : Str
  password : Str
  deriving DecidableEq

/-- The name of a protocol. -/
def Protocol.name : Protocol → Str
  | .http => "http".toList
  | .https => "https".toList
  | .socks4 => "socks4".toList
  | .socks5 => "socks5".toList

/-! ### The argument for curl -/

/-- The characters that `urllib.parse.quote` leaves as they are. -/
def isSafe (c : Char) : Bool := c.isAlphanum || c = '_' || c = '.' || c = '-' || c = '~'

/-- A byte behind a percent sign. -/
def percent (b : UInt8) : Str :=
  '%' :: (Ip.places 16 2 b.toNat).map (fun d => (Nat.digitChar d).toUpper)

/-- `urllib.parse.quote(s, safe="")`. -/
def quote (s : Str) : Str :=
  s.flatMap fun c => if isSafe c then [c] else (String.utf8EncodeChar c).flatMap percent

namespace ChannelProxy

/-- The scheme for curl. -/
def scheme (p : ChannelProxy) : Str :=
  if p.protocol = "socks5".toList then "socks5h".toList
  else if p.protocol = "socks4".toList then "socks4a".toList
  else if p.protocol = "http".toList then "http".toList
  else if p.protocol = "https".toList then "http".toList
  else "socks5h".toList

/-- The text of a proxy. -/
def text (p : ChannelProxy) : Str :=
  p.scheme ++ "://".toList ++
    (if p.username = [] then [] else quote p.username ++ [':'] ++ quote p.password ++ ['@']) ++
    p.host ++ [':'] ++ (toString p.port).toList

end ChannelProxy

/-- `curl_args`, with the default user agent. -/
def curlArgs (url proxy : Str) (failOnError : Bool) : List Str :=
  ["curl".toList, "-sS".toList, "-L".toList, "--connect-timeout".toList, "15".toList] ++
    (if failOnError then ["-f".toList] else []) ++ ["-A".toList, "huntproxy/1.0".toList] ++
    (if proxy = [] then [] else ["--proxy".toList, proxy]) ++ [url]

/-- The proxy that curl is told to use. -/
def proxyArg : List Str → Option Str
  | arg :: value :: rest =>
    if arg = "--proxy".toList then some value else proxyArg (value :: rest)
  | _ => none

/-! ### Connections -/

/-- How a connection is made. -/
inductive ConnectionOutcome
  | failed
  | direct
  | tunnel (p : ChannelProxy)
  | curl (proxy : Str)
  deriving DecidableEq

/-- What the network does: the connection opens, the proxy accepts the target, and the TLS
handshake with the target succeeds. -/
structure Wire where
  opens : Bool
  handshake : Bool
  tls : Bool

/-- What becomes of a run of curl: it opens its connection, to the proxy if it is told one, and
the proxy lets it through. Whatever the exit status, it has connected by then. -/
structure CurlRun where
  opens : Bool
  passes : Bool

/-- What is downloaded by curl through the channel. -/
inductive DownloadKind
  | proxySource
  | ipBlacklist
  | blocklist
  deriving DecidableEq

/-- Downloads of blocklists do not fail on an HTTP error. -/
def DownloadKind.failOnError : DownloadKind → Bool
  | .blocklist => false
  | _ => true

/-- A connection of the engine: whether a channel was set, the proxy that the route stood for,
whether it was known, not blacklisted and enabled, and how the connection was made. -/
structure Connection where
  channelSet : Bool
  resolved : Option ChannelProxy
  eligible : Bool
  outcome : ConnectionOutcome

/-- The ratings, the blacklist and the custom proxies; the route of the channel and the cache
of its proxy; and the connections so far. -/
structure ChannelState where
  ratings : Dict Str ProxyRating
  blacklist : Dict Str Str
  customs : Dict Str CustomRow
  route : Str
  cacheRoute : Option Str
  cache : Option ChannelProxy
  log : List Connection

/-- The operations. Ratings may change in any way. -/
inductive ChannelOp
  | blacklistAdd (addr reason : Str)
  | blacklistRemove (addr : Str) (ix : IpIndex)
  | putRating (addr : Str) (r : ProxyRating)
  | dropRating (addr : Str)
  | createCustom (data : CustomData)
  | updateCustom (id : Str) (fields : CustomFields)
  | toggleCustom (id : Str)
  | deleteCustom (id : Str)
  | setChannel (route : Str)
  | status
  | connect (useSsl : Bool) (w : Wire)
  | download (kind : DownloadKind) (url : Str) (run : CurlRun)

namespace ChannelState

/-! ### The proxy of the channel -/

/-- `_resolve_channel`. -/
def resolveChannel (s : ChannelState) : Str := if s.route = "pool".toList then [] else s.route

/-- `_channel_is_set`. -/
def channelIsSet (s : ChannelState) : Bool :=
  s.resolveChannel ≠ [] && s.resolveChannel ≠ "direct".toList

/-- The proxy of a custom row. -/
def customProxy (row : CustomRow) : Option ChannelProxy :=
  if row.enabled then some ⟨row.protocol, row.host, row.port, row.username, row.password⟩ else none

/-- `_channel_proxy`. An address without a colon raises an exception. -/
def channelProxy (s : ChannelState) (route : Str) : Except Unit (Option ChannelProxy) :=
  if route = [] ∨ route = "direct".toList then .ok none
  else if "proxy:".toList.isPrefixOf route then
    match s.ratings.get? (route.drop 6) with
    | none => .ok none
    | some r =>
      if r.inBlacklist then .ok none
      else if ':' ∈ route.drop 6 then
        .ok ((portOf (route.drop 6)).map fun port =>
          ⟨r.protocol.name, hostOf (route.drop 6), port, [], []⟩)
      else .error ()
  else if "custom:".toList.isPrefixOf route then
    .ok ((s.customs.get? (route.drop 7)).bind customProxy)
  else .ok none

/-- The proxy that the route stands for. -/
def resolved (s : ChannelState) : Option ChannelProxy :=
  match s.channelProxy s.resolveChannel with
  | .ok proxy => proxy
  | .error _ => none

/-- The proxy of the route is known, not blacklisted and enabled. -/
def eligible (s : ChannelState) : Bool :=
  let route := s.resolveChannel
  if "proxy:".toList.isPrefixOf route then
    (s.ratings.get? (route.drop 6)).isSome && (s.blacklist.get? (route.drop 6)).isNone
  else "custom:".toList.isPrefixOf route && (s.customs.get? (route.drop 7)).any CustomRow.enabled

/-- `_channel_proxy_cached`. The route is noted before the proxy is looked up. -/
def channelProxyCached (s : ChannelState) : Except Unit (Option ChannelProxy) × ChannelState :=
  if s.cacheRoute = some s.resolveChannel then (.ok s.cache, s)
  else
    match s.channelProxy s.resolveChannel with
    | .error e => (.error e, { s with cacheRoute := some s.resolveChannel })
    | .ok proxy => (.ok proxy, { s with cacheRoute := some s.resolveChannel, cache := proxy })

/-- Enter a connection into the log. -/
def record (s : ChannelState) (outcome : ConnectionOutcome) : ChannelState :=
  { s with log := s.log ++ [⟨s.channelIsSet, s.resolved, s.eligible, outcome⟩] }

/-- How `_outbound_connect` makes a connection. -/
def socketOutcome (s : ChannelState) (useSsl : Bool) (w : Wire) : ConnectionOutcome :=
  match s.channelProxyCached.1 with
  | .error _ => .failed
  | .ok none => if s.channelIsSet then .failed else if w.opens then .direct else .failed
  | .ok (some p) => if w.opens && w.handshake && (!useSsl || w.tls) then .tunnel p else .failed

/-- `_outbound_connect`. -/
def outboundConnect (s : ChannelState) (useSsl : Bool) (w : Wire) : ChannelState :=
  s.channelProxyCached.2.record (s.socketOutcome useSsl w)

/-- `_channel_curl_proxy`. -/
def channelCurlProxy (s : ChannelState) : Except Unit Str :=
  match s.channelProxy s.resolveChannel with
  | .error e => .error e
  | .ok none => .ok []
  | .ok (some p) => .ok p.text

/-- How a download connects. -/
def downloadOutcome (s : ChannelState) (kind : DownloadKind) (url : Str) (run : CurlRun) :
    ConnectionOutcome :=
  match s.channelCurlProxy with
  | .error _ => .failed
  | .ok proxy =>
    match proxyArg (curlArgs url proxy kind.failOnError) with
    | none => if run.opens then .direct else .failed
    | some arg => if run.opens && run.passes then .curl arg else .failed

/-- A download through the channel. -/
def download (s : ChannelState) (kind : DownloadKind) (url : Str) (run : CurlRun) : ChannelState :=
  s.record (s.downloadOutcome kind url run)

/-! ### The other operations -/

/-- `set_channel`. -/
def setChannel (s : ChannelState) (route : Str) : ChannelState :=
  { s with
    route := if route = "pool".toList then [] else route
    cacheRoute := none
    cache := none }

/-- `get_channel_status`, which may fill the cache. -/
def channelStatus (s : ChannelState) : ChannelState :=
  if s.route ≠ [] ∧ s.route ≠ "direct".toList then s.channelProxyCached.2 else s

/-- `blacklist_add`, what the channel depends on. -/
def blacklistAdd (s : ChannelState) (addr reason : Str) : ChannelState :=
  if addr = [] then s
  else
    let reason := orElse reason "manual".toList
    { s with
      blacklist := s.blacklist.insert addr reason
      ratings := s.ratings.modify addr (·.markBlacklisted reason) }

/-- `blacklist_remove`, what the channel depends on. -/
def blacklistRemove (s : ChannelState) (addr : Str) (ix : IpIndex) : ChannelState :=
  { s with
    blacklist := s.blacklist.erase addr
    ratings := s.ratings.modify addr (·.unmarkBlacklisted ix) }

/-- `create_custom_proxy`: an id that is taken makes the insertion fail. -/
def createCustom (s : ChannelState) (data : CustomData) : ChannelState :=
  let id := Text.strip data.id
  let name := Text.strip data.name
  let host := Text.strip data.host
  match data.port with
  | none => s
  | some port =>
    if id = [] ∨ name = [] ∨ host = [] ∨ port = 0 ∨ (s.customs.get? id).isSome then s
    else
      { s with
        customs := s.customs.insert id
          ⟨name, data.protocol, host, port, data.username, data.password, data.testUrl, true⟩ }

/-- The row that `update_custom_proxy` writes; a masked password is left as it is. -/
def updatedRow (row : CustomRow) (fields : CustomFields) (port : ℤ) : CustomRow where
  name := (fields.name.map Text.strip).getD row.name
  protocol := fields.protocol.getD row.protocol
  host := (fields.host.map Text.strip).getD row.host
  port := port
  username := fields.username.getD row.username
  password :=
    if fields.password = some "****".toList then row.password else fields.password.getD row.password
  testUrl := fields.testUrl.getD row.testUrl
  enabled := fields.enabled.getD row.enabled

/-- `update_custom_proxy`: a port that is no number makes it fail. -/
def updateCustom (s : ChannelState) (id : Str) (fields : CustomFields) : ChannelState :=
  match fields.port with
  | some none => s
  | some (some port) => { s with customs := s.customs.modify id fun row => updatedRow row fields port }
  | none => { s with customs := s.customs.modify id fun row => updatedRow row fields row.port }

/-- `toggle_custom_proxy`. -/
def toggleCustom (s : ChannelState) (id : Str) : ChannelState :=
  { s with customs := s.customs.modify id fun row => { row with enabled := !row.enabled } }

/-- `delete_custom_proxy`. -/
def deleteCustom (s : ChannelState) (id : Str) : ChannelState :=
  { s with customs := s.customs.erase id }

/-- One completed operation. -/
def apply (s : ChannelState) : ChannelOp → ChannelState
  | .blacklistAdd addr reason => s.blacklistAdd addr reason
  | .blacklistRemove addr ix => s.blacklistRemove addr ix
  | .putRating addr r => { s with ratings := s.ratings.insert addr r }
  | .dropRating addr => { s with ratings := s.ratings.erase addr }
  | .createCustom data => s.createCustom data
  | .updateCustom id fields => s.updateCustom id fields
  | .toggleCustom id => s.toggleCustom id
  | .deleteCustom id => s.deleteCustom id
  | .setChannel route => s.setChannel route
  | .status => s.channelStatus
  | .connect useSsl w => s.outboundConnect useSsl w
  | .download kind url run => s.download kind url run

/-- The machine of the operations. -/
def machine : Machine ChannelState ChannelOp := ⟨fun s op => some (s.apply op)⟩

end ChannelState

end HuntProxy
