import HuntProxy.Rating.Apply

/-!
# Lookups of addresses and the paths of a check

A check asks ip-api twice: through the proxy, whose reply may be forged, and directly for
the address that this reply names. The direct reply is kept in a cache. It decides about the
country and about the fraud flags, and where it is missing the flags are false.

The request through the proxy names the fields it wants, and the direct one names none, so
that it is answered with a default set that has no flags.

## Main definitions

- `Report`, `answer` — what a reply says, for a request that names fields
- `Lookups.resolveGeo`, `Lookups.authoritativeEgress` — the direct lookup
- `Lookups.checkProxy`, `Lookups.checkSsl`, `mergeCheckResults` — the paths of a check
-/

namespace HuntProxy

open Ip (Str)

/-! ### Replies of ip-api -/

/-- The fields that the program reads. -/
inductive GeoField
  | query
  | country
  | countryCode
  | city
  | isp
  | hosting
  | proxy
  | mobile
  deriving DecidableEq

/-- What ip-api knows about an address. -/
structure IpInfo where
  query : Str
  country : Str
  countryCode : Str
  city : Str
  isp : Str
  hosting : Bool
  proxy : Bool
  mobile : Bool

/-- The JSON object of a reply; `none` stands for a key that is missing. -/
structure Report where
  query : Option Str := none
  country : Option Str := none
  countryCode : Option Str := none
  city : Option Str := none
  isp : Option Str := none
  hosting : Option Bool := none
  proxy : Option Bool := none
  mobile : Option Bool := none
  deriving DecidableEq

/-- The fields of a reply to a request that names none. -/
def defaultFields : List GeoField := [.query, .country, .countryCode, .city, .isp]

/-- A reply with exactly the fields that are named in the request. -/
def answer (named : Option (List GeoField)) (info : IpInfo) : Report :=
  let fields := named.getD defaultFields
  { query := if .query ∈ fields then some info.query else none
    country := if .country ∈ fields then some info.country else none
    countryCode := if .countryCode ∈ fields then some info.countryCode else none
    city := if .city ∈ fields then some info.city else none
    isp := if .isp ∈ fields then some info.isp else none
    hosting := if .hosting ∈ fields then some info.hosting else none
    proxy := if .proxy ∈ fields then some info.proxy else none
    mobile := if .mobile ∈ fields then some info.mobile else none }

/-- The outcome of a direct lookup: no answer, a failure reply, or an answer. -/
inductive Lookup
  | unanswered
  | failed
  | answered (info : IpInfo)

/-- The reply to a request, which a failure reply leaves without any of the fields. -/
def Lookup.report (named : Option (List GeoField)) : Lookup → Option Report
  | .unanswered => none
  | .failed => some {}
  | .answered info => some (answer named info)

/-! ### The direct lookup -/

/-- The result that `_resolve_geo` makes of a reply. -/
def Report.geo (data : Report) : Geo where
  country := data.country.getD []
  countryCode := data.countryCode.getD []
  city := data.city.getD []
  isp := data.isp.getD []
  hosting := data.hosting.getD false
  proxy := data.proxy.getD false
  mobile := data.mobile.getD false

/-- The reply to a direct lookup of an address, with the time at which it came. -/
structure Reply where
  ip : Str
  received : ℚ
  report : Report

/-- The cache of direct lookups, and the replies that have come so far. -/
structure Lookups where
  geoCache : Dict Str Geo
  replies : List Reply

/-- The flags of a rating. -/
structure Flags where
  hosting : Bool
  proxy : Bool
  mobile : Bool
  deriving DecidableEq

/-- The request of `_resolve_geo`: it names no fields. -/
def resolveRequest : Option (List GeoField) := none

namespace Lookups

/-- `_resolve_geo`. -/
def resolveGeo (s : Lookups) (now : ℚ) (ip : Str) (l : Lookup) : Lookups × Option Geo :=
  match s.geoCache.get? ip with
  | some geo => (s, some geo)
  | none =>
    match l.report resolveRequest with
    | none => (s, none)
    | some data =>
      ({ geoCache := s.geoCache.insert ip data.geo, replies := s.replies ++ [⟨ip, now, data⟩] },
        some data.geo)

/-- `_authoritative_egress`: the country, its code and the flags, unless the reported code
contradicts the direct lookup. -/
def authoritativeEgress (s : Lookups) (now : ℚ) (reportedIp reportedCc : Str) (l : Lookup) :
    Lookups × Option (Str × Str × Flags) :=
  let d := if reportedIp = [] then (s, none) else s.resolveGeo now reportedIp l
  match d.2 with
  | none => (d.1, some ([], [], ⟨false, false, false⟩))
  | some direct =>
    if direct.countryCode ≠ [] ∧ reportedCc ≠ [] ∧ direct.countryCode ≠ reportedCc then (d.1, none)
    else (d.1, some (direct.country, direct.countryCode, ⟨direct.hosting, direct.proxy, direct.mobile⟩))

end Lookups

/-! ### The paths of a check -/

/-- What `_check_proxy` and `_check_ssl` return. -/
structure PathResult where
  ok : Bool := false
  country : Str := []
  supportsConnect : Bool := false
  mitmSuspect : Bool := false
  egress : Egress := {}
  listen : Option Geo := none
  latency : ℚ := 0
  countryCode : Str := []

/-- What happens on the wire during a check. A reply is `none` when it is not readable. -/
structure Probes where
  connected : Bool
  listenLookup : Lookup
  tunnelOk : Bool
  reply : Option Report
  lookup : Lookup
  latency : ℚ
  connectOk : Bool
  mitm : Bool
  sslReply : Option Report
  sslLookup : Lookup
  sslConnect : Bool
  sslLatency : ℚ

/-- The dictionary about an egress that `_authoritative_egress` has verified. -/
def verifiedEgress (data : Report) (country : Str) (flags : Flags) : Egress where
  ip := some (data.query.getD [])
  city := some (data.city.getD [])
  isp := some (data.isp.getD [])
  country := some country
  hosting := some flags.hosting
  proxy := some flags.proxy
  mobile := some flags.mobile

/-- `_parse_egress_response`: the flags are those of the reply. -/
def reportedEgress (data : Report) : Egress where
  ip := some (data.query.getD [])
  city := some (data.city.getD [])
  isp := some (data.isp.getD [])
  country := some (data.country.getD [])
  hosting := some (data.hosting.getD false)
  proxy := some (data.proxy.getD false)
  mobile := some (data.mobile.getD false)

namespace Lookups

/-- `_check_http_proxy`. -/
def checkHttpProxy (s : Lookups) (now : ℚ) (p : Probes) (listen : Option Geo) : Lookups × PathResult :=
  match p.reply with
  | none => (s, { listen := listen })
  | some data =>
    let reportedCc := data.countryCode.getD []
    match s.authoritativeEgress now (data.query.getD []) reportedCc p.lookup with
    | (s', none) => (s', { country := data.country.getD [], countryCode := reportedCc })
    | (s', some (vcountry, vcc, flags)) =>
      let country := orElse vcountry (data.country.getD [])
      (s', { ok := true, country := country, egress := verifiedEgress data country flags
             latency := p.latency, countryCode := orElse vcc reportedCc })

section

variable (codeOf : Str → Str)

/-- `_check_socks_proxy`. -/
def checkSocksProxy (s : Lookups) (now : ℚ) (p : Probes) (listen : Option Geo) :
    Lookups × PathResult :=
  if p.tunnelOk then
    match p.reply with
    | none => (s, { ok := true, country := "Unknown".toList, latency := p.latency })
    | some data =>
      let egress := reportedEgress data
      let country := data.country.getD []
      let countryCode := if country = [] then [] else codeOf country
      match s.authoritativeEgress now (data.query.getD []) countryCode p.lookup with
      | (s', none) => (s', { country := country, egress := egress, countryCode := countryCode })
      | (s', some (vcountry, vcc, flags)) =>
        (s', { ok := true
               country := orElse (orElse vcountry country) "Unknown".toList
               egress :=
                 { egress with
                   hosting := some flags.hosting
                   proxy := some flags.proxy
                   mobile := some flags.mobile
                   country := some (orElse vcountry country) }
               latency := p.latency
               countryCode := if vcountry = [] then countryCode else orElse vcc countryCode })
  else (s, { listen := listen })

/-- The end of `_check_proxy`: the filters on the country, and the connection to a target. -/
def finish (r : PathResult) (countryFilter : Str) (usOnly connectOk mitm : Bool) : PathResult :=
  if (countryFilter ≠ [] ∧ r.countryCode ≠ countryFilter) ∨
      (usOnly = true ∧ r.country ≠ "United States".toList) then
    { r with ok := false, supportsConnect := false, mitmSuspect := false, latency := 0 }
  else if r.ok ∧ connectOk then { r with supportsConnect := true, mitmSuspect := mitm }
  else { r with ok := false, supportsConnect := false, mitmSuspect := mitm }

/-- `_check_proxy`. -/
def checkProxy (s : Lookups) (now : ℚ) (addr countryFilter : Str) (usOnly : Bool) (p : Probes) :
    Lookups × PathResult :=
  if portOf addr = none ∨ p.connected = false then (s, {})
  else
    let listened := s.resolveGeo now (hostOf addr) p.listenLookup
    let d :=
      if protocolOf addr ≠ .http then listened.1.checkSocksProxy codeOf now p listened.2
      else listened.1.checkHttpProxy now p listened.2
    (d.1, finish d.2 countryFilter usOnly p.connectOk p.mitm)

/-- `_check_ssl`. -/
def checkSsl (s : Lookups) (now : ℚ) (addr : Str) (p : Probes) : Lookups × PathResult :=
  if portOf addr = none then (s, {})
  else
    match p.sslReply with
    | none => (s, {})
    | some data =>
      if data.country.isNone ∧ data.query.isNone then (s, {})
      else
        let reportedCc := data.countryCode.getD []
        match s.authoritativeEgress now (data.query.getD []) reportedCc p.sslLookup with
        | (s', none) => (s', {})
        | (s', some (vcountry, vcc, flags)) =>
          let country := orElse vcountry (data.country.getD [])
          (s', { ok := true, country := country, supportsConnect := p.sslConnect
                 egress := verifiedEgress data country flags, latency := p.sslLatency
                 countryCode := orElse vcc reportedCc })

end

end Lookups

/-- The merge of the two results. -/
def mergePaths (http ssl : PathResult) : PathResult :=
  if !http.ok && ssl.ok then
    { http with
      ok := true
      country := ssl.country
      countryCode := ssl.countryCode
      egress := ssl.egress
      latency := ssl.latency
      supportsConnect := ssl.supportsConnect }
  else if http.ok && ssl.ok then
    { http with
      egress := if http.egress = {} then ssl.egress else http.egress
      supportsConnect := http.supportsConnect || ssl.supportsConnect }
  else http

/-- `_merge_check_results`: a proxy that is not one for SOCKS must connect. -/
def mergeCheckResults (addr : Str) (http ssl : PathResult) : PathResult :=
  let merged := mergePaths http ssl
  if merged.ok ∧ protocolOf addr = .http ∧ merged.supportsConnect = false then
    { merged with ok := false }
  else merged

end HuntProxy
