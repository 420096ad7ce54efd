import HuntProxy.Blacklist.Index
import HuntProxy.Rating.State

/-!
# The results of checks

A check ends with a result, from which the rating of the proxy is brought up to date: the
counters and averages, the country, the address at which the traffic leaves with its fraud
flags, and the hits of that address in the IP blacklists. A proxy without a rating gets one.

## Main definitions

- `CheckResult` — what a check brings
- `ProxyRating.applyOkResult`, `ProxyRating.applyIpBlacklist` — the parts of an update
- `updateRating` — the update
-/

namespace HuntProxy

open Ip (Str)

/-- The dictionary about the address at which the traffic of a proxy leaves; `none` stands
for a key that is missing. -/
structure Egress where
  ip : Option Str := none
  city : Option Str := none
  isp : Option Str := none
  country : Option Str := none
  hosting : Option Bool := none
  proxy : Option Bool := none
  mobile : Option Bool := none
  deriving DecidableEq

/-- What `_resolve_geo` returns when it has an answer. -/
structure Geo where
  country : Str
  countryCode : Str
  city : Str
  isp : Str
  hosting : Bool
  proxy : Bool
  mobile : Bool
  deriving DecidableEq

/-- What a check brings. `listen` and `fraud` are missing when the dictionaries are empty; a
fraud report may be without a valid score. -/
structure CheckResult where
  ok : Bool
  country : Str
  latency : ℚ
  supportsConnect : Bool := false
  mitmSuspect : Bool := false
  egress : Egress := {}
  listen : Option Geo := none
  speed : ℚ := 0
  countryCode : Str := []
  sslSupported : Bool := false
  fraud : Option (Option ℤ) := none

/-- `data or default`, for texts. -/
def orElse (s default_ : Str) : Str := if s = [] then default_ else s

/-- The port behind the last colon of an address. -/
def portOf (addr : Str) : Option ℤ :=
  if ':' ∈ addr then Text.intOfText (addr.reverse.takeWhile (· ≠ ':')).reverse else none

/-- The host in front of the last colon of an address. -/
def hostOf (addr : Str) : Str := (addr.reverse.dropWhile (· ≠ ':')).tail.reverse

/-- The protocol that goes with the port of an address. -/
def protocolOf (addr : Str) : Protocol :=
  if portOf addr = some 1080 ∨ portOf addr = some 10808 ∨ portOf addr = some 9050 then .socks5
  else if portOf addr = some 4145 then .socks4
  else .http

namespace ProxyRating

/-- `_apply_speed`. -/
def applySpeed (r : ProxyRating) (speed : ℚ) : ProxyRating :=
  if 0 < speed then
    { r with
      speedSum := r.speedSum + speed
      speedCount := r.speedCount + 1
      lastSpeed := speed
      speedFails := 0 }
  else { r with speedFails := r.speedFails + 1 }

/-- `_apply_fraud`: the score is kept as information only. -/
def applyFraud (r : ProxyRating) (score : Option ℤ) (now : ℚ) : ProxyRating :=
  match score with
  | none => r
  | some score =>
    if 0 ≤ score ∧ score ≤ 100 then
      { r with fraudScoreRaw := score, fraudCheckedTs := now, fraudRawTs := now }
    else r

section

/- `country_code_from_name`. -/
variable (codeOf : Str → Str)

/-- A name of the country is kept when it is longer than the one that is there. -/
def applyCountryName (r : ProxyRating) (country : Str) : ProxyRating :=
  if country ≠ [] ∧ (r.country = [] ∨ r.country.length < country.length) then
    { r with country := country }
  else r

/-- The code of the country, from the check or from the name. -/
def applyCountryCode (r : ProxyRating) (country countryCode : Str) : ProxyRating :=
  if countryCode ≠ [] ∧ r.countryCode = [] then { r with countryCode := countryCode }
  else if country ≠ [] ∧ r.countryCode = [] then { r with countryCode := codeOf country }
  else if country ≠ [] ∧ r.country ≠ [] ∧ country ≠ r.country then
    { r with countryCode := orElse (codeOf country) r.countryCode }
  else r

/-- `_apply_country`. -/
def applyCountry (r : ProxyRating) (country countryCode : Str) : ProxyRating :=
  (r.applyCountryName country).applyCountryCode codeOf country countryCode

/-- Only the country and its code are touched. -/
theorem applyCountry_eq (r : ProxyRating) (country countryCode : Str) : ∃ name code,
    r.applyCountry codeOf country countryCode = { r with country := name, countryCode := code } := by
  obtain ⟨name, hname⟩ : ∃ name, r.applyCountryName country = { r with country := name } := by
    unfold applyCountryName
    split
    · exact ⟨country, rfl⟩
    · exact ⟨r.country, rfl⟩
  rw [applyCountry, hname, applyCountryCode]
  split
  · exact ⟨name, countryCode, rfl⟩
  · split
    · exact ⟨name, codeOf country, rfl⟩
    · split
      · exact ⟨name, _, rfl⟩
      · exact ⟨name, r.countryCode, rfl⟩

/-- The flags of `_apply_egress`. -/
def applyFlags (r : ProxyRating) (egress : Egress) (now : ℚ) : ProxyRating :=
  if egress.hosting.isSome ∨ egress.proxy.isSome then
    { r with
      fraudHosting := egress.hosting.getD false
      fraudProxy := egress.proxy.getD false
      fraudMobile := egress.mobile.getD false
      fraudCheckedTs := now }
  else r

/-- `_apply_egress`. -/
def applyEgress (r : ProxyRating) (egress : Egress) (now : ℚ) : ProxyRating :=
  let newCountry := egress.country.getD []
  let r : ProxyRating :=
    { r with
      egressIp := orElse (egress.ip.getD []) r.egressIp
      egressCity := orElse (egress.city.getD []) r.egressCity
      egressIsp := orElse (egress.isp.getD []) r.egressIsp
      egressCountryCode :=
        if newCountry ≠ [] ∧ (newCountry ≠ r.egressCountry ∨ r.egressCountryCode = []) then
          orElse (codeOf newCountry) r.egressCountryCode
        else r.egressCountryCode
      egressCountry := orElse newCountry r.egressCountry }
  r.applyFlags egress now

/-- `_apply_listen`. -/
def applyListen (r : ProxyRating) (listen : Geo) : ProxyRating :=
  { r with
    listenCountryCode :=
      if listen.country ≠ [] ∧ (listen.country ≠ r.listenCountry ∨ r.listenCountryCode = []) then
        orElse (codeOf listen.country) r.listenCountryCode
      else r.listenCountryCode
    listenCountry := orElse listen.country r.listenCountry
    listenCity := orElse listen.city r.listenCity
    listenIsp := orElse listen.isp r.listenIsp }

/-- The counters of a successful check. -/
def countOk (r : ProxyRating) (latency now : ℚ) : ProxyRating :=
  { r with
    checksOk := r.checksOk + 1
    latencySum := r.latencySum + latency
    latencyCount := r.latencyCount + 1
    lastStatus := .ok
    lastOk := now
    consecutiveFails := 0 }

/-- The speed and its average. -/
def measureSpeed (r : ProxyRating) (speed : ℚ) : ProxyRating :=
  if 0 < speed then (r.applySpeed speed).updateSpeed speed else r.applySpeed speed

/-- What the tunnel has shown. -/
def applyTunnel (r : ProxyRating) (supportsConnect sslSupported mitmSuspect : Bool) : ProxyRating :=
  { r with
    supportsConnect := supportsConnect
    sslSupported := sslSupported
    protocol :=
      if sslSupported ∧ r.protocol ≠ .socks5 ∧ r.protocol ≠ .socks4 then .https else r.protocol
    mitmSuspect := mitmSuspect }

/-- `_apply_ok_result`: the empty dictionaries are not applied, and an attempt without a fraud
report is noted. -/
def applyOkResult (r : ProxyRating) (c : CheckResult) (now : ℚ) : ProxyRating :=
  let r := ((r.countOk c.latency now).measureSpeed c.speed).updateLatency c.latency
  let r := r.applyCountry codeOf c.country c.countryCode
  let r := r.applyTunnel c.supportsConnect c.sslSupported c.mitmSuspect
  let r := if c.egress = {} then r else r.applyEgress codeOf c.egress now
  let r := c.listen.elim r (r.applyListen codeOf)
  c.fraud.elim { r with fraudAttemptTs := now } (fun score => r.applyFraud score now)

/-- The counters of a check that begins to be counted. -/
def countCheck (r : ProxyRating) (latency now : ℚ) : ProxyRating :=
  { r with checksTotal := r.checksTotal + 1, lastCheck := now, lastLatency := latency }

/-- The counters of a check that has failed. -/
def countFail (r : ProxyRating) : ProxyRating :=
  { r with lastStatus := .failed, consecutiveFails := r.consecutiveFails + 1 }

/-- The part of `_update_rating` that does not look at the IP blacklists. -/
def applyResult (r : ProxyRating) (c : CheckResult) (now : ℚ) : ProxyRating :=
  let r := r.countCheck c.latency now
  (if c.ok then r.applyOkResult codeOf c now else r.countFail).updateReliability c.ok

/-- `_create_rating`. -/
def create (addr country countryCode : Str) (sourceIds : List Str) (now : ℚ) : ProxyRating where
  address := addr
  country := country
  countryCode := orElse countryCode (codeOf country)
  firstSeen := now
  sourceIds := sourceIds
  protocol := protocolOf addr

end

/-! ### The hits in the IP blacklists -/

/-- `blacklist from ...`, for each source. -/
def blacklistReasonOf (ms : List Meta) : Str :=
  "; ".toList.intercalate
    (ms.map fun m => "blacklist from ".toList ++ orElse m.sourceName m.sourceId)

/-- `_apply_ip_blacklist_to_proxy`, on a rating. -/
def applyIpBlacklist (r : ProxyRating) (ix : IpIndex) (egressIp : Str) : ProxyRating :=
  if egressIp = [] then r
  else
    let sources := (ix.isIpBlacklisted egressIp).2
    if (ix.isIpBlacklisted egressIp).1 then
      let reason := blacklistReasonOf sources
      if r.ipBlacklistReason ≠ reason ∨ r.ipBlacklistHits ≠ sources.length then
        { r with
          ipBlacklistReason := orElse reason "exit IP blacklisted".toList
          ipBlacklistHits := sources.length
          ipBlacklistSources := sources.map Meta.sourceId }
      else r
    else if r.ipBlacklistReason ≠ [] ∨ r.ipBlacklistHits ≠ 0 then
      { r with ipBlacklistReason := [], ipBlacklistHits := 0, ipBlacklistSources := [] }
    else r

/-- Only what the IP blacklists say is touched. -/
theorem applyIpBlacklist_eq (r : ProxyRating) (ix : IpIndex) (egressIp : Str) :
    ∃ reason hits sources, r.applyIpBlacklist ix egressIp =
      { r with ipBlacklistReason := reason, ipBlacklistHits := hits, ipBlacklistSources := sources } := by
  unfold applyIpBlacklist
  dsimp only
  split
  · exact ⟨_, _, _, rfl⟩
  · split
    · split <;> exact ⟨_, _, _, rfl⟩
    · split <;> exact ⟨_, _, _, rfl⟩

end ProxyRating

/-- `_update_rating`, without the saving. -/
def updateRating (codeOf : Str → Str) (ix : IpIndex) (sourceIds : List Str)
    (ratings : Dict Str ProxyRating) (addr : Str) (c : CheckResult) (now : ℚ) :
    Dict Str ProxyRating :=
  let r := (ratings.get? addr).getD (.create codeOf addr c.country c.countryCode sourceIds now)
  let r := r.applyResult codeOf c now
  ratings.insert addr (r.applyIpBlacklist ix r.egressIp)

end HuntProxy
