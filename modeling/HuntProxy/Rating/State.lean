import HuntProxy.Lib.Dict
import HuntProxy.Lib.IpText
import Mathlib.Algebra.Order.Field.Rat
import Mathlib.Algebra.Order.Ring.Rat

/-!
# Ratings

A rating is what is known about a proxy: the counters of its checks, sums and moving averages
of its latency and speed, its place on the blacklist and among the favourites, and what has
been found out about the address at which its traffic leaves. Whether the proxy belongs to
the pool is computed from these. Times and measurements are rational numbers.

## Main definitions

- `ProxyRating` — the fields
- `ProxyRating.poolEligible`, `ProxyRating.inGrace`, `ProxyRating.deadBySpeed`
- `ProxyRating.fraudVerdict` — the verdict at a time
- `ProxyRating.recordTrafficFail` — a failure in real traffic
-/

namespace HuntProxy

open Ip (Str)

inductive Status
  | ok
  | failed
  | untested
  deriving DecidableEq, Repr

inductive Protocol
  | http
  | https
  | socks4
  | socks5
  deriving DecidableEq, Repr

/-- The values of `fraud_verdict`. -/
inductive Verdict
  | failcheck
  | clean
  | mobile
  | dc
  | proxy
  deriving DecidableEq, Repr

/-- The fields, with their defaults. -/
structure ProxyRating where
  address : Str
  country : Str := []
  countryCode : Str := []
  protocol : Protocol := .http
  latencySum : ℚ := 0
  latencyCount : ℕ := 0
  checksTotal : ℕ := 0
  checksOk : ℕ := 0
  lastCheck : ℚ := 0
  lastOk : ℚ := 0
  lastLatency : ℚ := 0
  lastStatus : Status := .untested
  firstSeen : ℚ := 0
  inBlacklist : Bool := false
  blacklistReason : Str := []
  isFavorite : Bool := false
  ipBlacklistReason : Str := []
  ipBlacklistHits : ℕ := 0
  ipBlacklistSources : List Str := []
  supportsConnect : Bool := false
  mitmSuspect : Bool := false
  egressIp : Str := []
  egressCity : Str := []
  egressIsp : Str := []
  egressCountry : Str := []
  egressCountryCode : Str := []
  listenCountry : Str := []
  listenCountryCode : Str := []
  listenCity : Str := []
  listenIsp : Str := []
  egressHttpIp : Str := []
  egressHttpCountry : Str := []
  fraudHosting : Bool := false
  fraudProxy : Bool := false
  fraudMobile : Bool := false
  fraudScoreRaw : ℤ := -1
  fraudCheckedTs : ℚ := 0
  fraudRawTs : ℚ := 0
  fraudAttemptTs : ℚ := 0
  speedSum : ℚ := 0
  speedCount : ℕ := 0
  lastSpeed : ℚ := 0
  speedFails : ℕ := 0
  consecutiveFails : ℕ := 0
  sourceIds : List Str := []
  sslSupported : Bool := false
  srEwma : ℚ := -1
  latencyEwma : ℚ := -1
  speedEwma : ℚ := -1
  lastTrafficFailTs : ℚ := 0
  deriving DecidableEq

namespace ProxyRating

/-! ### Constants -/

/-- `GRACE_FAILS`. -/
def graceFails : ℕ := 50

/-- `EWMA_ALPHA`. -/
def ewmaAlpha : ℚ := 1 / 4

/-- `FRAUD_FRESH_SECONDS`. -/
def fraudFreshSeconds : ℚ := 6 * 3600

theorem fraudFreshSeconds_pos : 0 < fraudFreshSeconds := by decide +kernel

/-- `TRAFFIC_FAIL_THROTTLE`. -/
def trafficFailThrottle : ℚ := 5

/-- `MIN_USEFUL_SPEED`. -/
def minUsefulSpeed : ℚ := 5

/-! ### What is computed from the fields -/

/-- `speed_avg`. -/
def speedAvg (r : ProxyRating) : ℚ := if r.speedCount ≠ 0 then r.speedSum / r.speedCount else 0

/-- `latency_avg`. -/
def latencyAvg (r : ProxyRating) : ℚ :=
  if r.latencyCount ≠ 0 then r.latencySum / r.latencyCount else 0

/-- `success_rate`. -/
def successRate (r : ProxyRating) : ℚ := if r.checksTotal ≠ 0 then r.checksOk / r.checksTotal else 0

/-- `had_speed`. -/
def hadSpeed (r : ProxyRating) : Bool := 0 < r.speedCount

/-- `eff_speed`. -/
def effSpeed (r : ProxyRating) : ℚ := if 0 ≤ r.speedEwma then r.speedEwma else r.speedAvg

/-- `dead_by_speed`. -/
def deadBySpeed (r : ProxyRating) : Bool :=
  if 0 < r.speedCount then r.effSpeed < minUsefulSpeed else 0 < r.speedFails

/-- `in_grace`. -/
def inGrace (r : ProxyRating) : Bool :=
  !r.deadBySpeed && r.hadSpeed && r.consecutiveFails < graceFails

/-- `pool_eligible`. -/
def poolEligible (r : ProxyRating) : Bool :=
  !r.inBlacklist && !r.deadBySpeed && (r.lastStatus = .ok || r.inGrace)

/-- `fraud_failcheck`. -/
def fraudFailcheck (r : ProxyRating) (now : ℚ) : Bool :=
  if r.fraudCheckedTs = 0 then true else fraudFreshSeconds < now - r.fraudCheckedTs

/-- `fraud_score`. -/
def fraudScore (r : ProxyRating) (now : ℚ) : ℕ :=
  if r.fraudFailcheck now then 100
  else
    min 100 ((if r.fraudMobile then 20 else 0) + (if r.fraudHosting then 40 else 0) +
      (if r.fraudProxy then 70 else 0))

/-- `fraud_verdict`. -/
def fraudVerdict (r : ProxyRating) (now : ℚ) : Verdict :=
  if r.fraudFailcheck now then .failcheck
  else if r.fraudScore now < 15 then .clean
  else if r.fraudScore now < 35 then .mobile
  else if r.fraudScore now < 65 then .dc
  else .proxy

/-- The verdict is withheld exactly when there is no fresh reading of the flags. -/
theorem fraudVerdict_eq_failcheck (r : ProxyRating) (now : ℚ) :
    r.fraudVerdict now = .failcheck ↔ r.fraudFailcheck now = true := by
  unfold fraudVerdict
  cases r.fraudFailcheck now with
  | true => simp
  | false =>
    rw [if_neg Bool.false_ne_true]
    simp only [Bool.false_eq_true, iff_false]
    split
    · simp
    · split
      · simp
      · split <;> simp

/-! ### Moving averages -/

/-- `update_reliability`. -/
def updateReliability (r : ProxyRating) (ok : Bool) : ProxyRating :=
  let base :=
    if 0 ≤ r.srEwma then r.srEwma
    else if r.checksTotal ≠ 0 then r.successRate
    else if ok then 1 else 0
  { r with srEwma := (1 - ewmaAlpha) * base + ewmaAlpha * (if ok then 1 else 0) }

/-- `update_latency`. -/
def updateLatency (r : ProxyRating) (lat : ℚ) : ProxyRating :=
  { r with
    latencyEwma :=
      if r.latencyEwma < 0 then lat else (1 - ewmaAlpha) * r.latencyEwma + ewmaAlpha * lat }

/-- `update_speed`. -/
def updateSpeed (r : ProxyRating) (sp : ℚ) : ProxyRating :=
  { r with
    speedEwma := if r.speedEwma < 0 then sp else (1 - ewmaAlpha) * r.speedEwma + ewmaAlpha * sp }

/-- `record_traffic_fail`. -/
def recordTrafficFail (r : ProxyRating) (now : ℚ) : ProxyRating :=
  if trafficFailThrottle ≤ now - r.lastTrafficFailTs then
    { r with
      lastTrafficFailTs := now
      consecutiveFails := r.consecutiveFails + 1 }.updateReliability false
  else r

end ProxyRating

end HuntProxy
