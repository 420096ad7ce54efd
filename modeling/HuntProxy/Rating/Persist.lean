import HuntProxy.Lib.Machine
import HuntProxy.Lib.Rounding
import HuntProxy.Rating.Fraud
import Mathlib.Data.Rat.Floor

/-!
# Ratings in the database

A rating is kept as a JSON object. Some of its fields are written rounded, some are computed
from others, and some are not written at all; the loader has defaults for those that are
missing and repairs the latency sum. Numbers in JSON are taken as they are.

## Main definitions

- `RatingDict`, `ProxyRating.toDict`, `buildRating` — the object, its writer and its reader
- `ProxyRating.reload` — a rating that has been written and read
- `RatingState`, `RatingOp` — what happens to a rating
- `RoundTrips` — what a rating that comes back has in common with the original

## Main results

- `deadBySpeed_reload`, `sameCount_iff` — where the speed and the throttle make a difference
- `roundTrips_iff` — the ratings that come back with nothing lost
- `slow_proxy_revived`, `throttle_forgotten` — two that do not
-/

namespace HuntProxy

open Ip (Str)

namespace ProxyRating

/-! ### The score -/

/-- `_effective_socks`. -/
def effectiveSocks (r : ProxyRating) : Bool :=
  r.protocol = .socks4 || r.protocol = .socks5 ||
    portOf r.address = some 1080 || portOf r.address = some 10808 ||
    portOf r.address = some 9050 || portOf r.address = some 9051 || portOf r.address = some 4145

/-- `_speed_factor`. -/
def speedFactor (r : ProxyRating) : ℚ :=
  if 0 < r.effSpeed then
    let factor := min 1 (r.effSpeed / 150)
    if 0 < r.speedFails then factor * max (1 / 4) (1 - 35 / 100 * (r.speedFails : ℚ)) else factor
  else if r.effectiveSocks then 1 / 2
  else if 0 < r.speedFails then 0
  else if r.checksOk < 5 then 1 / 2 else 0

/-- `_base_points`. -/
def basePoints (r : ProxyRating) : ℚ :=
  let sr := if 0 ≤ r.srEwma then r.srEwma else r.successRate
  let lat := if 0 ≤ r.latencyEwma then r.latencyEwma else r.latencyAvg
  sr * 40 + 20 * max 0 (1 - lat / 10) + (if r.sslSupported then 5 else 0) +
    (if r.supportsConnect then 5 else 0) + (if r.effectiveSocks then 5 else 0)

/-- `_modifier_factor`. -/
def modifierFactor (r : ProxyRating) (now : ℚ) : ℚ :=
  max (1 / 10) (min (135 / 100) (1 - 1 / 100 * ((r.fraudScore now : ℚ) - 30))) *
    (if r.mitmSuspect then 1 / 2 else 1) *
    (if 0 < r.ipBlacklistHits then max (1 / 4) ((3 / 4) ^ r.ipBlacklistHits) else 1)

/-- `score`. -/
def score (r : ProxyRating) (now : ℚ) : ℚ :=
  let points := r.basePoints * r.speedFactor * r.modifierFactor now
  if r.checksTotal = 0 ∨ r.inBlacklist then 0
  else if r.lastStatus ≠ .ok then
    if r.inGrace then
      max 0 (min 100 (points * (3 / 10) * max 0 (1 - (r.consecutiveFails : ℚ) / graceFails)))
    else 0
  else max 0 (min 100 points)

end ProxyRating

/-! ### The object -/

/-- The JSON object of a rating; `none` stands for a key that is missing. -/
structure RatingDict where
  address : Str
  country : Option Str := none
  countryCode : Option Str := none
  protocol : Option Protocol := none
  latencyAvg : Option ℚ := none
  latencySum : Option ℚ := none
  latencyCount : Option ℕ := none
  lastLatency : Option ℚ := none
  checksTotal : Option ℕ := none
  checksOk : Option ℕ := none
  successRate : Option ℚ := none
  score : Option ℚ := none
  speedAvg : Option ℚ := none
  lastSpeed : Option ℚ := none
  speedSum : Option ℚ := none
  speedCount : Option ℕ := none
  speedFails : Option ℕ := none
  consecutiveFails : Option ℕ := none
  srEwma : Option ℚ := none
  latencyEwma : Option ℚ := none
  speedEwma : Option ℚ := none
  inGrace : Option Bool := none
  lastCheck : Option ℚ := none
  lastStatus : Option Status := none
  firstSeen : Option ℚ := none
  inBlacklist : Option Bool := none
  blacklistReason : Option Str := none
  isFavorite : Option Bool := none
  ipBlacklistReason : Option Str := none
  ipBlacklistHits : Option ℕ := none
  ipBlacklistSources : Option (List Str) := none
  supportsConnect : Option Bool := none
  mitmSuspect : Option Bool := none
  lastCheckAgo : Option ℚ := none
  lastOk : Option ℚ := none
  egressIp : Option Str := none
  egressCity : Option Str := none
  egressIsp : Option Str := none
  egressCountry : Option Str := none
  egressCountryCode : Option Str := none
  egressHttpIp : Option Str := none
  egressHttpCountry : Option Str := none
  listenCountry : Option Str := none
  listenCountryCode : Option Str := none
  listenCity : Option Str := none
  listenIsp : Option Str := none
  sslSupported : Option Bool := none
  fraudHosting : Option Bool := none
  fraudProxy : Option Bool := none
  fraudMobile : Option Bool := none
  fraudScoreRaw : Option ℤ := none
  fraudScore : Option ℕ := none
  fraudVerdict : Option Verdict := none
  fraudFailcheck : Option Bool := none
  fraudCheckedTs : Option ℚ := none
  fraudRawTs : Option ℚ := none
  fraudAttemptTs : Option ℚ := none
  lastTrafficFailTs : Option ℚ := none

/-- A moving average is written rounded, and a missing one as such. -/
def writeEwma (x : ℚ) : ℚ := if 0 ≤ x then Rounding.roundTo 4 x else -1

/-- `to_dict`. -/
def ProxyRating.toDict (r : ProxyRating) (now : ℚ) : RatingDict where
  address := r.address
  country := some r.country
  countryCode := some r.countryCode
  protocol := some r.protocol
  latencyAvg := some (Rounding.roundTo 3 r.latencyAvg)
  latencySum := some (Rounding.roundTo 3 r.latencySum)
  latencyCount := some r.latencyCount
  lastLatency := some (Rounding.roundTo 3 r.lastLatency)
  checksTotal := some r.checksTotal
  checksOk := some r.checksOk
  successRate := some (Rounding.roundTo 3 r.successRate)
  score := some (Rounding.roundTo 2 (r.score now))
  speedAvg := some (Rounding.roundTo 1 r.speedAvg)
  lastSpeed := some (Rounding.roundTo 1 r.lastSpeed)
  speedSum := some (Rounding.roundTo 1 r.speedSum)
  speedCount := some r.speedCount
  speedFails := some r.speedFails
  consecutiveFails := some r.consecutiveFails
  srEwma := some (writeEwma r.srEwma)
  latencyEwma := some (writeEwma r.latencyEwma)
  speedEwma := some (writeEwma r.speedEwma)
  inGrace := some r.inGrace
  lastCheck := some r.lastCheck
  lastStatus := some r.lastStatus
  firstSeen := some r.firstSeen
  inBlacklist := some r.inBlacklist
  blacklistReason := some r.blacklistReason
  isFavorite := some r.isFavorite
  ipBlacklistReason := some r.ipBlacklistReason
  ipBlacklistHits := some r.ipBlacklistHits
  ipBlacklistSources := some r.ipBlacklistSources
  supportsConnect := some r.supportsConnect
  mitmSuspect := some r.mitmSuspect
  lastCheckAgo := some (if r.lastCheck ≠ 0 then Rounding.roundTo 1 (now - r.lastCheck) else 0)
  lastOk := some r.lastOk
  egressIp := some r.egressIp
  egressCity := some r.egressCity
  egressIsp := some r.egressIsp
  egressCountry := some r.egressCountry
  egressCountryCode := some r.egressCountryCode
  listenCountry := some r.listenCountry
  listenCountryCode := some r.listenCountryCode
  listenCity := some r.listenCity
  listenIsp := some r.listenIsp
  sslSupported := some r.sslSupported
  fraudHosting := some r.fraudHosting
  fraudProxy := some r.fraudProxy
  fraudMobile := some r.fraudMobile
  fraudScoreRaw := some r.fraudScoreRaw
  fraudScore := some (r.fraudScore now)
  fraudVerdict := some (r.fraudVerdict now)
  fraudFailcheck := some (r.fraudFailcheck now)
  fraudCheckedTs := some r.fraudCheckedTs
  fraudRawTs := some r.fraudRawTs
  fraudAttemptTs := some r.fraudAttemptTs

/-- The repairs of the latency sum. -/
def repairLatencySum (storedAvg lastLatency latencySum : ℚ) (latencyCount : ℕ) : ℚ :=
  if latencyCount = 0 then latencySum
  else if storedAvg = 0 ∧ 0 < lastLatency then lastLatency * latencyCount
  else if 1 / 1000 < |latencySum / latencyCount - storedAvg| then storedAvg * latencyCount
  else latencySum

/-- `_build_rating_from_dict`. -/
def buildRating (d : RatingDict) : ProxyRating :=
  let checksOk := d.checksOk.getD 0
  let storedAvg := d.latencyAvg.getD 0
  let lastLatency := d.lastLatency.getD 0
  let latencyCount := d.latencyCount.getD checksOk
  { address := d.address
    country := d.country.getD []
    countryCode := d.countryCode.getD []
    protocol := d.protocol.getD .http
    latencySum :=
      repairLatencySum storedAvg lastLatency (d.latencySum.getD (storedAvg * checksOk)) latencyCount
    latencyCount := latencyCount
    lastLatency := lastLatency
    checksTotal := d.checksTotal.getD 0
    checksOk := checksOk
    lastCheck := d.lastCheck.getD 0
    lastOk := d.lastOk.getD 0
    lastStatus := d.lastStatus.getD .untested
    firstSeen := d.firstSeen.getD 0
    supportsConnect := d.supportsConnect.getD false
    mitmSuspect := d.mitmSuspect.getD false
    lastSpeed := d.lastSpeed.getD 0
    speedSum := d.speedSum.getD 0
    speedCount := d.speedCount.getD 0
    speedFails := d.speedFails.getD 0
    consecutiveFails := d.consecutiveFails.getD 0
    egressHttpIp := d.egressHttpIp.getD []
    egressHttpCountry := d.egressHttpCountry.getD []
    egressIp := d.egressIp.getD []
    egressCity := d.egressCity.getD []
    egressIsp := d.egressIsp.getD []
    egressCountry := d.egressCountry.getD []
    egressCountryCode := d.egressCountryCode.getD []
    listenCountry := d.listenCountry.getD []
    listenCountryCode := d.listenCountryCode.getD []
    listenCity := d.listenCity.getD []
    listenIsp := d.listenIsp.getD []
    sslSupported := d.sslSupported.getD false
    fraudHosting := d.fraudHosting.getD false
    fraudProxy := d.fraudProxy.getD false
    fraudMobile := d.fraudMobile.getD false
    fraudScoreRaw := d.fraudScoreRaw.getD (-1)
    fraudCheckedTs := d.fraudCheckedTs.getD 0
    fraudRawTs := d.fraudRawTs.getD 0
    fraudAttemptTs := d.fraudAttemptTs.getD 0
    srEwma := d.srEwma.getD (-1)
    latencyEwma := d.latencyEwma.getD (-1)
    speedEwma := d.speedEwma.getD (-1)
    lastTrafficFailTs := d.lastTrafficFailTs.getD 0
    ipBlacklistReason := d.ipBlacklistReason.getD []
    ipBlacklistHits := d.ipBlacklistHits.getD 0
    ipBlacklistSources := d.ipBlacklistSources.getD []
    inBlacklist := d.inBlacklist.getD false
    blacklistReason := d.blacklistReason.getD []
    isFavorite := d.isFavorite.getD false }

namespace ProxyRating

/-- A rating that has been written and read. -/
def reload (r : ProxyRating) (now : ℚ) : ProxyRating := buildRating (r.toDict now)

end ProxyRating

/-! ### What happens to a rating -/

/-- `_record_traffic_fail`, on a rating. -/
def ProxyRating.trafficFail (r : ProxyRating) (now : ℚ) : ProxyRating :=
  { ({ r with lastStatus := .failed } : ProxyRating).recordTrafficFail now with lastCheck := now }

/-- A rating and the clock. -/
structure RatingState where
  rating : ProxyRating
  now : ℚ

/-- What happens to a rating. A check reports about interception of TLS as well. -/
inductive RatingOp
  | wait (until_ : ℚ)
  | check (c : CheckResult)
  | ipBlacklist (ix : IpIndex)
  | trafficFail
  | forcedFraud (egress : Egress) (fraud : Option (Option ℤ))
  | restart

namespace RatingState

variable (codeOf : Str → Str)

/-- One operation. -/
def apply (s : RatingState) : RatingOp → RatingState
  | .wait until_ => { s with now := max s.now until_ }
  | .check c => { s with rating := s.rating.applyResult codeOf c s.now }
  | .ipBlacklist ix => { s with rating := s.rating.applyIpBlacklist ix s.rating.egressIp }
  | .trafficFail => { s with rating := s.rating.trafficFail s.now }
  | .forcedFraud egress fraud =>
    { s with rating := FraudState.forcedRating s.rating egress fraud s.now }
  | .restart => { s with rating := s.rating.reload s.now }

/-- The machine of the operations. -/
def machine : Machine RatingState RatingOp := ⟨fun s op => some (s.apply codeOf op)⟩

end RatingState

/-! ### What comes back -/

namespace ProxyRating

/-- A rating as it is made: without a speed and without a failure in traffic. -/
structure Newborn (r : ProxyRating) : Prop where
  speedCount : r.speedCount = 0
  lastTrafficFailTs : r.lastTrafficFailTs = 0

/-- The rating after a sequence of failures in traffic. -/
def failAll (r : ProxyRating) (times : List ℚ) : ProxyRating := times.foldl trafficFail r

/-- Two ratings count every sequence of failures from now on alike. -/
def SameCount (r r' : ProxyRating) (now : ℚ) : Prop :=
  ∀ times, (now :: times).IsChain (· ≤ ·) →
    (r.failAll times).consecutiveFails = (r'.failAll times).consecutiveFails

/-- The measured speed is just too slow, and is written as fast enough. -/
def SlowEdge (r : ProxyRating) : Prop :=
  0 < r.speedCount ∧ 99999 / 20000 ≤ r.speedEwma ∧ r.speedEwma < minUsefulSpeed

/-- No failure in traffic holds the next one back. -/
def Unthrottled (r : ProxyRating) (now : ℚ) : Prop :=
  r.lastTrafficFailTs = 0 ∨ r.lastTrafficFailTs + trafficFailThrottle ≤ now

instance (r : ProxyRating) : Decidable r.SlowEdge := inferInstanceAs (Decidable (_ ∧ _))

instance (r : ProxyRating) (now : ℚ) : Decidable (r.Unthrottled now) :=
  inferInstanceAs (Decidable (_ ∨ _))

/-- The counters, which no repair changes. -/
def counters (r : ProxyRating) : List ℕ :=
  [r.latencyCount, r.checksTotal, r.checksOk, r.speedCount, r.speedFails, r.consecutiveFails,
    r.ipBlacklistHits]

/-- The flags. -/
def flags (r : ProxyRating) : List Bool :=
  [r.inBlacklist, r.isFavorite, r.supportsConnect, r.mitmSuspect, r.sslSupported, r.fraudHosting,
    r.fraudProxy, r.fraudMobile]

end ProxyRating

/-- The rating that comes back is as good as the original. -/
structure RoundTrips (r : ProxyRating) (now : ℚ) : Prop where
  poolEligible : (r.reload now).poolEligible = r.poolEligible
  inGrace : (r.reload now).inGrace = r.inGrace
  deadBySpeed : (r.reload now).deadBySpeed = r.deadBySpeed
  fraudVerdict : (r.reload now).fraudVerdict now = r.fraudVerdict now
  counters : (r.reload now).counters = r.counters
  flags : (r.reload now).flags = r.flags
  traffic : (r.reload now).SameCount r now

namespace ProxyRating

/-! ### Failures in traffic -/

/-- The counter and the time of the last failure, with one more failure. -/
def tally (p : ℕ × ℚ) (now : ℚ) : ℕ × ℚ :=
  if trafficFailThrottle ≤ now - p.2 then (p.1 + 1, now) else p

theorem tally_trafficFail (r : ProxyRating) (now : ℚ) :
    ((r.trafficFail now).consecutiveFails, (r.trafficFail now).lastTrafficFailTs) =
      tally (r.consecutiveFails, r.lastTrafficFailTs) now := by
  rw [trafficFail, recordTrafficFail, tally]
  split <;> rfl

theorem tally_failAll (r : ProxyRating) (times : List ℚ) :
    ((r.failAll times).consecutiveFails, (r.failAll times).lastTrafficFailTs) =
      times.foldl tally (r.consecutiveFails, r.lastTrafficFailTs) := by
  induction times generalizing r with
  | nil => rfl
  | cons now times ih =>
    rw [failAll, List.foldl_cons, List.foldl_cons, ← tally_trafficFail]
    exact ih (r.trafficFail now)

theorem consecutiveFails_failAll (r : ProxyRating) (times : List ℚ) :
    (r.failAll times).consecutiveFails =
      (times.foldl tally (r.consecutiveFails, r.lastTrafficFailTs)).1 := by
  rw [← tally_failAll]

/-- **The throttle is forgotten**, which makes no difference just when it holds nothing back. -/
theorem sameCount_iff {r : ProxyRating} (now : ℚ) (hnonneg : 0 ≤ r.lastTrafficFailTs) :
    (r.reload now).SameCount r now ↔ r.Unthrottled now := by
  have hreload : ((r.reload now).consecutiveFails, (r.reload now).lastTrafficFailTs) =
      (r.consecutiveFails, 0) := rfl
  unfold SameCount Unthrottled
  simp only [consecutiveFails_failAll, hreload]
  constructor
  · intro hsame
    by_contra hnot
    rw [not_or, not_le] at hnot
    have hpos : 0 < r.lastTrafficFailTs := lt_of_le_of_ne hnonneg (Ne.symm hnot.1)
    -- A failure at this time is counted on the copy and held back on the original.
    have htime := hsame [max now trafficFailThrottle] (List.IsChain.cons_cons (le_max_left _ _) (.singleton _))
    have hcopy : trafficFailThrottle ≤ max now trafficFailThrottle - 0 := by
      rw [sub_zero]
      exact le_max_right _ _
    have horiginal : ¬ trafficFailThrottle ≤ max now trafficFailThrottle - r.lastTrafficFailTs := by
      rw [not_le, sub_lt_iff_lt_add']
      exact max_lt hnot.2 (lt_add_of_pos_left _ hpos)
    rw [List.foldl_cons, List.foldl_cons, tally, tally, if_pos hcopy, if_neg horiginal] at htime
    exact absurd htime (by simp)
  · rintro (hzero | hover) times hchain
    · rw [hzero]
    · cases times with
      | nil => rfl
      | cons time times =>
        have hle : now ≤ time := by
          cases hchain with
          | cons_cons hle _ => exact hle
        have horiginal : trafficFailThrottle ≤ time - r.lastTrafficFailTs := by linarith
        have hcopy : trafficFailThrottle ≤ time - 0 := by linarith
        rw [List.foldl_cons, List.foldl_cons, tally, tally, if_pos hcopy, if_pos horiginal]

/-! ### Speed -/

theorem writeEwma_nonneg {x : ℚ} (h : 0 ≤ x) : 0 ≤ writeEwma x := by
  rw [writeEwma, if_pos h]
  exact Rounding.roundTo_nonneg 4 h

/-- A speed is written as fast enough from half a place below on. -/
theorem writeEwma_lt_iff {x : ℚ} (h : 0 ≤ x) :
    writeEwma x < minUsefulSpeed ↔ x < 99999 / 20000 := by
  have hround := Rounding.roundTo_lt_iff (x := x) (k := 4) (n := 50000) rfl
  rw [writeEwma, if_pos h, minUsefulSpeed]
  norm_num at hround ⊢
  exact hround

/-- **The speed is rounded**, which makes a difference just below the limit. -/
theorem deadBySpeed_reload {r : ProxyRating} (now : ℚ)
    (hspeed : 0 < r.speedCount → 0 ≤ r.speedEwma) :
    (r.reload now).deadBySpeed = r.deadBySpeed ↔ ¬ r.SlowEdge := by
  have hcount : (r.reload now).speedCount = r.speedCount := rfl
  have hfails : (r.reload now).speedFails = r.speedFails := rfl
  have hewma : (r.reload now).speedEwma = writeEwma r.speedEwma := rfl
  unfold deadBySpeed SlowEdge
  rw [hcount, hfails]
  by_cases hpos : 0 < r.speedCount
  · have hnonneg := hspeed hpos
    rw [if_pos hpos, if_pos hpos, effSpeed, effSpeed, hewma, if_pos hnonneg,
      if_pos (writeEwma_nonneg hnonneg), decide_eq_decide, writeEwma_lt_iff hnonneg]
    have hedge : (99999 / 20000 : ℚ) < minUsefulSpeed := by norm_num [minUsefulSpeed]
    constructor
    · rintro hiff ⟨-, hle, hlt⟩
      exact absurd (hiff.mpr hlt) hle.not_gt
    · intro hnot
      refine ⟨fun hlt => hlt.trans hedge, fun hlt => ?_⟩
      by_contra hge
      exact hnot ⟨hpos, not_lt.mp hge, hlt⟩
  · rw [if_neg hpos, if_neg hpos]
    exact iff_of_true rfl fun h => hpos h.1

/-- The rest of the eligibility follows the speed. -/
theorem inGrace_reload {r : ProxyRating} {now : ℚ}
    (hdead : (r.reload now).deadBySpeed = r.deadBySpeed) :
    (r.reload now).inGrace = r.inGrace := by
  rw [inGrace, inGrace, hdead]
  rfl

theorem poolEligible_reload {r : ProxyRating} {now : ℚ}
    (hdead : (r.reload now).deadBySpeed = r.deadBySpeed) :
    (r.reload now).poolEligible = r.poolEligible := by
  rw [poolEligible, poolEligible, hdead, inGrace_reload hdead]
  rfl

/-! ### What the operations do to the speed and to the throttle -/

/-- The measured speed, the throttle and the marks of the operator. Most parts of an update leave
them alone. -/
def measured (r : ProxyRating) : ℕ × ℚ × ℚ × Bool × Bool :=
  (r.speedCount, r.speedEwma, r.lastTrafficFailTs, r.inBlacklist, r.isFavorite)

variable (codeOf : Str → Str)

theorem measured_applyCountry (r : ProxyRating) (country countryCode : Str) :
    (r.applyCountry codeOf country countryCode).measured = r.measured := by
  obtain ⟨name, code, h⟩ := r.applyCountry_eq codeOf country countryCode
  rw [h]
  rfl

theorem measured_applyEgress (r : ProxyRating) (egress : Egress) (now : ℚ) :
    (if egress = {} then r else r.applyEgress codeOf egress now).measured = r.measured := by
  split
  · rfl
  · rw [applyEgress, applyFlags]
    split <;> rfl

theorem measured_applyFraud (r : ProxyRating) (score : Option ℤ) (now : ℚ) :
    (r.applyFraud score now).measured = r.measured := by
  unfold applyFraud
  split
  · rfl
  · split <;> rfl

/-- A check measures the speed when it succeeds, and leaves the rest alone. -/
theorem measured_applyResult (r : ProxyRating) (c : CheckResult) (now : ℚ) :
    (r.applyResult codeOf c now).measured =
      if c.ok then (r.measureSpeed c.speed).measured else r.measured := by
  have hupdate (r' : ProxyRating) (ok : Bool) : (r'.updateReliability ok).measured = r'.measured := rfl
  unfold applyResult
  rw [hupdate]
  cases c.ok with
  | false => rfl
  | true =>
    rw [if_pos rfl, if_pos rfl, applyOkResult]
    have hlisten (r' : ProxyRating) : (c.listen.elim r' (r'.applyListen codeOf)).measured = r'.measured := by
      cases c.listen <;> rfl
    have hfraud (r' : ProxyRating) :
        (c.fraud.elim { r' with fraudAttemptTs := now } (fun score => r'.applyFraud score now)).measured =
          r'.measured := by
      cases c.fraud with
      | none => rfl
      | some score => exact measured_applyFraud r' score now
    rw [hfraud, hlisten, measured_applyEgress]
    change (applyCountry codeOf _ _ _).measured = _
    rw [measured_applyCountry]
    unfold measureSpeed applySpeed
    split
    · rfl
    · rfl

theorem measured_applyIpBlacklist (r : ProxyRating) (ix : IpIndex) (ip : Str) :
    (r.applyIpBlacklist ix ip).measured = r.measured := by
  obtain ⟨reason, hits, sources, h⟩ := r.applyIpBlacklist_eq ix ip
  rw [h]
  rfl

theorem measured_forcedRating (r : ProxyRating) (egress : Egress) (fraud : Option (Option ℤ))
    (now : ℚ) : (FraudState.forcedRating r egress fraud now).measured = r.measured := by
  have hflags : (FraudState.forcedFlags r egress).measured = r.measured := by
    unfold FraudState.forcedFlags
    split <;> rfl
  have hscore : (FraudState.forcedScore (FraudState.forcedFlags r egress) fraud now).measured =
      r.measured := by
    unfold FraudState.forcedScore
    split
    · rw [measured_applyFraud, hflags]
    · exact hflags
  unfold FraudState.forcedRating
  dsimp only
  split <;> exact hscore

/-- A measurement leaves an average that is not negative. -/
theorem speedEwma_measureSpeed {r : ProxyRating} {speed : ℚ}
    (h : 0 < r.speedCount → 0 ≤ r.speedEwma) :
    0 < (r.measureSpeed speed).speedCount → 0 ≤ (r.measureSpeed speed).speedEwma := by
  unfold measureSpeed applySpeed
  by_cases hpos : 0 < speed
  · simp only [if_pos hpos]
    intro _
    change 0 ≤ (if r.speedEwma < 0 then speed else (1 - ewmaAlpha) * r.speedEwma + ewmaAlpha * speed)
    split
    · exact hpos.le
    · next hneg =>
      have hnonneg := not_lt.mp hneg
      norm_num [ewmaAlpha]
      positivity
  · simp only [if_neg hpos]
    exact h

end ProxyRating

namespace RatingState

/-- A measured speed is not negative, and the last failure in traffic is past. -/
structure Sound (s : RatingState) : Prop where
  speed : 0 < s.rating.speedCount → 0 ≤ s.rating.speedEwma
  nonneg : 0 ≤ s.rating.lastTrafficFailTs
  past : s.rating.lastTrafficFailTs ≤ s.now

/-- What leaves the measured fields alone is sound. -/
theorem Sound.of_measured {s : RatingState} (h : s.Sound) {r : ProxyRating}
    (hr : r.measured = s.rating.measured) : Sound { s with rating := r } := by
  simp only [ProxyRating.measured, Prod.mk.injEq] at hr
  refine ⟨fun hcount => ?_, ?_, ?_⟩
  · rw [hr.2.1]
    exact h.speed (hr.1 ▸ hcount)
  · rw [hr.2.2.1]
    exact h.nonneg
  · rw [hr.2.2.1]
    exact h.past

theorem Sound.apply {codeOf : Str → Str} {s : RatingState} (h : s.Sound) (op : RatingOp) :
    (s.apply codeOf op).Sound := by
  cases op with
  | wait until_ => exact ⟨h.speed, h.nonneg, h.past.trans (le_max_left _ _)⟩
  | check c =>
    have hmeasured := s.rating.measured_applyResult codeOf c s.now
    cases hok : c.ok with
    | false =>
      rw [hok, if_neg Bool.false_ne_true] at hmeasured
      exact h.of_measured hmeasured
    | true =>
      rw [hok, if_pos rfl] at hmeasured
      -- a check that succeeds measures the speed, and nothing else that the invariant is about
      have hspeed : Sound { s with rating := s.rating.measureSpeed c.speed } := by
        have hfail : (s.rating.measureSpeed c.speed).lastTrafficFailTs = s.rating.lastTrafficFailTs := by
          unfold ProxyRating.measureSpeed ProxyRating.applySpeed
          split <;> rfl
        refine ⟨ProxyRating.speedEwma_measureSpeed h.speed, ?_, ?_⟩
        · rw [hfail]
          exact h.nonneg
        · rw [hfail]
          exact h.past
      exact hspeed.of_measured hmeasured
  | ipBlacklist ix => exact h.of_measured (s.rating.measured_applyIpBlacklist ix _)
  | trafficFail =>
    have hspeed : (s.rating.trafficFail s.now).speedCount = s.rating.speedCount ∧
        (s.rating.trafficFail s.now).speedEwma = s.rating.speedEwma := by
      rw [ProxyRating.trafficFail, ProxyRating.recordTrafficFail]
      split <;> exact ⟨rfl, rfl⟩
    have htally := congrArg Prod.snd (s.rating.tally_trafficFail s.now)
    have hfail : (s.rating.trafficFail s.now).lastTrafficFailTs = s.now ∨
        (s.rating.trafficFail s.now).lastTrafficFailTs = s.rating.lastTrafficFailTs := by
      rw [ProxyRating.tally] at htally
      split at htally
      · exact .inl htally
      · exact .inr htally
    refine ⟨fun hcount => ?_, ?_, ?_⟩
    · change 0 ≤ (s.rating.trafficFail s.now).speedEwma
      rw [hspeed.2]
      exact h.speed (hspeed.1 ▸ hcount)
    · change 0 ≤ (s.rating.trafficFail s.now).lastTrafficFailTs
      rcases hfail with hfail | hfail
      · rw [hfail]
        exact h.nonneg.trans h.past
      · rw [hfail]
        exact h.nonneg
    · change (s.rating.trafficFail s.now).lastTrafficFailTs ≤ s.now
      rcases hfail with hfail | hfail
      · rw [hfail]
      · rw [hfail]
        exact h.past
  | forcedFraud egress fraud => exact h.of_measured (s.rating.measured_forcedRating egress fraud s.now)
  | restart =>
    refine ⟨fun hcount => ProxyRating.writeEwma_nonneg (h.speed hcount), le_refl (0 : ℚ), ?_⟩
    exact h.nonneg.trans h.past

end RatingState

/-- **A reachable rating comes back as it was** just when its measured speed is not less than half
a place below the limit, and no failure in traffic still holds the next one back. -/
theorem roundTrips_iff (codeOf : Str → Str) {r : ProxyRating} {now : ℚ} {s : RatingState}
    (hborn : r.Newborn) (hnow : 0 ≤ now)
    (h : (RatingState.machine codeOf).Reaches Machine.anyStep ⟨r, now⟩ s) :
    RoundTrips s.rating s.now ↔ ¬ s.rating.SlowEdge ∧ s.rating.Unthrottled s.now := by
  have hstart : RatingState.Sound ⟨r, now⟩ := by
    refine ⟨fun hcount => absurd hcount (by rw [hborn.speedCount]; exact lt_irrefl 0), ?_, ?_⟩
    · rw [hborn.lastTrafficFailTs]
    · rw [hborn.lastTrafficFailTs]
      exact hnow
  have hsound : s.Sound := by
    refine h.invariant hstart fun t op t' ht hstep _ => ?_
    cases hstep
    exact ht.apply op
  have hdead := ProxyRating.deadBySpeed_reload s.now hsound.speed
  have hcount := ProxyRating.sameCount_iff s.now hsound.nonneg
  constructor
  · intro hround
    exact ⟨hdead.mp hround.deadBySpeed, hcount.mp hround.traffic⟩
  · rintro ⟨hedge, hthrottle⟩
    have hsame := hdead.mpr hedge
    exact {
      poolEligible := ProxyRating.poolEligible_reload hsame
      inGrace := ProxyRating.inGrace_reload hsame
      deadBySpeed := hsame
      fraudVerdict := rfl
      counters := rfl
      flags := rfl
      traffic := hcount.mpr hthrottle }

/-- A new rating. -/
def sampleRating : ProxyRating := ProxyRating.create id sampleAddr [] [] [] 1

theorem newborn_sampleRating : sampleRating.Newborn := ⟨rfl, rfl⟩

/-- A successful check that measures a speed. -/
def speedCheck (speed : ℚ) : CheckResult where
  ok := true
  country := []
  latency := 1
  speed := speed

theorem roundTrips_iff_fast :
    RoundTrips (sampleRating.applyResult id (speedCheck 100) 1) 1 :=
  (roundTrips_iff id newborn_sampleRating one_pos.le
    (Machine.Reaches.single (a := .check (speedCheck 100)) rfl trivial)).mpr
    ⟨by decide +kernel, by decide +kernel⟩

/-- **A proxy that is dead by its speed is alive when it comes back.** -/
theorem slow_proxy_revived :
    ∃ s, (RatingState.machine id).Reaches Machine.anyStep ⟨sampleRating, 1⟩ s ∧
      ¬ RoundTrips s.rating s.now := by
  refine ⟨_, Machine.Reaches.single (a := .check (speedCheck (499999 / 100000))) rfl trivial, ?_⟩
  intro hround
  exact absurd hround.deadBySpeed (by decide +kernel)

/-- **A burst of failures that is interrupted by a restart is counted twice.** -/
theorem throttle_forgotten :
    ∃ s, (RatingState.machine id).Reaches Machine.anyStep ⟨sampleRating, 10⟩ s ∧
      ¬ (s.rating.reload s.now).SameCount s.rating s.now := by
  refine ⟨_, Machine.Reaches.single (a := .trafficFail) rfl trivial, ?_⟩
  intro hsame
  exact absurd (hsame [11] (.cons_cons (by decide +kernel) (.singleton _))) (by decide +kernel)

end HuntProxy
