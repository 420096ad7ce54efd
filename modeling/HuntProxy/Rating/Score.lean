import HuntProxy.Blacklist.Hits
import HuntProxy.Rating.Persist
import Mathlib.Order.BooleanAlgebra.Basic
import Mathlib.Tactic.GCongr

/-!
# What lowers the score

The score of a rating is a product of points and of a weight, cut off at a hundred. The points come
from the reliability, the latency, the speed and what is known about the egress; the weight is one
after a successful check, falls with every failure while the rating is in its grace period, and is
zero for ratings that do not count.

## Main definitions

- `ProxyRating.reliability`, `ProxyRating.points`, `ProxyRating.weight` — the parts of the score
- `ProxyRating.afterCheck` — `_update_rating`, on a rating that is there
- `HitsAgree` — the stored number of hits is that of the index

## Main results

- `score_eq_clamp` — the score as a product
- `weight_le_of_failed` — what a failure does to the weight
- `score_antitone` — failures and bad signs never raise the score
-/

namespace HuntProxy

open Ip (Str)

namespace ProxyRating

/-! ### The parts of the score -/

/-- The `sr` of `_base_points`. -/
def reliability (r : ProxyRating) : ℚ := if 0 ≤ r.srEwma then r.srEwma else r.successRate

/-- The points that do not come from the reliability. -/
def merits (r : ProxyRating) : ℚ :=
  20 * max 0 (1 - (if 0 ≤ r.latencyEwma then r.latencyEwma else r.latencyAvg) / 10) +
    (if r.sslSupported then 5 else 0) + (if r.supportsConnect then 5 else 0) +
    (if r.effectiveSocks then 5 else 0)

/-- The product in front of the weight. -/
def points (r : ProxyRating) (now : ℚ) : ℚ := r.basePoints * r.speedFactor * r.modifierFactor now

/-- What is left of the points after failures in a row. -/
def decay (fails : ℕ) : ℚ := 3 / 10 * max 0 (1 - (fails : ℚ) / graceFails)

/-- How much of the points counts. -/
def weight (r : ProxyRating) : ℚ :=
  if r.checksTotal = 0 ∨ r.inBlacklist = true then 0
  else if r.lastStatus = .ok then 1
  else if r.inGrace = true then decay r.consecutiveFails
  else 0

/-- The score is the product, between zero and a hundred. -/
theorem score_eq_clamp (r : ProxyRating) (now : ℚ) :
    r.score now = max 0 (min 100 (r.points now * r.weight)) := by
  have hzero : max 0 (min 100 (r.points now * 0)) = 0 := by simp
  unfold score weight
  dsimp only
  by_cases huncounted : r.checksTotal = 0 ∨ r.inBlacklist = true
  · rw [if_pos huncounted, if_pos huncounted]
    exact hzero.symm
  · rw [if_neg huncounted, if_neg huncounted]
    by_cases hstatus : r.lastStatus = .ok
    · rw [if_neg (not_not.mpr hstatus), if_pos hstatus, mul_one]
      rfl
    · rw [if_pos hstatus, if_neg hstatus]
      by_cases hgrace : r.inGrace = true
      · rw [if_pos hgrace, if_pos hgrace, decay, ← mul_assoc]
        rfl
      · rw [if_neg hgrace, if_neg hgrace]
        exact hzero.symm

theorem successRate_nonneg (r : ProxyRating) : 0 ≤ r.successRate := by
  unfold successRate
  split
  · positivity
  · exact le_rfl

theorem reliability_nonneg (r : ProxyRating) : 0 ≤ r.reliability := by
  unfold reliability
  split
  · assumption
  · exact r.successRate_nonneg

theorem merits_nonneg (r : ProxyRating) : 0 ≤ r.merits := by
  unfold merits
  positivity

/-- The reliability is the part of the points that failures change. -/
theorem basePoints_eq (r : ProxyRating) : r.basePoints = r.reliability * 40 + r.merits := by
  unfold basePoints reliability merits
  ring

theorem basePoints_nonneg (r : ProxyRating) : 0 ≤ r.basePoints := by
  have hreliability := r.reliability_nonneg
  have hmerits := r.merits_nonneg
  rw [basePoints_eq]
  positivity

theorem speedFactor_nonneg (r : ProxyRating) : 0 ≤ r.speedFactor := by
  unfold speedFactor
  split
  · have hfactor : 0 ≤ min 1 (r.effSpeed / 150) := by positivity
    dsimp only
    split <;> positivity
  · split_ifs <;> norm_num

/-- What the hits in the IP blacklists leave. -/
def hitsFactor (hits : ℕ) : ℚ := if 0 < hits then max (1 / 4) ((3 / 4) ^ hits) else 1

/-- What the fraud score leaves. -/
def fraudFactor (fraudScore : ℕ) : ℚ :=
  max (1 / 10) (min (135 / 100) (1 - 1 / 100 * ((fraudScore : ℚ) - 30)))

theorem modifierFactor_eq (r : ProxyRating) (now : ℚ) :
    r.modifierFactor now = fraudFactor (r.fraudScore now) * (if r.mitmSuspect then 1 / 2 else 1) *
      hitsFactor r.ipBlacklistHits := by
  rw [modifierFactor, fraudFactor, hitsFactor]

theorem fraudFactor_pos (fraudScore : ℕ) : 0 < fraudFactor fraudScore := by
  unfold fraudFactor
  positivity

theorem hitsFactor_pos (hits : ℕ) : 0 < hitsFactor hits := by
  unfold hitsFactor
  split <;> positivity

theorem modifierFactor_pos (r : ProxyRating) (now : ℚ) : 0 < r.modifierFactor now := by
  have hfraud := fraudFactor_pos (r.fraudScore now)
  have hhits := hitsFactor_pos r.ipBlacklistHits
  rw [modifierFactor_eq]
  split <;> positivity

theorem points_nonneg (r : ProxyRating) (now : ℚ) : 0 ≤ r.points now :=
  mul_nonneg (mul_nonneg r.basePoints_nonneg r.speedFactor_nonneg) (r.modifierFactor_pos now).le

theorem decay_nonneg (fails : ℕ) : 0 ≤ decay fails := by
  unfold decay
  positivity

theorem decay_antitone : Antitone decay := by
  intro m n hmn
  have hcast : (m : ℚ) ≤ n := by exact_mod_cast hmn
  unfold decay
  gcongr

theorem decay_le_one (fails : ℕ) : decay fails ≤ 1 := by
  have hstart : decay 0 ≤ 1 := by norm_num [decay]
  exact (decay_antitone (Nat.zero_le fails)).trans hstart

theorem weight_nonneg (r : ProxyRating) : 0 ≤ r.weight := by
  have hdecay := decay_nonneg r.consecutiveFails
  unfold weight
  split_ifs <;> first | exact le_rfl | exact zero_le_one | exact hdecay

/-- Points and weight decide the order of two ratings. -/
theorem score_le_score {r r' : ProxyRating} {now : ℚ} (hpoints : r'.points now ≤ r.points now)
    (hweight : r'.weight ≤ r.weight) : r'.score now ≤ r.score now := by
  have hproduct : r'.points now * r'.weight ≤ r.points now * r.weight :=
    mul_le_mul hpoints hweight r'.weight_nonneg (r.points_nonneg now)
  rw [score_eq_clamp, score_eq_clamp]
  exact max_le_max le_rfl (min_le_min le_rfl hproduct)

/-- The points, by their factors. -/
theorem points_le_points {r r' : ProxyRating} {now : ℚ} (hbase : r'.basePoints ≤ r.basePoints)
    (hspeed : r'.speedFactor ≤ r.speedFactor)
    (hmodifier : r'.modifierFactor now ≤ r.modifierFactor now) : r'.points now ≤ r.points now :=
  mul_le_mul (mul_le_mul hbase hspeed r'.speedFactor_nonneg r.basePoints_nonneg) hmodifier
    (r'.modifierFactor_pos now).le (mul_nonneg r.basePoints_nonneg r.speedFactor_nonneg)

/-! ### Failures -/

/-- A failure takes a quarter of the reliability. -/
theorem reliability_updateReliability_false (r : ProxyRating) :
    (r.updateReliability false).reliability = 3 / 4 * r.reliability := by
  have hbase : (if 0 ≤ r.srEwma then r.srEwma
      else if r.checksTotal ≠ 0 then r.successRate else 0) = r.reliability := by
    unfold reliability successRate
    split_ifs <;> rfl
  have hewma : (r.updateReliability false).srEwma = 3 / 4 * r.reliability := by
    rw [← hbase]
    simp only [updateReliability, Bool.false_eq_true, if_false, ewmaAlpha]
    ring
  rw [reliability, hewma, if_pos (mul_nonneg (by norm_num) r.reliability_nonneg)]

/-- The rating after a check that has failed. -/
theorem applyResult_failed (codeOf : Str → Str) (r : ProxyRating) {c : CheckResult}
    (hfailed : c.ok = false) (now : ℚ) :
    r.applyResult codeOf c now =
      ((r.countCheck c.latency now).countFail).updateReliability false := by
  simp only [applyResult, hfailed, Bool.false_eq_true, if_false]

/-- One more check without a success. -/
theorem reliability_countFail_le {r : ProxyRating} (htotal : r.checksTotal ≠ 0) (latency now : ℚ) :
    ((r.countCheck latency now).countFail).reliability ≤ r.reliability := by
  have hpos : (0 : ℚ) < r.checksTotal := by exact_mod_cast Nat.pos_of_ne_zero htotal
  have hrate : ((r.countCheck latency now).countFail).successRate ≤ r.successRate := by
    change (if r.checksTotal + 1 ≠ 0 then (r.checksOk : ℚ) / (r.checksTotal + 1 : ℕ) else 0) ≤ _
    rw [if_pos (Nat.succ_ne_zero _), successRate, if_pos htotal]
    gcongr
    exact Nat.le_succ _
  change (if 0 ≤ r.srEwma then r.srEwma else ((r.countCheck latency now).countFail).successRate) ≤ _
  unfold reliability
  split
  · exact le_rfl
  · exact hrate

theorem inGrace_iff (r : ProxyRating) :
    r.inGrace = true ↔ r.deadBySpeed = false ∧ 0 < r.speedCount ∧ r.consecutiveFails < graceFails := by
  simp only [inGrace, hadSpeed, Bool.and_eq_true, Bool.not_eq_true', decide_eq_true_eq, and_assoc]

/-- The weight of a rating that counts. -/
def standing (r : ProxyRating) : ℚ :=
  if r.lastStatus = .ok then 1 else if r.inGrace = true then decay r.consecutiveFails else 0

theorem weight_le_standing (r : ProxyRating) : r.weight ≤ r.standing := by
  have hdecay := decay_nonneg r.consecutiveFails
  unfold weight standing
  split
  · split_ifs <;> first | exact zero_le_one | exact hdecay | exact le_rfl
  · exact le_rfl

/-- The weight of two ratings, of which one is in no better state. -/
theorem weight_le {r r' : ProxyRating}
    (huncounted : r.checksTotal = 0 ∨ r.inBlacklist = true → r'.weight = 0)
    (hstatus : r'.lastStatus = .ok → r.lastStatus = .ok)
    (hgrace : r'.inGrace = true → r.inGrace = true)
    (hfails : r.consecutiveFails ≤ r'.consecutiveFails) : r'.weight ≤ r.weight := by
  by_cases hcount : r.checksTotal = 0 ∨ r.inBlacklist = true
  · rw [huncounted hcount]
    exact r.weight_nonneg
  · have hweight : r.weight = r.standing := by rw [weight, if_neg hcount, standing]
    have hnonneg := r.weight_nonneg
    refine r'.weight_le_standing.trans ?_
    unfold standing
    split
    · next hok => rw [hweight, standing, if_pos (hstatus hok)]
    · split
      · -- in grace, after more failures
        next hin =>
        rw [hweight, standing, if_pos (hgrace hin)]
        split
        · exact decay_le_one _
        · exact decay_antitone hfails
      · exact hnonneg

/-- A rating whose last check has failed weighs no more than before. -/
theorem weight_le_of_failed {r r' : ProxyRating} (hstatus : r'.lastStatus = .failed)
    (hdead : r'.deadBySpeed = r.deadBySpeed) (hcount : r'.speedCount = r.speedCount)
    (hblack : r'.inBlacklist = r.inBlacklist) (hfails : r.consecutiveFails ≤ r'.consecutiveFails)
    (hnew : r.checksTotal = 0 → r.speedCount = 0) : r'.weight ≤ r.weight := by
  have hfailed : ¬ r'.lastStatus = .ok := by simp [hstatus]
  refine weight_le ?_ (fun hok => absurd hok hfailed) ?_ hfails
  · rintro (htotal | hlisted)
    · -- a rating without a check has no speed, and so no grace period
      have hgrace : ¬ r'.inGrace = true := by
        rw [inGrace_iff, hcount, hnew htotal]
        exact fun h => absurd h.2.1 (lt_irrefl 0)
      rw [weight, if_neg hfailed, if_neg hgrace, ite_self]
    · rw [weight, if_pos (.inr (hblack ▸ hlisted))]
  · rw [inGrace_iff, inGrace_iff, hdead, hcount]
    exact fun ⟨halive, hspeed, hless⟩ => ⟨halive, hspeed, hfails.trans_lt hless⟩

/-- A rating is scored no better after a failure that leaves its speed and its egress alone. -/
theorem score_le_of_failed {r r' : ProxyRating} {now : ℚ} (hstatus : r'.lastStatus = .failed)
    (hbase : r.checksTotal ≠ 0 → r'.basePoints ≤ r.basePoints)
    (hspeed : r'.speedFactor = r.speedFactor)
    (hmodifier : r'.modifierFactor now = r.modifierFactor now)
    (hdead : r'.deadBySpeed = r.deadBySpeed) (hcount : r'.speedCount = r.speedCount)
    (hblack : r'.inBlacklist = r.inBlacklist) (hfails : r.consecutiveFails ≤ r'.consecutiveFails)
    (hnew : r.checksTotal = 0 → r.speedCount = 0) : r'.score now ≤ r.score now := by
  have hweight := weight_le_of_failed hstatus hdead hcount hblack hfails hnew
  by_cases htotal : r.checksTotal = 0
  · -- the reliability may rise with the first check, but the rating weighs nothing
    have hzero : r.weight = 0 := by rw [weight, if_pos (.inl htotal)]
    have hzero' : r'.weight = 0 := le_antisymm (hzero ▸ hweight) r'.weight_nonneg
    rw [score_eq_clamp, score_eq_clamp, hzero, hzero', mul_zero, mul_zero]
  · exact score_le_score (points_le_points (hbase htotal) hspeed.le hmodifier.le) hweight

/-- The points follow the reliability. -/
theorem basePoints_le {r r' : ProxyRating} (hreliability : r'.reliability ≤ r.reliability)
    (hmerits : r'.merits = r.merits) : r'.basePoints ≤ r.basePoints := by
  rw [basePoints_eq, basePoints_eq, hmerits]
  linarith

theorem reliability_updateReliability_false_le (r : ProxyRating) :
    (r.updateReliability false).reliability ≤ r.reliability := by
  have hnonneg := r.reliability_nonneg
  rw [reliability_updateReliability_false]
  linarith

/-- **A failure in traffic** does not raise the score. -/
theorem score_trafficFail_le {r : ProxyRating} (hnew : r.checksTotal = 0 → r.speedCount = 0)
    (at_ now : ℚ) : (r.trafficFail at_).score now ≤ r.score now := by
  unfold trafficFail recordTrafficFail
  split
  · exact score_le_of_failed rfl
      (fun _ => basePoints_le r.reliability_updateReliability_false_le rfl) rfl rfl rfl rfl rfl
      (Nat.le_succ _) hnew
  · -- the throttle leaves the counter and the reliability alone, but the status is set
    exact score_le_of_failed rfl (fun _ => le_rfl) rfl rfl rfl rfl rfl le_rfl hnew

end ProxyRating

/-! ### Failed checks -/

/-- The stored number of hits is that of the index, if the address is known. -/
def HitsAgree (ix : IpIndex) (r : ProxyRating) : Prop :=
  r.egressIp ≠ [] → r.ipBlacklistHits = (ix.isIpBlacklisted r.egressIp).2.length

namespace ProxyRating

variable (codeOf : Str → Str)

/-- `_update_rating`, on a rating that is there. -/
def afterCheck (r : ProxyRating) (ix : IpIndex) (c : CheckResult) (now : ℚ) : ProxyRating :=
  let r := r.applyResult codeOf c now
  r.applyIpBlacklist ix r.egressIp

theorem updateRating_get? (ix : IpIndex) (sourceIds : List Str) {ratings : Dict Str ProxyRating}
    {addr : Str} {r : ProxyRating} (h : ratings.get? addr = some r) (c : CheckResult) (now : ℚ) :
    (updateRating codeOf ix sourceIds ratings addr c now).get? addr =
      some (r.afterCheck codeOf ix c now) := by
  simp only [updateRating, h, Option.getD_some, Dict.get?_insert, if_true]
  rfl

/-- An update from an index that agrees leaves the number of hits. -/
theorem applyIpBlacklist_of_agree {ix : IpIndex} {r : ProxyRating} (h : HitsAgree ix r) :
    ∃ reason sources, r.applyIpBlacklist ix r.egressIp =
      { r with ipBlacklistReason := reason, ipBlacklistSources := sources } := by
  obtain ⟨reason, hits, sources, heq⟩ := r.applyIpBlacklist_eq ix r.egressIp
  refine ⟨reason, sources, ?_⟩
  have hhits : hits = r.ipBlacklistHits := by
    have hsame : (r.applyIpBlacklist ix r.egressIp).ipBlacklistHits = hits := by rw [heq]
    by_cases hip : r.egressIp = []
    · rw [← hsame, applyIpBlacklist, if_pos hip]
    · rcases applyIpBlacklist_cases ix r hip with ⟨-, -, hskip⟩ | ⟨-, -, hset, -⟩
      · rw [← hsame, hskip]
      · rw [← hsame, hset, h hip]
  rw [heq, hhits]

/-- **A failed check** does not raise the score. -/
theorem score_afterCheck_le {r : ProxyRating} {ix : IpIndex} (hagree : HitsAgree ix r)
    (hnew : r.checksTotal = 0 → r.speedCount = 0) {c : CheckResult} (hfailed : c.ok = false)
    (at_ now : ℚ) : (r.afterCheck codeOf ix c at_).score now ≤ r.score now := by
  have hresult := r.applyResult_failed codeOf hfailed at_
  have hagree' : HitsAgree ix (r.applyResult codeOf c at_) := by
    rw [hresult]
    exact hagree
  obtain ⟨reason, sources, heq⟩ := applyIpBlacklist_of_agree hagree'
  unfold afterCheck
  dsimp only
  rw [heq, hresult]
  refine score_le_of_failed rfl (fun htotal => ?_) rfl rfl rfl rfl rfl (Nat.le_succ _) hnew
  refine basePoints_le ?_ rfl
  exact (reliability_updateReliability_false_le _).trans
    (reliability_countFail_le htotal c.latency at_)

/-! ### Bad signs -/

theorem hitsFactor_antitone : Antitone hitsFactor := by
  intro m n hmn
  unfold hitsFactor
  have hone : max (1 / 4) ((3 / 4 : ℚ) ^ n) ≤ 1 :=
    max_le (by norm_num) (pow_le_one₀ (by norm_num) (by norm_num))
  by_cases hm : 0 < m
  · rw [if_pos hm, if_pos (hm.trans_le hmn)]
    exact max_le_max le_rfl (pow_le_pow_of_le_one (by norm_num) (by norm_num) hmn)
  · rw [if_neg hm]
    split
    · exact hone
    · exact le_rfl

theorem fraudFactor_antitone : Antitone fraudFactor := by
  intro m n hmn
  have hcast : (m : ℚ) ≤ n := by exact_mod_cast hmn
  unfold fraudFactor
  gcongr

/-- What failed measurements leave of the speed. -/
def failsFactor (fails : ℕ) : ℚ :=
  if 0 < fails then max (1 / 4) (1 - 35 / 100 * (fails : ℚ)) else 1

theorem failsFactor_antitone : Antitone failsFactor := by
  intro m n hmn
  have hcast : (m : ℚ) ≤ n := by exact_mod_cast hmn
  unfold failsFactor
  by_cases hm : 0 < m
  · rw [if_pos hm, if_pos (hm.trans_le hmn)]
    gcongr
  · -- the first failed measurement
    rw [if_neg hm]
    split
    · refine max_le (by norm_num) ?_
      have hn : (0 : ℚ) ≤ n := Nat.cast_nonneg n
      linarith
    · exact le_rfl

/-- The fraud score grows with the flags. -/
theorem fraudScore_mono (r : ProxyRating) (now : ℚ) {hosting hosting' proxy proxy' mobile mobile' : Bool}
    (hhosting : hosting ≤ hosting') (hproxy : proxy ≤ proxy') (hmobile : mobile ≤ mobile') :
    ({ r with fraudHosting := hosting, fraudProxy := proxy, fraudMobile := mobile } :
        ProxyRating).fraudScore now ≤
      ({ r with fraudHosting := hosting', fraudProxy := proxy', fraudMobile := mobile' } :
        ProxyRating).fraudScore now := by
  have hpart (n : ℕ) {b b' : Bool} (h : b ≤ b') :
      (if b = true then n else 0) ≤ (if b' = true then n else 0) := by
    revert h
    cases b <;> cases b' <;> simp
  unfold fraudScore
  -- whether the flags are fresh does not depend on them
  change (if r.fraudFailcheck now = true then 100 else _) ≤
    (if r.fraudFailcheck now = true then 100 else _)
  split
  · exact le_rfl
  · exact min_le_min le_rfl (add_le_add (add_le_add (hpart 20 hmobile) (hpart 40 hhosting))
      (hpart 70 hproxy))

section

variable (r : ProxyRating) (now : ℚ)

theorem score_ipBlacklistHits_antitone :
    Antitone fun hits => ({ r with ipBlacklistHits := hits } : ProxyRating).score now := by
  intro m n hmn
  refine score_le_score (points_le_points le_rfl le_rfl ?_) le_rfl
  rw [modifierFactor_eq, modifierFactor_eq]
  refine mul_le_mul_of_nonneg_left (hitsFactor_antitone hmn) ?_
  have hfraud := fraudFactor_pos (r.fraudScore now)
  change 0 ≤ fraudFactor (r.fraudScore now) * (if r.mitmSuspect then 1 / 2 else 1)
  split <;> positivity

theorem score_mitmSuspect_antitone :
    Antitone fun mitm => ({ r with mitmSuspect := mitm } : ProxyRating).score now := by
  intro b b' hb
  refine score_le_score (points_le_points le_rfl le_rfl ?_) le_rfl
  rw [modifierFactor_eq, modifierFactor_eq]
  have hfraud := fraudFactor_pos (r.fraudScore now)
  have hhits := hitsFactor_pos r.ipBlacklistHits
  have hhalf : (if b' = true then 1 / 2 else 1 : ℚ) ≤ (if b = true then 1 / 2 else 1) := by
    revert hb
    cases b <;> cases b' <;> norm_num
  exact mul_le_mul_of_nonneg_right (mul_le_mul_of_nonneg_left hhalf hfraud.le) hhits.le

theorem score_fraudFlags_antitone {hosting hosting' proxy proxy' mobile mobile' : Bool}
    (hhosting : hosting ≤ hosting') (hproxy : proxy ≤ proxy') (hmobile : mobile ≤ mobile') :
    ({ r with fraudHosting := hosting', fraudProxy := proxy', fraudMobile := mobile' } :
        ProxyRating).score now ≤
      ({ r with fraudHosting := hosting, fraudProxy := proxy, fraudMobile := mobile } :
        ProxyRating).score now := by
  have hfraud := fraudFactor_antitone (r.fraudScore_mono now hhosting hproxy hmobile)
  refine score_le_score (points_le_points le_rfl le_rfl ?_) le_rfl
  rw [modifierFactor_eq, modifierFactor_eq]
  have hhits := hitsFactor_pos r.ipBlacklistHits
  change _ * (if r.mitmSuspect then 1 / 2 else 1) * hitsFactor r.ipBlacklistHits ≤
    _ * (if r.mitmSuspect then 1 / 2 else 1) * hitsFactor r.ipBlacklistHits
  gcongr

theorem score_consecutiveFails_antitone :
    Antitone fun fails => ({ r with consecutiveFails := fails } : ProxyRating).score now := by
  intro m n hmn
  refine score_le_score le_rfl (weight_le (fun huncounted => ?_) id ?_ hmn)
  · rw [weight, if_pos huncounted]
  · rw [inGrace_iff, inGrace_iff]
    exact fun ⟨halive, hspeed, hless⟩ => ⟨halive, hspeed, hmn.trans_lt hless⟩

/-- Whether a rating is in its grace period does not depend on the failed measurements: it has to
have a speed. -/
theorem inGrace_speedFails (fails : ℕ) :
    ({ r with speedFails := fails } : ProxyRating).inGrace = r.inGrace := by
  unfold inGrace deadBySpeed hadSpeed
  by_cases hspeed : 0 < r.speedCount
  · simp only [if_pos hspeed]
    rfl
  · simp [hspeed]

theorem speedFactor_speedFails_antitone :
    Antitone fun fails => ({ r with speedFails := fails } : ProxyRating).speedFactor := by
  intro m n hmn
  have hfactor : ∀ fails, ({ r with speedFails := fails } : ProxyRating).speedFactor =
      if 0 < r.effSpeed then min 1 (r.effSpeed / 150) * failsFactor fails
      else if r.effectiveSocks = true then 1 / 2
      else if 0 < fails then 0 else if r.checksOk < 5 then 1 / 2 else 0 := by
    intro fails
    rw [failsFactor, mul_ite, mul_one]
    rfl
  simp only [hfactor]
  split
  · next hspeed =>
    have hleft : 0 ≤ min 1 (r.effSpeed / 150) := by positivity
    exact mul_le_mul_of_nonneg_left (failsFactor_antitone hmn) hleft
  · split
    · exact le_rfl
    · by_cases hm : 0 < m
      · rw [if_pos hm, if_pos (hm.trans_le hmn)]
      · rw [if_neg hm]
        split_ifs <;> norm_num

theorem score_speedFails_antitone :
    Antitone fun fails => ({ r with speedFails := fails } : ProxyRating).score now := by
  intro m n hmn
  refine score_le_score (points_le_points le_rfl ?_ le_rfl)
    (weight_le (fun huncounted => ?_) id ?_ le_rfl)
  · exact r.speedFactor_speedFails_antitone hmn
  · rw [weight, if_pos huncounted]
  · intro hgrace
    rw [inGrace_speedFails] at hgrace
    rwa [inGrace_speedFails]

end

/-! ### Reachable ratings -/

/-- A rating that has not been checked has no speed. -/
def Unchecked (r : ProxyRating) : Prop := r.checksTotal = 0 → r.speedCount = 0

/-- The counters of checks and of failures, with the status. -/
def tallied (r : ProxyRating) : ℕ × ℕ × Status := (r.checksTotal, r.consecutiveFails, r.lastStatus)

theorem tallied_applyFraud (r : ProxyRating) (score : Option ℤ) (now : ℚ) :
    (r.applyFraud score now).tallied = r.tallied := by
  unfold applyFraud
  split
  · rfl
  · split <;> rfl

theorem tallied_applyEgress (r : ProxyRating) (egress : Egress) (now : ℚ) :
    (if egress = {} then r else r.applyEgress codeOf egress now).tallied = r.tallied := by
  split
  · rfl
  · rw [applyEgress, applyFlags]
    split <;> rfl

/-- A success clears the failures. -/
theorem tallied_applyOkResult (r : ProxyRating) (c : CheckResult) (now : ℚ) :
    (r.applyOkResult codeOf c now).tallied = (r.checksTotal, 0, .ok) := by
  have hlisten (r' : ProxyRating) : (c.listen.elim r' (r'.applyListen codeOf)).tallied = r'.tallied := by
    cases c.listen <;> rfl
  have hfraud (r' : ProxyRating) :
      (c.fraud.elim { r' with fraudAttemptTs := now } (fun score => r'.applyFraud score now)).tallied =
        r'.tallied := by
    cases c.fraud with
    | none => rfl
    | some score => exact r'.tallied_applyFraud score now
  rw [applyOkResult, hfraud, hlisten, tallied_applyEgress]
  change (applyCountry codeOf _ _ _).tallied = _
  obtain ⟨name, code, hcountry⟩ := applyCountry_eq codeOf
    (((r.countOk c.latency now).measureSpeed c.speed).updateLatency c.latency) c.country c.countryCode
  rw [hcountry]
  unfold measureSpeed applySpeed
  split <;> rfl

/-- Every check is counted, and a failed one as a failure. -/
theorem tallied_applyResult (r : ProxyRating) (c : CheckResult) (now : ℚ) :
    (r.applyResult codeOf c now).tallied =
      if c.ok = true then (r.checksTotal + 1, 0, .ok)
      else (r.checksTotal + 1, r.consecutiveFails + 1, .failed) := by
  change (if c.ok = true then (r.countCheck c.latency now).applyOkResult codeOf c now
    else (r.countCheck c.latency now).countFail : ProxyRating).tallied = _
  split
  · exact tallied_applyOkResult codeOf _ c now
  · rfl

theorem tallied_applyIpBlacklist (r : ProxyRating) (ix : IpIndex) (ip : Str) :
    (r.applyIpBlacklist ix ip).tallied = r.tallied := by
  obtain ⟨reason, hits, sources, heq⟩ := r.applyIpBlacklist_eq ix ip
  rw [heq]
  rfl

theorem tallied_forcedRating (r : ProxyRating) (egress : Egress) (fraud : Option (Option ℤ))
    (now : ℚ) : (FraudState.forcedRating r egress fraud now).tallied = r.tallied := by
  have hflags : (FraudState.forcedFlags r egress).tallied = r.tallied := by
    unfold FraudState.forcedFlags
    split <;> rfl
  have hscore : (FraudState.forcedScore (FraudState.forcedFlags r egress) fraud now).tallied =
      r.tallied := by
    unfold FraudState.forcedScore
    split
    · rw [tallied_applyFraud, hflags]
    · exact hflags
  unfold FraudState.forcedRating
  dsimp only
  split <;> exact hscore

/-- **Step lemma**: no operation gives a speed to a rating that has not been checked. -/
theorem unchecked_apply {s : RatingState} (h : s.rating.Unchecked) (op : RatingOp) :
    (s.apply codeOf op).rating.Unchecked := by
  cases op with
  | wait until_ => exact h
  | check c =>
    intro htotal
    have hcounted : (s.rating.applyResult codeOf c s.now).checksTotal = s.rating.checksTotal + 1 := by
      have htallied := congrArg Prod.fst (s.rating.tallied_applyResult codeOf c s.now)
      rw [apply_ite Prod.fst, ite_self] at htallied
      exact htallied
    exact absurd (hcounted.symm.trans htotal) (Nat.succ_ne_zero _)
  | ipBlacklist ix =>
    obtain ⟨reason, hits, sources, heq⟩ := s.rating.applyIpBlacklist_eq ix s.rating.egressIp
    simp only [RatingState.apply, heq]
    exact h
  | trafficFail =>
    simp only [RatingState.apply, trafficFail, recordTrafficFail]
    split <;> exact h
  | forcedFraud egress fraud =>
    have hmeasured := s.rating.measured_forcedRating egress fraud s.now
    intro htotal
    have htotal' : s.rating.checksTotal = 0 :=
      (congrArg Prod.fst (s.rating.tallied_forcedRating egress fraud s.now)).symm.trans htotal
    exact (congrArg Prod.fst hmeasured).trans (h htotal')
  | restart => exact h

/-- What failures and bad signs do to the score. -/
structure Sinks (r : ProxyRating) (now : ℚ) : Prop where
  failedCheck : ∀ ix c at_, HitsAgree ix r → c.ok = false →
    (r.afterCheck codeOf ix c at_).score now ≤ r.score now
  trafficFail : ∀ at_, (r.trafficFail at_).score now ≤ r.score now
  ipBlacklistHits : Antitone fun hits =>
    ({ r with ipBlacklistHits := hits } : ProxyRating).score now
  mitmSuspect : Antitone fun mitm => ({ r with mitmSuspect := mitm } : ProxyRating).score now
  fraudHosting : Antitone fun flag => ({ r with fraudHosting := flag } : ProxyRating).score now
  fraudProxy : Antitone fun flag => ({ r with fraudProxy := flag } : ProxyRating).score now
  fraudMobile : Antitone fun flag => ({ r with fraudMobile := flag } : ProxyRating).score now
  consecutiveFails : Antitone fun fails =>
    ({ r with consecutiveFails := fails } : ProxyRating).score now
  speedFails : Antitone fun fails => ({ r with speedFails := fails } : ProxyRating).score now

/-- **Failures and bad signs never raise the score** of a rating that has been reached by checks and
failures in traffic. -/
theorem score_antitone {s₀ s : RatingState} (hborn : s₀.rating.Newborn)
    (hrun : (RatingState.machine codeOf).Reaches Machine.anyStep s₀ s) (now : ℚ) :
    s.rating.Sinks codeOf now := by
  have hnew : s.rating.Unchecked := by
    refine hrun.invariant (I := fun s => s.rating.Unchecked) (fun _ => hborn.speedCount) ?_
    intro s op s' hi hstep _
    cases hstep
    exact unchecked_apply codeOf hi op
  exact
    { failedCheck := fun ix c at_ hagree hfailed =>
        score_afterCheck_le codeOf hagree hnew hfailed at_ now
      trafficFail := fun at_ => score_trafficFail_le hnew at_ now
      ipBlacklistHits := s.rating.score_ipBlacklistHits_antitone now
      mitmSuspect := s.rating.score_mitmSuspect_antitone now
      fraudHosting := fun _ _ h => s.rating.score_fraudFlags_antitone now h le_rfl le_rfl
      fraudProxy := fun _ _ h => s.rating.score_fraudFlags_antitone now le_rfl h le_rfl
      fraudMobile := fun _ _ h => s.rating.score_fraudFlags_antitone now le_rfl le_rfl h
      consecutiveFails := s.rating.score_consecutiveFails_antitone now
      speedFails := s.rating.score_speedFails_antitone now }

/-- The rating of a proxy that works, with the time at which its flags were read. -/
def working (checkedTs : ℚ) : ProxyRating where
  address := "10.0.0.7:3128".toList
  checksTotal := 1
  checksOk := 1
  lastStatus := .ok
  speedCount := 1
  srEwma := 1
  latencyEwma := 1 / 2
  speedEwma := 150
  fraudCheckedTs := checkedTs

/-- The rating of a proxy that has been checked once, with a measured speed. -/
theorem score_antitone_checked :
    ((create (fun _ => []) "10.0.0.7:3128".toList [] [] [] 100).applyResult (fun _ => [])
      { ok := true, country := [], latency := 1 / 2, speed := 100 } 100).Sinks (fun _ => []) 200 := by
  have hborn : (⟨create (fun _ => []) "10.0.0.7:3128".toList [] [] [] 100, 100⟩ :
      RatingState).rating.Newborn := ⟨rfl, rfl⟩
  exact score_antitone (fun _ => []) hborn
    (.single (a := .check { ok := true, country := [], latency := 1 / 2, speed := 100 }) rfl trivial)
    200

end ProxyRating

end HuntProxy
