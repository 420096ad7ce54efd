import HuntProxy.Rating.Score

/-!
# Reports of proxycheck

The risk score of proxycheck is kept for information. It does not touch the flags from which the
fraud score is computed, but it stamps them as fresh: a rating whose flags were never read, or are
out of date, gets the verdict that its old flags stand for.

## Main definitions

- `Unmoved` — the verdict, the score and the place in the pool are the same
- `Informs` — a report that changes none of them

## Main results

- `unmoved_iff` — all of them depend on proxycheck through the freshness of the flags
- `proxycheck_informs_iff` — the reports that are information only
- `unread_flags_pass` — a rating without flags that a report makes clean
-/

namespace HuntProxy

open Ip (Str)

namespace ProxyRating

/-- What a report of proxycheck may not change. -/
structure Unmoved (now : ℚ) (r r' : ProxyRating) : Prop where
  fraudScore : r'.fraudScore now = r.fraudScore now
  fraudVerdict : r'.fraudVerdict now = r.fraudVerdict now
  score : r'.score now = r.score now
  poolEligible : r'.poolEligible = r.poolEligible

/-- A report without a valid score, or one for flags that are fresh anyway. The clock reads zero
only at the epoch, where the stamp is that of a rating without flags. -/
def Informs (r : ProxyRating) (fraud : Option (Option ℤ)) (now : ℚ) : Prop :=
  ValidScore fraud → (r.fraudFailcheck now = true ↔ now = 0)

/-- The rating with other data of proxycheck. -/
def withReport (r : ProxyRating) (raw : ℤ) (checkedTs rawTs attemptTs : ℚ) : ProxyRating :=
  { r with
    fraudScoreRaw := raw
    fraudCheckedTs := checkedTs
    fraudRawTs := rawTs
    fraudAttemptTs := attemptTs }

section

variable {r : ProxyRating} {now : ℚ} {fraud : Option (Option ℤ)}

/-- Flags that are stamped now are fresh, unless the stamp is zero. -/
theorem fraudFailcheck_stamped (r : ProxyRating) (now : ℚ) (raw : ℤ) (rawTs attemptTs : ℚ) :
    (r.withReport raw now rawTs attemptTs).fraudFailcheck now = true ↔ now = 0 := by
  change (if now = 0 then true else decide (fraudFreshSeconds < now - now)) = true ↔ _
  split
  · next hzero => simp [hzero]
  · next hne => simp [hne, fraudFreshSeconds_pos.le]

/-- **Only the freshness of the flags counts.** -/
theorem unmoved_iff (r : ProxyRating) (now : ℚ) (raw : ℤ) (checkedTs rawTs attemptTs : ℚ) :
    Unmoved now r (r.withReport raw checkedTs rawTs attemptTs) ↔
      (r.withReport raw checkedTs rawTs attemptTs).fraudFailcheck now = r.fraudFailcheck now := by
  constructor
  · intro h
    rw [Bool.eq_iff_iff, ← fraudVerdict_eq_failcheck, ← fraudVerdict_eq_failcheck, h.fraudVerdict]
  · intro hfresh
    -- of what a report sets, the score and the verdict read the stamp only, through the freshness
    have hscore : (r.withReport raw checkedTs rawTs attemptTs).fraudScore now = r.fraudScore now := by
      rw [fraudScore, fraudScore, hfresh]
      rfl
    refine ⟨hscore, ?_, ?_, rfl⟩
    · rw [fraudVerdict, fraudVerdict, hfresh, hscore]
    · have hmodifier : (r.withReport raw checkedTs rawTs attemptTs).modifierFactor now =
          r.modifierFactor now := by
        rw [modifierFactor_eq, modifierFactor_eq, hscore]
        rfl
      have hpoints : (r.withReport raw checkedTs rawTs attemptTs).points now = r.points now := by
        rw [points, points, hmodifier]
        rfl
      rw [score_eq_clamp, score_eq_clamp, hpoints]
      rfl

/-- What `_apply_fraud` makes of a report: a valid score stamps the rating. -/
theorem applyFraud_eq (r : ProxyRating) (fraud : Option (Option ℤ)) (attemptTs now : ℚ) :
    ∃ raw checkedTs rawTs,
      ({ r with fraudAttemptTs := attemptTs } : ProxyRating).applyFraud (fraud.getD none) now =
          r.withReport raw checkedTs rawTs attemptTs ∧
        checkedTs = if ValidScore fraud then now else r.fraudCheckedTs := by
  by_cases hvalid : ValidScore fraud
  · obtain ⟨score, rfl, hpos, hle⟩ := hvalid
    refine ⟨score, now, now, ?_, (if_pos ⟨score, rfl, hpos, hle⟩).symm⟩
    rw [Option.getD_some, applyFraud, if_pos ⟨hpos, hle⟩]
    rfl
  · refine ⟨r.fraudScoreRaw, r.fraudCheckedTs, r.fraudRawTs, ?_, (if_neg hvalid).symm⟩
    cases fraud with
    | none => rfl
    | some report =>
      cases report with
      | none => rfl
      | some score => exact if_neg fun h => hvalid ⟨score, rfl, h⟩

/-- A report that stamps the rating if its score is valid. -/
theorem unmoved_report_iff {checkedTs : ℚ}
    (hstamp : checkedTs = if ValidScore fraud then now else r.fraudCheckedTs) (raw : ℤ)
    (rawTs attemptTs : ℚ) :
    Unmoved now r (r.withReport raw checkedTs rawTs attemptTs) ↔ r.Informs fraud now := by
  rw [unmoved_iff, Informs, Bool.eq_iff_iff]
  by_cases hvalid : ValidScore fraud
  · obtain rfl : checkedTs = now := by rw [hstamp, if_pos hvalid]
    rw [fraudFailcheck_stamped]
    exact ⟨fun h _ => h.symm, fun h => (h hvalid).symm⟩
  · obtain rfl : checkedTs = r.fraudCheckedTs := by rw [hstamp, if_neg hvalid]
    exact iff_of_true Iff.rfl fun h => absurd h hvalid

/-! ### Through a check -/

theorem applyIpBlacklist_withReport (r : ProxyRating) (ix : IpIndex) (ip : Str) (raw : ℤ)
    (checkedTs rawTs attemptTs : ℚ) :
    (r.withReport raw checkedTs rawTs attemptTs).applyIpBlacklist ix ip =
      (r.applyIpBlacklist ix ip).withReport raw checkedTs rawTs attemptTs := by
  unfold applyIpBlacklist
  by_cases hip : ip = []
  · rw [if_pos hip, if_pos hip]
  · rw [if_neg hip, if_neg hip]
    dsimp only
    by_cases hlisted : (ix.isIpBlacklisted ip).1 = true
    · rw [if_pos hlisted, if_pos hlisted]
      by_cases hchanged : r.ipBlacklistReason ≠ blacklistReasonOf (ix.isIpBlacklisted ip).2 ∨
          r.ipBlacklistHits ≠ (ix.isIpBlacklisted ip).2.length
      · rw [if_pos hchanged]
        exact if_pos hchanged
      · rw [if_neg hchanged]
        exact if_neg hchanged
    · rw [if_neg hlisted, if_neg hlisted]
      by_cases hchanged : r.ipBlacklistReason ≠ [] ∨ r.ipBlacklistHits ≠ 0
      · rw [if_pos hchanged]
        exact if_pos hchanged
      · rw [if_neg hchanged]
        exact if_neg hchanged

theorem updateReliability_withReport (r : ProxyRating) (ok : Bool) (raw : ℤ)
    (checkedTs rawTs attemptTs : ℚ) :
    (r.withReport raw checkedTs rawTs attemptTs).updateReliability ok =
      (r.updateReliability ok).withReport raw checkedTs rawTs attemptTs := rfl

variable (codeOf : Str → Str)

/-- A successful check differs by the report only. -/
theorem applyOkResult_fraud (r : ProxyRating) (c : CheckResult) (fraud : Option (Option ℤ)) (now : ℚ) :
    ∃ attemptTs, r.applyOkResult codeOf { c with fraud := fraud } now =
      ({ r.applyOkResult codeOf { c with fraud := none } now with fraudAttemptTs := attemptTs } :
        ProxyRating).applyFraud (fraud.getD none) now := by
  cases fraud with
  | none => exact ⟨now, rfl⟩
  | some score => exact ⟨_, rfl⟩

/-- A check with a report is the check without it, and then the report. -/
theorem afterCheck_fraud (r : ProxyRating) (ix : IpIndex) {c : CheckResult} (hok : c.ok = true)
    (fraud : Option (Option ℤ)) (now : ℚ) :
    let plain := r.afterCheck codeOf ix { c with fraud := none } now
    ∃ raw checkedTs rawTs attemptTs,
      r.afterCheck codeOf ix { c with fraud := fraud } now =
          plain.withReport raw checkedTs rawTs attemptTs ∧
        checkedTs = if ValidScore fraud then now else plain.fraudCheckedTs := by
  obtain ⟨attemptTs, hreport⟩ :=
    (r.countCheck c.latency now).applyOkResult_fraud codeOf c fraud now
  obtain ⟨raw, checkedTs, rawTs, heq, hstamp⟩ := applyFraud_eq
    ((r.countCheck c.latency now).applyOkResult codeOf { c with fraud := none } now) fraud attemptTs now
  have hresult (f : Option (Option ℤ)) : r.applyResult codeOf { c with fraud := f } now =
      ((r.countCheck c.latency now).applyOkResult codeOf { c with fraud := f } now).updateReliability
        true := by
    simp only [applyResult, hok, if_true]
  refine ⟨raw, checkedTs, rawTs, attemptTs, ?_, ?_⟩
  · unfold afterCheck
    dsimp only
    -- the report is moved behind the reliability and the IP blacklists
    rw [hresult, hresult, hreport, heq, updateReliability_withReport, applyIpBlacklist_withReport]
    rfl
  · rw [hstamp, afterCheck, applyIpBlacklist_fraudCheckedTs, hresult]
    rfl

/-- A check without flags leaves the freshness. -/
theorem afterCheck_fraudFailcheck (r : ProxyRating) (ix : IpIndex) {c : CheckResult}
    (hflags : c.egress.hosting = none ∧ c.egress.proxy = none) (now : ℚ) :
    (r.afterCheck codeOf ix { c with fraud := none } now).fraudFailcheck now = r.fraudFailcheck now := by
  have hstamp : (r.afterCheck codeOf ix { c with fraud := none } now).fraudCheckedTs =
      r.fraudCheckedTs := by
    rw [afterCheck, applyIpBlacklist_fraudCheckedTs, applyResult_fraudCheckedTs _ _ _ _ rfl]
    simp [hflags.1, hflags.2]
  rw [fraudFailcheck, fraudFailcheck, hstamp]

/-- **Reports of proxycheck are information only**, alone, in a check and in a forced check that
bring no flags, exactly when they have no valid score or the flags are fresh. -/
theorem proxycheck_informs_iff (r : ProxyRating) (fraud : Option (Option ℤ)) (now : ℚ) :
    (Unmoved now r (r.applyFraud (fraud.getD none) now) ↔ r.Informs fraud now) ∧
      (∀ (ix : IpIndex) (c : CheckResult), c.egress.hosting = none ∧ c.egress.proxy = none →
        (Unmoved now (r.afterCheck codeOf ix { c with fraud := none } now)
            (r.afterCheck codeOf ix { c with fraud := fraud } now) ↔
          (c.ok = true → r.Informs fraud now))) ∧
      ∀ egress : Egress, egress.hosting = none →
        (Unmoved now r (FraudState.forcedRating r egress fraud now) ↔ r.Informs fraud now) := by
  refine ⟨?_, fun ix c hflags => ?_, fun egress hflags => ?_⟩
  · obtain ⟨raw, checkedTs, rawTs, heq, hstamp⟩ := applyFraud_eq r fraud r.fraudAttemptTs now
    have hsame : r.applyFraud (fraud.getD none) now =
        r.withReport raw checkedTs rawTs r.fraudAttemptTs := heq
    rw [hsame]
    exact unmoved_report_iff hstamp raw rawTs r.fraudAttemptTs
  · by_cases hok : c.ok = true
    · obtain ⟨raw, checkedTs, rawTs, attemptTs, heq, hstamp⟩ :=
        r.afterCheck_fraud codeOf ix hok fraud now
      rw [heq, unmoved_report_iff hstamp, Informs, Informs,
        r.afterCheck_fraudFailcheck codeOf ix hflags now]
      exact ⟨fun h _ => h, fun h => h hok⟩
    · -- a failed check does not look at the report
      have hsame : r.afterCheck codeOf ix { c with fraud := fraud } now =
          r.afterCheck codeOf ix { c with fraud := none } now := by
        simp only [afterCheck, applyResult, if_neg hok]
      rw [hsame]
      exact iff_of_true ⟨rfl, rfl, rfl, rfl⟩ fun h => absurd h hok
  · obtain ⟨raw, checkedTs, rawTs, heq, hstamp⟩ := applyFraud_eq r fraud r.fraudAttemptTs now
    have hsame : r.applyFraud (fraud.getD none) now =
        r.withReport raw checkedTs rawTs r.fraudAttemptTs := heq
    have hforced : FraudState.forcedRating r egress fraud now =
        if ValidScore fraud then { r.applyFraud (fraud.getD none) now with fraudCheckedTs := now }
        else { r with fraudAttemptTs := now } := by
      unfold FraudState.forcedRating FraudState.forcedScore FraudState.forcedFlags
      by_cases hvalid : ValidScore fraud <;> simp [hflags, hvalid]
    rw [hforced]
    by_cases hvalid : ValidScore fraud
    · obtain rfl : checkedTs = now := by rw [hstamp, if_pos hvalid]
      rw [if_pos hvalid, hsame]
      exact unmoved_report_iff hstamp raw rawTs r.fraudAttemptTs
    · rw [if_neg hvalid]
      exact unmoved_report_iff (if_neg hvalid).symm r.fraudScoreRaw r.fraudRawTs now

end

/-- A report that comes while the flags are fresh. -/
theorem proxycheck_informs_fresh :
    Unmoved 1000 (working 900) ((working 900).applyFraud (some 100) 1000) ∧
      Unmoved 1000
        ((working 900).afterCheck (fun _ => []) .empty
          { ok := true, country := [], latency := 1 / 2, fraud := none } 1000)
        ((working 900).afterCheck (fun _ => []) .empty
          { ok := true, country := [], latency := 1 / 2, fraud := some (some 100) } 1000) := by
  have hfresh : (working 900).Informs (some (some 100)) 1000 := fun _ => by decide +kernel
  have hiff := proxycheck_informs_iff (fun _ => []) (working 900) (some (some 100)) 1000
  exact ⟨hiff.1.mpr hfresh,
    (hiff.2.1 .empty { ok := true, country := [], latency := 1 / 2 } ⟨rfl, rfl⟩).mpr fun _ => hfresh⟩

/-- A proxy whose flags were never read is clean, and ranks higher, once proxycheck has called its
address a certain proxy. -/
theorem unread_flags_pass :
    ¬ ∀ (r : ProxyRating) (fraud : Option (Option ℤ)) (now : ℚ), 0 < now →
      Unmoved now r (r.applyFraud (fraud.getD none) now) := by
  intro hall
  have hverdict : ((working 0).applyFraud (some 100) 1000).fraudVerdict 1000 = .clean ∧
      (working 0).score 1000 < ((working 0).applyFraud (some 100) 1000).score 1000 := by
    decide +kernel
  have hscore := (hall (working 0) (some (some 100)) 1000 (by norm_num)).score
  exact absurd hscore hverdict.2.ne'

end ProxyRating

end HuntProxy
