import HuntProxy.Rating.Score

/-!
# The grace period

A proxy that has shown a usable speed stays in the pool for a number of failures in a row. Failed
checks are always counted; of the failures in real traffic, those that come soon after a counted one
are not.

The machine keeps the failures of one proxy that its rating has counted. Other proxies are checked
and fail in between, and dead ones are cleared, at any time.

## Main definitions

- `executeClearDead` — `_execute_clear_dead`
- `GraceState`, `GraceOp` — the ratings, the clock and the counted failures
- `GracePeriod`, `CountsFails` — what the grace period promises, and which failures are counted

## Main results

- `Held.step` — what an operation does to the rating of the proxy
- `grace_period` — the runs without a successful check
-/

namespace HuntProxy

open Ip (Str)

/-- The addresses that `_execute_clear_dead` removes. -/
def deadAddrs (ratings : Dict Str ProxyRating) : List Str :=
  (ratings.items.filter fun p =>
    p.2.lastStatus = .failed && !p.2.isFavorite && !p.2.inGrace).map Prod.fst

/-- `_execute_clear_dead`, what it does to the ratings. -/
def executeClearDead (ratings : Dict Str ProxyRating) : Dict Str ProxyRating :=
  ratings.eraseAll (deadAddrs ratings)

/-- `_record_traffic_fail`: an address without a rating is passed over. -/
def recordTrafficFail (ratings : Dict Str ProxyRating) (addr : Str) (now : ℚ) :
    Dict Str ProxyRating :=
  ratings.modify addr (·.trafficFail now)

/-- Where a failure was noticed. -/
inductive Cause
  | check
  | traffic
  deriving DecidableEq, Repr

/-- The operations. -/
inductive GraceOp
  | check (addr : Str) (c : CheckResult) (ix : IpIndex) (sourceIds : List Str)
  | trafficFail (addr : Str)
  | clearDead

/-- The failures that an operation may bring. -/
def GraceOp.cause : GraceOp → Cause
  | .check .. => .check
  | _ => .traffic

/-- The ratings and the clock, with the failures of one proxy that have been counted. -/
structure GraceState where
  ratings : Dict Str ProxyRating
  now : ℚ
  counted : List (Cause × ℚ)

/-- The times of the failures in traffic. -/
def trafficTimes (counted : List (Cause × ℚ)) : List ℚ :=
  (counted.filter fun p => p.1 = .traffic).map Prod.snd

namespace GraceState

variable (codeOf : Str → Str)

/-- What an operation does to the ratings. -/
def apply (ratings : Dict Str ProxyRating) (now : ℚ) : GraceOp → Dict Str ProxyRating
  | .check addr c ix sourceIds => updateRating codeOf ix sourceIds ratings addr c now
  | .trafficFail addr => recordTrafficFail ratings addr now
  | .clearDead => executeClearDead ratings

/-- The counter of the proxy has gone up. -/
def raised (addr : Str) (ratings ratings' : Dict Str ProxyRating) : Bool :=
  match ratings.get? addr, ratings'.get? addr with
  | some r, some r' => r.consecutiveFails < r'.consecutiveFails
  | _, _ => false

/-- The state after an operation, with the failure of the proxy if it has been counted. -/
def record (addr : Str) (s : GraceState) (ratings : Dict Str ProxyRating) (cause : Cause) (now : ℚ) :
    GraceState where
  ratings := ratings
  now := now
  counted := if raised addr s.ratings ratings then s.counted ++ [(cause, now)] else s.counted

/-- An operation at a time that is not before the last one. -/
def step (addr : Str) (s : GraceState) (a : ℚ × GraceOp) : Option GraceState :=
  if a.1 < s.now then none
  else some (s.record addr (apply codeOf s.ratings a.1 a.2) a.2.cause a.1)

/-- The machine of the operations, with the failures of one proxy. -/
def machine (addr : Str) : Machine GraceState (ℚ × GraceOp) := ⟨step codeOf addr⟩

/-- The runs without a successful check of the proxy, as long as it has a rating. -/
def Failing (addr : Str) : Machine.Guard GraceState (ℚ × GraceOp) := fun s a _ =>
  s.ratings.get? addr ≠ none ∧ ∀ c ix sourceIds, a.2 = .check addr c ix sourceIds → c.ok = false

end GraceState

/-- What the grace period promises: a proxy with less than the limit of failures stays, one with
the limit goes unless it is a favourite, and the counted failures in traffic are apart. -/
structure GracePeriod (addr : Str) (fails : ℕ) (s : GraceState) : Prop where
  kept : fails + s.counted.length < ProxyRating.graceFails → ∃ r, s.ratings.get? addr = some r ∧
    r.poolEligible = true ∧ (executeClearDead s.ratings).get? addr = some r
  beyond : ProxyRating.graceFails ≤ fails + s.counted.length → s.counted ≠ [] →
    ∀ r, s.ratings.get? addr = some r → r.poolEligible = false ∧ (∀ now, r.score now = 0) ∧
      ((executeClearDead s.ratings).get? addr = none ↔ r.isFavorite = false)
  spaced : (trafficTimes s.counted).Pairwise
    fun t t' => ProxyRating.trafficFailThrottle ≤ t' - t

/-- Which failures are counted from a state on: every failed check of the proxy, and a failure in
traffic unless it comes soon after the last one that was counted. -/
structure CountsFails (codeOf : Str → Str) (addr : Str) (s : GraceState) : Prop where
  checks : ∀ r, s.ratings.get? addr = some r → ∀ now c ix sourceIds s', c.ok = false →
    GraceState.step codeOf addr s (now, .check addr c ix sourceIds) = some s' →
      s'.counted = s.counted ++ [(.check, now)]
  traffic : ∀ r, s.ratings.get? addr = some r → ∀ now s',
    GraceState.step codeOf addr s (now, .trafficFail addr) = some s' →
      s'.counted = if ProxyRating.trafficFailThrottle ≤ now - r.lastTrafficFailTs
        then s.counted ++ [(.traffic, now)] else s.counted

/-! ### The rating of the proxy -/

theorem trafficTimes_check (counted : List (Cause × ℚ)) (now : ℚ) :
    trafficTimes (counted ++ [(.check, now)]) = trafficTimes counted := by
  simp [trafficTimes]

theorem trafficTimes_traffic (counted : List (Cause × ℚ)) (now : ℚ) :
    trafficTimes (counted ++ [(.traffic, now)]) = trafficTimes counted ++ [now] := by
  simp [trafficTimes]

/-- The rating of the proxy, with the failures that have been counted: its speed is usable, and it
knows the last failure in traffic. -/
structure Proven (fails : ℕ) (counted : List (Cause × ℚ)) (r : ProxyRating) : Prop where
  fails : r.consecutiveFails = fails + counted.length
  alive : r.deadBySpeed = false
  speed : 0 < r.speedCount
  listed : r.inBlacklist = false
  status : r.lastStatus = .failed ∨ r.lastStatus = .ok ∧ counted = []
  recent : ∀ t ∈ trafficTimes counted, t ≤ r.lastTrafficFailTs

/-- The rating is there until the limit is reached. -/
structure Held (addr : Str) (fails : ℕ) (s : GraceState) : Prop where
  proven : ∀ r, s.ratings.get? addr = some r → Proven fails s.counted r
  present : fails + s.counted.length < ProxyRating.graceFails → ∃ r, s.ratings.get? addr = some r
  spaced : (trafficTimes s.counted).Pairwise
    fun t t' => ProxyRating.trafficFailThrottle ≤ t' - t

/-- What is removed is dead. -/
theorem get?_executeClearDead (ratings : Dict Str ProxyRating) (addr : Str) :
    (executeClearDead ratings).get? addr =
      (ratings.get? addr).filter fun r =>
        !(r.lastStatus = .failed && !r.isFavorite && !r.inGrace) := by
  have hmem : addr ∈ deadAddrs ratings ↔ ∃ r, ratings.get? addr = some r ∧
      (r.lastStatus = .failed && !r.isFavorite && !r.inGrace) = true := by
    simp only [deadAddrs, List.mem_map, List.mem_filter, Dict.get?_eq_some_iff]
    constructor
    · rintro ⟨⟨addr', r⟩, ⟨hitem, hdead⟩, rfl⟩
      exact ⟨r, hitem, hdead⟩
    · rintro ⟨r, hitem, hdead⟩
      exact ⟨(addr, r), ⟨hitem, hdead⟩, rfl⟩
  rw [executeClearDead, Dict.get?_eraseAll]
  cases hr : ratings.get? addr with
  | none => simp
  | some r =>
    rw [hr] at hmem
    by_cases hdead : addr ∈ deadAddrs ratings
    · obtain ⟨r', heq, hdead'⟩ := hmem.mp hdead
      cases heq
      rw [if_pos hdead, Option.filter_some, hdead']
      rfl
    · have halive : (r.lastStatus = .failed && !r.isFavorite && !r.inGrace) = false := by
        rw [← Bool.not_eq_true]
        exact fun h => hdead (hmem.mpr ⟨r, rfl, h⟩)
      rw [if_neg hdead, Option.filter_some, halive]
      rfl

namespace Proven

variable {fails : ℕ} {counted : List (Cause × ℚ)} {r : ProxyRating}

theorem inGrace_iff (h : Proven fails counted r) :
    r.inGrace = true ↔ fails + counted.length < ProxyRating.graceFails := by
  rw [r.inGrace_iff, h.fails]
  exact ⟨fun hgrace => hgrace.2.2, fun hless => ⟨h.alive, h.speed, hless⟩⟩

/-- A failed check is counted. -/
theorem afterCheck (h : Proven fails counted r) (codeOf : Str → Str) (ix : IpIndex) {c : CheckResult}
    (hfailed : c.ok = false) (now : ℚ) :
    Proven fails (counted ++ [(.check, now)]) (r.afterCheck codeOf ix c now) := by
  obtain ⟨reason, hits, sources, heq⟩ :=
    (r.applyResult codeOf c now).applyIpBlacklist_eq ix (r.applyResult codeOf c now).egressIp
  rw [ProxyRating.afterCheck, heq, r.applyResult_failed codeOf hfailed now]
  refine ⟨?_, h.alive, h.speed, h.listed, .inl rfl, ?_⟩
  · rw [List.length_append]
    exact congrArg (· + 1) h.fails
  · rw [trafficTimes_check]
    exact h.recent

/-- A failure in traffic that is counted, and one that is too close to the last one. -/
theorem trafficFail (h : Proven fails counted r) (now : ℚ) :
    (ProxyRating.trafficFailThrottle ≤ now - r.lastTrafficFailTs ∧
        (r.trafficFail now).consecutiveFails = r.consecutiveFails + 1 ∧
        Proven fails (counted ++ [(.traffic, now)]) (r.trafficFail now)) ∨
      ¬ ProxyRating.trafficFailThrottle ≤ now - r.lastTrafficFailTs ∧
        (r.trafficFail now).consecutiveFails = r.consecutiveFails ∧
        Proven fails counted (r.trafficFail now) := by
  unfold ProxyRating.trafficFail ProxyRating.recordTrafficFail
  split
  · next hthrottle =>
    have hthrottle : ProxyRating.trafficFailThrottle ≤ now - r.lastTrafficFailTs := hthrottle
    refine .inl ⟨hthrottle, rfl, ?_, h.alive, h.speed, h.listed, .inl rfl, ?_⟩
    · rw [List.length_append]
      exact congrArg (· + 1) h.fails
    · rw [trafficTimes_traffic]
      intro t ht
      change t ≤ now
      rcases List.mem_append.mp ht with hold | hnew
      · have hle := h.recent t hold
        unfold ProxyRating.trafficFailThrottle at hthrottle
        linarith
      · exact (List.mem_singleton.mp hnew).le
  · next hthrottle =>
    exact .inr ⟨hthrottle, rfl, h.fails, h.alive, h.speed, h.listed, .inl rfl, h.recent⟩

end Proven

namespace Held

variable {codeOf : Str → Str} {addr : Str} {fails : ℕ} {s s' : GraceState}
  {ratings : Dict Str ProxyRating} {r r' : ProxyRating}

/-- The counter has gone up by one. -/
theorem counted_record (hr : s.ratings.get? addr = some r) (hr' : ratings.get? addr = some r')
    (hcount : r'.consecutiveFails = r.consecutiveFails + 1) (cause : Cause) (now : ℚ) :
    (s.record addr ratings cause now).counted = s.counted ++ [(cause, now)] := by
  have hraised : GraceState.raised addr s.ratings ratings = true := by
    simp only [GraceState.raised, hr, hr', hcount]
    exact decide_eq_true (Nat.lt_succ_self _)
  exact if_pos hraised

/-- The counter is as it was. -/
theorem counted_record_of_eq (hr : s.ratings.get? addr = some r) (hr' : ratings.get? addr = some r')
    (hcount : r'.consecutiveFails = r.consecutiveFails) (cause : Cause) (now : ℚ) :
    (s.record addr ratings cause now).counted = s.counted := by
  have hraised : GraceState.raised addr s.ratings ratings = false := by
    simp only [GraceState.raised, hr, hr', hcount]
    exact decide_eq_false (Nat.lt_irrefl _)
  exact if_neg (by rw [hraised]; exact Bool.false_ne_true)

/-- A failure that is counted. -/
theorem counted (h : Held addr fails s) (hr : s.ratings.get? addr = some r)
    (hr' : ratings.get? addr = some r') (hcount : r'.consecutiveFails = r.consecutiveFails + 1)
    (cause : Cause) (now : ℚ) (hproven : Proven fails (s.counted ++ [(cause, now)]) r')
    (hspaced : cause = .traffic → ∀ t ∈ trafficTimes s.counted,
      ProxyRating.trafficFailThrottle ≤ now - t) :
    Held addr fails (s.record addr ratings cause now) := by
  have hlist := counted_record hr hr' hcount cause now
  refine ⟨?_, fun _ => ⟨r', hr'⟩, ?_⟩ <;> rw [hlist]
  -- the rating that is there is the new one
  · intro r'' hr''
    cases hr'.symm.trans hr''
    exact hproven
  · cases cause with
    | check =>
      rw [trafficTimes_check]
      exact h.spaced
    | traffic =>
      rw [trafficTimes_traffic, List.pairwise_append]
      refine ⟨h.spaced, List.pairwise_singleton _ _, fun t ht t' ht' => ?_⟩
      cases List.mem_singleton.mp ht'
      exact hspaced rfl t ht

/-- An operation after which the rating, if there is one, counts as many failures as before. -/
theorem uncounted (h : Held addr fails s) (cause : Cause) (now : ℚ)
    (hrating : ∀ r', ratings.get? addr = some r' → Proven fails s.counted r' ∧
      ∀ r, s.ratings.get? addr = some r → r'.consecutiveFails = r.consecutiveFails)
    (hpresent : fails + s.counted.length < ProxyRating.graceFails →
      ∃ r', ratings.get? addr = some r') : Held addr fails (s.record addr ratings cause now) := by
  have hraised : GraceState.raised addr s.ratings ratings = false := by
    unfold GraceState.raised
    split
    · next r r' hr hr' => exact decide_eq_false (((hrating r' hr').2 r hr).le.not_gt)
    · rfl
  rw [GraceState.record, hraised, if_neg Bool.false_ne_true]
  exact ⟨fun r' hr' => (hrating r' hr').1, hpresent, h.spaced⟩

/-- An operation that does not touch the rating of the proxy. -/
theorem untouched (h : Held addr fails s) (cause : Cause) (now : ℚ)
    (hsame : ratings.get? addr = s.ratings.get? addr) :
    Held addr fails (s.record addr ratings cause now) := by
  refine h.uncounted cause now (fun r' hr' => ?_) (fun hless => hsame ▸ h.present hless)
  rw [hsame] at hr'
  refine ⟨h.proven r' hr', fun r hr => ?_⟩
  cases hr'.symm.trans hr
  rfl

/-- Clearing leaves a rating that is in its grace period. -/
theorem clearDead (h : Held addr fails s) (now : ℚ) :
    Held addr fails (s.record addr (executeClearDead s.ratings) .traffic now) := by
  have hget := get?_executeClearDead s.ratings addr
  refine h.uncounted .traffic now (fun r' hr' => ?_) (fun hless => ?_)
  · rw [hget] at hr'
    have hr := Option.eq_some_of_filter_eq_some hr'
    refine ⟨h.proven r' hr, fun r hr₀ => ?_⟩
    cases hr.symm.trans hr₀
    rfl
  · -- below the limit the rating is not dead
    obtain ⟨r, hr⟩ := h.present hless
    have hgrace : r.inGrace = true := (h.proven r hr).inGrace_iff.mpr hless
    refine ⟨r, ?_⟩
    rw [hget, hr, Option.filter_some, hgrace]
    simp

/-- **Step lemma**: what an operation does to the rating of the proxy. -/
theorem step (h : Held addr fails s) {a : ℚ × GraceOp}
    (hs : GraceState.step codeOf addr s a = some s') (hg : GraceState.Failing addr s a s') :
    Held addr fails s' := by
  obtain ⟨now, op⟩ := a
  rw [GraceState.step, Option.ite_none_left_eq_some, Option.some.injEq] at hs
  obtain ⟨-, rfl⟩ := hs
  obtain ⟨hpresent, hfailed⟩ := hg
  obtain ⟨r, hr⟩ := Option.ne_none_iff_exists'.mp hpresent
  have hproven := h.proven r hr
  cases op with
  | check addr' c ix sourceIds =>
    by_cases haddr : addr' = addr
    · subst haddr
      have hok := hfailed c ix sourceIds rfl
      have hget := ProxyRating.updateRating_get? codeOf ix sourceIds hr c now
      have hnext := hproven.afterCheck codeOf ix hok now
      have hcount : (r.afterCheck codeOf ix c now).consecutiveFails = r.consecutiveFails + 1 := by
        rw [hnext.fails, hproven.fails, List.length_append]
        rfl
      exact h.counted hr hget hcount .check now hnext (fun hcause => by cases hcause)
    · refine h.untouched .check now ?_
      exact (Dict.get?_insert _ _ _ _).trans (if_neg (Ne.symm haddr))
  | trafficFail addr' =>
    by_cases haddr : addr' = addr
    · subst haddr
      have hget : (recordTrafficFail s.ratings addr' now).get? addr' = some (r.trafficFail now) := by
        rw [recordTrafficFail, Dict.get?_modify, if_pos rfl, hr]
        rfl
      -- the throttle counts from the last counted failure, so all earlier ones are as far away
      rcases hproven.trafficFail now with ⟨hthrottle, hcount, hnext⟩ | ⟨-, hcount, hnext⟩
      · refine h.counted hr hget hcount .traffic now hnext (fun _ t ht => ?_)
        have hle := hproven.recent t ht
        linarith
      · refine h.uncounted .traffic now (fun r' hr' => ?_) (fun _ => ⟨_, hget⟩)
        cases hget.symm.trans hr'
        refine ⟨hnext, fun r'' hr'' => ?_⟩
        cases hr.symm.trans hr''
        exact hcount
    · refine h.untouched .traffic now ?_
      exact (Dict.get?_modify _ _ _ _).trans (if_neg (Ne.symm haddr))
  | clearDead => exact h.clearDead now

/-- Which failures are counted, at any point of a run. -/
theorem countsFails (h : Held addr fails s) : CountsFails codeOf addr s where
  checks r hr now c ix sourceIds s' hfailed hs := by
    rw [GraceState.step, Option.ite_none_left_eq_some, Option.some.injEq] at hs
    obtain ⟨-, rfl⟩ := hs
    have hproven := h.proven r hr
    have hget := ProxyRating.updateRating_get? codeOf ix sourceIds hr c now
    have hcount : (r.afterCheck codeOf ix c now).consecutiveFails = r.consecutiveFails + 1 := by
      rw [(hproven.afterCheck codeOf ix hfailed now).fails, hproven.fails, List.length_append]
      rfl
    exact counted_record hr hget hcount .check now
  traffic r hr now s' hs := by
    rw [GraceState.step, Option.ite_none_left_eq_some, Option.some.injEq] at hs
    obtain ⟨-, rfl⟩ := hs
    have hget : (recordTrafficFail s.ratings addr now).get? addr = some (r.trafficFail now) := by
      rw [recordTrafficFail, Dict.get?_modify, if_pos rfl, hr]
      rfl
    rcases (h.proven r hr).trafficFail now with ⟨hthrottle, hcount, -⟩ | ⟨hthrottle, hcount, -⟩
    · rw [if_pos hthrottle]
      exact counted_record hr hget hcount .traffic now
    · rw [if_neg hthrottle]
      exact counted_record_of_eq hr hget hcount .traffic now

/-- The promise, at any point of a run. -/
theorem gracePeriod (h : Held addr fails s) : GracePeriod addr fails s where
  kept hless := by
    obtain ⟨r, hr⟩ := h.present hless
    have hproven := h.proven r hr
    have hgrace : r.inGrace = true := hproven.inGrace_iff.mpr hless
    refine ⟨r, hr, ?_, ?_⟩
    · simp [ProxyRating.poolEligible, hproven.listed, hproven.alive, hgrace]
    · rw [get?_executeClearDead, hr, Option.filter_some, hgrace]
      simp
  beyond hmany hcounted r hr := by
    have hproven := h.proven r hr
    have hfailed : r.lastStatus = .failed :=
      hproven.status.resolve_right fun hok => hcounted hok.2
    have hgrace : r.inGrace = false := by
      rw [← Bool.not_eq_true, hproven.inGrace_iff]
      exact hmany.not_gt
    refine ⟨?_, fun now => ?_, ?_⟩
    · simp [ProxyRating.poolEligible, hfailed, hgrace]
    · have hweight : r.weight = 0 := by simp [ProxyRating.weight, hfailed, hgrace]
      rw [ProxyRating.score_eq_clamp, hweight, mul_zero]
      simp
    · rw [get?_executeClearDead, hr, Option.filter_some, hfailed, hgrace]
      cases r.isFavorite <;> simp
  spaced := h.spaced

end Held

/-- **The counter of a rating that is working is zero**: only a success makes the status what it is,
and it clears the counter. -/
theorem fails_of_working (codeOf : Str → Str) {s₀ s : RatingState}
    (hrun : (RatingState.machine codeOf).Reaches Machine.anyStep s₀ s)
    (hstart : s₀.rating.lastStatus = .ok → s₀.rating.consecutiveFails = 0)
    (hok : s.rating.lastStatus = .ok) : s.rating.consecutiveFails = 0 := by
  refine hrun.invariant
    (I := fun s => s.rating.lastStatus = .ok → s.rating.consecutiveFails = 0) hstart ?_ hok
  intro s op s' hi hstep _ hok
  cases hstep
  cases op with
  | wait until_ => exact hi hok
  | check c =>
    have htallied := s.rating.tallied_applyResult codeOf c s.now
    split at htallied
    · exact congrArg (fun p => p.2.1) htallied
    · have hfailed := congrArg (fun p => p.2.2) htallied
      cases hfailed.symm.trans hok
  | ipBlacklist ix =>
    have htallied := s.rating.tallied_applyIpBlacklist ix s.rating.egressIp
    exact (congrArg (fun p => p.2.1) htallied).trans
      (hi ((congrArg (fun p => p.2.2) htallied).symm.trans hok))
  | trafficFail =>
    have hfailed : (s.rating.trafficFail s.now).lastStatus = .failed := by
      unfold ProxyRating.trafficFail ProxyRating.recordTrafficFail
      split <;> rfl
    cases hfailed.symm.trans hok
  | forcedFraud egress fraud =>
    have htallied := s.rating.tallied_forcedRating egress fraud s.now
    exact (congrArg (fun p => p.2.1) htallied).trans
      (hi ((congrArg (fun p => p.2.2) htallied).symm.trans hok))
  | restart => exact hi hok

/-- **The grace period of a proven proxy**: in every run of failures in checks and in traffic, with
whatever happens to other proxies, and a successful check ends it. The rating starts with the
failures that it has counted since its last success. -/
theorem grace_period (codeOf : Str → Str) {addr : Str} {s₀ s : GraceState} {r₀ : ProxyRating}
    (hr₀ : s₀.ratings.get? addr = some r₀) (hok : r₀.lastStatus = .ok)
    (hspeed : 0 < r₀.speedCount) (huseful : ProxyRating.minUsefulSpeed ≤ r₀.effSpeed)
    (hlisted : r₀.inBlacklist = false) (hcounted : s₀.counted = [])
    (hrun : (GraceState.machine codeOf addr).Reaches (GraceState.Failing addr) s₀ s) :
    GracePeriod addr r₀.consecutiveFails s ∧ CountsFails codeOf addr s ∧
      ∀ r, s.ratings.get? addr = some r → ∀ ix c now, c.ok = true →
        (r.afterCheck codeOf ix c now).consecutiveFails = 0 := by
  have halive : r₀.deadBySpeed = false := by
    rw [ProxyRating.deadBySpeed, if_pos hspeed]
    exact decide_eq_false huseful.not_gt
  have hheld : Held addr r₀.consecutiveFails s₀ := by
    refine ⟨fun r hr => ?_, fun _ => ⟨r₀, hr₀⟩, ?_⟩
    · cases hr₀.symm.trans hr
      rw [hcounted]
      refine ⟨rfl, halive, hspeed, hlisted, .inr ⟨hok, rfl⟩, fun t ht => ?_⟩
      cases ht
    · rw [hcounted]
      exact List.Pairwise.nil
  have hheld' : Held addr r₀.consecutiveFails s :=
    hrun.invariant (I := Held addr r₀.consecutiveFails) hheld fun _ _ _ hi hs hg => hi.step hs hg
  refine ⟨hheld'.gracePeriod, hheld'.countsFails, fun r _ ix c now hsuccess => ?_⟩
  have htallied : (r.afterCheck codeOf ix c now).tallied = (r.checksTotal + 1, 0, .ok) := by
    rw [ProxyRating.afterCheck, ProxyRating.tallied_applyIpBlacklist,
      r.tallied_applyResult codeOf c now, if_pos hsuccess]
  exact congrArg (fun p => p.2.1) htallied

/-- A proxy that works, before any failure. -/
def provenStart : GraceState where
  ratings := Dict.empty.insert "10.0.0.7:3128".toList (ProxyRating.working 900)
  now := 1000
  counted := []

/-- The result of a check that has failed. -/
def failedResult : CheckResult := ⟨false, [], 0, false, false, {}, none, 0, [], false, none⟩

/-- Failures in traffic and in checks. The second comes too soon, and the last one reaches the
limit. -/
def mixedFailures : List (ℚ × GraceOp) :=
  [(1000, .trafficFail "10.0.0.7:3128".toList), (1003, .trafficFail "10.0.0.7:3128".toList)] ++
    List.replicate 48 (1004, .check "10.0.0.7:3128".toList failedResult ⟨.empty, [], []⟩ []) ++
    [(1005, .trafficFail "10.0.0.7:3128".toList)]

/-- Those of them that are counted. -/
def countedFailures : List (Cause × ℚ) :=
  (.traffic, 1000) :: List.replicate 48 (.check, 1004) ++ [(.traffic, 1005)]

/-- An operation is no successful check of the proxy. -/
def GraceOp.failing (addr : Str) : GraceOp → Bool
  | .check addr' c _ _ => decide (addr' ≠ addr) || !c.ok
  | _ => true

theorem grace_period_throttled :
    ∃ s, (GraceState.machine (fun _ => []) "10.0.0.7:3128".toList).Reaches
        (GraceState.Failing "10.0.0.7:3128".toList) provenStart s ∧
      s.counted = countedFailures ∧
      (executeClearDead s.ratings).get? "10.0.0.7:3128".toList = none ∧
      GracePeriod "10.0.0.7:3128".toList 0 s := by
  have hexec : (((GraceState.machine (fun _ => []) "10.0.0.7:3128".toList).exec
      (fun s a _ => (s.ratings.get? "10.0.0.7:3128".toList).isSome &&
        a.2.failing "10.0.0.7:3128".toList) provenStart mixedFailures).any fun s =>
      decide (s.counted = countedFailures ∧
        (executeClearDead s.ratings).get? "10.0.0.7:3128".toList = none)) = true := by
    decide +kernel
  obtain ⟨s, hrun, hend⟩ := Machine.exists_reaches_of_exec
    (G := GraceState.Failing "10.0.0.7:3128".toList) (fun s a _ h => by
      obtain ⟨hsome, hfailing⟩ := Bool.and_eq_true_iff.mp h
      refine ⟨Option.isSome_iff_ne_none.mp hsome, fun c ix sourceIds hop => ?_⟩
      rw [hop] at hfailing
      simpa [GraceOp.failing] using hfailing) hexec
  obtain ⟨hcounted, hcleared⟩ := of_decide_eq_true hend
  have hstart : provenStart.ratings.get? "10.0.0.7:3128".toList = some (ProxyRating.working 900) := by
    decide +kernel
  exact ⟨s, hrun, hcounted, hcleared,
    (grace_period (fun _ => []) hstart rfl (by decide) (by decide +kernel) rfl rfl hrun).1⟩

end HuntProxy
