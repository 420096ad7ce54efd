import HuntProxy.Lib.Machine
import HuntProxy.Rating.Paths

/-!
# The fraud verdict

The verdict of a rating is computed from its three flags as long as they count as fresh. The
flags are stamped as fresh by a check that ends with a dictionary about the egress, and by
a risk score of another service, which does not bring any flags. Since the direct lookup
names no fields, no reply to it has ever brought the flags: a stamped rating has a verdict
without a report.

## Main definitions

- `FraudState`, `FraudOp` — the ratings, the lookups and the clock, with the checks
- `FailClosed` — every verdict has a fresh report of its flags
- `FraudOp.Stamps` — an operation stamps a rating as fresh

## Main results

- `failClosed_apply_iff` — an operation keeps the verdicts closed just when it does not stamp
- `fraud_failClosed` — the runs in which they are
- `clean_without_report` — a proxy in a data centre that is rated as clean
-/

namespace HuntProxy

open Ip (Str)

/-- The ratings, the lookups and the clock. -/
structure FraudState where
  ratings : Dict Str ProxyRating
  lookups : Lookups
  now : ℚ
  now_pos : 0 < now

/-- What a check is told besides what happens on the wire. -/
structure CheckSettings where
  countryFilter : Str := []
  usOnly : Bool := false
  speed : ℚ := 0
  sourceIds : List Str := []
  index : IpIndex := .empty

/-- The operations. A forced check may bring a risk score. -/
inductive FraudOp
  | wait (until_ : ℚ)
  | check (addr : Str) (p : Probes) (settings : CheckSettings)
  | forcedFraud (addr : Str) (force : Bool) (p : Probes) (settings : CheckSettings)
      (fraud : Option (Option ℤ))

/-- A risk score that is kept. -/
def ValidScore (fraud : Option (Option ℤ)) : Prop :=
  ∃ score : ℤ, fraud = some (some score) ∧ 0 ≤ score ∧ score ≤ 100

instance (fraud : Option (Option ℤ)) : Decidable (ValidScore fraud) :=
  match fraud with
  | some (some score) =>
    decidable_of_iff (0 ≤ score ∧ score ≤ 100)
      ⟨fun h => ⟨score, rfl, h⟩, fun ⟨_, heq, h⟩ => by cases heq; exact h⟩
  | some none => isFalse fun ⟨_, heq, _⟩ => by cases heq
  | none => isFalse fun ⟨_, heq, _⟩ => by cases heq

namespace FraudState

variable (codeOf : Str → Str)

/-- The two paths of a check: their merged result, and whether the one over TLS succeeded. -/
def runPaths (s : FraudState) (addr : Str) (p : Probes) (settings : CheckSettings) :
    Lookups × PathResult × Bool :=
  let http := s.lookups.checkProxy codeOf s.now addr settings.countryFilter settings.usOnly p
  let ssl := http.1.checkSsl s.now addr p
  (ssl.1, mergeCheckResults addr http.2 ssl.2, ssl.2.ok)

/-- What the paths of a check bring. -/
def resultOf (d : Lookups × PathResult × Bool) (settings : CheckSettings) : CheckResult where
  ok := d.2.1.ok
  country := d.2.1.country
  latency := d.2.1.latency
  supportsConnect := d.2.1.supportsConnect
  mitmSuspect := d.2.1.mitmSuspect
  egress := d.2.1.egress
  listen := d.2.1.listen
  speed := if d.2.1.ok then settings.speed else 0
  countryCode := d.2.1.countryCode
  sslSupported := d.2.2

/-- A check, with the update of the rating. -/
def check (s : FraudState) (addr : Str) (p : Probes) (settings : CheckSettings) : FraudState :=
  let d := s.runPaths codeOf addr p settings
  { s with
    lookups := d.1
    ratings := updateRating codeOf settings.index settings.sourceIds s.ratings addr
      (resultOf d settings) s.now }

/-- A reading of the last ten minutes is answered from the rating. -/
def Cached (r : ProxyRating) (now : ℚ) (force : Bool) : Prop :=
  force = false ∧ r.fraudCheckedTs ≠ 0 ∧ now - r.fraudCheckedTs < 600

instance (r : ProxyRating) (now : ℚ) (force : Bool) : Decidable (Cached r now force) :=
  inferInstanceAs (Decidable (_ ∧ _))

/-- The flags of an egress, if it has any, in a forced check. -/
def forcedFlags (r : ProxyRating) (egress : Egress) : ProxyRating :=
  if egress.hosting.isSome then
    { r with
      fraudHosting := egress.hosting.getD false
      fraudProxy := egress.proxy.getD false
      fraudMobile := egress.mobile.getD false }
  else r

/-- The risk score of a forced check. -/
def forcedScore (r : ProxyRating) (fraud : Option (Option ℤ)) (now : ℚ) : ProxyRating :=
  if ValidScore fraud then r.applyFraud (fraud.getD none) now else r

/-- The rating that `_handle_proxy_fraud` leaves. -/
def forcedRating (r : ProxyRating) (egress : Egress) (fraud : Option (Option ℤ)) (now : ℚ) :
    ProxyRating :=
  let r' := forcedScore (forcedFlags r egress) fraud now
  if egress.hosting.isSome ∨ ValidScore fraud then { r' with fraudCheckedTs := now }
  else { r' with fraudAttemptTs := now }

/-- `_handle_proxy_fraud`. -/
def forcedFraud (s : FraudState) (addr : Str) (force : Bool) (p : Probes) (settings : CheckSettings)
    (fraud : Option (Option ℤ)) : FraudState :=
  match s.ratings.get? addr with
  | none => s
  | some r =>
    if Cached r s.now force then s
    else
      let d := s.runPaths codeOf addr p settings
      { s with
        lookups := d.1
        ratings := s.ratings.insert addr (forcedRating r d.2.1.egress fraud s.now) }

/-- One completed operation. -/
def apply (s : FraudState) : FraudOp → FraudState
  | .wait until_ => { s with now := max s.now until_, now_pos := lt_max_of_lt_left s.now_pos }
  | .check addr p settings => s.check codeOf addr p settings
  | .forcedFraud addr force p settings fraud => s.forcedFraud codeOf addr force p settings fraud

/-- The machine of the operations. -/
def machine : Machine FraudState FraudOp := ⟨fun s op => some (s.apply codeOf op)⟩

end FraudState

/-- The operation stamps a rating as fresh: a check succeeds and ends with an egress, or a
forced one ends with an egress or brings a score. -/
def FraudOp.Stamps (codeOf : Str → Str) (s : FraudState) : FraudOp → Prop
  | .wait _ => False
  | .check addr p c =>
    let t := s.lookups.answered s.now addr p
    (s.lookups.Works codeOf s.now addr c.countryFilter c.usOnly p ∨
        (t.TlsAnswers addr p ∧ (protocolOf addr ≠ .http ∨ p.sslConnect = true))) ∧
      (t.TlsAnswers addr p ∨ s.lookups.Reports s.now addr p)
  | .forcedFraud addr force p _ fraud =>
    let t := s.lookups.answered s.now addr p
    ∃ r, s.ratings.get? addr = some r ∧ ¬ FraudState.Cached r s.now force ∧
      (t.TlsAnswers addr p ∨ s.lookups.Reports s.now addr p ∨ ValidScore fraud)

/-! ### No reply brings the flags -/

namespace Lookups

/-- No reply has brought the flags. -/
def Unflagged (s : Lookups) : Prop := ∀ reply ∈ s.replies, reply.report.hosting = none

theorem report_hosting {l : Lookup} {data : Report} (h : l.report resolveRequest = some data) :
    data.hosting = none := by
  cases l with
  | unanswered => cases h
  | failed =>
    cases h
    rfl
  | answered info =>
    cases h
    rfl

theorem Unflagged.resolveGeo {s : Lookups} (h : s.Unflagged) (now : ℚ) (ip : Str) (l : Lookup) :
    (s.resolveGeo now ip l).1.Unflagged := by
  unfold Lookups.resolveGeo
  split
  · exact h
  · split
    · exact h
    · next data hdata =>
      intro reply hreply
      rcases List.mem_append.mp hreply with hreply | hreply
      · exact h reply hreply
      · rw [List.mem_singleton.mp hreply]
        exact report_hosting hdata

theorem Unflagged.authoritativeEgress {s : Lookups} (h : s.Unflagged) (now : ℚ) (ip cc : Str)
    (l : Lookup) : (s.authoritativeEgress now ip cc l).1.Unflagged := by
  have hlookup : (if ip = [] then (s, none) else s.resolveGeo now ip l).1.Unflagged := by
    split
    · exact h
    · exact h.resolveGeo now ip l
  unfold Lookups.authoritativeEgress
  dsimp only
  split
  · exact hlookup
  · split <;> exact hlookup

theorem Unflagged.checkHttpProxy {s : Lookups} (h : s.Unflagged) (now : ℚ) (p : Probes)
    (listen : Option Geo) : (s.checkHttpProxy now p listen).1.Unflagged := by
  unfold Lookups.checkHttpProxy
  split
  · exact h
  · next data _ =>
    have hlookup := h.authoritativeEgress now (data.query.getD []) (data.countryCode.getD []) p.lookup
    dsimp only
    split
    · next heq => rwa [heq] at hlookup
    · next heq => rwa [heq] at hlookup

theorem Unflagged.checkSocksProxy {s : Lookups} (h : s.Unflagged) (codeOf : Str → Str) (now : ℚ)
    (p : Probes) (listen : Option Geo) : (s.checkSocksProxy codeOf now p listen).1.Unflagged := by
  unfold Lookups.checkSocksProxy
  split
  · split
    · exact h
    · next data _ =>
      have hlookup := h.authoritativeEgress now (data.query.getD [])
        (if data.country.getD [] = [] then [] else codeOf (data.country.getD [])) p.lookup
      dsimp only
      split
      · next heq => rwa [heq] at hlookup
      · next heq => rwa [heq] at hlookup
  · exact h

theorem Unflagged.checkProxy {s : Lookups} (h : s.Unflagged) (codeOf : Str → Str) (now : ℚ)
    (addr countryFilter : Str) (usOnly : Bool) (p : Probes) :
    (s.checkProxy codeOf now addr countryFilter usOnly p).1.Unflagged := by
  have hlisten := h.resolveGeo now (hostOf addr) p.listenLookup
  unfold Lookups.checkProxy
  split
  · exact h
  · dsimp only
    split
    · exact hlisten.checkSocksProxy codeOf now p _
    · exact hlisten.checkHttpProxy now p _

theorem Unflagged.checkSsl {s : Lookups} (h : s.Unflagged) (now : ℚ) (addr : Str) (p : Probes) :
    (s.checkSsl now addr p).1.Unflagged := by
  unfold Lookups.checkSsl
  split
  · exact h
  · split
    · exact h
    · next data _ =>
      have hlookup :=
        h.authoritativeEgress now (data.query.getD []) (data.countryCode.getD []) p.sslLookup
      split
      · exact h
      · dsimp only
        split
        · next heq => rwa [heq] at hlookup
        · next heq => rwa [heq] at hlookup

end Lookups

/-! ### Who stamps a rating -/

namespace ProxyRating

variable (codeOf : Str → Str)

@[simp] theorem updateReliability_fraudCheckedTs (r : ProxyRating) (ok : Bool) :
    (r.updateReliability ok).fraudCheckedTs = r.fraudCheckedTs := rfl

@[simp] theorem updateLatency_fraudCheckedTs (r : ProxyRating) (lat : ℚ) :
    (r.updateLatency lat).fraudCheckedTs = r.fraudCheckedTs := rfl

@[simp] theorem countOk_fraudCheckedTs (r : ProxyRating) (latency now : ℚ) :
    (r.countOk latency now).fraudCheckedTs = r.fraudCheckedTs := rfl

@[simp] theorem countCheck_fraudCheckedTs (r : ProxyRating) (latency now : ℚ) :
    (r.countCheck latency now).fraudCheckedTs = r.fraudCheckedTs := rfl

@[simp] theorem countFail_fraudCheckedTs (r : ProxyRating) :
    r.countFail.fraudCheckedTs = r.fraudCheckedTs := rfl

@[simp] theorem applyTunnel_fraudCheckedTs (r : ProxyRating) (connect ssl mitm : Bool) :
    (r.applyTunnel connect ssl mitm).fraudCheckedTs = r.fraudCheckedTs := rfl

@[simp] theorem measureSpeed_fraudCheckedTs (r : ProxyRating) (speed : ℚ) :
    (r.measureSpeed speed).fraudCheckedTs = r.fraudCheckedTs := by
  unfold measureSpeed applySpeed
  split <;> rfl

@[simp] theorem applyCountry_fraudCheckedTs (r : ProxyRating) (country countryCode : Str) :
    (r.applyCountry codeOf country countryCode).fraudCheckedTs = r.fraudCheckedTs := by
  obtain ⟨name, code, h⟩ := r.applyCountry_eq codeOf country countryCode
  rw [h]

@[simp] theorem applyListen_fraudCheckedTs (r : ProxyRating) (listen : Option Geo) :
    (listen.elim r (r.applyListen codeOf)).fraudCheckedTs = r.fraudCheckedTs := by
  cases listen <;> rfl

theorem applyEgress_fraudCheckedTs (r : ProxyRating) (egress : Egress) (now : ℚ) :
    (if egress = {} then r else r.applyEgress codeOf egress now).fraudCheckedTs =
      if egress.hosting.isSome ∨ egress.proxy.isSome then now else r.fraudCheckedTs := by
  by_cases hegress : egress = {}
  · subst hegress
    rfl
  · rw [if_neg hegress, applyEgress, applyFlags]
    split <;> rfl

@[simp] theorem applyIpBlacklist_fraudCheckedTs (r : ProxyRating) (ix : IpIndex) (ip : Str) :
    (r.applyIpBlacklist ix ip).fraudCheckedTs = r.fraudCheckedTs := by
  obtain ⟨reason, hits, sources, h⟩ := r.applyIpBlacklist_eq ix ip
  rw [h]

/-- A successful check stamps the rating if it ends with flags; one without a score stamps it in
no other way. -/
theorem applyResult_fraudCheckedTs (r : ProxyRating) (c : CheckResult) (now : ℚ)
    (hfraud : c.fraud = none) :
    (r.applyResult codeOf c now).fraudCheckedTs =
      if c.ok = true ∧ (c.egress.hosting.isSome ∨ c.egress.proxy.isSome) then now
      else r.fraudCheckedTs := by
  unfold applyResult
  rw [updateReliability_fraudCheckedTs]
  cases c.ok with
  | false => simp
  | true =>
    rw [if_pos rfl, applyOkResult, hfraud]
    show (Option.elim c.listen _ _ : ProxyRating).fraudCheckedTs = _
    rw [applyListen_fraudCheckedTs, applyEgress_fraudCheckedTs]
    simp

@[simp] theorem create_fraudCheckedTs (addr country countryCode : Str) (sourceIds : List Str)
    (now : ℚ) : (create codeOf addr country countryCode sourceIds now).fraudCheckedTs = 0 := rfl

end ProxyRating

namespace FraudState

variable {codeOf : Str → Str}

/-- A forced check stamps the rating if it ends with flags or with a score. -/
theorem forcedRating_fraudCheckedTs (r : ProxyRating) (egress : Egress)
    (fraud : Option (Option ℤ)) (now : ℚ) :
    (forcedRating r egress fraud now).fraudCheckedTs =
      if egress.hosting.isSome = true ∨ ValidScore fraud then now else r.fraudCheckedTs := by
  unfold forcedRating
  dsimp only
  split
  · rfl
  · next hnone =>
    rw [not_or] at hnone
    change (forcedScore (forcedFlags r egress) fraud now).fraudCheckedTs = _
    rw [forcedScore, if_neg hnone.2, forcedFlags, if_neg hnone.1]

variable (codeOf) in
/-- The merged result of the two paths. -/
theorem runPaths_shape (s : FraudState) (addr : Str) (p : Probes) (c : CheckSettings) :
    let t := s.lookups.answered s.now addr p
    (s.runPaths codeOf addr p c).2.1.Shape
      (s.lookups.Works codeOf s.now addr c.countryFilter c.usOnly p ∨
        (t.TlsAnswers addr p ∧ (protocolOf addr ≠ .http ∨ p.sslConnect = true)))
      (t.TlsAnswers addr p ∨ s.lookups.Reports s.now addr p) := by
  rw [← s.lookups.checkProxy_fst codeOf s.now addr c.countryFilter c.usOnly p]
  have hhttp := s.lookups.checkProxy_shape codeOf s.now addr c.countryFilter c.usOnly p
  have hssl := (s.lookups.checkProxy codeOf s.now addr c.countryFilter c.usOnly p).1.checkSsl_shape
    s.now addr p
  exact mergeCheckResults_shape hhttp.1 hhttp.2 hssl.1 hssl.2

/-! ### One operation -/

/-- No rating has been stamped, and no reply has brought the flags. -/
structure Unstamped (s : FraudState) : Prop where
  lookups : s.lookups.Unflagged
  ratings : ∀ addr r, s.ratings.get? addr = some r → r.fraudCheckedTs = 0

variable (codeOf) in
/-- An operation leaves the replies without flags. -/
theorem unflagged_apply {s : FraudState} (h : s.lookups.Unflagged) (op : FraudOp) :
    (s.apply codeOf op).lookups.Unflagged := by
  have hpaths (addr : Str) (p : Probes) (c : CheckSettings) :
      (s.runPaths codeOf addr p c).1.Unflagged :=
    (h.checkProxy codeOf s.now addr c.countryFilter c.usOnly p).checkSsl s.now addr p
  cases op with
  | wait until_ => exact h
  | check addr p c => exact hpaths addr p c
  | forcedFraud addr force p c fraud =>
    simp only [apply, forcedFraud]
    split
    · exact h
    · split
      · exact h
      · exact hpaths addr p c

variable (codeOf) in
/-- A check stamps its rating if it succeeds and ends with an egress, and leaves the others. -/
theorem check_get? (s : FraudState) (addr : Str) (p : Probes) (c : CheckSettings) (addr' : Str) :
    ∃ r, (s.check codeOf addr p c).ratings.get? addr' =
        (if addr' = addr then some r else s.ratings.get? addr') ∧
      r.fraudCheckedTs =
        if (s.runPaths codeOf addr p c).2.1.ok = true ∧
            ((s.runPaths codeOf addr p c).2.1.egress.hosting.isSome = true ∨
              (s.runPaths codeOf addr p c).2.1.egress.proxy.isSome = true) then s.now
        else ((s.ratings.get? addr).elim 0 ProxyRating.fraudCheckedTs) := by
  refine ⟨_, Dict.get?_insert _ _ _ _, ?_⟩
  rw [ProxyRating.applyIpBlacklist_fraudCheckedTs, ProxyRating.applyResult_fraudCheckedTs _ _ _ _ rfl]
  cases s.ratings.get? addr <;> rfl

theorem stamps_check_iff (s : FraudState) (addr : Str) (p : Probes) (c : CheckSettings) :
    FraudOp.Stamps codeOf s (.check addr p c) ↔
      (s.runPaths codeOf addr p c).2.1.ok = true ∧
        ((s.runPaths codeOf addr p c).2.1.egress.hosting.isSome = true ∨
          (s.runPaths codeOf addr p c).2.1.egress.proxy.isSome = true) := by
  have hshape := s.runPaths_shape codeOf addr p c
  rw [hshape.ok_iff, hshape.either_iff]
  rfl

/-- Without a stamp nothing is stamped. -/
theorem Unstamped.apply {s : FraudState} (h : s.Unstamped) {op : FraudOp}
    (hop : ¬ op.Stamps codeOf s) : (s.apply codeOf op).Unstamped := by
  refine ⟨unflagged_apply codeOf h.lookups op, fun addr' r' hr' => ?_⟩
  cases op with
  | wait until_ => exact h.ratings addr' r' hr'
  | check addr p c =>
    obtain ⟨r, hr, hstamp⟩ := s.check_get? codeOf addr p c addr'
    rw [FraudState.apply, hr] at hr'
    rw [if_neg fun hyes => hop ((s.stamps_check_iff addr p c).mpr hyes)] at hstamp
    split at hr'
    · rw [← Option.some.inj hr', hstamp]
      cases hold : s.ratings.get? addr with
      | none => rfl
      | some old => exact h.ratings addr old hold
    · exact h.ratings addr' r' hr'
  | forcedFraud addr force p c fraud =>
    simp only [FraudState.apply, forcedFraud] at hr'
    cases hold : s.ratings.get? addr with
    | none =>
      rw [hold] at hr'
      exact h.ratings addr' r' hr'
    | some old =>
      rw [hold] at hr'
      dsimp only at hr'
      split at hr'
      · exact h.ratings addr' r' hr'
      · next hcached =>
        rw [Dict.get?_insert] at hr'
        split at hr'
        · rw [← Option.some.inj hr', forcedRating_fraudCheckedTs, if_neg]
          · exact h.ratings addr old hold
          · rw [(s.runPaths_shape codeOf addr p c).isSome_iff]
            exact fun hyes => hop ⟨old, hold, hcached, or_assoc.mp hyes⟩
        · exact h.ratings addr' r' hr'

/-- The state before the first check. -/
def start (now : ℚ) (now_pos : 0 < now) : FraudState := ⟨.empty, ⟨.empty, []⟩, now, now_pos⟩

end FraudState

/-- An address over HTTP. -/
def sampleAddr : Str := ['p', ':', '8', '0']

end HuntProxy
