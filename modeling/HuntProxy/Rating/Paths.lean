import HuntProxy.Rating.Geo

/-!
# When a check ends with an egress

Whether a check succeeds, and whether it ends with a dictionary about the egress, is decided
by what the proxy replies on its paths, by what is known about the address it names, and by
the filters on the country.

## Main definitions

- `Lookups.direct`, `Lookups.Believes` — what is known about an address, and what it does not
  contradict
- `Lookups.Works`, `Lookups.Reports`, `Lookups.TlsAnswers` — what decides about the paths
- `PathResult.Shape` — a result that succeeds, and has an egress, under given conditions

## Main results

- `Lookups.checkProxy_shape`, `Lookups.checkSsl_shape`, `mergeCheckResults_shape`
-/

namespace HuntProxy

open Ip (Str)

/-- The filters on the country let a check pass. -/
def Passes (countryFilter : Str) (usOnly : Bool) (country countryCode : Str) : Prop :=
  (countryFilter = [] ∨ countryCode = countryFilter) ∧
    (usOnly = true → country = "United States".toList)

instance (countryFilter : Str) (usOnly : Bool) (country countryCode : Str) :
    Decidable (Passes countryFilter usOnly country countryCode) :=
  inferInstanceAs (Decidable (_ ∧ _))

namespace Lookups

/-! ### What is known about an address -/

/-- What is known about an address when a lookup of it has ended: the cached answer, or the
reply. -/
def direct (s : Lookups) (ip : Str) (l : Lookup) : Option Geo :=
  if ip = [] then none
  else
    match s.geoCache.get? ip with
    | some geo => some geo
    | none => (l.report resolveRequest).map Report.geo

/-- The country that is known about an address. -/
def directCountry (s : Lookups) (ip : Str) (l : Lookup) : Str :=
  (s.direct ip l).elim [] Geo.country

/-- The code of the country that is known about an address. -/
def directCode (s : Lookups) (ip : Str) (l : Lookup) : Str :=
  (s.direct ip l).elim [] Geo.countryCode

/-- The code that a proxy claims for an address is not contradicted. -/
def Believes (s : Lookups) (ip cc : Str) (l : Lookup) : Prop :=
  s.directCode ip l = [] ∨ cc = [] ∨ s.directCode ip l = cc

instance (s : Lookups) (ip cc : Str) (l : Lookup) : Decidable (s.Believes ip cc l) :=
  inferInstanceAs (Decidable (_ ∨ _))

theorem resolveGeo_snd (s : Lookups) (now : ℚ) {ip : Str} (hip : ip ≠ []) (l : Lookup) :
    (s.resolveGeo now ip l).2 = s.direct ip l := by
  rw [direct, if_neg hip, resolveGeo]
  cases s.geoCache.get? ip with
  | some geo => rfl
  | none => cases l.report resolveRequest <;> rfl

/-- **The direct lookup** gives the country that is known, unless the code contradicts it. -/
theorem authoritativeEgress_snd (s : Lookups) (now : ℚ) (ip cc : Str) (l : Lookup) :
    ∃ flags, (s.authoritativeEgress now ip cc l).2 =
      if s.Believes ip cc l then some (s.directCountry ip l, s.directCode ip l, flags)
      else none := by
  have hdirect : (if ip = [] then (s, none) else s.resolveGeo now ip l).2 = s.direct ip l := by
    by_cases hip : ip = []
    · rw [if_pos hip, direct, if_pos hip]
    · rw [if_neg hip, resolveGeo_snd s now hip]
  unfold authoritativeEgress
  dsimp only
  rw [hdirect]
  cases hknown : s.direct ip l with
  | none =>
    have hbel : s.Believes ip cc l := .inl (by rw [directCode, hknown]; rfl)
    refine ⟨⟨false, false, false⟩, ?_⟩
    rw [if_pos hbel, directCountry, directCode, hknown]
    rfl
  | some geo =>
    have hcode : s.directCode ip l = geo.countryCode := by rw [directCode, hknown]; rfl
    have hbel : s.Believes ip cc l ↔
        ¬ (geo.countryCode ≠ [] ∧ cc ≠ [] ∧ geo.countryCode ≠ cc) := by
      rw [Believes, hcode]
      tauto
    refine ⟨⟨geo.hosting, geo.proxy, geo.mobile⟩, ?_⟩
    by_cases hcontra : geo.countryCode ≠ [] ∧ cc ≠ [] ∧ geo.countryCode ≠ cc
    · rw [if_neg fun h => hbel.mp h hcontra]
      dsimp only
      rw [if_pos hcontra]
    · rw [if_pos (hbel.mpr hcontra), hcode, directCountry, hknown]
      dsimp only
      rw [if_neg hcontra]
      rfl

end Lookups

/-! ### The shape of a result -/

/-- Both flags that mark a dictionary as a report are there. -/
def Egress.Flagged (egress : Egress) : Prop :=
  egress.hosting.isSome = true ∧ egress.proxy.isSome = true

/-- The result succeeds under the first condition, and has an egress under the second one. -/
structure PathResult.Shape (r : PathResult) (Ok Egr : Prop) : Prop where
  ok_iff : r.ok = true ↔ Ok
  flagged : Egr → r.egress.Flagged
  empty : ¬ Egr → r.egress = {}

namespace PathResult

variable {r : PathResult} {Ok Egr Ok' Egr' : Prop}

theorem Shape.congr (h : r.Shape Ok Egr) (hok : Ok ↔ Ok') (hegr : Egr ↔ Egr') : r.Shape Ok' Egr' where
  ok_iff := h.ok_iff.trans hok
  flagged := fun h' => h.flagged (hegr.mpr h')
  empty := fun h' => h.empty fun hE => h' (hegr.mp hE)

/-- An egress is there exactly when its first flag is. -/
theorem Shape.isSome_iff (h : r.Shape Ok Egr) : r.egress.hosting.isSome = true ↔ Egr := by
  by_cases hE : Egr
  · exact iff_of_true (h.flagged hE).1 hE
  · rw [h.empty hE]
    exact iff_of_false Bool.false_ne_true hE

/-- The two flags are there together. -/
theorem Shape.either_iff (h : r.Shape Ok Egr) :
    (r.egress.hosting.isSome = true ∨ r.egress.proxy.isSome = true) ↔ Egr := by
  by_cases hE : Egr
  · exact iff_of_true (.inl (h.flagged hE).1) hE
  · rw [h.empty hE]
    exact iff_of_false (by simp) hE

end PathResult

namespace Lookups

variable (codeOf : Str → Str)

/-! ### The path over HTTP -/

/-- The proxy replies over HTTP, and what it claims is not contradicted. -/
def HttpAnswers (s : Lookups) (p : Probes) : Prop :=
  ∃ data, p.reply = some data ∧ s.Believes (data.query.getD []) (data.countryCode.getD []) p.lookup

/-- The filters accept the country of the reply over HTTP. -/
def HttpPasses (s : Lookups) (countryFilter : Str) (usOnly : Bool) (p : Probes) : Prop :=
  ∀ data, p.reply = some data →
    Passes countryFilter usOnly
      (orElse (s.directCountry (data.query.getD []) p.lookup) (data.country.getD []))
      (orElse (s.directCode (data.query.getD []) p.lookup) (data.countryCode.getD []))

theorem checkHttpProxy_shape (s : Lookups) (now : ℚ) (p : Probes) (listen : Option Geo) :
    (s.checkHttpProxy now p listen).2.Shape (s.HttpAnswers p) (s.HttpAnswers p) ∧
      (s.HttpAnswers p → ∀ countryFilter usOnly,
        Passes countryFilter usOnly (s.checkHttpProxy now p listen).2.country
          (s.checkHttpProxy now p listen).2.countryCode ↔
        s.HttpPasses countryFilter usOnly p) := by
  unfold checkHttpProxy HttpPasses
  cases hreply : p.reply with
  | none =>
    have hno : ¬ s.HttpAnswers p := fun ⟨data, hdata, _⟩ => by simp [hreply] at hdata
    exact ⟨⟨iff_of_false Bool.false_ne_true hno, fun h => absurd h hno, fun _ => rfl⟩, fun h => absurd h hno⟩
  | some data =>
    obtain ⟨flags, hsnd⟩ := s.authoritativeEgress_snd now (data.query.getD [])
      (data.countryCode.getD []) p.lookup
    dsimp only
    by_cases hbel : s.Believes (data.query.getD []) (data.countryCode.getD []) p.lookup
    · have hyes : s.HttpAnswers p := ⟨data, hreply, hbel⟩
      rw [if_pos hbel] at hsnd
      split
      · next heq => simp [heq] at hsnd
      · next heq =>
        rw [heq] at hsnd
        cases hsnd
        refine ⟨⟨iff_of_true rfl hyes, fun _ => ⟨rfl, rfl⟩, fun h => absurd hyes h⟩, ?_⟩
        intro _ countryFilter usOnly
        exact ⟨fun h data' hdata' => by cases hdata'; exact h, fun h => h data rfl⟩
    · have hno : ¬ s.HttpAnswers p := fun ⟨data', hdata', hbel'⟩ => by
        rw [hreply] at hdata'
        cases hdata'
        exact hbel hbel'
      rw [if_neg hbel] at hsnd
      split
      · exact ⟨⟨iff_of_false Bool.false_ne_true hno, fun h => absurd h hno, fun _ => rfl⟩, fun h => absurd h hno⟩
      · next heq => simp [heq] at hsnd

/-! ### The path over SOCKS -/

/-- The code of the country that a proxy claims over SOCKS. -/
def claimedCode (data : Report) : Str :=
  if data.country.getD [] = [] then [] else codeOf (data.country.getD [])

/-- The proxy opens its tunnel, and what it claims over SOCKS is not contradicted. -/
def SocksAnswers (s : Lookups) (p : Probes) : Prop :=
  p.tunnelOk = true ∧ ∀ data, p.reply = some data →
    s.Believes (data.query.getD []) (claimedCode codeOf data) p.lookup

/-- The filters accept the country of the reply over SOCKS. -/
def SocksPasses (s : Lookups) (countryFilter : Str) (usOnly : Bool) (p : Probes) : Prop :=
  match p.reply with
  | none => Passes countryFilter usOnly "Unknown".toList []
  | some data =>
    let country := s.directCountry (data.query.getD []) p.lookup
    Passes countryFilter usOnly
      (orElse (orElse country (data.country.getD [])) "Unknown".toList)
      (if country = [] then claimedCode codeOf data
        else orElse (s.directCode (data.query.getD []) p.lookup) (claimedCode codeOf data))

theorem checkSocksProxy_shape (s : Lookups) (now : ℚ) (p : Probes) (listen : Option Geo) :
    (s.checkSocksProxy codeOf now p listen).2.Shape (s.SocksAnswers codeOf p)
        (p.tunnelOk = true ∧ p.reply ≠ none) ∧
      (s.SocksAnswers codeOf p → ∀ countryFilter usOnly,
        Passes countryFilter usOnly (s.checkSocksProxy codeOf now p listen).2.country
          (s.checkSocksProxy codeOf now p listen).2.countryCode ↔
        s.SocksPasses codeOf countryFilter usOnly p) := by
  unfold checkSocksProxy SocksPasses
  cases htunnel : p.tunnelOk with
  | false =>
    have hno : ¬ s.SocksAnswers codeOf p := fun h => by simp [SocksAnswers, htunnel] at h
    exact ⟨⟨iff_of_false Bool.false_ne_true hno, fun h => absurd h.1 Bool.false_ne_true, fun _ => rfl⟩, fun h => absurd h hno⟩
  | true =>
    rw [if_pos rfl]
    cases hreply : p.reply with
    | none =>
      have hyes : s.SocksAnswers codeOf p := ⟨htunnel, fun data hdata => by simp [hreply] at hdata⟩
      exact ⟨⟨iff_of_true rfl hyes, fun h => absurd rfl h.2, fun _ => rfl⟩, fun _ _ _ => Iff.rfl⟩
    | some data =>
      obtain ⟨flags, hsnd⟩ := s.authoritativeEgress_snd now (data.query.getD [])
        (claimedCode codeOf data) p.lookup
      have hegr : true = true ∧ some data ≠ none := ⟨rfl, Option.some_ne_none data⟩
      dsimp only
      change (s.authoritativeEgress now (data.query.getD []) _ p.lookup).2 = _ at hsnd
      by_cases hbel : s.Believes (data.query.getD []) (claimedCode codeOf data) p.lookup
      · have hyes : s.SocksAnswers codeOf p := ⟨htunnel, fun data' hdata' => by
          rw [hreply] at hdata'
          cases hdata'
          exact hbel⟩
        rw [if_pos hbel, claimedCode] at hsnd
        split
        · next heq => simp [heq] at hsnd
        · next heq =>
          rw [heq] at hsnd
          cases hsnd
          exact ⟨⟨iff_of_true rfl hyes, fun _ => ⟨rfl, rfl⟩, fun h => absurd hegr h⟩,
            fun _ _ _ => Iff.rfl⟩
      · have hno : ¬ s.SocksAnswers codeOf p := fun h => hbel (h.2 data hreply)
        rw [if_neg hbel, claimedCode] at hsnd
        split
        · exact ⟨⟨iff_of_false Bool.false_ne_true hno, fun _ => ⟨rfl, rfl⟩, fun h => absurd hegr h⟩,
            fun h => absurd h hno⟩
        · next heq => simp [heq] at hsnd

/-! ### The plain path and the one over TLS -/

/-- The lookups when the plain path begins: the address of the proxy itself has been looked up. -/
def listened (s : Lookups) (now : ℚ) (addr : Str) (p : Probes) : Lookups :=
  (s.resolveGeo now (hostOf addr) p.listenLookup).1

/-- The lookups after that of an address, if there is one. -/
def lookedUp (s : Lookups) (now : ℚ) (ip : Str) (l : Lookup) : Lookups :=
  if ip = [] then s else (s.resolveGeo now ip l).1

/-- The lookups when the path over TLS begins: a proxy that is reached and has answered on the plain
path has had the address looked up that its reply names. -/
def answered (s : Lookups) (now : ℚ) (addr : Str) (p : Probes) : Lookups :=
  if portOf addr = none ∨ p.connected = false then s
  else if protocolOf addr ≠ .http ∧ p.tunnelOk = false then s.listened now addr p
  else
    match p.reply with
    | none => s.listened now addr p
    | some data => (s.listened now addr p).lookedUp now (data.query.getD []) p.lookup

theorem authoritativeEgress_fst (s : Lookups) (now : ℚ) (ip cc : Str) (l : Lookup) :
    (s.authoritativeEgress now ip cc l).1 = s.lookedUp now ip l := by
  have hlookup : (if ip = [] then (s, none) else s.resolveGeo now ip l).1 = s.lookedUp now ip l := by
    unfold lookedUp
    split <;> rfl
  unfold authoritativeEgress
  dsimp only
  split
  · exact hlookup
  · split <;> exact hlookup

theorem checkHttpProxy_fst (s : Lookups) (now : ℚ) (p : Probes) (listen : Option Geo) :
    (s.checkHttpProxy now p listen).1 =
      match p.reply with
      | none => s
      | some data => s.lookedUp now (data.query.getD []) p.lookup := by
  unfold checkHttpProxy
  cases p.reply with
  | none => rfl
  | some data =>
    have hfst := s.authoritativeEgress_fst now (data.query.getD []) (data.countryCode.getD []) p.lookup
    dsimp only
    split <;> next heq => rw [heq] at hfst; exact hfst

theorem checkSocksProxy_fst (s : Lookups) (now : ℚ) (p : Probes) (listen : Option Geo) :
    (s.checkSocksProxy codeOf now p listen).1 =
      if p.tunnelOk = false then s
      else
        match p.reply with
        | none => s
        | some data => s.lookedUp now (data.query.getD []) p.lookup := by
  unfold checkSocksProxy
  cases p.tunnelOk with
  | false => rfl
  | true =>
    cases p.reply with
    | none => rfl
    | some data =>
      have hfst := s.authoritativeEgress_fst now (data.query.getD [])
        (if data.country.getD [] = [] then [] else codeOf (data.country.getD [])) p.lookup
      dsimp only
      rw [if_pos rfl, if_neg (show ¬ (true = false) from nofun)]
      split <;> next heq => rw [heq] at hfst; exact hfst

/-- What the plain path leaves in the cache depends on the lookups alone. -/
theorem checkProxy_fst (s : Lookups) (now : ℚ) (addr countryFilter : Str) (usOnly : Bool)
    (p : Probes) : (s.checkProxy codeOf now addr countryFilter usOnly p).1 = s.answered now addr p := by
  unfold checkProxy answered
  split
  · rfl
  · dsimp only
    by_cases hsocks : protocolOf addr ≠ .http
    · rw [if_pos hsocks, checkSocksProxy_fst]
      by_cases htunnel : p.tunnelOk = false
      · rw [if_pos htunnel, if_pos ⟨hsocks, htunnel⟩]
        rfl
      · rw [if_neg htunnel, if_neg (fun h => htunnel h.2)]
        rfl
    · rw [if_neg hsocks, checkHttpProxy_fst, if_neg (fun h => hsocks h.1)]
      rfl

/-- The plain path succeeds: the proxy is reached, it answers, the filters accept its country
and it connects to a target. -/
def Works (s : Lookups) (now : ℚ) (addr countryFilter : Str) (usOnly : Bool) (p : Probes) : Prop :=
  portOf addr ≠ none ∧ p.connected = true ∧ p.connectOk = true ∧
    let t := s.listened now addr p
    if protocolOf addr ≠ .http then
      t.SocksAnswers codeOf p ∧ t.SocksPasses codeOf countryFilter usOnly p
    else t.HttpAnswers p ∧ t.HttpPasses countryFilter usOnly p

/-- The plain path ends with an egress. -/
def Reports (s : Lookups) (now : ℚ) (addr : Str) (p : Probes) : Prop :=
  portOf addr ≠ none ∧ p.connected = true ∧
    if protocolOf addr ≠ .http then p.tunnelOk = true ∧ p.reply ≠ none
    else (s.listened now addr p).HttpAnswers p

/-- The path over TLS succeeds. -/
def TlsAnswers (s : Lookups) (addr : Str) (p : Probes) : Prop :=
  portOf addr ≠ none ∧ ∃ data, p.sslReply = some data ∧ (data.country ≠ none ∨ data.query ≠ none) ∧
    s.Believes (data.query.getD []) (data.countryCode.getD []) p.sslLookup

theorem not_passes_iff (countryFilter : Str) (usOnly : Bool) (country countryCode : Str) :
    ((countryFilter ≠ [] ∧ countryCode ≠ countryFilter) ∨
        (usOnly = true ∧ country ≠ "United States".toList)) ↔
      ¬ Passes countryFilter usOnly country countryCode := by
  unfold Passes
  tauto

/-- The path that a reached proxy is checked on. -/
def plainPath (s : Lookups) (now : ℚ) (addr : Str) (p : Probes) : PathResult :=
  let t := s.listened now addr p
  let listen := (s.resolveGeo now (hostOf addr) p.listenLookup).2
  if protocolOf addr ≠ .http then (t.checkSocksProxy codeOf now p listen).2
  else (t.checkHttpProxy now p listen).2

theorem checkProxy_snd (s : Lookups) (now : ℚ) (addr countryFilter : Str) (usOnly : Bool)
    (p : Probes) (hreached : ¬ (portOf addr = none ∨ p.connected = false)) :
    (s.checkProxy codeOf now addr countryFilter usOnly p).2 =
      finish (s.plainPath codeOf now addr p) countryFilter usOnly p.connectOk p.mitm := by
  rw [checkProxy, if_neg hreached, plainPath]
  dsimp only
  by_cases hsocks : protocolOf addr ≠ .http
  · simp only [if_pos hsocks]
    rfl
  · simp only [if_neg hsocks]
    rfl

theorem finish_shape {r : PathResult} {Ok Egr : Prop} (h : r.Shape Ok Egr) (countryFilter : Str)
    (usOnly connectOk mitm : Bool) :
    (finish r countryFilter usOnly connectOk mitm).Shape
        (connectOk = true ∧ Ok ∧ Passes countryFilter usOnly r.country r.countryCode) Egr ∧
      ((finish r countryFilter usOnly connectOk mitm).ok = true →
        (finish r countryFilter usOnly connectOk mitm).supportsConnect = true) := by
  unfold finish
  simp only [not_passes_iff]
  by_cases hpass : Passes countryFilter usOnly r.country r.countryCode
  · rw [if_neg (not_not.mpr hpass)]
    by_cases hok : r.ok = true ∧ connectOk = true
    · rw [if_pos hok]
      exact ⟨⟨iff_of_true hok.1 ⟨hok.2, h.ok_iff.mp hok.1, hpass⟩, h.flagged, h.empty⟩, fun _ => rfl⟩
    · rw [if_neg hok]
      exact ⟨⟨iff_of_false Bool.false_ne_true fun hall => hok ⟨h.ok_iff.mpr hall.2.1, hall.1⟩, h.flagged, h.empty⟩,
        nofun⟩
  · rw [if_pos hpass]
    exact ⟨⟨iff_of_false Bool.false_ne_true fun hall => hpass hall.2.2, h.flagged, h.empty⟩, nofun⟩

/-- **The plain path** succeeds when it works, and ends with an egress when the proxy reports one. -/
theorem checkProxy_shape (s : Lookups) (now : ℚ) (addr countryFilter : Str) (usOnly : Bool)
    (p : Probes) :
    (s.checkProxy codeOf now addr countryFilter usOnly p).2.Shape
        (s.Works codeOf now addr countryFilter usOnly p) (s.Reports now addr p) ∧
      ((s.checkProxy codeOf now addr countryFilter usOnly p).2.ok = true →
        (s.checkProxy codeOf now addr countryFilter usOnly p).2.supportsConnect = true) := by
  by_cases hreached : portOf addr = none ∨ p.connected = false
  · have hno : ¬ (portOf addr ≠ none ∧ p.connected = true) := by
      rw [← Bool.not_eq_true] at hreached
      tauto
    rw [checkProxy, if_pos hreached]
    exact ⟨⟨iff_of_false Bool.false_ne_true fun h => hno ⟨h.1, h.2.1⟩, fun h => absurd ⟨h.1, h.2.1⟩ hno,
      fun _ => rfl⟩, nofun⟩
  · have hyes : portOf addr ≠ none ∧ p.connected = true := by
      rw [← Bool.not_eq_true] at hreached
      tauto
    rw [checkProxy_snd codeOf s now addr countryFilter usOnly p hreached, plainPath, Works, Reports]
    dsimp only
    by_cases hsocks : protocolOf addr ≠ .http
    · have hpath := checkSocksProxy_shape codeOf (s.listened now addr p) now p
        (s.resolveGeo now (hostOf addr) p.listenLookup).2
      have hend := finish_shape hpath.1 countryFilter usOnly p.connectOk p.mitm
      simp only [if_pos hsocks]
      refine ⟨hend.1.congr ?_ ⟨fun h => ⟨hyes.1, hyes.2, h⟩, fun h => h.2.2⟩, hend.2⟩
      constructor
      · rintro ⟨hconnect, hanswers, hpasses⟩
        exact ⟨hyes.1, hyes.2, hconnect, hanswers, (hpath.2 hanswers _ _).mp hpasses⟩
      · rintro ⟨-, -, hconnect, hanswers, hpasses⟩
        exact ⟨hconnect, hanswers, (hpath.2 hanswers _ _).mpr hpasses⟩
    · have hpath := checkHttpProxy_shape (s.listened now addr p) now p
        (s.resolveGeo now (hostOf addr) p.listenLookup).2
      have hend := finish_shape hpath.1 countryFilter usOnly p.connectOk p.mitm
      simp only [if_neg hsocks]
      refine ⟨hend.1.congr ?_ ⟨fun h => ⟨hyes.1, hyes.2, h⟩, fun h => h.2.2⟩, hend.2⟩
      constructor
      · rintro ⟨hconnect, hanswers, hpasses⟩
        exact ⟨hyes.1, hyes.2, hconnect, hanswers, (hpath.2 hanswers _ _).mp hpasses⟩
      · rintro ⟨-, -, hconnect, hanswers, hpasses⟩
        exact ⟨hconnect, hanswers, (hpath.2 hanswers _ _).mpr hpasses⟩

/-- **The path over TLS** succeeds and ends with an egress when the proxy answers there. -/
theorem checkSsl_shape (s : Lookups) (now : ℚ) (addr : Str) (p : Probes) :
    (s.checkSsl now addr p).2.Shape (s.TlsAnswers addr p) (s.TlsAnswers addr p) ∧
      ((s.checkSsl now addr p).2.ok = true →
        (s.checkSsl now addr p).2.supportsConnect = p.sslConnect) := by
  have hfailed (hno : ¬ s.TlsAnswers addr p) :
      PathResult.Shape {} (s.TlsAnswers addr p) (s.TlsAnswers addr p) :=
    ⟨iff_of_false Bool.false_ne_true hno, fun h => absurd h hno, fun _ => rfl⟩
  unfold checkSsl
  split
  · next hport => exact ⟨hfailed fun h => h.1 hport, nofun⟩
  · next hport =>
    cases hreply : p.sslReply with
    | none =>
      exact ⟨hfailed fun ⟨_, data, hdata, _⟩ => by simp [hreply] at hdata, nofun⟩
    | some data =>
      have honly {data' : Report} (hdata' : p.sslReply = some data') : data' = data := by
        rw [hreply] at hdata'
        exact (Option.some.inj hdata').symm
      obtain ⟨flags, hsnd⟩ := s.authoritativeEgress_snd now (data.query.getD [])
        (data.countryCode.getD []) p.sslLookup
      dsimp only
      split
      · next hnothing =>
        refine ⟨hfailed fun ⟨_, data', hdata', hsome, _⟩ => ?_, nofun⟩
        rw [honly hdata'] at hsome
        simp only [Option.isNone_iff_eq_none] at hnothing
        tauto
      · next hsome =>
        simp only [Option.isNone_iff_eq_none, not_and_or] at hsome
        by_cases hbel : s.Believes (data.query.getD []) (data.countryCode.getD []) p.sslLookup
        · have hyes : s.TlsAnswers addr p := ⟨hport, data, hreply, hsome, hbel⟩
          rw [if_pos hbel] at hsnd
          split
          · next heq => simp [heq] at hsnd
          · next heq =>
            rw [heq] at hsnd
            cases hsnd
            exact ⟨⟨iff_of_true rfl hyes, fun _ => ⟨rfl, rfl⟩, fun h => absurd hyes h⟩, fun _ => rfl⟩
        · rw [if_neg hbel] at hsnd
          split
          · refine ⟨hfailed fun ⟨_, data', hdata', _, hbel'⟩ => ?_, nofun⟩
            rw [honly hdata'] at hbel'
            exact hbel hbel'
          · next heq => simp [heq] at hsnd

end Lookups

/-- A merge succeeds when one of the paths does, and ends with an egress when one of them
brings it. -/
theorem mergePaths_shape {http ssl : PathResult} {Ok Egr Tls : Prop} (hhttp : http.Shape Ok Egr)
    (hssl : ssl.Shape Tls Tls) : (mergePaths http ssl).Shape (Ok ∨ Tls) (Tls ∨ Egr) := by
  unfold mergePaths
  cases hokHttp : http.ok with
  | false =>
    have hok : ¬ Ok := fun h => by simp [hhttp.ok_iff.mpr h] at hokHttp
    cases hokSsl : ssl.ok with
    | false =>
      have htls : ¬ Tls := fun h => by simp [hssl.ok_iff.mpr h] at hokSsl
      exact hhttp.congr (by tauto) (by tauto)
    | true =>
      have htls : Tls := hssl.ok_iff.mp hokSsl
      exact ⟨iff_of_true rfl (.inr htls), fun _ => hssl.flagged htls, fun h => absurd (.inl htls) h⟩
  | true =>
    have hok : Ok := hhttp.ok_iff.mp hokHttp
    cases hokSsl : ssl.ok with
    | false =>
      have htls : ¬ Tls := fun h => by simp [hssl.ok_iff.mpr h] at hokSsl
      exact hhttp.congr (by tauto) (by tauto)
    | true =>
      have htls : Tls := hssl.ok_iff.mp hokSsl
      refine ⟨iff_of_true rfl (.inl hok), fun _ => ?_, fun h => absurd (.inl htls) h⟩
      change Egress.Flagged (if http.egress = {} then ssl.egress else http.egress)
      by_cases hegr : Egr
      · split
        · exact hssl.flagged htls
        · exact hhttp.flagged hegr
      · rw [if_pos (hhttp.empty hegr)]
        exact hssl.flagged htls

/-- A merge that succeeds connects when the plain path succeeds or the one over TLS connects. -/
theorem mergePaths_supportsConnect {http ssl : PathResult} {sslConnect : Bool}
    (hconnect : http.ok = true → http.supportsConnect = true)
    (hsslConnect : ssl.ok = true → ssl.supportsConnect = sslConnect)
    (hok : (mergePaths http ssl).ok = true) :
    (mergePaths http ssl).supportsConnect = true ↔
      http.ok = true ∨ (ssl.ok = true ∧ sslConnect = true) := by
  revert hok
  unfold mergePaths
  cases hokHttp : http.ok with
  | false =>
    cases hokSsl : ssl.ok with
    | false =>
      intro hok
      exact absurd hok (by simp [hokHttp])
    | true =>
      intro _
      simp [hsslConnect hokSsl]
  | true =>
    cases hokSsl : ssl.ok with
    | false => simp [hconnect hokHttp]
    | true => simp [hconnect hokHttp]

/-- **The merged result**: a proxy that only answers over TLS must connect there, unless it is
one for SOCKS. -/
theorem mergeCheckResults_shape {addr : Str} {http ssl : PathResult} {Ok Egr Tls : Prop}
    {sslConnect : Bool} (hhttp : http.Shape Ok Egr)
    (hconnect : http.ok = true → http.supportsConnect = true) (hssl : ssl.Shape Tls Tls)
    (hsslConnect : ssl.ok = true → ssl.supportsConnect = sslConnect) :
    (mergeCheckResults addr http ssl).Shape
      (Ok ∨ (Tls ∧ (protocolOf addr ≠ .http ∨ sslConnect = true))) (Tls ∨ Egr) := by
  have hmerged := mergePaths_shape hhttp hssl
  have hsupports := mergePaths_supportsConnect hconnect hsslConnect
  rw [hhttp.ok_iff, hssl.ok_iff] at hsupports
  have hok := hmerged.ok_iff
  unfold mergeCheckResults
  dsimp only
  split
  · next hno =>
    refine ⟨iff_of_false Bool.false_ne_true ?_, hmerged.flagged, hmerged.empty⟩
    have hnot : ¬ (Ok ∨ (Tls ∧ sslConnect = true)) := fun h =>
      Bool.false_ne_true (hno.2.2.symm.trans ((hsupports hno.1).mpr h))
    rintro (hOk | ⟨hTls, hsocks | hends⟩)
    · exact hnot (.inl hOk)
    · exact hsocks hno.2.1
    · exact hnot (.inr ⟨hTls, hends⟩)
  · next hyes =>
    refine hmerged.congr ⟨?_, ?_⟩ Iff.rfl
    · rintro (hOk | hTls)
      · exact .inl hOk
      · by_cases hsocks : protocolOf addr = .http
        · have hmok : (mergePaths http ssl).ok = true := hok.mpr (.inr hTls)
          have hends : (mergePaths http ssl).supportsConnect = true :=
            Bool.eq_true_of_not_eq_false fun hfalse => hyes ⟨hmok, hsocks, hfalse⟩
          exact ((hsupports hmok).mp hends).imp_right fun h => ⟨h.1, .inr h.2⟩
        · exact .inr ⟨hTls, .inl hsocks⟩
    · exact fun h => h.imp_right And.left

end HuntProxy
