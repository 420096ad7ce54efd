import HuntProxy.Blacklist.Sources
import HuntProxy.Rating.Apply

/-!
# The hits in the ratings

Every rating keeps the number and the identifiers of the sources that list the address at
which its traffic leaves. They are brought up to date when the proxy is checked and, after
a download of country blocklists, in all ratings; the other operations on the lists change
the index only. An update is skipped when neither the text made from the names of the
sources nor their number has changed.

## Main definitions

- `Coherent` — the hits of a rating are those of the index
- `HitState`, `HitOp` — the lists with the ratings
- `HitOp.Keeps` — what an operation must meet

## Main results

- `coherent_applyIpBlacklist_iff` — when an update makes a rating coherent
- `hits_coherent` — the runs in which all ratings are coherent
- `toggled_source_still_counts` — a source that has been disabled
-/

namespace HuntProxy

open Ip (Str)

/-- Two lists of metas are of the same sources. -/
def SameSources (sources : List Str) (ms : List Meta) : Prop := ∀ s, s ∈ sources ↔ s ∈ sourcesOf ms

/-- The rating counts the sources that list its address, if the address is known. -/
def Coherent (ix : IpIndex) (r : ProxyRating) : Prop :=
  r.egressIp ≠ [] →
    r.ipBlacklistHits = (ix.isIpBlacklisted r.egressIp).2.length ∧
      SameSources r.ipBlacklistSources (ix.isIpBlacklisted r.egressIp).2

/-- An update of the rating is skipped although its sources are others. -/
def Skipped (ix : IpIndex) (r : ProxyRating) : Prop :=
  r.ipBlacklistReason = ProxyRating.blacklistReasonOf (ix.isIpBlacklisted r.egressIp).2 ∧
    r.ipBlacklistHits = (ix.isIpBlacklisted r.egressIp).2.length ∧
    ¬ SameSources r.ipBlacklistSources (ix.isIpBlacklisted r.egressIp).2

theorem isIpBlacklisted_fst (ix : IpIndex) (ip : Str) :
    (ix.isIpBlacklisted ip).1 = true ↔ (ix.isIpBlacklisted ip).2 ≠ [] := by
  unfold IpIndex.isIpBlacklisted
  split
  · simp
  · simp

/-- An update is skipped just when the text and the number are the same as before; else
it sets them to those of the lookup. -/
theorem applyIpBlacklist_cases (ix : IpIndex) (r : ProxyRating) (hip : r.egressIp ≠ []) :
    (r.ipBlacklistReason = ProxyRating.blacklistReasonOf (ix.isIpBlacklisted r.egressIp).2 ∧
        r.ipBlacklistHits = (ix.isIpBlacklisted r.egressIp).2.length ∧
        r.applyIpBlacklist ix r.egressIp = r) ∨
      (r.ipBlacklistReason = ProxyRating.blacklistReasonOf (ix.isIpBlacklisted r.egressIp).2 →
          r.ipBlacklistHits ≠ (ix.isIpBlacklisted r.egressIp).2.length) ∧
        (r.applyIpBlacklist ix r.egressIp).egressIp = r.egressIp ∧
        (r.applyIpBlacklist ix r.egressIp).ipBlacklistHits =
          (ix.isIpBlacklisted r.egressIp).2.length ∧
        (r.applyIpBlacklist ix r.egressIp).ipBlacklistSources =
          sourcesOf (ix.isIpBlacklisted r.egressIp).2 := by
  have hfst := isIpBlacklisted_fst ix r.egressIp
  unfold ProxyRating.applyIpBlacklist
  rw [if_neg hip]
  dsimp only
  by_cases hnone : (ix.isIpBlacklisted r.egressIp).2 = []
  · have hreason : ProxyRating.blacklistReasonOf [] = [] := rfl
    rw [if_neg (fun h => hfst.mp h hnone), hnone, hreason]
    split
    · next hchanged => exact .inr ⟨by simpa [or_iff_not_imp_left] using hchanged, rfl, rfl, rfl⟩
    · next hsame => exact .inl (by simpa using hsame)
  · rw [if_pos (hfst.mpr hnone)]
    split
    · next hchanged => exact .inr ⟨by simpa [or_iff_not_imp_left] using hchanged, rfl, rfl, rfl⟩
    · next hsame => exact .inl (by simpa using hsame)

/-- **An update makes a rating coherent, unless it is skipped** although the sources are
others. -/
theorem coherent_applyIpBlacklist_iff (ix : IpIndex) (r : ProxyRating) :
    Coherent ix (r.applyIpBlacklist ix r.egressIp) ↔ (r.egressIp ≠ [] → ¬ Skipped ix r) := by
  by_cases hip : r.egressIp = []
  · have hsame : r.applyIpBlacklist ix r.egressIp = r := by
      rw [ProxyRating.applyIpBlacklist, if_pos hip]
    rw [hsame]
    exact iff_of_true (fun hne => absurd hip hne) (fun hne => absurd hip hne)
  · rcases applyIpBlacklist_cases ix r hip with ⟨hreason, hhits, hsame⟩ | ⟨hchanged, hegress, hhits, hsources⟩
    · rw [hsame]
      constructor
      · exact fun h _ hskip => hskip.2.2 (h hip).2
      · intro h _
        refine ⟨hhits, ?_⟩
        by_contra hother
        exact h hip ⟨hreason, hhits, hother⟩
    · refine iff_of_true (fun _ => ?_) (fun _ hskip => hchanged hskip.1 hskip.2.1)
      rw [hegress, hsources]
      exact ⟨hhits, fun s => Iff.rfl⟩

/-! ### Operations -/

/-- The lists and the ratings. -/
structure HitState where
  lists : ListState
  ratings : Dict Str ProxyRating

/-- The operation restores a backup. -/
def ListOp.restores : ListOp → Bool
  | .restoreBackup _ => true
  | _ => false

/-- The operations on the lists, and the end of a check. -/
inductive HitOp
  | lists (op : ListOp) (h : op.restores = false)
  | checkResult (addr : Str) (c : CheckResult) (sourceIds : List Str) (now : ℚ)

namespace HitState

/-- `_refresh_ip_blacklist_hits`. -/
def refreshIpBlacklistHits (s : HitState) : HitState :=
  { s with
    ratings := s.ratings.mapValues fun r =>
      if r.egressIp = [] then r else r.applyIpBlacklist s.lists.store.index r.egressIp }

/-- The operation ends with a refresh of the hits. -/
def refreshes (s : ListState) : ListOp → Bool
  | .downloadBlocklists _ => s.blocklists.any (fun b => b.enabled && b.listType = "ip".toList)
  | _ => false

variable (lower upper codeOf : Str → Str)

/-- One completed operation. -/
def apply (s : HitState) : HitOp → HitState
  | .lists op _ =>
    let s' : HitState := { s with lists := s.lists.apply lower upper op }
    if refreshes s.lists op then s'.refreshIpBlacklistHits else s'
  | .checkResult addr c sourceIds now =>
    { s with
      ratings := updateRating codeOf s.lists.store.index sourceIds s.ratings addr c now }

/-- The machine of the operations. -/
def machine : Machine HitState HitOp := ⟨fun s op => some (s.apply lower upper codeOf op)⟩

/-- All ratings are coherent. -/
def AllCoherent (s : HitState) : Prop :=
  ∀ addr r, s.ratings.get? addr = some r → Coherent s.lists.store.index r

end HitState

open HitState

/-- What an operation must meet so that all ratings are coherent after it: without a
refresh the sources of every known address stay the same, and no update is skipped while
they change. -/
def HitOp.Keeps (lower upper codeOf : Str → Str) (s : HitState) : HitOp → Prop
  | .lists op _ =>
    ∀ addr r, s.ratings.get? addr = some r → r.egressIp ≠ [] →
      if refreshes s.lists op then ¬ Skipped (s.lists.apply lower upper op).store.index r
      else
        (s.lists.store.index.isIpBlacklisted r.egressIp).2.length =
            ((s.lists.apply lower upper op).store.index.isIpBlacklisted r.egressIp).2.length ∧
          SameSources (sourcesOf (s.lists.store.index.isIpBlacklisted r.egressIp).2)
            ((s.lists.apply lower upper op).store.index.isIpBlacklisted r.egressIp).2
  | .checkResult addr c sourceIds now =>
    let r := (s.ratings.get? addr).getD (.create codeOf addr c.country c.countryCode sourceIds now)
    let r := r.applyResult codeOf c now
    r.egressIp ≠ [] → ¬ Skipped s.lists.store.index r

/-- A coherent rating stays coherent just when its address is listed by the same sources. -/
theorem coherent_iff_of_coherent {ix ix' : IpIndex} {r : ProxyRating} (h : Coherent ix r) :
    Coherent ix' r ↔ (r.egressIp ≠ [] →
      (ix.isIpBlacklisted r.egressIp).2.length = (ix'.isIpBlacklisted r.egressIp).2.length ∧
        SameSources (sourcesOf (ix.isIpBlacklisted r.egressIp).2) (ix'.isIpBlacklisted r.egressIp).2) := by
  constructor
  · intro h' hip
    obtain ⟨hhits, hsources⟩ := h hip
    obtain ⟨hhits', hsources'⟩ := h' hip
    exact ⟨hhits.symm.trans hhits', fun s => (hsources s).symm.trans (hsources' s)⟩
  · intro hsame hip
    obtain ⟨hhits, hsources⟩ := h hip
    obtain ⟨hlength, hids⟩ := hsame hip
    exact ⟨hhits.trans hlength, fun s => (hsources s).trans (hids s)⟩

/-- **When one operation keeps all ratings coherent.** -/
theorem allCoherent_apply_iff (lower upper codeOf : Str → Str) {s : HitState} (h : s.AllCoherent)
    (op : HitOp) :
    (s.apply lower upper codeOf op).AllCoherent ↔ op.Keeps lower upper codeOf s := by
  cases op with
  | lists op hop =>
    simp only [HitState.apply, HitOp.Keeps]
    cases refreshes s.lists op with
    | false =>
      simp only [Bool.false_eq_true, if_false]
      exact forall_congr' fun addr => forall_congr' fun r => forall_congr' fun hr =>
        coherent_iff_of_coherent (h addr r hr)
    | true =>
      simp only [if_true]
      constructor
      · intro hcoherent addr r hr hip
        refine (coherent_applyIpBlacklist_iff _ r).mp (hcoherent addr _ ?_) hip
        simp [refreshIpBlacklistHits, hr, hip]
      · intro hkeeps addr r' hr'
        obtain ⟨r, hr, rfl⟩ := Option.map_eq_some_iff.mp ((Dict.get?_mapValues _ _ _).symm.trans hr')
        by_cases hip : r.egressIp = []
        · rw [if_pos hip]
          exact fun hne => absurd hip hne
        · rw [if_neg hip]
          exact (coherent_applyIpBlacklist_iff _ r).mpr fun _ => hkeeps addr r hr hip
  | checkResult addr c sourceIds now =>
    simp only [HitState.apply, HitOp.Keeps]
    rw [← coherent_applyIpBlacklist_iff]
    constructor
    · intro hcoherent
      exact hcoherent addr _ (by simp [updateRating])
    · intro hupdated addr' r' hr'
      rw [updateRating, Dict.get?_insert] at hr'
      split at hr'
      · cases hr'
        exact hupdated
      · exact h addr' r' hr'

/-! ### Every run -/

/-- **The hits are coherent with the index** after every operation of a run whose operations
all keep them, and a run after each of whose operations they are is one of these. -/
theorem hits_coherent (lower upper codeOf : Str → Str) {s₀ : HitState} (h₀ : s₀.AllCoherent)
    (s : HitState) :
    ((HitState.machine lower upper codeOf).Reaches
        (fun s op _ => op.Keeps lower upper codeOf s) s₀ s → s.AllCoherent) ∧
      ((HitState.machine lower upper codeOf).Reaches (fun _ _ s' => s'.AllCoherent) s₀ s →
        (HitState.machine lower upper codeOf).Reaches
          (fun s op _ => op.Keeps lower upper codeOf s) s₀ s) := by
  constructor
  · intro h
    refine h.invariant (I := HitState.AllCoherent) h₀ fun s op s' hcoherent hstep hkeeps => ?_
    cases hstep
    exact (allCoherent_apply_iff lower upper codeOf hcoherent op).mpr hkeeps
  · intro h
    refine (Machine.Reaches.of_exact (I := HitState.AllCoherent) h h₀
      fun s op s' hcoherent hstep hcoherent' => ?_).1
    cases hstep
    exact ⟨(allCoherent_apply_iff lower upper codeOf hcoherent op).mp hcoherent', hcoherent'⟩

/-- The sample source with its row, and no ratings yet. -/
def noRatings : HitState := ⟨.start [sampleRow] [sampleSource] [], .empty⟩

theorem allCoherent_noRatings : noRatings.AllCoherent := fun _ _ h => nomatch h

/-- A check finds that a proxy leaves at the listed address. -/
def sampleCheck : HitOp :=
  .checkResult ['p', ':', '1'] { ok := true, country := [], latency := 1, egress := { ip := some sampleRow.entry } }
    [] 100

theorem hits_coherent_sampleCheck : (noRatings.apply id id id sampleCheck).AllCoherent := by
  refine (hits_coherent id id id allCoherent_noRatings _).1 (Machine.Reaches.single (a := sampleCheck) rfl ?_)
  exact fun _ hskip => absurd hskip.2.1 (by decide)

/-- **A source that has been disabled still counts** in the ratings. -/
theorem toggled_source_still_counts :
    ∃ s, (HitState.machine id id id).Reaches Machine.anyStep noRatings s ∧
      noRatings.AllCoherent ∧ ¬ s.AllCoherent := by
  refine ⟨(noRatings.apply id id id sampleCheck).apply id id id
    (.lists (.toggleIpBlacklistSource ['s']) rfl), ?_, allCoherent_noRatings, fun h => ?_⟩
  · exact ((Machine.Reaches.refl _).tail (a := sampleCheck) rfl trivial).tail
      (a := .lists (.toggleIpBlacklistSource ['s']) rfl) rfl trivial
  · have hrating := h ['p', ':', '1'] _ rfl (by decide)
    exact absurd hrating.1 (by decide)

end HuntProxy
