import HuntProxy.Lib.IpText
import Mathlib.Data.List.Perm.Basic

/-!
# The MITM verdict

`_check_mitm_via` opens tunnels through a proxy to some well-known hosts and verifies their
certificates. A trusted one acquits the proxy. The proxy is suspected when at least two hosts
were reached and all that were reached showed an untrusted certificate, unless the channel
in front of the proxy is known to intercept TLS. That is found out once, over the same
hosts, and there the first host with a verdict decides.

## Main definitions

- `TargetOutcome`, `TlsWire` — what a check meets at each host
- `checkMitmVia`, `channelTlsBaselineTrusted` — the verdict and the baseline of the channel
- `Suspicious` — the targets alone make the proxy suspect
- `MitmLaws` — what a verdict should satisfy
- `OrderMatters` — a suspicion that hangs on the first host the channel is asked about

## Main results

- `mitm_laws_iff` — when a verdict satisfies the laws
-/

namespace HuntProxy

open Ip (Str)

/-- What comes of a target: no connection to the proxy, no tunnel, or a tunnel over which a
certificate is trusted, is untrusted, or is not seen. The first target is asked for over the
connection that is handed in; where that is dead, its tunnel fails. -/
inductive TargetOutcome
  | reconnectFailed
  | refused
  | clean
  | mitm
  | inconclusive
  deriving DecidableEq

/-- A tunnel to the target came about. -/
def TargetOutcome.reached : TargetOutcome → Bool
  | .reconnectFailed => false
  | .refused => false
  | .clean => true
  | .mitm => true
  | .inconclusive => true

/-- What comes of a handshake over the channel without the proxy. -/
inductive ChannelOutcome
  | clean
  | mitm
  | inconclusive
  deriving DecidableEq

/-- What a check meets at each host, through the proxy and over the channel alone. -/
structure TlsWire where
  target : Str → TargetOutcome
  channel : Str → ChannelOutcome

/-- What is known about the channel, and what has been said about it. -/
structure MitmState where
  channelIsSet : Bool
  channelTlsTrusted : Option Bool
  events : List (Str × Str)

/-- `MITM_TEST_HOSTS`. -/
def mitmTestHosts : List Str := ["www.google.com".toList, "www.wikipedia.org".toList, "ya.ru".toList]

/-- `_mitm_hosts`. -/
def mitmHosts (setting : List Str) : List Str :=
  (if setting = [] then mitmTestHosts else setting).filter (· ≠ [])

/-- The loop of `_channel_tls_baseline_trusted`: the first host with a verdict decides. -/
def channelBaseline (channel : Str → ChannelOutcome) : List Str → Bool
  | [] => true
  | host :: hosts =>
    match channel host with
    | .clean => true
    | .mitm => false
    | .inconclusive => channelBaseline channel hosts

/-- `_channel_tls_baseline_trusted`. -/
def channelTlsBaselineTrusted (st : MitmState) (hosts : List Str) (w : TlsWire) : MitmState × Bool :=
  match st.channelTlsTrusted with
  | some cached => (st, cached)
  | none =>
    if st.channelIsSet then
      let trusted := channelBaseline w.channel hosts
      ({ st with
          channelTlsTrusted := some trusted
          events :=
            if trusted then st.events
            else st.events ++
              [("Channel proxy intercepts TLS — per-proxy MITM checks suppressed".toList, "warn".toList)] },
        trusted)
    else ({ st with channelTlsTrusted := some true }, true)

/-- The loop over the targets, with the numbers of those that were reached and of those that
were bad. A trusted target ends it. -/
def probeTargets (target : Str → TargetOutcome) : List Str → ℕ → ℕ → Option (ℕ × ℕ)
  | [], reached, bad => some (reached, bad)
  | host :: hosts, reached, bad =>
    match target host with
    | .reconnectFailed => probeTargets target hosts reached bad
    | .refused => probeTargets target hosts reached bad
    | .clean => none
    | .mitm => probeTargets target hosts (reached + 1) (bad + 1)
    | .inconclusive => probeTargets target hosts (reached + 1) bad

/-- `_check_mitm_via` with a fresh connection for each of the hosts: whether the proxy
connects, and whether it is suspected. -/
def checkMitmVia (st : MitmState) (hosts : List Str) (w : TlsWire) : MitmState × Bool × Bool :=
  match probeTargets w.target hosts 0 0 with
  | none => (st, true, false)
  | some (reached, bad) =>
    if 2 ≤ reached ∧ bad = reached then
      let d := channelTlsBaselineTrusted st hosts w
      (d.1, true, d.2)
    else (st, decide (0 < reached), false)

/-! ### The targets -/

/-- How many targets were reached. -/
def reachedCount (w : TlsWire) (hosts : List Str) : ℕ := hosts.countP (fun host => (w.target host).reached)

/-- At least two targets were reached, and each of them showed an untrusted certificate. -/
def Suspicious (w : TlsWire) (hosts : List Str) : Prop :=
  2 ≤ reachedCount w hosts ∧ ∀ host ∈ hosts, (w.target host).reached = true → w.target host = .mitm

/-- Without a trusted target the loop counts all targets. -/
theorem probeTargets_of_unclean {target : Str → TargetOutcome} {hosts : List Str}
    (h : ∀ host ∈ hosts, target host ≠ .clean) (reached bad : ℕ) :
    probeTargets target hosts reached bad =
      some (reached + hosts.countP (fun host => (target host).reached),
        bad + hosts.countP (fun host => target host = .mitm)) := by
  induction hosts generalizing reached bad with
  | nil => rfl
  | cons host hosts ih =>
    have hrest := ih (fun host' hhost' => h host' (List.mem_cons_of_mem _ hhost'))
    rw [probeTargets, List.countP_cons, List.countP_cons]
    cases houtcome : target host with
    | reconnectFailed => simpa [houtcome, TargetOutcome.reached] using hrest reached bad
    | refused => simpa [houtcome, TargetOutcome.reached] using hrest reached bad
    | clean => exact absurd houtcome (h host List.mem_cons_self)
    | mitm =>
      dsimp only
      rw [hrest]
      simp [TargetOutcome.reached]
      omega
    | inconclusive =>
      dsimp only
      rw [hrest]
      simp [TargetOutcome.reached]
      omega

/-- A trusted target ends the loop, wherever it stands. -/
theorem probeTargets_of_clean {target : Str → TargetOutcome} {hosts : List Str} {host : Str}
    (hmem : host ∈ hosts) (hclean : target host = .clean) (reached bad : ℕ) :
    probeTargets target hosts reached bad = none := by
  induction hosts generalizing reached bad with
  | nil => cases hmem
  | cons first hosts ih =>
    rw [probeTargets]
    cases houtcome : target first with
    | clean => rfl
    | _ =>
      have hrest : host ∈ hosts := by
        rcases List.mem_cons.mp hmem with rfl | hrest
        · rw [hclean] at houtcome
          cases houtcome
        · exact hrest
      exact ih hrest _ _

/-- A predicate that implies another one counts as many elements just when it holds where the
other one does. -/
theorem countP_eq_iff_of_imp {α : Type} {p q : α → Bool} (himp : ∀ a, p a = true → q a = true)
    (l : List α) : l.countP p = l.countP q ↔ ∀ a ∈ l, q a = true → p a = true := by
  induction l with
  | nil => simp
  | cons a l ih =>
    have hle : l.countP p ≤ l.countP q := List.countP_mono_left fun a _ => himp a
    rw [List.countP_cons, List.countP_cons, List.forall_mem_cons, ← ih]
    cases hp : p a with
    | true => simp [himp a hp]
    | false =>
      cases hq : q a with
      | true =>
        simp only [if_true, Bool.false_eq_true, if_false, Nat.add_zero]
        constructor
        · intro heq
          omega
        · rintro ⟨hno, -⟩
          exact absurd (hno trivial) id
      | false => simp

/-- All that were reached are bad just when as many are bad as were reached. -/
theorem countP_mitm_eq_iff (w : TlsWire) (hosts : List Str) :
    hosts.countP (fun host => w.target host = .mitm) = reachedCount w hosts ↔
      ∀ host ∈ hosts, (w.target host).reached = true → w.target host = .mitm := by
  have himp : ∀ host, decide (w.target host = .mitm) = true → (w.target host).reached = true := by
    intro host hmitm
    rw [of_decide_eq_true hmitm]
    rfl
  have hiff := countP_eq_iff_of_imp himp hosts
  simpa [reachedCount] using hiff

instance (w : TlsWire) (hosts : List Str) : Decidable (Suspicious w hosts) :=
  inferInstanceAs (Decidable (_ ∧ _))

/-- **What a check comes to.** Only a suspicion asks for the baseline of the channel. -/
theorem checkMitmVia_snd (st : MitmState) (hosts : List Str) (w : TlsWire) :
    (checkMitmVia st hosts w).2 =
      if Suspicious w hosts then (true, (channelTlsBaselineTrusted st hosts w).2)
      else (decide (0 < reachedCount w hosts), false) := by
  unfold checkMitmVia
  by_cases hclean : ∃ host ∈ hosts, w.target host = .clean
  · obtain ⟨host, hmem, hclean⟩ := hclean
    have hreached : (w.target host).reached = true := by rw [hclean]; rfl
    have hno : ¬ Suspicious w hosts := by
      rintro ⟨-, hall⟩
      have hmitm := hall host hmem hreached
      rw [hclean] at hmitm
      cases hmitm
    have hpos : 0 < reachedCount w hosts := List.countP_pos_iff.mpr ⟨host, hmem, hreached⟩
    rw [probeTargets_of_clean hmem hclean, if_neg hno, decide_eq_true hpos]
  · have hunclean : ∀ host ∈ hosts, w.target host ≠ .clean := by
      intro host hmem hhost
      exact hclean ⟨host, hmem, hhost⟩
    rw [probeTargets_of_unclean hunclean, Nat.zero_add, Nat.zero_add]
    dsimp only
    have hsame : (2 ≤ hosts.countP (fun host => (w.target host).reached) ∧
        hosts.countP (fun host => w.target host = .mitm) =
          hosts.countP (fun host => (w.target host).reached)) ↔ Suspicious w hosts :=
      and_congr_right fun _ => countP_mitm_eq_iff w hosts
    by_cases hsuspicious : Suspicious w hosts
    · rw [if_pos (hsame.mpr hsuspicious), if_pos hsuspicious]
    · rw [if_neg fun h => hsuspicious (hsame.mp h), if_neg hsuspicious]
      rfl

theorem checkMitmVia_fst_of_suspicious {st : MitmState} {hosts : List Str} {w : TlsWire}
    (h : Suspicious w hosts) :
    (checkMitmVia st hosts w).1 = (channelTlsBaselineTrusted st hosts w).1 := by
  have hunclean : ∀ host ∈ hosts, w.target host ≠ .clean := by
    intro host hmem hhost
    have hmitm := h.2 host hmem (by rw [hhost]; rfl)
    rw [hhost] at hmitm
    cases hmitm
  unfold checkMitmVia
  rw [probeTargets_of_unclean hunclean, Nat.zero_add, Nat.zero_add]
  dsimp only
  rw [if_pos ⟨h.1, (countP_mitm_eq_iff w hosts).mpr h.2⟩]

/-! ### The baseline -/

/-- What the baseline is found to be is kept. -/
theorem baseline_kept (st : MitmState) (hosts : List Str) (w : TlsWire) :
    (channelTlsBaselineTrusted st hosts w).1.channelTlsTrusted =
      some (channelTlsBaselineTrusted st hosts w).2 := by
  unfold channelTlsBaselineTrusted
  cases hcached : st.channelTlsTrusted with
  | some cached => exact hcached
  | none =>
    dsimp only
    split <;> rfl

/-- Without a host that the channel intercepts, the baseline is trusted. -/
theorem channelBaseline_of_no_mitm {channel : Str → ChannelOutcome} {hosts : List Str}
    (h : ∀ host ∈ hosts, channel host ≠ .mitm) : channelBaseline channel hosts = true := by
  induction hosts with
  | nil => rfl
  | cons host hosts ih =>
    rw [channelBaseline]
    cases houtcome : channel host with
    | clean => rfl
    | mitm => exact absurd houtcome (h host List.mem_cons_self)
    | inconclusive => exact ih fun host' hhost' => h host' (List.mem_cons_of_mem _ hhost')

/-- With such a host, and none that shows a trusted certificate, it is not. -/
theorem channelBaseline_of_no_clean {channel : Str → ChannelOutcome} {hosts : List Str}
    (h : ∀ host ∈ hosts, channel host ≠ .clean) {bad : Str} (hmem : bad ∈ hosts)
    (hbad : channel bad = .mitm) : channelBaseline channel hosts = false := by
  induction hosts with
  | nil => cases hmem
  | cons host hosts ih =>
    rw [channelBaseline]
    cases houtcome : channel host with
    | clean => exact absurd houtcome (h host List.mem_cons_self)
    | mitm => rfl
    | inconclusive =>
      have hrest : bad ∈ hosts := by
        rcases List.mem_cons.mp hmem with rfl | hrest
        · rw [hbad] at houtcome
          cases houtcome
        · exact hrest
      exact ih (fun host' hhost' => h host' (List.mem_cons_of_mem _ hhost')) hrest

/-- The channel shows a trusted certificate for one of the hosts and an untrusted one for
another. -/
def MixedChannel (w : TlsWire) (hosts : List Str) : Prop :=
  (∃ host ∈ hosts, w.channel host = .clean) ∧ ∃ host ∈ hosts, w.channel host = .mitm

/-- **The order decides about the baseline just when the channel is mixed.** -/
theorem baseline_perm_iff (w : TlsWire) (hosts : List Str) :
    (∀ hosts', hosts'.Perm hosts →
      channelBaseline w.channel hosts' = channelBaseline w.channel hosts) ↔
    ¬ MixedChannel w hosts := by
  constructor
  · -- each of the two hosts may stand in front
    rintro h ⟨⟨good, hgood, hclean⟩, bad, hbad, hmitm⟩
    have hfirst := h (good :: hosts.erase good) (List.perm_cons_erase hgood).symm
    have hsecond := h (bad :: hosts.erase bad) (List.perm_cons_erase hbad).symm
    rw [channelBaseline, hclean] at hfirst
    rw [channelBaseline, hmitm] at hsecond
    have heq : true = false := hfirst.trans hsecond.symm
    cases heq
  · intro h hosts' hperm
    by_cases hmitm : ∃ bad ∈ hosts, w.channel bad = .mitm
    · obtain ⟨bad, hbad, hmitm⟩ := hmitm
      have hclean : ∀ host ∈ hosts, w.channel host ≠ .clean := by
        intro host hhost hclean
        exact h ⟨⟨host, hhost, hclean⟩, bad, hbad, hmitm⟩
      rw [channelBaseline_of_no_clean hclean hbad hmitm,
        channelBaseline_of_no_clean (fun host hhost => hclean host (hperm.mem_iff.mp hhost))
          (hperm.mem_iff.mpr hbad) hmitm]
    · have hclear : ∀ host ∈ hosts, w.channel host ≠ .mitm := by
        intro host hhost hbad
        exact hmitm ⟨host, hhost, hbad⟩
      rw [channelBaseline_of_no_mitm hclear,
        channelBaseline_of_no_mitm fun host hhost => hclear host (hperm.mem_iff.mp hhost)]

/-! ### The laws of the verdict -/

/-- What a verdict should satisfy. -/
structure MitmLaws (st : MitmState) (hosts : List Str) (w : TlsWire) : Prop where
  suspect : (checkMitmVia st hosts w).2.2 = true → 2 ≤ reachedCount w hosts ∧
    (∀ host ∈ hosts, (w.target host).reached = true → w.target host = .mitm) ∧
    (checkMitmVia st hosts w).1.channelTlsTrusted ≠ some false
  acquitted : (∃ host ∈ hosts, w.target host = .clean) → (checkMitmVia st hosts w).2 = (true, false)
  connects : (checkMitmVia st hosts w).2.1 = true ↔ ∃ host ∈ hosts, (w.target host).reached = true
  order : ∀ hosts', hosts'.Perm hosts → (checkMitmVia st hosts' w).2 = (checkMitmVia st hosts w).2

/-- The targets make the proxy suspect, and the baseline of the channel, which is not known
yet, hangs on the first host that is asked for. -/
structure OrderMatters (st : MitmState) (hosts : List Str) (w : TlsWire) : Prop where
  unknown : st.channelTlsTrusted = none
  channel : st.channelIsSet = true
  suspicious : Suspicious w hosts
  mixed : MixedChannel w hosts

/-- What the targets say does not depend on their order. -/
theorem suspicious_perm {w : TlsWire} {hosts hosts' : List Str} (h : hosts'.Perm hosts) :
    Suspicious w hosts' ↔ Suspicious w hosts := by
  unfold Suspicious reachedCount
  rw [h.countP_eq]
  exact and_congr_right fun _ => ⟨fun hall host hhost => hall host (h.mem_iff.mpr hhost),
    fun hall host hhost => hall host (h.mem_iff.mp hhost)⟩

/-- The baseline with which a check goes on. -/
theorem baseline_snd (st : MitmState) (hosts : List Str) (w : TlsWire) :
    (channelTlsBaselineTrusted st hosts w).2 =
      st.channelTlsTrusted.getD (!st.channelIsSet || channelBaseline w.channel hosts) := by
  unfold channelTlsBaselineTrusted
  cases st.channelTlsTrusted with
  | some cached => rfl
  | none => cases st.channelIsSet <;> rfl

/-- The laws that hold in every order. -/
theorem mitm_suspect {st : MitmState} {hosts : List Str} {w : TlsWire}
    (h : (checkMitmVia st hosts w).2.2 = true) : 2 ≤ reachedCount w hosts ∧
      (∀ host ∈ hosts, (w.target host).reached = true → w.target host = .mitm) ∧
      (checkMitmVia st hosts w).1.channelTlsTrusted ≠ some false := by
  rw [checkMitmVia_snd] at h
  split at h
  · next hsuspicious =>
    refine ⟨hsuspicious.1, hsuspicious.2, ?_⟩
    rw [checkMitmVia_fst_of_suspicious hsuspicious, baseline_kept, show _ = true from h]
    nofun
  · cases h

theorem mitm_acquitted {st : MitmState} {hosts : List Str} {w : TlsWire} {host : Str}
    (hmem : host ∈ hosts) (hclean : w.target host = .clean) :
    (checkMitmVia st hosts w).2 = (true, false) := by
  unfold checkMitmVia
  rw [probeTargets_of_clean hmem hclean]

theorem mitm_connects (st : MitmState) (hosts : List Str) (w : TlsWire) :
    (checkMitmVia st hosts w).2.1 = true ↔ ∃ host ∈ hosts, (w.target host).reached = true := by
  have hpos : 0 < reachedCount w hosts ↔ ∃ host ∈ hosts, (w.target host).reached = true :=
    List.countP_pos_iff
  rw [checkMitmVia_snd, ← hpos]
  split
  · next hsuspicious => exact iff_of_true rfl (by have htwo := hsuspicious.1; omega)
  · exact decide_eq_true_iff

/-- **The verdict satisfies its laws just when its order does not matter.** -/
theorem mitm_laws_iff (st : MitmState) (hosts : List Str) (w : TlsWire) :
    MitmLaws st hosts w ↔ ¬ OrderMatters st hosts w := by
  have horder : (∀ hosts', hosts'.Perm hosts →
      (checkMitmVia st hosts' w).2 = (checkMitmVia st hosts w).2) ↔ ¬ OrderMatters st hosts w := by
    by_cases hsuspicious : Suspicious w hosts
    · have hverdict : ∀ hosts', hosts'.Perm hosts → ((checkMitmVia st hosts' w).2 =
          (checkMitmVia st hosts w).2 ↔ (channelTlsBaselineTrusted st hosts' w).2 =
            (channelTlsBaselineTrusted st hosts w).2) := by
        intro hosts' hperm
        rw [checkMitmVia_snd, checkMitmVia_snd, if_pos hsuspicious,
          if_pos ((suspicious_perm hperm).mpr hsuspicious), Prod.mk.injEq]
        exact and_iff_right rfl
      by_cases hasked : st.channelTlsTrusted = none ∧ st.channelIsSet = true
      · -- the baseline is found out now
        have hbaseline : ∀ hosts', (channelTlsBaselineTrusted st hosts' w).2 =
            channelBaseline w.channel hosts' := by
          intro hosts'
          rw [baseline_snd, hasked.1, hasked.2]
          rfl
        have hmatters : OrderMatters st hosts w ↔ MixedChannel w hosts :=
          ⟨OrderMatters.mixed, fun h => ⟨hasked.1, hasked.2, hsuspicious, h⟩⟩
        rw [hmatters, ← baseline_perm_iff]
        refine forall_congr' fun hosts' => forall_congr' fun hperm => ?_
        rw [hverdict hosts' hperm, hbaseline, hbaseline]
      · refine iff_of_true (fun hosts' hperm => (hverdict hosts' hperm).mpr ?_)
          (fun h => hasked ⟨h.unknown, h.channel⟩)
        rw [baseline_snd, baseline_snd]
        cases hcached : st.channelTlsTrusted with
        | some cached => rfl
        | none =>
          have hset : st.channelIsSet = false := by
            rw [← Bool.not_eq_true]
            exact fun hset => hasked ⟨hcached, hset⟩
          rw [hset]
          rfl
    · refine iff_of_true (fun hosts' hperm => ?_) (fun h => hsuspicious h.suspicious)
      have hcount : reachedCount w hosts' = reachedCount w hosts := hperm.countP_eq _
      rw [checkMitmVia_snd, checkMitmVia_snd, if_neg hsuspicious,
        if_neg fun h => hsuspicious ((suspicious_perm hperm).mp h), hcount]
  constructor
  · intro h
    exact horder.mp h.order
  · intro h
    exact
      { suspect := mitm_suspect
        acquitted := fun ⟨host, hmem, hclean⟩ => mitm_acquitted hmem hclean
        connects := mitm_connects st hosts w
        order := horder.mpr h }

/-- A proxy that intercepts everything, behind a channel on which only `ya.ru` is intercepted. -/
def filteredChannel : TlsWire :=
  ⟨fun _ => .mitm, fun host => if host = "ya.ru".toList then .mitm else .clean⟩

/-- **The same targets in another order acquit the proxy.** -/
theorem order_acquits :
    let st : MitmState := ⟨true, none, []⟩
    (checkMitmVia st (mitmHosts []) filteredChannel).2 = (true, true) ∧
      (mitmHosts []).reverse.Perm (mitmHosts []) ∧
      (checkMitmVia st (mitmHosts []).reverse filteredChannel).2 = (true, false) :=
  ⟨by decide, List.reverse_perm _, by decide⟩

end HuntProxy
