import HuntProxy.Interception.State
import Mathlib.Data.Option.Basic
import Mathlib.Tactic.ByCases

/-!
# Interception and black holes

Rules that redirect to a port on which the transparent listener does not listen cut the
machine off. The rules are taken down whenever the listener is stopped by root, and new ones
are meant to be set up only while the listener answers. But the check takes any program that
answers for the listener, and the startup takes the saved flag for the listener itself and
the port of the state file for its port: a listener that cannot bind any more, or that was
asked for another port while it ran, leaves the rules with nobody to serve them.

## Main definitions

- `InterceptionState.Safe` — every redirect is served by the listener
- `InterceptionOp.Keeps` — what an operation must meet

## Main results

- `InterceptionState.safe_perform_iff` — one operation
- `interception_safe` — the runs in which no redirect is left without its listener
- `restarted_on_another_port` — a run after which nobody serves the redirect
-/

namespace HuntProxy

/-- The port that the connections through a chain end up at. -/
def Host.target (h : Host) (c : ChainName) : Option ℤ :=
  (h.chains c).bind fun chain => if chain.jump then chain.redirect else none

/-- What a chain redirects goes to the port that is listened on. -/
def Host.Served (h : Host) (c : ChainName) (listening : Option ℤ) : Prop :=
  ∀ port ∈ h.target c, listening = some port

/-- Both chains that redirect are served. -/
def Host.AllServed (h : Host) (listening : Option ℤ) : Prop :=
  h.Served .redirect listening ∧ h.Served .selective listening

/-- If redirect rules are installed, the transparent listener listens on their port. -/
def InterceptionState.Safe (s : InterceptionState) : Prop :=
  s.host.AllServed s.transparent.listening

instance (h : Host) (c : ChainName) (l : Option ℤ) : Decidable (h.Served c l) :=
  inferInstanceAs (Decidable (∀ port ∈ h.target c, l = some port))

instance (h : Host) (l : Option ℤ) : Decidable (h.AllServed l) :=
  inferInstanceAs (Decidable (_ ∧ _))

instance (s : InterceptionState) : Decidable s.Safe :=
  inferInstanceAs (Decidable (s.host.AllServed _))

/-- Whether the rules for the whole machine are in force when the operation is over: they are
set up and the network is reached, or the script fails after the command that makes them
effective. A jump that was there before makes them effective one command earlier. -/
def ApplyEnv.InForce (e : ApplyEnv) (jumps : Bool) : Prop :=
  match e.script with
  | none => e.probe = true
  | some n => if jumps then 3 ≤ n else 4 ≤ n

/-- The port that the listener is restored on. -/
def InterceptionState.restoredOn (s : InterceptionState) (b : Bind) : Option ℤ :=
  if s.transparentRunning then b.address s.transparentPort else none

/-- What a restart must meet. The rules that are set up again need the listener on the port
that is saved with them, and so do the rules of the other mode, which stay. -/
def InterceptionState.KeepsRestart (s : InterceptionState) (e : StartupEnv) : Prop :=
  if e.root then
    s.transparentRunning = true →
      if s.selectiveEnabled then
        e.script = none →
          (e.count ≠ 0 → validPort s.reenforcePort = true →
            s.restoredOn e.bind = some s.reenforcePort) ∧
          s.host.Served .redirect (s.restoredOn e.bind)
      else if s.wholeActive then
        e.script = none →
          (validPort s.reenforcePort = true → s.restoredOn e.bind = some s.reenforcePort) ∧
          s.host.Served .selective (s.restoredOn e.bind)
      else s.fileActive = true → s.host.AllServed (s.restoredOn e.bind)
  else s.host.AllServed (s.restoredOn e.bind)

/-- What an operation must meet: the listener is stopped by root or when nothing is
redirected, the port that answers before rules are set up is the listener's, and a restart
finds the port of the rules again. -/
def InterceptionOp.Keeps (s : InterceptionState) : InterceptionOp → Prop
  | .transparentStop => s.root = true ∨ s.host.AllServed none
  | .apply e =>
    s.interceptionReadiness e = true →
      e.InForce (s.host.jumps .redirect && !s.selectiveEnabled) →
        s.transparent.listening = some s.readinessPort
  | .selectiveApply e =>
    s.wholeActive = false → s.interceptionReadiness e = true → e.count ≠ 0 →
      e.script = none → e.probe = true → s.transparent.listening = some s.readinessPort
  | .restart e => s.KeepsRestart e
  | _ => True

/-! ### The script -/

/-- The chain that a command is about. -/
def Cmd.chain : Cmd → Option ChainName
  | .newChain c | .flush c | .deleteJump c | .deleteChain c | .redirectTo c _ | .appendJump c =>
    some c
  | .createSets | .destroySets | .writeState _ => none

namespace Host

theorem chains_exec_of_ne (h : Host) {cmd : Cmd} {c : ChainName} (hc : cmd.chain ≠ some c) :
    (h.exec cmd).chains c = h.chains c := by
  cases cmd with
  | createSets => rfl
  | destroySets => rfl
  | writeState file => rfl
  | _ =>
    refine Function.update_of_ne (fun heq => hc ?_) _ _
    rw [heq]
    rfl

/-- A script leaves the chains alone that its commands are not about. -/
theorem chains_execAll_of_ne (h : Host) {cmds : List Cmd} {c : ChainName}
    (hc : ∀ cmd ∈ cmds, cmd.chain ≠ some c) : (h.execAll cmds).chains c = h.chains c := by
  induction cmds generalizing h with
  | nil => rfl
  | cons cmd cmds ih =>
    rw [execAll, List.foldl_cons]
    exact (ih (h.exec cmd) fun x hx => hc x (List.mem_cons_of_mem _ hx)).trans
      (chains_exec_of_ne h (hc cmd List.mem_cons_self))

theorem target_congr {h h' : Host} {c : ChainName} (hc : h'.chains c = h.chains c) :
    h'.target c = h.target c := by
  rw [target, hc, target]

theorem served_of_target_none {h : Host} {c : ChainName} (hc : h.target c = none)
    (l : Option ℤ) : h.Served c l := by
  intro port hport
  rw [hc] at hport
  cases hport

theorem served_of_target_some {h : Host} {c : ChainName} {port : ℤ} (hc : h.target c = some port)
    (l : Option ℤ) : h.Served c l ↔ l = some port := by
  unfold Served
  rw [hc]
  constructor
  · exact fun hall => hall port rfl
  · intro hl port' hport'
    rw [hl]
    exact hport'

theorem served_congr {h h' : Host} {c : ChainName} (hc : h'.target c = h.target c)
    (l : Option ℤ) : h'.Served c l ↔ h.Served c l := by
  unfold Served
  rw [hc]

/-- After `stop` none of the chains is left. -/
theorem chains_stopRules (h : Host) (ipset : Bool) (c : ChainName) :
    (h.execAll (stopRules ipset)).chains c = none := by
  cases ipset <;> cases c <;>
    simp [execAll, stopRules, exec, setChain]

theorem allServed_stopRules (h : Host) (ipset : Bool) (l : Option ℤ) :
    (h.execAll (stopRules ipset)).AllServed l := by
  constructor <;> refine served_of_target_none ?_ l <;> rw [target, chains_stopRules] <;> rfl

/-- The rules for the whole machine are effective from the moment when both the rule and the
jump are there. -/
theorem target_startRules_take (h : Host) {port : ℤ} (hport : validPort port = true) (n : ℕ) :
    (h.execAll ((startRules port).take n)).target .redirect =
      if (if h.jumps .redirect then 3 ≤ n else 4 ≤ n) then some port
      else if n ≤ 1 then h.target .redirect else none := by
  unfold jumps target
  cases hc : h.chains .redirect with
  | none =>
    match n with
    | 0 | 1 | 2 | 3 | 4 | n + 5 =>
      simp [execAll, startRules, exec, setChain, hc, hport]
  | some chain =>
    match n with
    | 0 | 1 | 2 | 3 | 4 | n + 5 =>
      simp [execAll, startRules, exec, setChain, hc, hport]

theorem target_startRules (h : Host) (port : ℤ) :
    (h.execAll (startRules port)).target .redirect =
      if validPort port then some port else none := by
  unfold target
  cases hc : h.chains .redirect <;> cases hport : validPort port <;>
    simp [execAll, startRules, exec, setChain, hc, hport]

theorem target_startSelectiveRules (h : Host) (port : ℤ) (args : SelectiveArgs) :
    (h.execAll (startSelectiveRules port args)).target .selective =
      if args.addresses && validPort port then some port else none := by
  obtain ⟨ipset, addresses, dropQuic⟩ := args
  unfold target
  cases h.chains .selective <;> cases hport : validPort port <;> cases ipset <;>
    cases addresses <;> cases dropQuic <;>
      simp [execAll, startSelectiveRules, exec, setChain, hport]

/-- Rules for the whole machine do not touch the selective ones, whether they are complete or
not. -/
theorem target_selective_startRules_take (h : Host) (port : ℤ) (n : ℕ) :
    (h.execAll ((startRules port).take n)).target .selective = h.target .selective := by
  have hall : (startRules port).all (fun cmd => decide (cmd.chain ≠ some .selective)) = true := rfl
  refine target_congr (chains_execAll_of_ne h fun cmd hcmd => ?_)
  exact of_decide_eq_true (List.all_eq_true.mp hall cmd (List.mem_of_mem_take hcmd))

theorem target_redirect_startSelectiveRules (h : Host) (port : ℤ) (args : SelectiveArgs) :
    (h.execAll (startSelectiveRules port args)).target .redirect = h.target .redirect := by
  obtain ⟨ipset, addresses, dropQuic⟩ := args
  have hall : (startSelectiveRules port ⟨ipset, addresses, dropQuic⟩).all
      (fun cmd => decide (cmd.chain ≠ some .redirect)) = true := by
    cases ipset <;> cases addresses <;> cases dropQuic <;> rfl
  refine target_congr (chains_execAll_of_ne h fun cmd hcmd => ?_)
  exact of_decide_eq_true (List.all_eq_true.mp hall cmd hcmd)

/-- A complete set of rules for the whole machine. -/
theorem allServed_startRules_iff (h : Host) (port : ℤ) (l : Option ℤ) :
    (h.execAll (startRules port)).AllServed l ↔
      (validPort port = true → l = some port) ∧ h.Served .selective l := by
  refine and_congr ?_ (served_congr (target_selective_startRules_take h port 5) l)
  have htarget := target_startRules h port
  by_cases hport : validPort port = true
  · rw [if_pos hport] at htarget
    rw [served_of_target_some htarget, forall_prop_of_true hport]
  · rw [if_neg hport] at htarget
    exact iff_of_true (served_of_target_none htarget l) fun hvalid => absurd hvalid hport

/-- A complete set of selective rules. -/
theorem allServed_startSelectiveRules_iff (h : Host) (port : ℤ) (args : SelectiveArgs)
    (l : Option ℤ) :
    (h.execAll (startSelectiveRules port args)).AllServed l ↔
      (args.addresses = true → validPort port = true → l = some port) ∧ h.Served .redirect l := by
  rw [and_comm]
  refine and_congr (served_congr (target_redirect_startSelectiveRules h port args) l) ?_
  have htarget := target_startSelectiveRules h port args
  by_cases hrule : (args.addresses && validPort port) = true
  · rw [if_pos hrule] at htarget
    rw [Bool.and_eq_true] at hrule
    rw [served_of_target_some htarget, forall_prop_of_true hrule.1, forall_prop_of_true hrule.2]
  · rw [if_neg hrule] at htarget
    rw [Bool.and_eq_true, not_and] at hrule
    exact iff_of_true (served_of_target_none htarget l)
      fun haddr hvalid => absurd hvalid (hrule haddr)

end Host

namespace InterceptionState

/-! ### One operation -/

theorem safe_withHost_iff (s : InterceptionState) (h : Host) :
    { s with host := h }.Safe ↔ h.AllServed s.transparent.listening := Iff.rfl

theorem safe_runStop_of_root {s : InterceptionState} (hroot : s.root = true) : s.runStop.Safe := by
  rw [runStop, if_pos hroot, safe_withHost_iff]
  exact Host.allServed_stopRules s.host s.ipset s.transparent.listening

/-- Taking the rules down never hurts. -/
theorem safe_runStop {s : InterceptionState} (h : s.Safe) : s.runStop.Safe := by
  by_cases hroot : s.root = true
  · exact safe_runStop_of_root hroot
  · rw [runStop, if_neg hroot]
    exact h

theorem transparent_runStop (s : InterceptionState) : s.runStop.transparent = s.transparent := by
  unfold runStop
  split <;> rfl

/-- A listener that runs has its socket. -/
def SocketKept (s : InterceptionState) : Prop :=
  s.transparent.running = s.transparent.listening.isSome

/-- Nothing is redirected when nobody listens. -/
theorem Safe.allServed_none {s : InterceptionState} (h : s.Safe) (hs : s.SocketKept)
    (hrun : s.transparent.running ≠ true) : s.host.AllServed none := by
  have hnone : s.transparent.listening = none := by
    rw [← Option.not_isSome_iff_eq_none, ← hs]
    exact hrun
  rw [Safe, hnone] at h
  exact h

theorem safe_handleTransparentStart {s : InterceptionState} (h : s.Safe) (hs : s.SocketKept)
    (port : ℤ) (b : Bind) : (s.handleTransparentStart port b).Safe := by
  unfold handleTransparentStart transparentStart
  split
  · exact h
  · next hrun =>
    obtain ⟨hredirect, hselective⟩ := h.allServed_none hs hrun
    exact ⟨fun p hp => absurd (hredirect p hp) (Option.some_ne_none p).symm,
      fun p hp => absurd (hselective p hp) (Option.some_ne_none p).symm⟩

theorem safe_handleTransparentStop_iff (s : InterceptionState) :
    s.handleTransparentStop.Safe ↔ s.root = true ∨ s.host.AllServed none := by
  by_cases hroot : s.root = true
  · refine iff_of_true ?_ (.inl hroot)
    exact safe_runStop_of_root (show s.transparentStop.root = true from hroot)
  · unfold handleTransparentStop runStop
    rw [if_neg (show ¬ s.transparentStop.root = true from hroot)]
    exact ⟨.inr, fun hor => hor.resolve_left hroot⟩

/-- The gate opens for root, and only when the port answers. -/
theorem of_interceptionReadiness {s : InterceptionState} {e : ApplyEnv}
    (h : s.interceptionReadiness e = true) : s.root = true ∧ validPort s.readinessPort = true := by
  simp only [interceptionReadiness, answers, Bool.and_eq_true] at h
  exact ⟨h.1.1.1, h.2.1⟩

theorem safe_applyWhole_iff {s : InterceptionState} (h : s.Safe) (hroot : s.root = true)
    {port : ℤ} (hport : validPort port = true) (e : ApplyEnv) :
    (s.applyWhole port e).Safe ↔
      (e.InForce (s.host.jumps .redirect) → s.transparent.listening = some port) := by
  unfold applyWhole ApplyEnv.InForce
  cases e.script with
  | none =>
    by_cases hprobe : e.probe = true
    · simp only [runSetupIptables, Host.runScript, hprobe, if_true, forall_const]
      refine (safe_withHost_iff s _).trans ?_
      rw [Host.allServed_startRules_iff, forall_prop_of_true hport, and_iff_left h.2]
    · simp only [runSetupIptables, Host.runScript, hprobe]
      exact iff_of_true (safe_runStop_of_root hroot) nofun
  | some n =>
    have htarget := Host.target_startRules_take s.host hport n
    have hselective := Host.target_selective_startRules_take s.host port n
    refine (and_iff_left ((Host.served_congr hselective _).mpr h.2)).trans ?_
    by_cases hforce : if s.host.jumps .redirect then 3 ≤ n else 4 ≤ n
    · rw [if_pos hforce] at htarget
      rw [forall_prop_of_true hforce]
      exact Host.served_of_target_some htarget _
    · rw [if_neg hforce] at htarget
      refine iff_of_true ?_ fun h => absurd h hforce
      by_cases hn : n ≤ 1
      · rw [if_pos hn] at htarget
        exact (Host.served_congr htarget _).mpr h.1
      · rw [if_neg hn] at htarget
        exact Host.served_of_target_none htarget _

theorem dropSelective_eq (s : InterceptionState) : ∃ host enabled,
    s.dropSelective = { s with host := host, selectiveEnabled := enabled } := by
  unfold dropSelective runStop
  split
  · split
    · exact ⟨_, _, rfl⟩
    · exact ⟨_, _, rfl⟩
  · exact ⟨_, _, rfl⟩

theorem safe_dropSelective {s : InterceptionState} (h : s.Safe) : s.dropSelective.Safe := by
  unfold dropSelective
  split
  · exact safe_runStop h
  · exact h

theorem jumps_dropSelective {s : InterceptionState} (hroot : s.root = true) :
    s.dropSelective.host.jumps .redirect = (s.host.jumps .redirect && !s.selectiveEnabled) := by
  unfold dropSelective
  by_cases henabled : s.selectiveEnabled = true
  · rw [if_pos henabled, henabled, runStop, if_pos hroot, Bool.not_true, Bool.and_false]
    show ((s.host.execAll (stopRules s.ipset)).chains .redirect).any Chain.jump = false
    rw [Host.chains_stopRules]
    rfl
  · rw [if_neg henabled, Bool.eq_false_iff.mpr henabled, Bool.not_false, Bool.and_true]

theorem safe_handleInterceptionApply_iff {s : InterceptionState} (h : s.Safe) (e : ApplyEnv) :
    (s.handleInterceptionApply e).Safe ↔
      (s.interceptionReadiness e = true →
        e.InForce (s.host.jumps .redirect && !s.selectiveEnabled) →
          s.transparent.listening = some s.readinessPort) := by
  unfold handleInterceptionApply
  by_cases hready : s.interceptionReadiness e = true
  · obtain ⟨hroot, hport⟩ := of_interceptionReadiness hready
    obtain ⟨host, enabled, hdrop⟩ := s.dropSelective_eq
    have hroot' : s.dropSelective.root = true := by rw [hdrop]; exact hroot
    have hlistening : s.dropSelective.transparent = s.transparent := by rw [hdrop]
    rw [if_pos hready, safe_applyWhole_iff (safe_dropSelective h) hroot' hport,
      jumps_dropSelective hroot, hlistening, forall_prop_of_true hready]
  · rw [if_neg hready]
    exact iff_of_true h fun hopen => absurd hopen hready

theorem safe_applySelective_iff {s : InterceptionState} (h : s.Safe) (hroot : s.root = true)
    {port : ℤ} (hport : validPort port = true) (e : ApplyEnv) :
    (s.applySelective port e).Safe ↔
      (e.script = none → e.probe = true → s.transparent.listening = some port) := by
  unfold applySelective
  cases e.script with
  | none =>
    by_cases hprobe : e.probe = true
    · simp only [runSetupIptables, Host.runScript, hprobe, if_true, forall_const]
      refine (safe_withHost_iff s _).trans ?_
      rw [Host.allServed_startSelectiveRules_iff, forall_prop_of_true rfl, forall_prop_of_true hport, and_iff_left h.1]
    · simp only [runSetupIptables, Host.runScript, hprobe]
      exact iff_of_true (safe_runStop_of_root hroot) nofun
  | some n => exact iff_of_true (safe_runStop_of_root hroot) nofun

theorem safe_handleSelectiveApply_iff {s : InterceptionState} (h : s.Safe) (e : ApplyEnv) :
    (s.handleSelectiveApply e).Safe ↔
      (s.wholeActive = false → s.interceptionReadiness e = true → e.count ≠ 0 →
        e.script = none → e.probe = true → s.transparent.listening = some s.readinessPort) := by
  unfold handleSelectiveApply
  by_cases hwhole : s.wholeActive = true
  · rw [if_pos hwhole]
    exact iff_of_true h fun hnot => absurd (hnot.symm.trans hwhole) Bool.false_ne_true
  · rw [if_neg hwhole, forall_prop_of_true (Bool.eq_false_iff.mpr hwhole)]
    by_cases hready : s.interceptionReadiness e = true
    · rw [if_pos hready, forall_prop_of_true hready]
      by_cases hcount : e.count = 0
      · rw [if_pos hcount]
        exact iff_of_true h fun hne => absurd hcount hne
      · obtain ⟨hroot, hport⟩ := of_interceptionReadiness hready
        rw [if_neg hcount, forall_prop_of_true hcount]
        exact safe_applySelective_iff h hroot hport e
    · rw [if_neg hready]
      exact iff_of_true h fun hopen => absurd hopen hready

/-! ### The startup -/

/-- Without a jump nothing is redirected. -/
theorem allServed_of_not_applied {s : InterceptionState} (h : s.applied = false) (l : Option ℤ) :
    s.host.AllServed l := by
  simp only [applied, Bool.or_eq_false_iff] at h
  have hnone : ∀ c, s.host.jumps c = false → s.host.target c = none := by
    intro c hc
    unfold Host.target
    unfold Host.jumps at hc
    cases hchain : s.host.chains c with
    | none => rfl
    | some chain =>
      rw [hchain, Option.any_some] at hc
      rw [Option.bind_some, hc]
      rfl
  exact ⟨Host.served_of_target_none (hnone .redirect h.1.1.1.2) l,
    Host.served_of_target_none (hnone .selective h.1.1.1.1) l⟩

/-- Whole-machine rules that the state file knows of are active. -/
theorem fileActive_of_wholeActive {s : InterceptionState} (h : s.wholeActive = true) :
    s.fileActive = true := by
  unfold wholeActive at h
  unfold fileActive
  cases hfile : s.host.file with
  | none =>
    rw [hfile] at h
    cases h
  | some file =>
    rw [hfile, Option.any_some, Bool.and_eq_true] at h
    exact h.1

theorem fileActive_runStop {s : InterceptionState} (hroot : s.root = true) :
    s.runStop.fileActive = false := by
  rw [runStop, if_pos hroot]
  cases hipset : s.ipset <;> simp [fileActive, Host.execAll, stopRules, Host.exec, Host.setChain]

/-- A leftover is removed before anything is set up again. -/
theorem safe_startup_of_leftover {s : InterceptionState} (hroot : s.root = true)
    (henabled : s.selectiveEnabled = false) (hactive : s.fileActive = false) (e : StartupEnv) :
    (s.reconcileOnStartup.reenforceOnStartup e).Safe := by
  have hsafe : s.reconcileOnStartup.Safe := by
    unfold reconcileOnStartup
    rw [henabled, hactive, Bool.or_false, Bool.not_false, Bool.and_true]
    split
    · exact safe_runStop_of_root hroot
    · next hnot => exact allServed_of_not_applied (Bool.eq_false_iff.mpr hnot) _
  have hscript : s.reconcileOnStartup.reenforceScript e.count = none := by
    have hkept : s.reconcileOnStartup.selectiveEnabled = false ∧
        s.reconcileOnStartup.fileActive = false := by
      unfold reconcileOnStartup
      split
      · refine ⟨?_, fileActive_runStop hroot⟩
        unfold runStop
        split <;> exact henabled
      · exact ⟨henabled, hactive⟩
    have hwhole : ¬ s.reconcileOnStartup.wholeActive = true := fun hwhole =>
      Bool.false_ne_true (hkept.2.symm.trans (fileActive_of_wholeActive hwhole))
    rw [reenforceScript, hkept.1, if_neg Bool.false_ne_true, if_neg hwhole]
  unfold reenforceOnStartup
  rw [hscript]
  split
  · split
    · exact hsafe
    · exact hsafe
  · split
    · exact safe_runStop hsafe
    · exact hsafe

/-- Rules that are set up again. -/
theorem safe_reenforce_iff {s : InterceptionState} (hroot : s.root = true)
    (hrun : s.transparentRunning = true) {e : StartupEnv} {cmds : List Cmd}
    (hcmds : s.reenforceScript e.count = some cmds) :
    (s.reenforceOnStartup e).Safe ↔
      (e.script = none → (s.host.execAll cmds).AllServed s.transparent.listening) := by
  unfold reenforceOnStartup
  rw [if_pos hrun, if_pos hroot, hcmds]
  cases e.script with
  | none => exact ⟨fun h _ => h, fun h => h rfl⟩
  | some n => exact iff_of_true (safe_runStop_of_root hroot) nofun

/-- The startup after the services are restored. -/
theorem safe_startup_iff (s : InterceptionState) (e : StartupEnv) :
    (s.reconcileOnStartup.reenforceOnStartup e).Safe ↔
      if s.root then
        s.transparentRunning = true →
          if s.selectiveEnabled then
            e.script = none →
              (e.count ≠ 0 → validPort s.reenforcePort = true →
                s.transparent.listening = some s.reenforcePort) ∧
              s.host.Served .redirect s.transparent.listening
          else if s.wholeActive then
            e.script = none →
              (validPort s.reenforcePort = true →
                s.transparent.listening = some s.reenforcePort) ∧
              s.host.Served .selective s.transparent.listening
          else s.fileActive = true → s.Safe
      else s.Safe := by
  by_cases hroot : s.root = true
  · rw [if_pos hroot]
    by_cases hrun : s.transparentRunning = true
    · rw [forall_prop_of_true hrun]
      by_cases hkeep : (s.selectiveEnabled || s.fileActive) = true
      · -- the settings or the state file ask for interception, so nothing is removed
        have hrec : s.reconcileOnStartup = s := by
          rw [reconcileOnStartup, hkeep, Bool.not_true, Bool.and_false, if_neg Bool.false_ne_true]
        rw [hrec]
        by_cases henabled : s.selectiveEnabled = true
        · rw [if_pos henabled, safe_reenforce_iff hroot hrun (if_pos henabled)]
          refine forall_congr' fun _ => ?_
          rw [Host.allServed_startSelectiveRules_iff, decide_eq_true_iff]
        · rw [if_neg henabled]
          by_cases hwhole : s.wholeActive = true
          · rw [if_pos hwhole, safe_reenforce_iff hroot hrun
              ((if_neg henabled).trans (if_pos hwhole))]
            exact forall_congr' fun _ => Host.allServed_startRules_iff _ _ _
          · have hscript : s.reenforceScript e.count = none :=
              (if_neg henabled).trans (if_neg hwhole)
            have hactive : s.fileActive = true :=
              ((Bool.or_eq_true _ _).mp hkeep).resolve_left henabled
            rw [if_neg hwhole, forall_prop_of_true hactive, reenforceOnStartup, if_pos hrun,
              if_pos hroot, hscript]
      · -- neither asks for it: what is left over is removed
        rw [Bool.or_eq_true, not_or, Bool.not_eq_true, Bool.not_eq_true] at hkeep
        have hwhole : ¬ s.wholeActive = true := fun hwhole =>
          Bool.false_ne_true (hkeep.2.symm.trans (fileActive_of_wholeActive hwhole))
        refine iff_of_true (safe_startup_of_leftover hroot hkeep.1 hkeep.2 e) ?_
        rw [hkeep.1, if_neg Bool.false_ne_true, if_neg hwhole, hkeep.2]
        exact nofun
    · -- without a listener the rules are removed if there are any
      refine iff_of_true ?_ fun hrunning => absurd hrunning hrun
      have hrec : s.reconcileOnStartup.root = true ∧
          s.reconcileOnStartup.transparentRunning = s.transparentRunning := by
        unfold reconcileOnStartup runStop
        rw [if_pos hroot]
        split
        · exact ⟨hroot, rfl⟩
        · exact ⟨hroot, rfl⟩
      unfold reenforceOnStartup
      rw [hrec.2, if_neg hrun]
      split
      · exact safe_runStop_of_root hrec.1
      · next hnot => exact allServed_of_not_applied (Bool.eq_false_iff.mpr hnot) _
  · -- without root nothing can be changed
    have hstop : ∀ t : InterceptionState, t.root = s.root → t.runStop = t := fun t ht => by
      rw [runStop, ht, if_neg hroot]
    have hrec : s.reconcileOnStartup = s := by
      unfold reconcileOnStartup
      split
      · exact hstop s rfl
      · rfl
    rw [hrec, if_neg hroot]
    unfold reenforceOnStartup
    rw [if_neg hroot, hstop s rfl, ite_self, ite_self]

/-- The restored services: only the runner is new. -/
theorem restore_newProcess (s : InterceptionState) (root : Bool) (b : Bind) :
    ∃ t : TransparentRunner, (s.newProcess root).restore b = { s with root := root, transparent := t } ∧
      t.listening = s.restoredOn b ∧ t.running = t.listening.isSome := by
  unfold restore restoredOn
  by_cases hrun : s.transparentRunning = true
  · refine ⟨⟨(b.address s.transparentPort).isSome, s.transparentPort,
      b.address s.transparentPort⟩, ?_, (if_pos hrun).symm, rfl⟩
    rw [if_pos (show (s.newProcess root).transparentRunning = true from hrun), transparentStart,
      if_neg (show ¬ (s.newProcess root).transparent.running = true from Bool.false_ne_true)]
    show { s with transparentRunning := true, root := root, transparent := _ } = _
    rw [← hrun]
    rfl
  · exact ⟨⟨false, s.transparentPort, none⟩, if_neg hrun, (if_neg hrun).symm, rfl⟩

theorem safe_restart_iff (s : InterceptionState) (e : StartupEnv) :
    (s.restart e).Safe ↔ s.KeepsRestart e := by
  obtain ⟨t, hrestore, hlistening, -⟩ := s.restore_newProcess e.root e.bind
  unfold restart KeepsRestart
  rw [hrestore, safe_startup_iff, ← hlistening]
  rfl

/-- One operation leaves every redirect served just when it meets the condition. -/
theorem safe_perform_iff {s : InterceptionState} (h : s.Safe) (hs : s.SocketKept)
    (op : InterceptionOp) : (s.perform op).Safe ↔ op.Keeps s := by
  cases op with
  | transparentStart port b => exact iff_of_true (safe_handleTransparentStart h hs port b) trivial
  | transparentStop => exact safe_handleTransparentStop_iff s
  | apply e => exact safe_handleInterceptionApply_iff h e
  | stop => exact iff_of_true (safe_runStop h) trivial
  | selectiveApply e => exact safe_handleSelectiveApply_iff h e
  | selectiveStop => exact iff_of_true (safe_runStop h) trivial
  | restart e => exact safe_restart_iff s e

/-! ### The socket -/

theorem transparent_applyWhole (s : InterceptionState) (port : ℤ) (e : ApplyEnv) :
    (s.applyWhole port e).transparent = s.transparent := by
  unfold applyWhole
  cases e.script with
  | none =>
    simp only [runSetupIptables, Host.runScript]
    split
    · rfl
    · exact transparent_runStop _
  | some n => rfl

theorem transparent_applySelective (s : InterceptionState) (port : ℤ) (e : ApplyEnv) :
    (s.applySelective port e).transparent = s.transparent := by
  unfold applySelective
  cases e.script with
  | none =>
    simp only [runSetupIptables, Host.runScript]
    split
    · rfl
    · exact transparent_runStop _
  | some n => exact transparent_runStop _

theorem transparent_handleInterceptionApply (s : InterceptionState) (e : ApplyEnv) :
    (s.handleInterceptionApply e).transparent = s.transparent := by
  obtain ⟨host, enabled, hdrop⟩ := s.dropSelective_eq
  unfold handleInterceptionApply
  split
  · rw [transparent_applyWhole, hdrop]
  · rfl

theorem transparent_handleSelectiveApply (s : InterceptionState) (e : ApplyEnv) :
    (s.handleSelectiveApply e).transparent = s.transparent := by
  unfold handleSelectiveApply
  split
  · rfl
  · split
    · split
      · rfl
      · exact transparent_applySelective s _ e
    · rfl

theorem transparent_startup (s : InterceptionState) (e : StartupEnv) :
    (s.reconcileOnStartup.reenforceOnStartup e).transparent = s.transparent := by
  have hrec : s.reconcileOnStartup.transparent = s.transparent := by
    unfold reconcileOnStartup
    split
    · exact transparent_runStop s
    · rfl
  rw [← hrec]
  unfold reenforceOnStartup
  split
  · split
    · cases s.reconcileOnStartup.reenforceScript e.count with
      | none => rfl
      | some cmds =>
        cases e.script with
        | none => rfl
        | some n => exact transparent_runStop _
    · rfl
  · split
    · exact transparent_runStop _
    · rfl

theorem socketKept_congr {s s' : InterceptionState} (h : s'.transparent = s.transparent) :
    s'.SocketKept ↔ s.SocketKept := by
  rw [SocketKept, h, SocketKept]

theorem socketKept_handleTransparentStart {s : InterceptionState} (hs : s.SocketKept) (port : ℤ)
    (b : Bind) : (s.handleTransparentStart port b).SocketKept := by
  unfold handleTransparentStart transparentStart
  split
  · exact hs
  · rfl

theorem socketKept_perform {s : InterceptionState} (hs : s.SocketKept) (op : InterceptionOp) :
    (s.perform op).SocketKept := by
  cases op with
  | transparentStart port b => exact socketKept_handleTransparentStart hs port b
  | transparentStop => exact (socketKept_congr (transparent_runStop s.transparentStop)).mpr rfl
  | apply e => exact (socketKept_congr (transparent_handleInterceptionApply s e)).mpr hs
  | stop => exact (socketKept_congr (transparent_runStop s)).mpr hs
  | selectiveApply e => exact (socketKept_congr (transparent_handleSelectiveApply s e)).mpr hs
  | selectiveStop => exact (socketKept_congr (transparent_runStop s)).mpr hs
  | restart e =>
    obtain ⟨t, hrestore, -, hrun⟩ := s.restore_newProcess e.root e.bind
    refine (socketKept_congr (transparent_startup _ e)).mpr ?_
    rw [hrestore]
    exact hrun

end InterceptionState

/-! ### Whole runs -/

/-- In a run whose operations all meet the condition every redirect is served in every state,
and only such runs keep them served throughout. -/
theorem interception_safe (root dropQuic ipset : Bool) (s : InterceptionState) :
    (interceptionMachine.Reaches (fun s op _ => op.Keeps s) (.fresh root dropQuic ipset) s →
      s.Safe) ∧
    (interceptionMachine.Reaches (fun _ _ s' => s'.Safe) (.fresh root dropQuic ipset) s →
      interceptionMachine.Reaches (fun s op _ => op.Keeps s) (.fresh root dropQuic ipset) s) := by
  have hfresh : (InterceptionState.fresh root dropQuic ipset).Safe ∧
      (InterceptionState.fresh root dropQuic ipset).SocketKept :=
    ⟨⟨nofun, nofun⟩, rfl⟩
  constructor
  · intro hrun
    refine (hrun.invariant (I := fun s => s.Safe ∧ s.SocketKept) hfresh ?_).1
    rintro s op s' ⟨hsafe, hkept⟩ hstep hkeeps
    cases hstep
    exact ⟨(InterceptionState.safe_perform_iff hsafe hkept op).mpr hkeeps,
      InterceptionState.socketKept_perform hkept op⟩
  · intro hrun
    refine (hrun.of_exact (I := fun s => s.Safe ∧ s.SocketKept) hfresh ?_).1
    rintro s op s' ⟨hsafe, hkept⟩ hstep hsafe'
    cases hstep
    exact ⟨(InterceptionState.safe_perform_iff hsafe hkept op).mp hsafe', hsafe',
      InterceptionState.socketKept_perform hkept op⟩

/-- The whole machine is intercepted while the listener is up. -/
theorem interception_safe_apply :
    (((InterceptionState.fresh true true true).perform (.transparentStart 17477 ⟨true, 0⟩)).perform
      (.apply ⟨true, false, true, (0, 0), none, true⟩)).Safe :=
  (interception_safe true true true _).1
    ((Machine.Reaches.single (a := .transparentStart 17477 ⟨true, 0⟩) rfl trivial).trans
      (Machine.Reaches.single (a := .apply ⟨true, false, true, (0, 0), none, true⟩) rfl
        fun _ _ => rfl))

/-- **Another port that is asked for while the listener runs** is saved, but the listener stays
where it is. A restart restores the listener on the other port and sets the rules up again on the
old one, where nobody listens. -/
theorem restarted_on_another_port :
    ∃ s, interceptionMachine.Reaches Machine.anyStep (.fresh true true true) s ∧
      s.host.target .redirect = some 17477 ∧ s.transparent.listening = some 17999 ∧ ¬ s.Safe := by
  refine ⟨_,
    (((Machine.Reaches.single (a := .transparentStart 17477 ⟨true, 0⟩) rfl trivial).trans
      (Machine.Reaches.single (a := .apply ⟨true, false, true, (0, 0), none, true⟩) rfl trivial)).trans
      (Machine.Reaches.single (a := .transparentStart 17999 ⟨true, 0⟩) rfl trivial)).trans
      (Machine.Reaches.single (a := .restart ⟨true, ⟨true, 0⟩, 0, none⟩) rfl trivial),
    ?_, ?_, ?_⟩
  · decide
  · decide
  · decide

end HuntProxy
