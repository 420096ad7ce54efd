import HuntProxy.Interception.Rules
import HuntProxy.Lib.Script

/-!
# The shield of the own traffic

The proxy runs in a cgroup of its own, and every chain begins with a rule that returns its
packets. They would come back to the proxy else, and go round in a loop. The rule stands in front
of all that redirects or drops, also while the script is running, and after it was stopped halfway.

## Main definitions

- `Quiet`, `Shielded` — chains without a verdict, and chains that begin with the rule
- `Safe` — all chains are one or the other

## Main results

- `safe_startSelective`, `safe_start`, `safe_stop` — the script, wherever it is stopped
- `own_traffic` — the own packets are left to the rules of others in every run
-/

namespace HuntProxy.Interception

open PacketFilter Script

/-! ### Chains that decide nothing -/

/-- Every rule returns. -/
def Quiet (rules : List Rule) : Prop := ∀ r ∈ rules, r.target = .ret

/-- The rule that returns the packets of a cgroup. -/
def exclusion (cgroup : Str) : Rule := ⟨[.cgroup cgroup], .ret⟩

/-- The rule for the cgroup comes before every verdict. -/
def Shielded (cgroup : Str) (rules : List Rule) : Prop :=
  ∃ front rest, rules = front ++ exclusion cgroup :: rest ∧ Quiet front

variable {cgroup : Str} {rules : List Rule} {k : Kernel} {p : Packet}

theorem Quiet.target (h : Quiet rules) (sets : Dict Str (List ℕ)) (p : Packet) :
    (target (Match.holds sets) rules p).bind Target.verdict = none := by
  rw [target_uniform h]
  split <;> rfl

theorem applies_exclusion (sets : Dict Str (List ℕ)) (hp : cgroupPath cgroup ∈ p.cgroups) :
    (exclusion cgroup).applies (Match.holds sets) p = true := by
  simp [exclusion, PacketFilter.Rule.applies, Match.holds, hp]

theorem Shielded.target (h : Shielded cgroup rules) (sets : Dict Str (List ℕ))
    (hp : cgroupPath cgroup ∈ p.cgroups) :
    (target (Match.holds sets) rules p).bind Target.verdict = none := by
  obtain ⟨front, rest, rfl, hfront⟩ := h
  rw [target_append, target_uniform hfront, target_cons, if_pos (applies_exclusion sets hp)]
  split <;> rfl

theorem Quiet.append {rules' : List Rule} (h : Quiet rules) (h' : Quiet rules') :
    Quiet (rules ++ rules') := by
  intro r hr
  rcases List.mem_append.mp hr with hr | hr
  · exact h r hr
  · exact h' r hr

theorem Shielded.append (h : Shielded cgroup rules) (rules' : List Rule) :
    Shielded cgroup (rules ++ rules') := by
  obtain ⟨front, rest, rfl, hfront⟩ := h
  exact ⟨front, rest ++ rules', by simp, hfront⟩

/-! ### Single commands -/

/-- There are cgroups, and each chain is quiet or shielded. -/
structure Safe (cgroup : Str) (k : Kernel) : Prop where
  cgroupV2 : k.cgroupV2 = true
  chains : ∀ c rules, k.rules.chains c = some rules → Quiet rules ∨ Shielded cgroup rules

/-- The cgroup exists. -/
def HasCgroup (cgroup : Str) (k : Kernel) : Prop := cgroupPath cgroup ∈ k.cgroups

/-- A chain is shielded, if it is there. -/
def Covered (cgroup : Str) (c : ChainName) (k : Kernel) : Prop :=
  ∀ rules, k.rules.chains c = some rules → Shielded cgroup rules

/-- The commands that change no chain. -/
theorem chains_exec_of_other (k : Kernel) {cmd : Command} (hnew : ∀ c, cmd ≠ .newChain c)
    (hflush : ∀ c, cmd ≠ .flush c) (happend : ∀ c r, cmd ≠ .append c r) {c : ChainName}
    {rules : List Rule} (h : (k.exec cmd).rules.chains c = some rules) :
    k.rules.chains c = some rules := by
  cases cmd with
  | newChain c => exact absurd rfl (hnew c)
  | flush c => exact absurd rfl (hflush c)
  | append c r => exact absurd rfl (happend c r)
  | deleteJump c' => exact h
  | deleteChain c' => exact Ruleset.chains_of_deleteChain _ _ _ _ h
  | ensureJump c' => rwa [Kernel.exec, Ruleset.chains_ensureJump] at h
  | createSet | flushSet | addIp | destroySet | makeCgroup =>
    rwa [Kernel.rules_exec k trivial] at h

theorem HasCgroup.exec (h : HasCgroup cgroup k) (cmd : Command) : HasCgroup cgroup (k.exec cmd) := by
  by_cases hcmd : ∀ path, cmd ≠ .makeCgroup path
  · rw [HasCgroup, Kernel.cgroups_exec k hcmd]
    exact h
  · obtain ⟨path, rfl⟩ := not_forall_not.mp hcmd
    simp only [HasCgroup, Kernel.exec]
    split
    · exact List.mem_cons_of_mem _ h
    · exact h

theorem chains_append (k : Kernel) (c c' : ChainName) (r : Rule) :
    (k.exec (.append c r)).rules.chains c' =
      if c' = c ∧ k.accepts r = true then (k.rules.chains c).map (fun rules => rules ++ [r])
      else k.rules.chains c' := by
  rw [Kernel.exec]
  by_cases h : k.accepts r = true
  · rw [if_pos h, Ruleset.chains_append]
    by_cases hc : c' = c <;> simp [hc, h]
  · rw [if_neg h, if_neg (fun hall => h hall.2)]

/-- **One command** keeps the chains safe if it appends a verdict to none that is not covered. -/
theorem Safe.exec (h : Safe cgroup k) {cmd : Command}
    (hcmd : ∀ c r, cmd = .append c r → r.target = .ret ∨ Covered cgroup c k) :
    Safe cgroup (k.exec cmd) := by
  refine ⟨by rw [Kernel.cgroupV2_exec]; exact h.cgroupV2, fun c rules hrules => ?_⟩
  cases cmd with
  | newChain c' =>
    rw [Kernel.exec, Ruleset.chains_newChain] at hrules
    split at hrules
    · next hc =>
      cases hold : k.rules.chains c' with
      | none =>
        rw [hold] at hrules
        obtain rfl : [] = rules := Option.some.inj hrules
        exact .inl (List.forall_mem_nil _)
      | some old =>
        rw [hold] at hrules
        obtain rfl : old = rules := Option.some.inj hrules
        exact h.chains c' old hold
    · exact h.chains c rules hrules
  | flush c' =>
    rw [Kernel.exec, Ruleset.chains_flush] at hrules
    split at hrules
    · obtain ⟨_, -, rfl⟩ := Option.map_eq_some_iff.mp hrules
      exact .inl (List.forall_mem_nil _)
    · exact h.chains c rules hrules
  | append c' r =>
    rw [chains_append] at hrules
    split at hrules
    · obtain ⟨old, hold, rfl⟩ := Option.map_eq_some_iff.mp hrules
      rcases hcmd c' r rfl with hret | hcov
      · rcases h.chains c' old hold with hq | hs
        · exact .inl (hq.append (by simpa [Quiet] using hret))
        · exact .inr (hs.append [r])
      · exact .inr ((hcov old hold).append [r])
    · exact h.chains c rules hrules
  | deleteJump | deleteChain | ensureJump | createSet | flushSet | addIp | destroySet | makeCgroup =>
    exact h.chains c rules (chains_exec_of_other k (fun _ => by simp) (fun _ => by simp)
      (fun _ _ => by simp) hrules)

/-- A chain stays covered until it is created or emptied. -/
theorem Covered.exec {c : ChainName} (h : Covered cgroup c k) {cmd : Command}
    (hnew : cmd ≠ .newChain c) (hflush : cmd ≠ .flush c) : Covered cgroup c (k.exec cmd) := by
  intro rules hrules
  cases cmd with
  | newChain c' =>
    rw [Kernel.exec, Ruleset.chains_newChain, if_neg (by rintro rfl; exact hnew rfl)] at hrules
    exact h rules hrules
  | flush c' =>
    rw [Kernel.exec, Ruleset.chains_flush, if_neg (by rintro rfl; exact hflush rfl)] at hrules
    exact h rules hrules
  | append c' r =>
    rw [chains_append] at hrules
    split at hrules
    · next hc =>
      obtain ⟨old, hold, rfl⟩ := Option.map_eq_some_iff.mp hrules
      exact (h old (hc.1 ▸ hold)).append [r]
    · exact h rules hrules
  | deleteJump | deleteChain | ensureJump | createSet | flushSet | addIp | destroySet | makeCgroup =>
    exact h rules (chains_exec_of_other k (fun _ => by simp) (fun _ => by simp)
      (fun _ _ => by simp) hrules)

/-- **The rule for the cgroup** covers a safe chain. -/
theorem covered_exclusion (h : Safe cgroup k) (hcgroup : HasCgroup cgroup k) (c : ChainName) :
    Covered cgroup c (k.exec (.append c (exclusion cgroup))) := by
  have haccepts : k.accepts (exclusion cgroup) = true := by
    have hmem : k.cgroups.contains (cgroupPath cgroup) = true := List.contains_iff_mem.mpr hcgroup
    simp only [Kernel.accepts, exclusion, List.all_cons, List.all_nil, Kernel.acceptsMatch, hmem,
      Bool.and_true]
  intro rules hrules
  rw [chains_append, if_pos ⟨rfl, haccepts⟩] at hrules
  obtain ⟨old, hold, rfl⟩ := Option.map_eq_some_iff.mp hrules
  rcases h.chains c old hold with hq | hs
  · exact ⟨old, [], rfl, hq⟩
  · exact hs.append _

/-! ### The script -/

/-- The commands that append no verdict. -/
def Command.Mild (cmd : Command) : Prop := ∀ c r, cmd = .append c r → r.target = .ret

/-- Mild commands are safe anywhere. -/
theorem triple_mild {P : Kernel → Prop} {cmds : List Command} (hmild : ∀ cmd ∈ cmds, cmd.Mild)
    (hP : ∀ cmd ∈ cmds, ∀ k, P k → P (k.exec cmd)) :
    Triple Kernel.exec (Safe cgroup) P cmds P :=
  .each (fun cmd hcmd k hs hp =>
    ⟨hs.exec (fun c r heq => .inl (hmild cmd hcmd c r heq)), hP cmd hcmd k hp⟩)

/-- Behind the rule for the cgroup, a chain may get any rules. -/
theorem triple_covered (cgroup : Str) (c : ChainName) (cmds : List Command)
    (hchain : ∀ cmd ∈ cmds, ∀ c' r, cmd = .append c' r → c' = c)
    (hkeep : ∀ cmd ∈ cmds, cmd ≠ .newChain c ∧ cmd ≠ .flush c) :
    Triple Kernel.exec (Safe cgroup) (fun k => Covered cgroup c k ∧ HasCgroup cgroup k) cmds
      (fun k => Covered cgroup c k ∧ HasCgroup cgroup k) :=
  .each (fun cmd hcmd _ hs hp =>
    ⟨hs.exec (fun c' r heq => .inr (hchain cmd hcmd c' r heq ▸ hp.1)),
      hp.1.exec (hkeep cmd hcmd).1 (hkeep cmd hcmd).2, hp.2.exec cmd⟩)

theorem mild_dropChain (c : ChainName) : ∀ cmd ∈ dropChain c, cmd.Mild := by
  simp [dropChain, Command.Mild]

theorem mild_renewChain (c : ChainName) : ∀ cmd ∈ renewChain c, cmd.Mild := by
  simp [renewChain, Command.Mild]

theorem triple_ensure {a : ScriptArgs} (ha : a.excludeCgroup = cgroup) (hne : cgroup ≠ []) :
    Triple Kernel.exec (Safe cgroup) (fun _ => True) (ensureExcludeCgroup a) (HasCgroup cgroup) := by
  rw [ensureExcludeCgroup, ha, if_neg hne]
  refine .single (fun _ hs _ => hs.exec (fun c r heq => by cases heq)) (fun k hs _ => ?_)
  rw [Kernel.exec, if_pos hs.cgroupV2]
  exact List.mem_cons_self

/-- **The exclusions** cover a chain. -/
theorem triple_exclusions {a : ScriptArgs} (ha : a.excludeCgroup = cgroup) (hne : cgroup ≠ [])
    (c : ChainName) :
    Triple Kernel.exec (Safe cgroup) (HasCgroup cgroup) (addExclusions a c)
      (fun k => Covered cgroup c k ∧ HasCgroup cgroup k) := by
  have huser : Triple Kernel.exec (Safe cgroup) (HasCgroup cgroup)
      (if a.excludeUid = [] then [] else [.append c ⟨[.uid a.excludeUid], .ret⟩])
      (HasCgroup cgroup) := by
    refine triple_mild (fun cmd hcmd => ?_) (fun cmd _ k hk => hk.exec cmd)
    split at hcmd
    · cases hcmd
    · obtain rfl := List.mem_singleton.mp hcmd
      rintro c' r heq
      cases heq
      rfl
  rw [addExclusions, ha, if_neg hne]
  refine huser.append (.single (fun _ hs _ => hs.exec (fun c' r heq => ?_)) (fun k hs hc => ?_))
  · cases heq
    exact .inl rfl
  · exact ⟨covered_exclusion hs hc c, hc.exec _⟩

/-- The rules of the selective chain. -/
theorem mem_redirectCommands {a : ScriptArgs} {cmd : Command} (h : cmd ∈ redirectCommands k a) :
    (∀ c r, cmd = .append c r → c = .selective) ∧ ∀ c, cmd ≠ .newChain c ∧ cmd ≠ .flush c := by
  have hfill : ∀ (lines : List (Str × Str)) (seen : List Str), ∀ cmd ∈ fillSets seen lines,
      (∀ c r, cmd = .append c r → c = .selective) ∧ ∀ c, cmd ≠ .newChain c ∧ cmd ≠ .flush c := by
    intro lines
    induction lines with
    | nil =>
      intro seen cmd hcmd
      cases hcmd
    | cons q rest ih =>
      intro seen cmd hcmd
      rw [fillSets] at hcmd
      rcases List.mem_append.mp hcmd with hcmd | hcmd
      · rcases List.mem_append.mp hcmd with hcmd | hcmd
        · split at hcmd
          · cases hcmd
          · rcases List.mem_cons.mp hcmd with rfl | hcmd
            · simp
            · obtain rfl := List.mem_singleton.mp hcmd
              simp
        · rcases List.mem_cons.mp hcmd with rfl | hcmd
          · simp
          · obtain rfl := List.mem_singleton.mp hcmd
            simp
      · exact ih _ cmd hcmd
  unfold redirectCommands at h
  split at h
  · simp only [List.mem_append, List.mem_map, List.mem_cons, List.not_mem_nil, or_false] at h
    rcases h with ((⟨_, _, rfl⟩ | rfl | rfl) | h) | ⟨_, _, rfl⟩
    · simp
    · simp
    · simp
    · exact hfill _ _ cmd h
    · simp [eq_comm]
  · simp only [List.mem_append, List.mem_map] at h
    rcases h with ⟨_, _, rfl⟩ | ⟨_, _, rfl⟩
    · simp [eq_comm]
    · simp [eq_comm]

theorem triple_quic {a : ScriptArgs} (ha : a.excludeCgroup = cgroup) (hne : cgroup ≠ []) :
    Triple Kernel.exec (Safe cgroup) (HasCgroup cgroup) (quicCommands a) (fun _ => True) := by
  have hrenew : Triple Kernel.exec (Safe cgroup) (HasCgroup cgroup) (renewChain .selectiveQuic)
      (HasCgroup cgroup) :=
    triple_mild (mild_renewChain _) (fun cmd _ k hk => hk.exec cmd)
  have hrules := triple_covered cgroup .selectiveQuic
    ((if a.ipset then
      [.append .selectiveQuic
        ⟨outMatch a ++ [.set allSet, .proto .udp, .dport "443".toList], .drop⟩]
    else
      (specLines a.spec).map (fun q => .append .selectiveQuic
        ⟨outMatch a ++ [.proto .udp, .dst q.2, .dport "443".toList], .drop⟩)) ++
    [.ensureJump .selectiveQuic]) ?_ ?_
  · have hall := (hrenew.append (triple_exclusions ha hne .selectiveQuic)).append hrules
    rw [← List.append_assoc] at hall
    exact hall.consequence (fun _ _ h => h) (fun _ _ => trivial)
  all_goals
    intro cmd hcmd
    split at hcmd
    all_goals
      simp only [List.mem_append, List.mem_singleton, List.mem_map] at hcmd
  · rcases hcmd with rfl | rfl <;> simp [eq_comm]
  · rcases hcmd with ⟨_, _, rfl⟩ | rfl <;> simp [eq_comm]
  · rcases hcmd with rfl | rfl <;> simp
  · rcases hcmd with ⟨_, _, rfl⟩ | rfl <;> simp

/-- **The selective mode** keeps the chains safe wherever it is stopped. -/
theorem safe_startSelective {a : ScriptArgs} (ha : a.excludeCgroup = cgroup) (hne : cgroup ≠ [])
    (k : Kernel) : Triple Kernel.exec (Safe cgroup) (fun _ => True) (startSelectiveCommands k a)
      (fun _ => True) := by
  have hmild : Triple Kernel.exec (Safe cgroup) (HasCgroup cgroup)
      (dropChain .selective ++ dropChain .selectiveQuic ++ renewChain .selective)
      (HasCgroup cgroup) := by
    refine triple_mild (fun cmd hcmd => ?_) (fun cmd _ k hk => hk.exec cmd)
    simp only [List.mem_append] at hcmd
    rcases hcmd with (hcmd | hcmd) | hcmd
    · exact mild_dropChain _ cmd hcmd
    · exact mild_dropChain _ cmd hcmd
    · exact mild_renewChain _ cmd hcmd
  have hrules := triple_covered cgroup .selective
    (redirectCommands k a ++ [.ensureJump .selective]) ?_ ?_
  · have hfront := (((triple_ensure ha hne).append hmild).append
      (triple_exclusions ha hne .selective)).append hrules
    have hquic : Triple Kernel.exec (Safe cgroup)
        (fun k => Covered cgroup .selective k ∧ HasCgroup cgroup k)
        (if a.dropQuic then quicCommands a else []) (fun _ => True) := by
      split
      · exact (triple_quic ha hne).consequence (fun _ _ h => h.2) (fun _ _ => trivial)
      · exact Triple.nil.consequence (fun _ _ _ => trivial) (fun _ _ => trivial)
    have hall := hfront.append hquic
    simp only [← List.append_assoc] at hall
    exact hall
  · intro cmd hcmd c r heq
    rcases List.mem_append.mp hcmd with hcmd | hcmd
    · exact (mem_redirectCommands hcmd).1 c r heq
    · rw [List.mem_singleton.mp hcmd] at heq
      cases heq
  · intro cmd hcmd
    rcases List.mem_append.mp hcmd with hcmd | hcmd
    · exact (mem_redirectCommands hcmd).2 .selective
    · rw [List.mem_singleton.mp hcmd]
      simp

/-- **The whole machine**, likewise. -/
theorem safe_start {a : ScriptArgs} (ha : a.excludeCgroup = cgroup) (hne : cgroup ≠ []) :
    Triple Kernel.exec (Safe cgroup) (fun _ => True) (startCommands a) (fun _ => True) := by
  -- nothing redirects in front of the exclusion, and behind it the own packets have returned
  have huser : Triple Kernel.exec (Safe cgroup) (fun _ => True)
      (renewChain .redirect ++
        (if a.excludeUid = [] then [] else [.append .redirect ⟨[.uid a.excludeUid], .ret⟩]))
      (fun _ => True) := by
    refine triple_mild (fun cmd hcmd => ?_) (fun _ _ _ _ => trivial)
    rcases List.mem_append.mp hcmd with hcmd | hcmd
    · exact mild_renewChain _ cmd hcmd
    · split at hcmd
      · cases hcmd
      · rw [List.mem_singleton.mp hcmd]
        rintro c r heq
        cases heq
        rfl
  have hcgroup : Triple Kernel.exec (Safe cgroup) (HasCgroup cgroup)
      (if a.excludeCgroup = [] then [] else [.append .redirect ⟨[.cgroup a.excludeCgroup], .ret⟩])
      (fun k => Covered cgroup .redirect k ∧ HasCgroup cgroup k) := by
    rw [ha, if_neg hne]
    refine .single (fun k hs _ => hs.exec (fun c r heq => ?_)) (fun k hs hc => ?_)
    · cases heq
      exact .inl rfl
    · exact ⟨covered_exclusion hs hc _, hc.exec _⟩
  have hrules := triple_covered cgroup .redirect
    (reservedNets.map (fun net => .append .redirect ⟨[.dst net], .ret⟩) ++
      (if a.ownIp = [] then []
      else [.append .redirect ⟨[.dst a.ownIp], .ret⟩, .append .redirect ⟨[.src a.ownIp], .ret⟩]) ++
      (if a.redirectPorts = [] then
        [.append .redirect ⟨[.proto .tcp], .redirect a.redirectPort⟩]
      else
        a.redirectPorts.map (fun port =>
          .append .redirect ⟨[.proto .tcp, .dport port], .redirect a.redirectPort⟩)) ++
      [.ensureJump .redirect]) ?_ ?_
  · have hall := ((huser.append (triple_ensure ha hne)).append hcgroup).append hrules
    simp only [← List.append_assoc] at hall
    exact hall.consequence (fun _ _ h => h) (fun _ _ => trivial)
  all_goals
    intro cmd hcmd
    simp only [List.mem_append, List.mem_map] at hcmd
    rcases hcmd with ((⟨_, _, rfl⟩ | hcmd) | hcmd) | hcmd
  · simp [eq_comm]
  · split at hcmd
    · cases hcmd
    · rcases List.mem_cons.mp hcmd with rfl | hcmd
      · simp [eq_comm]
      · rw [List.mem_singleton.mp hcmd]
        simp [eq_comm]
  · split at hcmd
    · rw [List.mem_singleton.mp hcmd]
      simp [eq_comm]
    · obtain ⟨_, _, rfl⟩ := List.mem_map.mp hcmd
      simp [eq_comm]
  · rw [List.mem_singleton.mp hcmd]
    simp
  · simp
  · split at hcmd
    · cases hcmd
    · rcases List.mem_cons.mp hcmd with rfl | hcmd
      · simp
      · rw [List.mem_singleton.mp hcmd]
        simp
  · split at hcmd
    · rw [List.mem_singleton.mp hcmd]
      simp
    · obtain ⟨_, _, rfl⟩ := List.mem_map.mp hcmd
      simp
  · rw [List.mem_singleton.mp hcmd]
    simp

theorem safe_stop (k : Kernel) (ipset : Bool) :
    Triple Kernel.exec (Safe cgroup) (fun _ => True) (stopCommands k ipset) (fun _ => True) := by
  refine triple_mild (fun cmd hcmd => ?_) (fun _ _ _ _ => trivial)
  simp only [stopCommands, List.mem_append] at hcmd
  rcases hcmd with ((hcmd | hcmd) | hcmd) | hcmd
  · exact mild_dropChain _ cmd hcmd
  · exact mild_dropChain _ cmd hcmd
  · exact mild_dropChain _ cmd hcmd
  · split at hcmd
    · obtain ⟨_, _, rfl⟩ := List.mem_map.mp hcmd
      intro c r heq
      cases heq
    · cases hcmd

/-! ### Runs -/

/-- The calls that set up rules all exclude the cgroup. -/
def Excluding (cgroup : Str) : Machine.Guard Kernel KernelOp := fun _ op _ =>
  ∀ script ran, op = .call script ran → ∀ cg ∈ script.excludes?, cg = cgroup

/-- **One step** keeps the chains safe. -/
theorem Safe.perform (h : Safe cgroup k) (hne : cgroup ≠ []) {op : KernelOp}
    (hop : Excluding cgroup k op (k.perform op)) : Safe cgroup (k.perform op) := by
  cases op with
  | call script ran =>
    have hcg := hop script ran rfl
    cases script with
    | start a => exact (safe_start (hcg _ rfl) hne).stopped k h trivial ran
    | startSelective a => exact (safe_startSelective (hcg _ rfl) hne k).stopped k h trivial ran
    | stop ipset => exact (safe_stop k ipset).stopped k h trivial ran
  | others t hook =>
    refine ⟨h.cgroupV2, fun c rules hrules => h.chains c rules ?_⟩
    rwa [Kernel.perform, Ruleset.chains_setOthers] at hrules

theorem Safe.verdict (h : Safe cgroup k) (hp : cgroupPath cgroup ∈ p.cgroups) (t : Table) :
    k.verdict t p = k.foreignVerdict t p := by
  refine Ruleset.decide_eq_others (fun c rules hrules => ?_)
  rcases h.chains c rules hrules with hq | hs
  · exact hq.target _ _
  · exact hs.target _ hp

/-- **The own packets are left to the rules of others**, whatever calls of the script have been
made, and wherever each of them has been stopped. -/
theorem own_traffic {k k' : Kernel} {cgroup : Str} (hclean : k.Clean) (hcgroups : k.cgroupV2 = true)
    (hne : cgroup ≠ []) (hrun : kernelMachine.Reaches (Excluding cgroup) k k') (p : Packet)
    (hp : cgroupPath cgroup ∈ p.cgroups) (t : Table) : k'.verdict t p = k'.foreignVerdict t p := by
  have hsafe : Safe cgroup k' := by
    refine hrun.invariant ⟨hcgroups, fun c rules hrules => ?_⟩ ?_
    · rw [hclean.chains c] at hrules
      cases hrules
    · rintro s op s' hs hstep hop
      obtain rfl : s.perform op = s' := Option.some.inj hstep
      exact hs.perform hne hop
  exact hsafe.verdict hp t

/-- The own connections after `start --selective` was stopped with 20 of its 23 commands done, the
chain for QUIC still empty. -/
theorem own_traffic_stopped :
    (Kernel.fresh.perform (.call (.startSelective oneAddress) 20)).verdict .nat
        (connection ["huntproxy".toList]) =
      (Kernel.fresh.perform (.call (.startSelective oneAddress) 20)).foreignVerdict .nat
        (connection ["huntproxy".toList]) := by
  have hne : oneAddress.excludeCgroup ≠ [] := by decide
  refine own_traffic Kernel.clean_fresh rfl hne (.single rfl ?_) _ (by decide) .nat
  intro script ran hop cg hcg
  cases hop
  exact (Option.some.inj hcg).symm

end HuntProxy.Interception
