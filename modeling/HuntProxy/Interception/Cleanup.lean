import HuntProxy.Interception.Shield

/-!
# Setting up and taking down

A jump to a chain is added only if there is none, so that there never are two; and deleting the
first one is enough. Only the chains of the selective mode use the sets, so that they are free
when these chains are gone. Therefore `stop` leaves nothing behind, whatever has been done
before, and however far it went.

## Main definitions

- `Tidy` — at most one jump to a chain, and the sets are used by the selective mode only

## Main results

- `Tidy.perform` — what a call keeps, wherever it is stopped
- `stop_clean` — what is left after `stop`
-/

namespace HuntProxy.Interception

open PacketFilter Script

/-- At most one jump leads to a chain, from the `OUTPUT` of its table, and the chain for the whole
machine uses no set. -/
structure Tidy (k : Kernel) : Prop where
  jumps : ∀ t c, k.rules.jumps t c ≤ if t = homeTable c then 1 else 0
  redirect : ∀ rules, k.rules.chains .redirect = some rules →
    ∀ r ∈ rules, ∀ name, Match.set name ∉ r.conds

/-- The command appends no rule with a set to the chain for the whole machine. -/
def Command.Plain (cmd : Command) : Prop :=
  ∀ r, cmd = .append .redirect r → ∀ name, Match.set name ∉ r.conds

variable {k : Kernel}

theorem jumps_exec (k : Kernel) {cmd : Command} (h : ∀ c, cmd ≠ .deleteJump c ∧ cmd ≠ .ensureJump c)
    (t : Table) (c : ChainName) : (k.exec cmd).rules.jumps t c = k.rules.jumps t c := by
  cases cmd with
  | deleteJump c' => exact absurd rfl (h c').1
  | ensureJump c' => exact absurd rfl (h c').2
  | newChain c' => exact Ruleset.jumps_of_hooks _ _ _ (Ruleset.hooks_newChain _ _)
  | flush c' => exact Ruleset.jumps_of_hooks _ _ _ (Ruleset.hooks_flush _ _)
  | deleteChain c' => exact Ruleset.jumps_of_hooks _ _ _ (Ruleset.hooks_deleteChain _ _ _)
  | append c' r =>
    rw [Kernel.exec]
    split
    · exact Ruleset.jumps_of_hooks _ _ _ (Ruleset.hooks_append _ _ _)
    · rfl
  | createSet | flushSet | addIp | destroySet | makeCgroup => rw [Kernel.rules_exec k trivial]

/-- **One command** keeps the jumps single. -/
theorem Tidy.exec (h : Tidy k) {cmd : Command} (hcmd : cmd.Plain) : Tidy (k.exec cmd) := by
  constructor
  · intro t c
    have hold := h.jumps t c
    cases cmd with
    | deleteJump c' =>
      rw [Kernel.exec, Ruleset.jumps_deleteJump]
      omega
    | ensureJump c' =>
      rw [Kernel.exec, Ruleset.jumps_ensureJump]
      split
      · next hnew => rw [if_pos (hnew.2.1 ▸ hnew.1)]
      · exact hold
    | newChain | flush | deleteChain | append | createSet | flushSet | addIp | destroySet
      | makeCgroup => exact (jumps_exec k (fun _ => by simp) t c).le.trans hold
  · intro rules hrules
    cases cmd with
    | newChain c' =>
      rw [Kernel.exec, Ruleset.chains_newChain] at hrules
      split at hrules
      · next hc =>
        subst hc
        cases hold : k.rules.chains .redirect with
        | none =>
          rw [hold] at hrules
          obtain rfl : [] = rules := Option.some.inj hrules
          exact List.forall_mem_nil _
        | some old =>
          rw [hold] at hrules
          obtain rfl : old = rules := Option.some.inj hrules
          exact h.redirect old hold
      · exact h.redirect rules hrules
    | flush c' =>
      rw [Kernel.exec, Ruleset.chains_flush] at hrules
      split at hrules
      · obtain ⟨_, -, rfl⟩ := Option.map_eq_some_iff.mp hrules
        exact List.forall_mem_nil _
      · exact h.redirect rules hrules
    | append c' r =>
      rw [chains_append] at hrules
      split at hrules
      · next hc =>
        obtain ⟨old, hold, rfl⟩ := Option.map_eq_some_iff.mp hrules
        intro r' hr'
        rcases List.mem_append.mp hr' with hr' | hr'
        · exact h.redirect old (by rw [hc.1]; exact hold) r' hr'
        · rw [List.mem_singleton.mp hr']
          exact hcmd r (by rw [hc.1])
      · exact h.redirect rules hrules
    | deleteJump | deleteChain | ensureJump | createSet | flushSet | addIp | destroySet | makeCgroup =>
      exact h.redirect rules (chains_exec_of_other k (fun _ => by simp) (fun _ => by simp)
        (fun _ _ => by simp) hrules)

/-! ### Calls of the script -/

theorem Command.Plain.of_ne {cmd : Command} (h : ∀ r, cmd ≠ .append .redirect r) : cmd.Plain :=
  fun r heq => absurd heq (h r)

theorem plain_exclusions (a : ScriptArgs) (c : ChainName) :
    ∀ cmd ∈ addExclusions a c, cmd.Plain := by
  intro cmd hcmd r heq name hname
  subst heq
  simp only [addExclusions, List.mem_append] at hcmd
  rcases hcmd with hcmd | hcmd
  all_goals
    split at hcmd
    · cases hcmd
    · cases List.mem_singleton.mp hcmd
      simp at hname

theorem plain_startSelective (k : Kernel) (a : ScriptArgs) :
    ∀ cmd ∈ startSelectiveCommands k a, cmd.Plain := by
  intro cmd hcmd
  have hdrop : ∀ c, cmd ∈ dropChain c → cmd.Plain := fun c hmem =>
    .of_ne (fun r heq => by simp [dropChain, heq] at hmem)
  have hrenew : ∀ c, cmd ∈ renewChain c → cmd.Plain := fun c hmem =>
    .of_ne (fun r heq => by simp [renewChain, heq] at hmem)
  simp only [startSelectiveCommands, List.mem_append] at hcmd
  rcases hcmd with ((((((hcmd | hcmd) | hcmd) | hcmd) | hcmd) | hcmd) | hcmd) | hcmd
  · unfold ensureExcludeCgroup at hcmd
    split at hcmd
    · cases hcmd
    · exact .of_ne (by simp [List.mem_singleton.mp hcmd])
  · exact hdrop _ hcmd
  · exact hdrop _ hcmd
  · exact hrenew _ hcmd
  · exact plain_exclusions a _ cmd hcmd
  · exact .of_ne (fun r heq => by cases (mem_redirectCommands hcmd).1 _ r heq)
  · exact .of_ne (by simp [List.mem_singleton.mp hcmd])
  · split at hcmd
    · simp only [quicCommands, List.mem_append] at hcmd
      rcases hcmd with ((hcmd | hcmd) | hcmd) | hcmd
      · exact hrenew _ hcmd
      · exact plain_exclusions a _ cmd hcmd
      · refine .of_ne (fun r heq => ?_)
        subst heq
        split at hcmd
        · simp at hcmd
        · simp at hcmd
      · exact .of_ne (by simp [List.mem_singleton.mp hcmd])
    · cases hcmd

theorem plain_start (a : ScriptArgs) : ∀ cmd ∈ startCommands a, cmd.Plain := by
  intro cmd hcmd r heq name hname
  subst heq
  simp only [startCommands, List.mem_append, List.mem_map] at hcmd
  rcases hcmd with ((((((hcmd | hcmd) | hcmd) | hcmd) | ⟨_, _, hcmd⟩) | hcmd) | hcmd) | hcmd
  · simp [renewChain] at hcmd
  · split at hcmd
    · cases hcmd
    · cases List.mem_singleton.mp hcmd
      simp at hname
  · unfold ensureExcludeCgroup at hcmd
    split at hcmd
    · cases hcmd
    · simp at hcmd
  · split at hcmd
    · cases hcmd
    · cases List.mem_singleton.mp hcmd
      simp at hname
  · cases hcmd
    simp at hname
  · split at hcmd
    · cases hcmd
    · rcases List.mem_cons.mp hcmd with hcmd | hcmd
      · cases hcmd
        simp at hname
      · cases List.mem_singleton.mp hcmd
        simp at hname
  · split at hcmd
    · cases List.mem_singleton.mp hcmd
      simp at hname
    · obtain ⟨_, -, hcmd⟩ := List.mem_map.mp hcmd
      cases hcmd
      simp at hname
  · simp at hcmd

theorem plain_stop (k : Kernel) (ipset : Bool) : ∀ cmd ∈ stopCommands k ipset, cmd.Plain := by
  intro cmd hcmd
  refine .of_ne (fun r heq => ?_)
  subst heq
  simp only [stopCommands, List.mem_append] at hcmd
  rcases hcmd with ((hcmd | hcmd) | hcmd) | hcmd
  · simp [dropChain] at hcmd
  · simp [dropChain] at hcmd
  · simp [dropChain] at hcmd
  · split at hcmd
    · simp at hcmd
    · cases hcmd

theorem triple_tidy {cmds : List Command} (h : ∀ cmd ∈ cmds, cmd.Plain) :
    Triple Kernel.exec Tidy (fun _ => True) cmds (fun _ => True) :=
  .each (fun cmd hcmd _ hs _ => ⟨hs.exec (h cmd hcmd), trivial⟩)

/-- **One step** keeps the kernel tidy. -/
theorem Tidy.perform (h : Tidy k) (op : KernelOp) : Tidy (k.perform op) := by
  cases op with
  | call script ran =>
    cases script with
    | start a => exact (triple_tidy (plain_start a)).stopped k h trivial ran
    | startSelective a => exact (triple_tidy (plain_startSelective k a)).stopped k h trivial ran
    | stop ipset => exact (triple_tidy (plain_stop k ipset)).stopped k h trivial ran
  | others t hook =>
    constructor
    · intro t' c
      rw [Kernel.perform, Ruleset.jumps_setOthers]
      exact h.jumps t' c
    · intro rules hrules
      rw [Kernel.perform, Ruleset.chains_setOthers] at hrules
      exact h.redirect rules hrules

theorem Kernel.Clean.tidy (h : k.Clean) : Tidy k := by
  refine ⟨fun t c => by rw [h.jumps t c]; exact Nat.zero_le _, fun rules hrules => ?_⟩
  rw [h.chains .redirect] at hrules
  cases hrules

theorem tidy_of_reaches {k k' : Kernel} (hclean : k.Clean)
    (hrun : kernelMachine.Reaches Machine.anyStep k k') : Tidy k' := by
  refine hrun.invariant hclean.tidy ?_
  rintro s op s' hs hstep -
  obtain rfl : s.perform op = s' := Option.some.inj hstep
  exact hs.perform op

/-! ### What `stop` leaves -/

theorem execAll_append (k : Kernel) (cmds cmds' : List Command) :
    k.execAll (cmds ++ cmds') = (k.execAll cmds).execAll cmds' :=
  List.foldl_append

theorem execAll_dropChain (k : Kernel) (c : ChainName) :
    k.execAll (dropChain c) = { k with rules := k.rules.remove (homeTable c) c } := rfl

/-- The jumps and the chains after a chain has been dropped. -/
theorem Tidy.dropChain (h : Tidy k) (c : ChainName) :
    Tidy (k.execAll (dropChain c)) ∧
      (∀ c', (k.execAll (Interception.dropChain c)).rules.chains c' =
        if c' = c then none else k.rules.chains c') ∧
      ∀ t c', (k.execAll (Interception.dropChain c)).rules.jumps t c' =
        if c' = c then 0 else k.rules.jumps t c' := by
  have hplain : ∀ cmd ∈ Interception.dropChain c, cmd.Plain := by
    simp [Interception.dropChain, Command.Plain]
  refine ⟨(triple_tidy hplain).last k h trivial, fun c' => ?_, fun t c' => ?_⟩
  · rw [execAll_dropChain]
    refine Ruleset.chains_remove _ ((h.jumps _ c).trans ?_)
    rw [if_pos rfl]
  · rw [execAll_dropChain]
    show (k.rules.remove (homeTable c) c).jumps t c' = _
    rw [Ruleset.jumps_remove]
    have hold := h.jumps t c'
    by_cases hc : c' = c
    · subst hc
      rw [if_pos rfl]
      by_cases ht : t = homeTable c'
      · rw [if_pos ht] at hold
        rw [if_pos ⟨ht, rfl⟩]
        omega
      · rw [if_neg ht] at hold
        omega
    · simp [hc]

/-- No rule uses a set when the chains of the selective mode have none. -/
theorem uses_false (h : Tidy k) (hsel : ∀ rules, k.rules.chains .selective = some rules →
      ∀ r ∈ rules, ∀ name, Match.set name ∉ r.conds)
    (hquic : k.rules.chains .selectiveQuic = none) (name : Str) : k.uses name = false := by
  have hchain : ∀ c, (∀ rules, k.rules.chains c = some rules →
      ∀ r ∈ rules, ∀ name, Match.set name ∉ r.conds) → (k.rules.chains c).any
        (fun rules => rules.any (fun r => r.conds.contains (.set name))) = false := by
    intro c hc
    cases hrules : k.rules.chains c with
    | none => rfl
    | some rules =>
      rw [Option.any_some, List.any_eq_false]
      intro r hr
      rw [List.contains_iff_mem]
      exact hc rules hrules r hr name
  rw [Kernel.uses, List.any_cons, List.any_cons, List.any_cons, hchain _ h.redirect,
    hchain _ hsel, hquic]
  rfl

/-- Sets that are free are destroyed. -/
theorem execAll_destroy (names : List Str) (hfree : ∀ name, k.uses name = false) :
    k.execAll (names.map .destroySet) = { k with sets := k.sets.eraseAll names } := by
  induction names generalizing k with
  | nil => rfl
  | cons name rest ih =>
    have hstep : k.exec (.destroySet name) = { k with sets := k.sets.erase name } := by
      rw [Kernel.exec, hfree name, if_neg Bool.false_ne_true]
    show (k.exec (.destroySet name)).execAll (rest.map .destroySet) = _
    rw [hstep]
    exact ih hfree

/-- The sets whose names begin with a stem are erased. -/
theorem get?_eraseStem (d : Dict Str (List ℕ)) (stem name : Str) :
    (d.eraseAll (d.keys.filter (fun name => stem.isPrefixOf name))).get? name =
      if stem.isPrefixOf name then none else d.get? name := by
  rw [Dict.get?_eraseAll]
  by_cases hstem : stem.isPrefixOf name = true
  · by_cases hkey : name ∈ d.keys
    · rw [if_pos (List.mem_filter.mpr ⟨hkey, hstem⟩), if_pos hstem]
    · rw [if_neg (fun hmem => hkey (List.mem_filter.mp hmem).1), if_pos hstem,
        Dict.get?_of_notMem_keys hkey]
  · rw [if_neg (fun hmem => hstem (List.mem_filter.mp hmem).2), if_neg hstem]

/-- **`stop` leaves only the rules of others**, in their order, and no set of ours. -/
theorem stop_clean {k k' : Kernel} (hclean : k.Clean)
    (hrun : kernelMachine.Reaches Machine.anyStep k k') (ipset : Bool) :
    (∀ c, (k'.execAll (stopCommands k' ipset)).rules.chains c = none) ∧
      (∀ t, (k'.execAll (stopCommands k' ipset)).rules.hooks t =
        (k'.rules.others t).map Entry.other) ∧
      (ipset = true → ∀ name, (k'.execAll (stopCommands k' ipset)).sets.get? name =
        if "huntproxy_sel".toList.isPrefixOf name then none else k'.sets.get? name) := by
  -- the three chains go one after the other, each with its jumps
  obtain ⟨htidy₁, hchains₁, hjumps₁⟩ := (tidy_of_reaches hclean hrun).dropChain .redirect
  obtain ⟨htidy₂, hchains₂, hjumps₂⟩ := htidy₁.dropChain .selective
  obtain ⟨htidy₃, hchains₃, hjumps₃⟩ := htidy₂.dropChain .selectiveQuic
  generalize hk₃ : ((k'.execAll (dropChain .redirect)).execAll (dropChain .selective)).execAll
    (dropChain .selectiveQuic) = k₃ at htidy₃ hchains₃ hjumps₃
  have hnone : ∀ c, k₃.rules.chains c = none := by
    intro c
    rw [hchains₃, hchains₂, hchains₁]
    cases c <;> simp
  have hzero : ∀ t c, k₃.rules.jumps t c = 0 := by
    intro t c
    rw [hjumps₃, hjumps₂, hjumps₁]
    cases c <;> simp
  have hothers : ∀ t, k₃.rules.others t = k'.rules.others t := by
    intro t
    rw [← hk₃]
    simp only [execAll_dropChain, Ruleset.others_remove]
  have hsets : k₃.sets = k'.sets := by
    rw [← hk₃]
    rfl
  have hlast : k'.execAll (stopCommands k' ipset) =
      k₃.execAll (if ipset then (everySet k').map .destroySet else []) := by
    rw [stopCommands, execAll_append, execAll_append, execAll_append, hk₃]
  rw [hlast]
  have hfree : ∀ name, k₃.uses name = false :=
    uses_false htidy₃ (fun rules hrules => by rw [hnone] at hrules; cases hrules) (hnone _)
  cases ipset with
  | false =>
    refine ⟨hnone, fun t => ?_, fun h => absurd h Bool.false_ne_true⟩
    rw [← hothers t]
    exact Ruleset.hooks_eq_others _ _ (hzero t)
  | true =>
    rw [if_pos rfl, execAll_destroy _ hfree]
    refine ⟨hnone, fun t => ?_, fun _ name => ?_⟩
    · rw [← hothers t]
      exact Ruleset.hooks_eq_others _ _ (hzero t)
    · show (k₃.sets.eraseAll (everySet k')).get? name = _
      rw [everySet, hsets]
      exact get?_eraseStem _ _ _

theorem stop_clean_started :
    ((Kernel.fresh.perform (.call (.startSelective oneAddress) 20)).execAll
      (stopCommands (Kernel.fresh.perform (.call (.startSelective oneAddress) 20)) true)).rules.chains
        .selective = none ∧
    ((Kernel.fresh.perform (.call (.startSelective oneAddress) 20)).execAll
      (stopCommands (Kernel.fresh.perform (.call (.startSelective oneAddress) 20)) true)).rules.hooks
        .nat = [] := by
  have hstarted : kernelMachine.Reaches Machine.anyStep Kernel.fresh
      (Kernel.fresh.perform (.call (.startSelective oneAddress) 20)) := .single rfl trivial
  obtain ⟨hchains, hhooks, -⟩ := stop_clean Kernel.clean_fresh hstarted true
  exact ⟨hchains .selective, hhooks .nat⟩

end HuntProxy.Interception
