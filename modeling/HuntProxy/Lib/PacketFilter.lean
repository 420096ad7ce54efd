import Mathlib.Data.List.Basic
import Mathlib.Logic.Function.Basic

/-!
# Chains of rules

A packet filter has hooks, through which packets pass, and named chains of rules. A hook is a
list of jumps to chains and of rules of others. In a chain the first rule whose conditions all
hold of a packet has its say: it decides the fate of the packet, or sends it back to the hook,
where it goes on.

## Main definitions

- `Rule`, `target` — the first rule that applies
- `Ruleset` — the hooks and the chains, with the commands that change them
- `Ruleset.decide` — what the hook of a chain decides about a packet

## Main results

- `target_append`, `target_uniform` — the target in parts of a chain
- `Ruleset.jumpsTo_remove`, `Ruleset.decide_remove` — taking a chain out
- `Ruleset.decide_eq_others` — a filter whose chains decide nothing
-/

namespace HuntProxy.PacketFilter

/-- The conditions of a rule, and what becomes of a packet that meets all of them. -/
structure Rule (μ τ : Type*) where
  conds : List μ
  target : τ
  deriving DecidableEq

section

variable {μ τ π : Type*} (holds : μ → π → Bool)

/-- The packet meets all conditions. -/
def Rule.applies (r : Rule μ τ) (p : π) : Bool := r.conds.all (fun m => holds m p)

/-- The target of the first rule that applies. -/
def target (rules : List (Rule μ τ)) (p : π) : Option τ :=
  (rules.find? (fun r => r.applies holds p)).map Rule.target

variable {holds}

@[simp] theorem target_nil (p : π) : target holds ([] : List (Rule μ τ)) p = none := rfl

theorem target_cons (r : Rule μ τ) (rules : List (Rule μ τ)) (p : π) :
    target holds (r :: rules) p =
      if r.applies holds p = true then some r.target else target holds rules p := by
  unfold target
  rw [List.find?_cons]
  split
  · next h => rw [if_pos h]; rfl
  · next h => rw [if_neg (by simp [h])]

theorem target_append (l l' : List (Rule μ τ)) (p : π) :
    target holds (l ++ l') p = (target holds l p).or (target holds l' p) := by
  unfold target
  rw [List.find?_append]
  cases List.find? (fun r => r.applies holds p) l with
  | none => simp
  | some r => simp

/-- Rules with one target. -/
theorem target_uniform {rules : List (Rule μ τ)} {t : τ} (h : ∀ r ∈ rules, r.target = t) (p : π) :
    target holds rules p =
      if rules.any (fun r => r.applies holds p) = true then some t else none := by
  induction rules with
  | nil => rfl
  | cons r rest ih =>
    obtain ⟨hr, hrest⟩ := List.forall_mem_cons.mp h
    rw [target_cons, ih hrest, List.any_cons, hr]
    cases r.applies holds p <;> simp

end

/-! ### Hooks and chains -/

/-- An entry of a hook: a jump to a chain, or a rule of someone else. -/
inductive Entry (χ ρ : Type*)
  | jump (c : χ)
  | other (r : ρ)

namespace Entry

variable {χ ρ : Type*}

/-- The rule of someone else, if it is one. -/
def other? : Entry χ ρ → Option ρ
  | jump _ => none
  | other r => some r

/-- The chain to which it jumps, if it does. -/
def jump? : Entry χ ρ → Option χ
  | jump c => some c
  | other _ => none

/-- Whether it is the jump to a chain. -/
def jumpsTo [DecidableEq χ] (c : χ) : Entry χ ρ → Bool
  | jump c' => c' = c
  | other _ => false

end Entry

/-- The hooks, and the chains that there are. -/
structure Ruleset (η χ μ τ ρ : Type*) where
  hooks : η → List (Entry χ ρ)
  chains : χ → Option (List (Rule μ τ))

namespace Ruleset

variable {η χ μ τ ρ π ν : Type*}

/-- The rules of others in a hook. -/
def others (s : Ruleset η χ μ τ ρ) (t : η) : List ρ := (s.hooks t).filterMap Entry.other?

variable [DecidableEq χ]

/-- How often a hook jumps to a chain. -/
def jumps (s : Ruleset η χ μ τ ρ) (t : η) (c : χ) : ℕ := (s.hooks t).countP (Entry.jumpsTo c)

/-- Others change their rules in a hook. -/
def setOthers [DecidableEq η] (s : Ruleset η χ μ τ ρ) (t : η) (hook : List (Entry χ ρ)) :
    Ruleset η χ μ τ ρ :=
  if hook.filterMap Entry.jump? = (s.hooks t).filterMap Entry.jump? then
    { s with hooks := Function.update s.hooks t hook }
  else s

/-- A change of one chain. -/
def setChain (s : Ruleset η χ μ τ ρ) (c : χ) (rules : Option (List (Rule μ τ))) :
    Ruleset η χ μ τ ρ :=
  { s with chains := Function.update s.chains c rules }

/-- Create a chain; one that exists stays. -/
def newChain (s : Ruleset η χ μ τ ρ) (c : χ) : Ruleset η χ μ τ ρ :=
  s.setChain c ((s.chains c).or (some []))

/-- Empty a chain. -/
def flush (s : Ruleset η χ μ τ ρ) (c : χ) : Ruleset η χ μ τ ρ :=
  s.setChain c ((s.chains c).map (fun _ => []))

/-- Append a rule to a chain. -/
def append (s : Ruleset η χ μ τ ρ) (c : χ) (r : Rule μ τ) : Ruleset η χ μ τ ρ :=
  s.setChain c ((s.chains c).map (fun rules => rules ++ [r]))

/-- Delete a chain that is empty and to which its hook does not jump. -/
def deleteChain (s : Ruleset η χ μ τ ρ) (t : η) (c : χ) : Ruleset η χ μ τ ρ :=
  if (s.chains c).any List.isEmpty = true ∧ s.jumps t c = 0 then s.setChain c none else s

/-- Delete the first jump to a chain. -/
def deleteJump [DecidableEq η] (s : Ruleset η χ μ τ ρ) (t : η) (c : χ) : Ruleset η χ μ τ ρ :=
  { s with hooks := Function.update s.hooks t ((s.hooks t).eraseP (Entry.jumpsTo c)) }

/-- Append a jump to a chain that exists, if there is none. -/
def ensureJump [DecidableEq η] (s : Ruleset η χ μ τ ρ) (t : η) (c : χ) : Ruleset η χ μ τ ρ :=
  if s.jumps t c = 0 ∧ (s.chains c).isSome = true then
    { s with hooks := Function.update s.hooks t (s.hooks t ++ [.jump c]) }
  else s

/-- What an entry of a hook decides about a packet. -/
def fateOf (s : Ruleset η χ μ τ ρ) (holds : μ → π → Bool) (verdict : τ → Option ν)
    (foreign : ρ → π → Option ν) (p : π) : Entry χ ρ → Option ν
  | .jump c => (s.chains c).bind (fun rules => (target holds rules p).bind verdict)
  | .other r => foreign r p

/-- What a hook decides about a packet: what the first of its entries decides that decides
anything. -/
def decide (s : Ruleset η χ μ τ ρ) (holds : μ → π → Bool) (verdict : τ → Option ν)
    (foreign : ρ → π → Option ν) (t : η) (p : π) : Option ν :=
  (s.hooks t).findSome? (s.fateOf holds verdict foreign p)

/-! ### What the commands change -/

variable (s : Ruleset η χ μ τ ρ) (t t' : η) (c c' : χ)

@[simp] theorem hooks_setChain (rules : Option (List (Rule μ τ))) :
    (s.setChain c rules).hooks = s.hooks := rfl

@[simp] theorem chains_setChain (rules : Option (List (Rule μ τ))) :
    (s.setChain c rules).chains c' = if c' = c then rules else s.chains c' :=
  Function.update_apply s.chains c rules c'

@[simp] theorem hooks_newChain : (s.newChain c).hooks = s.hooks := rfl
@[simp] theorem hooks_flush : (s.flush c).hooks = s.hooks := rfl
@[simp] theorem hooks_append (r : Rule μ τ) : (s.append c r).hooks = s.hooks := rfl

@[simp] theorem hooks_deleteChain : (s.deleteChain t c).hooks = s.hooks := by
  unfold deleteChain
  split <;> rfl

@[simp] theorem chains_newChain : (s.newChain c).chains c' =
    if c' = c then (s.chains c).or (some []) else s.chains c' := chains_setChain ..

@[simp] theorem chains_flush : (s.flush c).chains c' =
    if c' = c then (s.chains c).map (fun _ => []) else s.chains c' := chains_setChain ..

@[simp] theorem chains_append (r : Rule μ τ) : (s.append c r).chains c' =
    if c' = c then (s.chains c).map (fun rules => rules ++ [r]) else s.chains c' :=
  chains_setChain ..

theorem chains_deleteChain : (s.deleteChain t c).chains c' =
    if c' = c ∧ (s.chains c).any List.isEmpty = true ∧ s.jumps t c = 0 then none
    else s.chains c' := by
  unfold deleteChain
  by_cases h : (s.chains c).any List.isEmpty = true ∧ s.jumps t c = 0
  · rw [if_pos h, chains_setChain]
    by_cases hc : c' = c <;> simp [hc, h]
  · rw [if_neg h, if_neg (fun hall => h hall.2)]

/-- A chain that a deletion leaves is the old one. -/
theorem chains_of_deleteChain {rules : List (Rule μ τ)}
    (h : (s.deleteChain t c).chains c' = some rules) : s.chains c' = some rules := by
  rw [chains_deleteChain] at h
  split at h
  · cases h
  · exact h

section

variable [DecidableEq η]

@[simp] theorem chains_deleteJump : (s.deleteJump t c).chains = s.chains := rfl

@[simp] theorem chains_ensureJump : (s.ensureJump t c).chains = s.chains := by
  unfold ensureJump
  split <;> rfl

theorem hooks_deleteJump : (s.deleteJump t c).hooks t' =
    if t' = t then (s.hooks t).eraseP (Entry.jumpsTo c) else s.hooks t' :=
  Function.update_apply s.hooks t _ t'

theorem hooks_ensureJump : (s.ensureJump t c).hooks t' =
    if t' = t ∧ s.jumps t c = 0 ∧ (s.chains c).isSome = true then s.hooks t ++ [.jump c]
    else s.hooks t' := by
  unfold ensureJump
  by_cases h : s.jumps t c = 0 ∧ (s.chains c).isSome = true
  · rw [if_pos h]
    refine (Function.update_apply s.hooks t _ t').trans ?_
    by_cases ht : t' = t <;> simp [ht, h]
  · rw [if_neg h, if_neg (fun hall => h hall.2)]

/-! ### Jumps and the rules of others -/

theorem other?_of_jumpsTo {e : Entry χ ρ} (h : e.jumpsTo c = true) : e.other? = none := by
  cases e with
  | jump => rfl
  | other => cases h

theorem filterMap_eraseP (l : List (Entry χ ρ)) :
    (l.eraseP (Entry.jumpsTo c)).filterMap Entry.other? = l.filterMap Entry.other? := by
  induction l with
  | nil => rfl
  | cons e rest ih =>
    cases h : e.jumpsTo c with
    | true => rw [List.eraseP_cons_of_pos h, List.filterMap_cons, other?_of_jumpsTo c h]
    | false =>
      rw [List.eraseP_cons_of_neg (by simp [h]), List.filterMap_cons, List.filterMap_cons, ih]

theorem eq_jump_of_jumpsTo {e : Entry χ ρ} (h : e.jumpsTo c = true) : e = .jump c := by
  cases e with
  | jump d => rw [of_decide_eq_true (p := d = c) h]
  | other => cases h

theorem countP_eraseP (l : List (Entry χ ρ)) : (l.eraseP (Entry.jumpsTo c)).countP (Entry.jumpsTo c') =
    l.countP (Entry.jumpsTo c') - if c' = c then 1 else 0 := by
  induction l with
  | nil => simp
  | cons e rest ih =>
    cases h : e.jumpsTo c with
    | true =>
      rw [List.eraseP_cons_of_pos h, eq_jump_of_jumpsTo c h, List.countP_cons]
      by_cases hc : c' = c
      · simp [Entry.jumpsTo, hc]
      · simp [Entry.jumpsTo, hc, Ne.symm hc]
    | false =>
      rw [List.eraseP_cons_of_neg (by simp [h]), List.countP_cons, List.countP_cons, ih]
      by_cases hc : c' = c
      · subst hc
        simp [h]
      · simp [hc]

@[simp] theorem others_deleteJump : (s.deleteJump t c).others t' = s.others t' := by
  unfold others
  rw [hooks_deleteJump]
  split
  · next ht => rw [filterMap_eraseP, ht]
  · rfl

@[simp] theorem others_ensureJump : (s.ensureJump t c).others t' = s.others t' := by
  unfold others
  rw [hooks_ensureJump]
  split
  · next h => simp [h.1, Entry.other?]
  · rfl

theorem jumps_deleteJump : (s.deleteJump t c).jumps t' c' =
    s.jumps t' c' - if t' = t ∧ c' = c then 1 else 0 := by
  unfold jumps
  rw [hooks_deleteJump]
  by_cases ht : t' = t
  · rw [if_pos ht, countP_eraseP, ht]
    simp
  · simp [ht]

theorem jumps_ensureJump : (s.ensureJump t c).jumps t' c' =
    if t' = t ∧ c' = c ∧ s.jumps t c = 0 ∧ (s.chains c).isSome = true then 1 else s.jumps t' c' := by
  unfold jumps
  rw [hooks_ensureJump]
  by_cases h : t' = t ∧ s.jumps t c = 0 ∧ (s.chains c).isSome = true
  · obtain ⟨rfl, hzero, hsome⟩ := h
    rw [if_pos ⟨rfl, hzero, hsome⟩, List.countP_append]
    by_cases hc : c' = c
    · subst hc
      rw [if_pos ⟨rfl, rfl, hzero, hsome⟩]
      have hz : List.countP (Entry.jumpsTo c') (s.hooks t') = 0 := hzero
      simp [hz, Entry.jumpsTo]
    · simp [hc, Entry.jumpsTo, Ne.symm hc]
  · rw [if_neg h, if_neg (fun hall => h ⟨hall.1, hall.2.2⟩)]

omit [DecidableEq η] in
@[simp] theorem jumps_of_hooks {s' : Ruleset η χ μ τ ρ} (h : s'.hooks = s.hooks) :
    s'.jumps t c = s.jumps t c := by
  unfold jumps
  rw [h]

theorem countP_jumpsTo (l : List (Entry χ ρ)) :
    l.countP (Entry.jumpsTo c) = (l.filterMap Entry.jump?).count c := by
  induction l with
  | nil => rfl
  | cons e rest ih =>
    rw [List.countP_cons, ih]
    cases e with
    | jump d => simp [Entry.jump?, Entry.jumpsTo, List.count_cons]
    | other r =>
      show _ + 0 = List.count c (rest.filterMap Entry.jump?)
      rw [Nat.add_zero]

@[simp] theorem jumps_setOthers (hook : List (Entry χ ρ)) :
    (s.setOthers t hook).jumps t' c' = s.jumps t' c' := by
  unfold setOthers
  split
  · next h =>
    have hcount : hook.countP (Entry.jumpsTo c') = (s.hooks t).countP (Entry.jumpsTo c') := by
      rw [countP_jumpsTo, countP_jumpsTo, h]
    show (Function.update s.hooks t hook t').countP (Entry.jumpsTo c') = (s.hooks t').countP _
    rw [Function.update_apply]
    split
    · next ht => rw [ht, hcount]
    · rfl
  · rfl

@[simp] theorem chains_setOthers (hook : List (Entry χ ρ)) :
    (s.setOthers t hook).chains = s.chains := by
  unfold setOthers
  split <;> rfl

omit [DecidableEq χ] [DecidableEq η] in
/-- Entries without jumps are the rules of others. -/
theorem eq_map_other {l : List (Entry χ ρ)} (h : ∀ c, Entry.jump c ∉ l) :
    l = (l.filterMap Entry.other?).map Entry.other := by
  induction l with
  | nil => rfl
  | cons e rest ih =>
    have hrest := ih (fun c hc => h c (List.mem_cons_of_mem e hc))
    cases e with
    | jump c => exact absurd List.mem_cons_self (h c)
    | other r =>
      show Entry.other r :: rest = Entry.other r :: (rest.filterMap Entry.other?).map Entry.other
      rw [← hrest]

omit [DecidableEq η] in
theorem jump_notMem (h : s.jumps t c = 0) : Entry.jump c ∉ s.hooks t := by
  intro hmem
  exact absurd (List.countP_eq_zero.mp h _ hmem) (by simp [Entry.jumpsTo])

omit [DecidableEq η] in
/-- A hook without jumps has the rules of others. -/
theorem hooks_eq_others (h : ∀ c, s.jumps t c = 0) :
    s.hooks t = (s.others t).map Entry.other :=
  eq_map_other (fun c => s.jump_notMem t c (h c))

/-! ### Taking a chain out and putting it back -/

/-- Delete the jump to a chain, empty it and delete it. -/
def remove : Ruleset η χ μ τ ρ := ((s.deleteJump t c).flush c).deleteChain t c

variable {s t c}

@[simp] theorem others_remove : (s.remove t c).others t' = s.others t' := by
  have h : (s.remove t c).others t' = (s.deleteJump t c).others t' := by
    rw [remove, others, others, hooks_deleteChain, hooks_flush]
  rw [h, others_deleteJump]

theorem jumps_remove : (s.remove t c).jumps t' c' =
    s.jumps t' c' - if t' = t ∧ c' = c then 1 else 0 := by
  have h : (s.remove t c).jumps t' c' = (s.deleteJump t c).jumps t' c' := by
    rw [remove, jumps, jumps, hooks_deleteChain, hooks_flush]
  rw [h, jumps_deleteJump]

/-- A chain to which there is at most one jump is gone. -/
theorem chains_remove (h : s.jumps t c ≤ 1) : (s.remove t c).chains c' =
    if c' = c then none else s.chains c' := by
  have hzero : ((s.deleteJump t c).flush c).jumps t c = 0 := by
    have hjump := jumps_deleteJump s t t c c
    rw [if_pos ⟨rfl, rfl⟩] at hjump
    rw [jumps_of_hooks (s.deleteJump t c) t c (hooks_flush _ _), hjump]
    omega
  rw [remove, chains_deleteChain, hzero]
  by_cases hc : c' = c
  · subst hc
    cases hs : s.chains c' <;> simp [hs]
  · simp [hc]

end

/-! ### Decisions -/

variable {s t c} {holds : μ → π → Bool} {verdict : τ → Option ν} {foreign : ρ → π → Option ν} {p : π}

omit [DecidableEq χ] in
/-- Entries that are rules of others, or jumps to chains that decide nothing. -/
theorem findSome?_fateOf {l : List (Entry χ ρ)}
    (h : ∀ c, Entry.jump c ∈ l → s.fateOf holds verdict foreign p (.jump c) = none) :
    l.findSome? (s.fateOf holds verdict foreign p) =
      (l.filterMap Entry.other?).findSome? (fun r => foreign r p) := by
  induction l with
  | nil => rfl
  | cons e rest ih =>
    rw [List.findSome?_cons, ih (fun c hc => h c (List.mem_cons_of_mem e hc)), List.filterMap_cons]
    cases e with
    | jump c =>
      rw [h c List.mem_cons_self]
      rfl
    | other r =>
      simp only [Entry.other?, List.findSome?_cons]
      rfl

omit [DecidableEq χ] in
/-- **A filter whose chains decide nothing about a packet** leaves it to the rules of others. -/
theorem decide_eq_others
    (h : ∀ c rules, s.chains c = some rules → (target holds rules p).bind verdict = none) :
    s.decide holds verdict foreign t p = (s.others t).findSome? (fun r => foreign r p) := by
  refine findSome?_fateOf (fun c _ => ?_)
  show (s.chains c).bind _ = none
  cases hc : s.chains c with
  | none => rfl
  | some rules => exact h c rules hc

omit [DecidableEq χ] in
/-- What the entries in front do not decide is left to the last jump. -/
theorem decide_last {l : List (Entry χ ρ)} {rules : List (Rule μ τ)}
    (hhook : s.hooks t = l ++ [.jump c]) (hrules : s.chains c = some rules)
    (hothers : ∀ c', .jump c' ∈ l → s.chains c' = none) :
    s.decide holds verdict foreign t p = ((s.others t).findSome? (fun r => foreign r p)).or
      ((target holds rules p).bind verdict) := by
  have hfront : l.findSome? (s.fateOf holds verdict foreign p) = _ :=
    findSome?_fateOf (fun c' hc' => by
      show (s.chains c').bind _ = none
      rw [hothers c' hc', Option.bind_none])
  have hlast : [Entry.jump c].findSome? (s.fateOf holds verdict foreign p) =
      (target holds rules p).bind verdict := by
    rw [List.findSome?_singleton]
    show (s.chains c).bind _ = _
    rw [hrules, Option.bind_some]
  rw [decide, others, hhook, List.findSome?_append, hfront, hlast, List.filterMap_append]
  have hnone : [Entry.jump c].filterMap (Entry.other? (ρ := ρ)) = [] := rfl
  rw [hnone, List.append_nil]

end Ruleset

end HuntProxy.PacketFilter
