import HuntProxy.Interception.Cleanup
import HuntProxy.Lib.Decimal
import Mathlib.Data.List.Induction

/-!
# What the selective mode redirects

After a run of `start --selective` to its end, the chains depend on the specification only, not on
what was there before. A connection is redirected if a line names its address, with the key `auto`
or its port; datagrams for QUIC to any of the addresses are dropped, if this is asked for. What
comes from the excluded user or cgroup, or leaves by another interface, is left alone; and so are
the local networks when there are no ipsets.

## Main definitions

- `Redirected`, `QuicDropped` — the packets that are concerned
- `Applicable` — arguments that the kernel takes, and a specification in its usual form
- `Filled` — the sets after some lines

## Main results

- `filled_fillSets` — the sets after all lines
- `selective_verdict` — what becomes of a packet
-/

namespace HuntProxy.Interception

open PacketFilter

/-! ### The packets -/

/-- The packet comes from the excluded user or cgroup. -/
def Excluded (a : ScriptArgs) (p : Packet) : Prop :=
  a.excludeUid ≠ [] ∧ p.uid = a.excludeUid ∨
    a.excludeCgroup ≠ [] ∧ cgroupPath a.excludeCgroup ∈ p.cgroups

instance (a : ScriptArgs) (p : Packet) : Decidable (Excluded a p) :=
  inferInstanceAs (Decidable (_ ∧ _ ∨ _ ∧ _))

/-- The packet may be concerned: it is not excluded, and leaves by the right interface. -/
def Concerned (a : ScriptArgs) (p : Packet) : Prop :=
  ¬ Excluded a p ∧ (a.iface ≠ [] → onInterface a.iface p.out)

instance (a : ScriptArgs) (p : Packet) : Decidable (Concerned a p) :=
  inferInstanceAs (Decidable (¬ _ ∧ (_ → _)))

/-- A line of the specification names the address and the port of a connection. -/
def Redirected (a : ScriptArgs) (p : Packet) : Prop :=
  Concerned a p ∧ p.proto = .tcp ∧
    (a.ipset = false → ∀ net ∈ localNets, inNetwork net p.dst = false) ∧
    ∃ q ∈ specLines a.spec, Ip.read4 q.2 = some p.dst ∧
      (q.1 = autoKey ∨ portNumber q.1 = some p.dport)

instance (a : ScriptArgs) (p : Packet) : Decidable (Redirected a p) :=
  inferInstanceAs (Decidable (_ ∧ _ ∧ (_ → _) ∧ ∃ q ∈ _, _ ∧ (_ ∨ _)))

/-- A line of the specification names the address of a datagram for QUIC. -/
def QuicDropped (a : ScriptArgs) (p : Packet) : Prop :=
  a.dropQuic = true ∧ Concerned a p ∧ p.proto = .udp ∧ p.dport = 443 ∧
    ∃ q ∈ specLines a.spec, Ip.read4 q.2 = some p.dst

instance (a : ScriptArgs) (p : Packet) : Decidable (QuicDropped a p) :=
  inferInstanceAs (Decidable (_ ∧ _ ∧ _ ∧ _ ∧ ∃ q ∈ _, _))

/-- The kernel takes the port, the interface and the cgroup, and the lines have keys and addresses
in their usual form, no more than a set can hold. -/
structure Applicable (k : Kernel) (a : ScriptArgs) (port : ℕ) : Prop where
  port : portNumber a.redirectPort = some port
  iface : a.iface.length ≤ 15
  cgroup : a.excludeCgroup = [] ∨ k.cgroupV2 = true
  keys : ∀ q ∈ specLines a.spec, q.1 = autoKey ∨ ∃ n < 65536, q.1 = Nat.toDigits 10 n
  addresses : ∀ q ∈ specLines a.spec, ∃ n < 2 ^ 32, q.2 = Ip.text4 n
  count : (specLines a.spec).length ≤ maxElem

/-! ### The names of the sets -/

/-- The keys in their usual form. -/
def UsualKey (key : Str) : Prop := key = autoKey ∨ ∃ n < 65536, key = Nat.toDigits 10 n

theorem toDigits_ne_autoKey (n : ℕ) : Nat.toDigits 10 n ≠ autoKey := by
  intro h
  have hmem : 'a' ∈ Nat.toDigits 10 n := by rw [h]; decide
  exact absurd (Decimal.isDigit_toDigits 'a' hmem) (by decide)

theorem keySet_toDigits (n : ℕ) : keySet (Nat.toDigits 10 n) = setStem ++ 'p' :: Nat.toDigits 10 n := by
  have hfilter : (Nat.toDigits 10 n).filter Char.isDigit = Nat.toDigits 10 n :=
    List.filter_eq_self.mpr Decimal.isDigit_toDigits
  rw [keySet, if_neg (toDigits_ne_autoKey n), hfilter]

theorem keySet_injective {key key' : Str} (h : UsualKey key) (h' : UsualKey key')
    (heq : keySet key = keySet key') : key = key' := by
  rcases h with rfl | ⟨n, -, rfl⟩ <;> rcases h' with rfl | ⟨n', -, rfl⟩
  · rfl
  · rw [keySet_toDigits, keySet, if_pos rfl] at heq
    exact absurd (List.head_eq_of_cons_eq (List.append_cancel_left heq)) (by decide)
  · rw [keySet_toDigits, keySet, if_pos rfl] at heq
    exact absurd (List.head_eq_of_cons_eq (List.append_cancel_left heq)) (by decide)
  · rw [keySet_toDigits, keySet_toDigits] at heq
    exact List.tail_eq_of_cons_eq (List.append_cancel_left heq)

theorem keySet_ne_allSet {key : Str} (h : UsualKey key) : keySet key ≠ allSet := by
  rcases h with rfl | ⟨n, -, rfl⟩
  · decide
  · rw [keySet_toDigits]
    intro heq
    exact absurd (List.head_eq_of_cons_eq (List.append_cancel_left heq)) (by decide)

/-! ### The contents of the sets -/

/-- The addresses of lines. -/
def hostsOf (lines : List (Str × Str)) : List ℕ := lines.filterMap (fun q => Ip.read4 q.2)

/-- The lines of a key. -/
def linesOf (key : Str) (lines : List (Str × Str)) : List (Str × Str) :=
  lines.filter (fun q => q.1 = key)

/-- The contents of a set to which addresses have been added. -/
def members (ns : List ℕ) : List ℕ := ns.foldl (fun ips n => addHost n ips) []

theorem members_append (ns : List ℕ) (n : ℕ) : members (ns ++ [n]) = addHost n (members ns) := by
  simp [members]

theorem length_members_le (ns : List ℕ) : (members ns).length ≤ ns.length := by
  induction ns using List.reverseRecOn with
  | nil => exact Nat.le_refl 0
  | append_singleton ns n ih =>
    rw [members_append, addHost]
    split
    · simp only [List.length_append, List.length_singleton]
      omega
    · simp only [List.length_append, List.length_singleton]
      omega

/-- A set that is not full has all its addresses but 0.0.0.0. -/
theorem mem_members {ns : List ℕ} (h : ns.length ≤ maxElem) {n : ℕ} :
    n ∈ members ns ↔ n ≠ 0 ∧ n ∈ ns := by
  induction ns using List.reverseRecOn with
  | nil => simp [members]
  | append_singleton ns m ih =>
    rw [List.length_append, List.length_singleton] at h
    have hlen := length_members_le ns
    have hroom : ¬ maxElem ≤ (members ns).length := by omega
    have ih' := ih (by omega)
    rw [members_append, addHost]
    by_cases hm : m = 0 ∨ m ∈ members ns
    · rw [if_pos (by tauto), ih', List.mem_append, List.mem_singleton]
      constructor
      · exact fun hn => ⟨hn.1, .inl hn.2⟩
      · rintro ⟨hne, hn | rfl⟩
        · exact ⟨hne, hn⟩
        · exact ih'.mp (hm.resolve_left hne)
    · rw [if_neg (by tauto), List.mem_append, List.mem_append, ih', List.mem_singleton]
      constructor
      · rintro (hn | rfl)
        · exact ⟨hn.1, .inl hn.2⟩
        · exact ⟨fun h0 => hm (.inl h0), .inr rfl⟩
      · rintro ⟨hne, hn | rfl⟩
        · exact .inl ⟨hne, hn⟩
        · exact .inr rfl

variable {k : Kernel} {a : ScriptArgs} {seen : List Str} {lines : List (Str × Str)}

/-- The sets after some lines: the set of all addresses, and those of the keys seen. -/
structure Filled (k : Kernel) (seen : List Str) (lines : List (Str × Str)) : Prop where
  all : k.sets.get? allSet = some (members (hostsOf lines))
  keys : ∀ key ∈ seen, k.sets.get? (keySet key) = some (members (hostsOf (linesOf key lines)))
  cover : ∀ q ∈ lines, q.1 ∈ seen
  usual : ∀ key ∈ seen, UsualKey key

/-- A key that is new gets an empty set. -/
theorem Filled.new (h : Filled k seen lines) {key : Str} (hkey : UsualKey key) :
    Filled (k.execAll (if key ∈ seen then [] else [.createSet (keySet key), .flushSet (keySet key)]))
      (key :: seen) lines := by
  by_cases hseen : key ∈ seen
  · rw [if_pos hseen]
    have hcons : ∀ key' ∈ key :: seen, key' ∈ seen := by
      intro key' hmem
      rcases List.mem_cons.mp hmem with rfl | hmem
      · exact hseen
      · exact hmem
    exact ⟨h.all, fun key' hmem => h.keys key' (hcons key' hmem),
      fun q hq => List.mem_cons_of_mem _ (h.cover q hq), fun key' hmem => h.usual key' (hcons key' hmem)⟩
  · rw [if_neg hseen]
    have hget : ∀ name, (k.execAll [.createSet (keySet key), .flushSet (keySet key)]).sets.get? name =
        if name = keySet key then some [] else k.sets.get? name := by
      intro name
      show (((k.exec (.createSet (keySet key))).sets.modify (keySet key) (fun _ => [])).get? name) = _
      rw [Dict.get?_modify, Kernel.exec]
      cases hold : k.sets.contains (keySet key) with
      | true =>
        obtain ⟨ips, hips⟩ := Dict.contains_eq_true.mp hold
        rw [if_pos rfl, hips]
        rfl
      | false =>
        rw [if_neg Bool.false_ne_true]
        by_cases hname : name = keySet key
        · simp [hname]
        · simp [hname]
    have hnone : linesOf key lines = [] := by
      refine List.filter_eq_nil_iff.mpr (fun q hq heq => hseen ?_)
      rw [← of_decide_eq_true heq]
      exact h.cover q hq
    constructor
    · rw [hget, if_neg (Ne.symm (keySet_ne_allSet hkey))]
      exact h.all
    · intro key' hmem
      rw [hget]
      rcases List.mem_cons.mp hmem with rfl | hmem
      · rw [if_pos rfl, hnone]
        rfl
      · rw [if_neg]
        · exact h.keys key' hmem
        · intro heq
          exact hseen (keySet_injective (h.usual key' hmem) hkey heq ▸ hmem)
    · exact fun q hq => List.mem_cons_of_mem _ (h.cover q hq)
    · intro key' hmem
      rcases List.mem_cons.mp hmem with rfl | hmem
      · exact hkey
      · exact h.usual key' hmem

/-- **One line** adds its address to the set of its key, and to the set of all. -/
theorem Filled.add (h : Filled k seen lines) {key ip : Str} (hkey : key ∈ seen) {n : ℕ}
    (hip : Ip.read4 ip = some n) :
    Filled (k.execAll [.addIp (keySet key) ip, .addIp allSet ip]) seen (lines ++ [(key, ip)]) := by
  have hget : ∀ name, (k.execAll [.addIp (keySet key) ip, .addIp allSet ip]).sets.get? name =
      if name = keySet key ∨ name = allSet then (k.sets.get? name).map (addHost n)
      else k.sets.get? name := by
    intro name
    have hadd : ∀ (k : Kernel) (s : Str), k.exec (.addIp s ip) =
        { k with sets := k.sets.modify s (addHost n) } := fun k s => by rw [Kernel.exec, hip]
    show ((k.exec (.addIp (keySet key) ip)).exec (.addIp allSet ip)).sets.get? name = _
    rw [hadd, hadd]
    simp only [Dict.get?_modify]
    have hne := keySet_ne_allSet (h.usual key hkey)
    by_cases hall : name = allSet
    · subst hall
      simp [Ne.symm hne]
    · by_cases hname : name = keySet key
      · subst hname
        simp [hne]
      · simp [hall, hname]
  have hhosts : hostsOf (lines ++ [(key, ip)]) = hostsOf lines ++ [n] := by simp [hostsOf, hip]
  constructor
  · rw [hget, if_pos (.inr rfl), h.all, Option.map_some, hhosts, members_append]
  · intro key' hmem
    have hne := keySet_ne_allSet (h.usual key' hmem)
    rw [hget, h.keys key' hmem]
    by_cases hsame : key' = key
    · subst hsame
      have hlines : hostsOf (linesOf key' (lines ++ [(key', ip)])) =
          hostsOf (linesOf key' lines) ++ [n] := by simp [linesOf, hostsOf, hip]
      rw [if_pos (.inl rfl), Option.map_some, hlines, members_append]
    · have hlines : linesOf key' (lines ++ [(key, ip)]) = linesOf key' lines := by
        simp [linesOf, Ne.symm hsame]
      rw [if_neg, hlines]
      rintro (heq | heq)
      · exact hsame (keySet_injective (h.usual key' hmem) (h.usual key hkey) heq)
      · exact hne heq
  · intro q hq
    rcases List.mem_append.mp hq with hq | hq
    · exact h.cover q hq
    · rw [List.mem_singleton.mp hq]
      exact hkey
  · exact h.usual

/-- **All lines**: induction on the lines that are left. -/
theorem filled_fillSets {rest : List (Str × Str)} (h : Filled k seen lines)
    (hkeys : ∀ q ∈ rest, UsualKey q.1) (haddr : ∀ q ∈ rest, ∃ n, Ip.read4 q.2 = some n) :
    ∃ seen', Filled (k.execAll (fillSets seen rest)) seen' (lines ++ rest) := by
  induction rest generalizing k seen lines with
  | nil => exact ⟨seen, by rw [List.append_nil]; exact h⟩
  | cons q rest ih =>
    obtain ⟨key, ip⟩ := q
    obtain ⟨hkey, hkeys'⟩ := List.forall_mem_cons.mp hkeys
    obtain ⟨⟨n, hip⟩, haddr'⟩ := List.forall_mem_cons.mp haddr
    have hline := (h.new hkey).add List.mem_cons_self hip
    obtain ⟨seen', hrest⟩ := ih hline hkeys' haddr'
    refine ⟨seen', ?_⟩
    rw [fillSets, execAll_append, execAll_append]
    rwa [List.append_assoc] at hrest

/-! ### The rules -/

/-- The rules in front, for what is excluded. -/
def exclusionRules (a : ScriptArgs) : List Rule :=
  (if a.excludeUid = [] then [] else [⟨[.uid a.excludeUid], .ret⟩]) ++
    (if a.excludeCgroup = [] then [] else [⟨[.cgroup a.excludeCgroup], .ret⟩])

/-- The rules that redirect. -/
def selectiveRules (a : ScriptArgs) : List Rule :=
  if a.ipset then (keyOrder (specLines a.spec)).map (keyRule a)
  else localNets.map (fun net => ⟨[.dst net], .ret⟩) ++ (specLines a.spec).map (lineRule a)

/-- The rules that drop QUIC. -/
def quicRules (a : ScriptArgs) : List Rule :=
  if a.ipset then [⟨outMatch a ++ [.set allSet, .proto .udp, .dport "443".toList], .drop⟩]
  else (specLines a.spec).map (fun q =>
    ⟨outMatch a ++ [.proto .udp, .dst q.2, .dport "443".toList], .drop⟩)

/-- The sets that the rules need. -/
def setCommands (k : Kernel) (a : ScriptArgs) : List Command :=
  if a.ipset then
    (ownSets k).map .destroySet ++ [.createSet allSet, .flushSet allSet] ++
      fillSets [] (specLines a.spec)
  else []

theorem addExclusions_eq (a : ScriptArgs) (c : ChainName) :
    addExclusions a c = (exclusionRules a).map (.append c) := by
  unfold addExclusions exclusionRules
  rw [List.map_append]
  congr 1 <;> split <;> rfl

theorem redirectCommands_eq (k : Kernel) (a : ScriptArgs) :
    redirectCommands k a = setCommands k a ++ (selectiveRules a).map (.append .selective) := by
  unfold redirectCommands setCommands selectiveRules
  split
  · rw [List.map_map]
    rfl
  · rw [List.map_append, List.map_map, List.map_map]
    rfl

theorem quicCommands_eq (a : ScriptArgs) :
    quicCommands a = renewChain .selectiveQuic ++
      (exclusionRules a ++ quicRules a).map (.append .selectiveQuic) ++
      [.ensureJump .selectiveQuic] := by
  have hrules : (quicRules a).map (Command.append .selectiveQuic) = if a.ipset then
      [.append .selectiveQuic
        ⟨outMatch a ++ [.set allSet, .proto .udp, .dport "443".toList], .drop⟩]
    else
      (specLines a.spec).map (fun q => .append .selectiveQuic
        ⟨outMatch a ++ [.proto .udp, .dst q.2, .dport "443".toList], .drop⟩) := by
    unfold quicRules
    split
    · rfl
    · rw [List.map_map]
      rfl
  rw [quicCommands, List.map_append, hrules, addExclusions_eq]
  simp only [List.append_assoc]

/-- **Rules that are accepted** are appended one after the other. -/
theorem execAll_appends {c : ChainName} {old : List Rule} (hold : k.rules.chains c = some old)
    {rs : List Rule} (hacc : ∀ r ∈ rs, k.accepts r = true) :
    k.execAll (rs.map (.append c)) = { k with rules := k.rules.setChain c (some (old ++ rs)) } := by
  induction rs generalizing k old with
  | nil =>
    rw [List.append_nil, ← hold]
    show k = { k with rules := { k.rules with chains := Function.update k.rules.chains c _ } }
    rw [Function.update_eq_self]
  | cons r rest ih =>
    obtain ⟨hr, hrest⟩ := List.forall_mem_cons.mp hacc
    have hstep : k.exec (.append c r) =
        { k with rules := k.rules.setChain c (some (old ++ [r])) } := by
      rw [Kernel.exec, if_pos hr, Ruleset.append, hold]
      rfl
    have hnext : (k.rules.setChain c (some (old ++ [r]))).chains c = some (old ++ [r]) := by simp
    show (k.exec (.append c r)).execAll (rest.map (.append c)) = _
    rw [hstep, ih (k := { k with rules := k.rules.setChain c (some (old ++ [r])) }) hnext hrest,
      List.append_assoc]
    simp [Ruleset.setChain]

/-- What an excluded packet meets in front. -/
theorem target_exclusionRules (a : ScriptArgs) (sets : Dict Str (List ℕ)) (p : Packet) :
    target (Match.holds sets) (exclusionRules a) p = if Excluded a p then some .ret else none := by
  have hret : ∀ r ∈ exclusionRules a, r.target = .ret := by
    intro r hr
    rcases List.mem_append.mp hr with hr | hr
    all_goals
      split at hr
      · cases hr
      · rw [List.mem_singleton.mp hr]
  rw [target_uniform hret]
  refine if_congr ?_ rfl rfl
  unfold exclusionRules Excluded
  rw [List.any_append, Bool.or_eq_true]
  refine or_congr ?_ ?_
  · by_cases h : a.excludeUid = []
    · simp [h]
    · simp [h, Rule.applies, Match.holds]
  · by_cases h : a.excludeCgroup = []
    · simp [h]
    · simp [h, Rule.applies, Match.holds]

/-! ### The phases of the script -/

/-- The exclusions can be appended. -/
theorem accepts_exclusionRules {a : ScriptArgs}
    (h : a.excludeCgroup = [] ∨ HasCgroup a.excludeCgroup k) :
    ∀ r ∈ exclusionRules a, k.accepts r = true := by
  intro r hr
  rcases List.mem_append.mp hr with hr | hr
  · split at hr
    · cases hr
    · rw [List.mem_singleton.mp hr]
      rfl
  · split at hr
    · cases hr
    · next hne =>
      have hmem : cgroupPath a.excludeCgroup ∈ k.cgroups := h.resolve_left hne
      rw [List.mem_singleton.mp hr]
      simp [Kernel.accepts, Kernel.acceptsMatch, hmem]

/-- The beginning of the script. -/
def frontCommands (a : ScriptArgs) : List Command :=
  ensureExcludeCgroup a ++ dropChain .selective ++ dropChain .selectiveQuic ++ renewChain .selective

/-- The kernel after the beginning: the chain for the connections is empty, that for QUIC is gone,
and nothing jumps to them. -/
structure Fronted (a : ScriptArgs) (k k' : Kernel) : Prop where
  tidy : Tidy k'
  chains : ∀ c, k'.rules.chains c = if c = .selective then some [] else
    if c = .selectiveQuic then none else k.rules.chains c
  jumps : ∀ t c, c ≠ .redirect → k'.rules.jumps t c = 0
  others : ∀ t, k'.rules.others t = k.rules.others t
  sets : k'.sets = k.sets
  cgroup : a.excludeCgroup = [] ∨ HasCgroup a.excludeCgroup k'

theorem fronted (h : Tidy k) {a : ScriptArgs} (hcgroup : a.excludeCgroup = [] ∨ k.cgroupV2 = true) :
    Fronted a k (k.execAll (frontCommands a)) := by
  have hensure : ∃ cgroups, k.execAll (ensureExcludeCgroup a) = { k with cgroups := cgroups } ∧
      (a.excludeCgroup = [] ∨ cgroupPath a.excludeCgroup ∈ cgroups) := by
    by_cases hne : a.excludeCgroup = []
    · exact ⟨k.cgroups, by rw [ensureExcludeCgroup, if_pos hne]; rfl, .inl hne⟩
    · refine ⟨cgroupPath a.excludeCgroup :: k.cgroups, ?_, .inr List.mem_cons_self⟩
      rw [ensureExcludeCgroup, if_neg hne]
      show k.exec (.makeCgroup a.excludeCgroup) = _
      rw [Kernel.exec, if_pos (hcgroup.resolve_left hne)]
  -- the two chains are taken out, and an empty one is made
  obtain ⟨cgroups, hk₀, hmem⟩ := hensure
  have htidy₀ : Tidy { k with cgroups := cgroups } := ⟨h.jumps, h.redirect⟩
  obtain ⟨htidy₁, hchains₁, hjumps₁⟩ := htidy₀.dropChain .selective
  obtain ⟨htidy₂, hchains₂, hjumps₂⟩ := htidy₁.dropChain .selectiveQuic
  have hlast : k.execAll (frontCommands a) =
      ((({ k with cgroups := cgroups } : Kernel).execAll (dropChain .selective)).execAll
        (dropChain .selectiveQuic)).execAll (renewChain .selective) := by
    rw [frontCommands, execAll_append, execAll_append, execAll_append, hk₀]
  rw [hlast]
  generalize hk₂ : (({ k with cgroups := cgroups } : Kernel).execAll (dropChain .selective)).execAll
    (dropChain .selectiveQuic) = k₂ at htidy₂ hchains₂ hjumps₂
  have hrenew : k₂.execAll (renewChain .selective) =
      { k₂ with rules := (k₂.rules.newChain .selective).flush .selective } := rfl
  rw [hrenew]
  have hplain : ∀ cmd ∈ renewChain .selective, cmd.Plain := by
    simp [renewChain, Command.Plain]
  constructor
  · rw [← hrenew]
    exact (triple_tidy hplain).last k₂ htidy₂ trivial
  · intro c
    show ((k₂.rules.newChain .selective).flush .selective).chains c = _
    rw [Ruleset.chains_flush, Ruleset.chains_newChain, Ruleset.chains_newChain]
    cases c with
    | selective => cases k₂.rules.chains .selective <;> simp
    | redirect => simp [hchains₂, hchains₁]
    | selectiveQuic => simp [hchains₂]
  · intro t c hc
    show ((k₂.rules.newChain .selective).flush .selective).jumps t c = 0
    rw [Ruleset.jumps_of_hooks (k₂.rules.newChain .selective) t c (Ruleset.hooks_flush _ _),
      Ruleset.jumps_of_hooks k₂.rules t c (Ruleset.hooks_newChain _ _), hjumps₂, hjumps₁]
    cases c with
    | selective => simp
    | redirect => exact absurd rfl hc
    | selectiveQuic => simp
  · intro t
    show k₂.rules.others t = k.rules.others t
    rw [← hk₂]
    simp only [execAll_dropChain, Ruleset.others_remove]
  · rw [← hk₂]
    rfl
  · refine hmem.imp_right (fun hin => ?_)
    rw [← hk₂]
    exact hin

/-- The command changes sets only. -/
def Command.OnSets : Command → Prop
  | .createSet _ | .flushSet _ | .addIp _ _ | .destroySet _ => True
  | _ => False

theorem execAll_onSets {cmds : List Command} (h : ∀ cmd ∈ cmds, cmd.OnSets) :
    k.execAll cmds = { k with sets := (k.execAll cmds).sets } := by
  induction cmds generalizing k with
  | nil => rfl
  | cons cmd rest ih =>
    obtain ⟨hcmd, hrest⟩ := List.forall_mem_cons.mp h
    have hstep : k.exec cmd = { k with sets := (k.exec cmd).sets } := by
      cases cmd with
      | newChain | flush | deleteJump | deleteChain | append | ensureJump | makeCgroup => cases hcmd
      | flushSet => rfl
      | createSet | destroySet | addIp =>
        rw [Kernel.exec]
        split <;> rfl
    show (k.exec cmd).execAll rest = { k with sets := ((k.exec cmd).execAll rest).sets }
    rw [ih hrest, hstep]

theorem onSets_fillSets (seen : List Str) (lines : List (Str × Str)) :
    ∀ cmd ∈ fillSets seen lines, cmd.OnSets := by
  induction lines generalizing seen with
  | nil => simp [fillSets]
  | cons q rest ih =>
    intro cmd hcmd
    rw [fillSets] at hcmd
    rcases List.mem_append.mp hcmd with hcmd | hcmd
    · rcases List.mem_append.mp hcmd with hcmd | hcmd
      · split at hcmd
        · cases hcmd
        · rcases List.mem_cons.mp hcmd with rfl | hcmd
          · trivial
          · rw [List.mem_singleton.mp hcmd]
            trivial
      · rcases List.mem_cons.mp hcmd with rfl | hcmd
        · trivial
        · rw [List.mem_singleton.mp hcmd]
          trivial
    · exact ih _ cmd hcmd

/-- **The sets** after their commands. -/
theorem filled_setCommands (h : Tidy k) (hsel : ∀ rules, k.rules.chains .selective = some rules →
      ∀ r ∈ rules, ∀ name, Match.set name ∉ r.conds)
    (hquic : k.rules.chains .selectiveQuic = none) {a : ScriptArgs} (ha : a.ipset = true)
    (hkeys : ∀ q ∈ specLines a.spec, UsualKey q.1)
    (haddr : ∀ q ∈ specLines a.spec, ∃ n, Ip.read4 q.2 = some n) :
    ∃ seen, Filled (k.execAll (setCommands k a)) seen (specLines a.spec) := by
  have hempty : ∀ k' : Kernel, k'.sets.get? allSet = none →
      (k'.execAll [.createSet allSet, .flushSet allSet]).sets.get? allSet = some [] := by
    intro k' hnone
    show ((k'.exec (.createSet allSet)).sets.modify allSet (fun _ => [])).get? allSet = _
    have hnew : k'.exec (.createSet allSet) = { k' with sets := k'.sets.insert allSet [] } := by
      rw [Kernel.exec, Dict.contains_eq_false.mpr hnone, if_neg Bool.false_ne_true]
    rw [hnew, Dict.get?_modify, if_pos rfl, Dict.get?_insert, if_pos rfl]
    rfl
  have hstem : setStem.isPrefixOf allSet = true := by decide
  have hgone : (k.execAll ((ownSets k).map .destroySet)).sets.get? allSet = none := by
    rw [execAll_destroy _ (uses_false h hsel hquic)]
    show (k.sets.eraseAll (ownSets k)).get? allSet = none
    rw [ownSets, get?_eraseStem, if_pos hstem]
  have hstart : Filled ((k.execAll ((ownSets k).map .destroySet)).execAll
      [.createSet allSet, .flushSet allSet]) [] [] :=
    ⟨hempty _ hgone, by simp, by simp, by simp⟩
  obtain ⟨seen, hfilled⟩ := filled_fillSets hstart hkeys haddr
  refine ⟨seen, ?_⟩
  rw [setCommands, if_pos ha, execAll_append, execAll_append]
  exact hfilled

theorem onSets_setCommands (k : Kernel) (a : ScriptArgs) :
    ∀ cmd ∈ setCommands k a, cmd.OnSets := by
  intro cmd hcmd
  rw [setCommands] at hcmd
  split at hcmd
  · rcases List.mem_append.mp hcmd with hcmd | hcmd
    · rcases List.mem_append.mp hcmd with hcmd | hcmd
      · obtain ⟨name, -, rfl⟩ := List.mem_map.mp hcmd
        trivial
      · rcases List.mem_cons.mp hcmd with rfl | hcmd
        · trivial
        · rw [List.mem_singleton.mp hcmd]
          trivial
    · exact onSets_fillSets _ _ cmd hcmd
  · cases hcmd

/-! ### Rules that the kernel accepts -/

section

variable {port : ℕ}

theorem accepts_outMatch (h : Applicable k a port) (k' : Kernel) :
    ∀ m ∈ outMatch a, k'.acceptsMatch m = true := by
  intro m hm
  unfold outMatch at hm
  split at hm
  · cases hm
  · rw [List.mem_singleton.mp hm]
    exact decide_eq_true h.iface

theorem portNumber_toDigits {n : ℕ} (hn : n < 65536) : portNumber (Nat.toDigits 10 n) = some n := by
  rw [portNumber, Numeral.read_toDigits (by decide) (by decide)]
  simp [hn]

theorem accepts_key (h : Applicable k a port) (k' : Kernel) {q : Str × Str}
    (hq : q ∈ specLines a.spec) :
    ∀ m ∈ if q.1 = autoKey then ([] : List Match) else [.dport q.1], k'.acceptsMatch m = true := by
  intro m hm
  split at hm
  · cases hm
  · next hauto =>
    obtain ⟨n, hn, heq⟩ := (h.keys q hq).resolve_left hauto
    rw [List.mem_singleton.mp hm]
    show (portNumber q.1).isSome = true
    rw [heq, portNumber_toDigits hn]
    rfl

theorem network_text4 {n : ℕ} (hn : n < 2 ^ 32) : network (Ip.text4 n) = some (n, 32) := by
  have hslash : '/' ∉ Ip.text4 n := by
    intro hmem
    rcases Ip.mem_read4 (Ip.read4_text4 hn) hmem with h | h
    · exact absurd h (by decide)
    · exact absurd h (by decide)
  have hsplit : (Ip.text4 n).splitOn '/' = [Ip.text4 n] := List.splitOn_eq_singleton hslash
  rw [network, hsplit]
  simp [Ip.read4_text4 hn]

theorem accepts_append {ms ms' : List Match} {t : Target} (hms : ∀ m ∈ ms, k.acceptsMatch m = true)
    (hms' : ∀ m ∈ ms', k.acceptsMatch m = true) (ht : t.verdict.isSome = true ∨ t = .ret) :
    k.accepts ⟨ms ++ ms', t⟩ = true := by
  rw [Kernel.accepts, Bool.and_eq_true, List.all_append, Bool.and_eq_true, List.all_eq_true,
    List.all_eq_true]
  refine ⟨⟨hms, hms'⟩, ?_⟩
  cases t with
  | ret => rfl
  | drop => rfl
  | redirect p => simpa [Target.verdict] using ht

/-- The rules that redirect are accepted; with ipsets, when the sets are there. -/
theorem accepts_selectiveRules (h : Applicable k a port) (k' : Kernel)
    (hsets : a.ipset = true → ∀ q ∈ specLines a.spec, k'.sets.contains (keySet q.1) = true) :
    ∀ r ∈ selectiveRules a, k'.accepts r = true := by
  have hredirect : (Target.redirect a.redirectPort).verdict.isSome = true := by
    rw [Target.verdict, h.port]
    rfl
  intro r hr
  unfold selectiveRules at hr
  split at hr
  · next hipset =>
    obtain ⟨key, hkey, rfl⟩ := List.mem_map.mp hr
    obtain ⟨q, hq, rfl⟩ := List.mem_map.mp (List.mem_eraseDups.mp hkey)
    refine accepts_append ?_ (accepts_key h k' hq) (.inl hredirect)
    intro m hm
    rcases List.mem_append.mp hm with hm | hm
    · exact accepts_outMatch h k' m hm
    · rcases List.mem_cons.mp hm with rfl | hm
      · exact hsets hipset q hq
      · rw [List.mem_singleton.mp hm]
        rfl
  · rcases List.mem_append.mp hr with hr | hr
    · obtain ⟨net, hnet, rfl⟩ := List.mem_map.mp hr
      have hnets : ∀ net ∈ localNets, (network net).isSome = true := by decide
      simp [Kernel.accepts, Kernel.acceptsMatch, hnets net hnet]
    · obtain ⟨q, hq, rfl⟩ := List.mem_map.mp hr
      refine accepts_append ?_ (accepts_key h k' hq) (.inl hredirect)
      intro m hm
      rcases List.mem_append.mp hm with hm | hm
      · exact accepts_outMatch h k' m hm
      · rcases List.mem_cons.mp hm with rfl | hm
        · rfl
        · obtain ⟨n, hn, heq⟩ := h.addresses q hq
          rw [List.mem_singleton.mp hm]
          show (network q.2).isSome = true
          rw [heq, network_text4 hn]
          rfl

/-- The rules that drop are accepted. -/
theorem accepts_quicRules {k' : Kernel} (h : Applicable k a port)
    (hsets : a.ipset = true → k'.sets.contains allSet = true) :
    ∀ r ∈ quicRules a, k'.accepts r = true := by
  have hport : (portNumber ['4', '4', '3']).isSome = true := by decide
  intro r hr
  unfold quicRules at hr
  split at hr
  · next hipset =>
    rw [List.mem_singleton.mp hr]
    refine accepts_append (accepts_outMatch h k') ?_ (.inl rfl)
    simp [Kernel.acceptsMatch, hsets hipset, hport]
  · obtain ⟨q, hq, rfl⟩ := List.mem_map.mp hr
    obtain ⟨n, hn, heq⟩ := h.addresses q hq
    refine accepts_append (accepts_outMatch h k') ?_ (.inl rfl)
    simp [Kernel.acceptsMatch, hport, heq, network_text4 hn]

/-! ### What the rules decide -/

/-- The restriction to an interface. -/
theorem all_outMatch (a : ScriptArgs) (sets : Dict Str (List ℕ)) (p : Packet) :
    (outMatch a).all (fun m => m.holds sets p) = true ↔
      (a.iface ≠ [] → onInterface a.iface p.out) := by
  unfold outMatch
  by_cases h : a.iface = []
  · simp [h]
  · simp [h, Match.holds]

/-- The restriction to a port. -/
theorem all_key (key : Str) (sets : Dict Str (List ℕ)) (p : Packet) :
    (if key = autoKey then ([] : List Match) else [.dport key]).all (fun m => m.holds sets p) = true ↔
      key = autoKey ∨ portNumber key = some p.dport := by
  by_cases h : key = autoKey
  · simp [h]
  · simp [h, Match.holds]

theorem inNetwork_text4 {n : ℕ} (hn : n < 2 ^ 32) (ip : ℕ) :
    inNetwork (Ip.text4 n) ip = true ↔ ip = n := by
  rw [inNetwork, network_text4 hn]
  simp

theorem mem_hostsOf {ip : ℕ} : ip ∈ hostsOf lines ↔ ∃ q ∈ lines, Ip.read4 q.2 = some ip :=
  List.mem_filterMap

/-- The set of a key has the addresses of its lines. -/
theorem Filled.holds_key {p : Packet} (h : Filled k seen lines) (hcount : lines.length ≤ maxElem)
    (hp : p.dst ≠ 0) {q : Str × Str} (hq : q ∈ lines) :
    (Match.set (keySet q.1)).holds k.sets p = true ↔
      ∃ q' ∈ lines, q'.1 = q.1 ∧ Ip.read4 q'.2 = some p.dst := by
  have hlen : (hostsOf (linesOf q.1 lines)).length ≤ maxElem :=
    (List.length_filterMap_le _ _).trans ((List.length_filter_le _ _).trans hcount)
  rw [Match.holds, h.keys q.1 (h.cover q hq), Option.any_some, List.contains_iff_mem,
    mem_members hlen, mem_hostsOf]
  constructor
  · rintro ⟨-, q', hq', hip⟩
    obtain ⟨hmem, hkey⟩ := List.mem_filter.mp hq'
    exact ⟨q', hmem, of_decide_eq_true hkey, hip⟩
  · rintro ⟨q', hq', hkey, hip⟩
    exact ⟨hp, q', List.mem_filter.mpr ⟨hq', decide_eq_true hkey⟩, hip⟩

/-- The set of all addresses. -/
theorem Filled.holds_all {p : Packet} (h : Filled k seen lines) (hcount : lines.length ≤ maxElem)
    (hp : p.dst ≠ 0) :
    (Match.set allSet).holds k.sets p = true ↔ ∃ q ∈ lines, Ip.read4 q.2 = some p.dst := by
  have hlen : (hostsOf lines).length ≤ maxElem := (List.length_filterMap_le _ _).trans hcount
  rw [Match.holds, h.all, Option.any_some, List.contains_iff_mem, mem_members hlen, mem_hostsOf]
  exact and_iff_right hp

/-- What is not excluded is redirected if a line names its address and its port. -/
theorem target_selectiveRules (h : Applicable k a port) {k' : Kernel} {p : Packet} (hp : p.dst ≠ 0)
    (hfilled : a.ipset = true → ∃ seen, Filled k' seen (specLines a.spec)) (hexcl : ¬ Excluded a p) :
    (target (Match.holds k'.sets) (selectiveRules a) p).bind Target.verdict =
      if Redirected a p then some (.redirect port) else none := by
  have hverdict : (Target.redirect a.redirectPort).verdict = some (.redirect port) := by
    rw [Target.verdict, h.port]
    rfl
  unfold selectiveRules
  by_cases hipset : a.ipset = true
  · -- with ipsets: one rule for each key, which matches what is in its set
    obtain ⟨seen, hfilled⟩ := hfilled hipset
    have huniform : ∀ r ∈ (keyOrder (specLines a.spec)).map (keyRule a),
        r.target = .redirect a.redirectPort := by
      intro r hr
      obtain ⟨key, -, rfl⟩ := List.mem_map.mp hr
      rfl
    have happlies : ((keyOrder (specLines a.spec)).map (keyRule a)).any
        (fun r => r.applies (Match.holds k'.sets) p) = true ↔ Redirected a p := by
      rw [List.any_eq_true]
      constructor
      · rintro ⟨r, hr, happ⟩
        obtain ⟨key, hkey, rfl⟩ := List.mem_map.mp hr
        obtain ⟨q, hq, rfl⟩ := List.mem_map.mp (List.mem_eraseDups.mp hkey)
        simp only [Rule.applies, keyRule, List.all_append, Bool.and_eq_true, List.all_cons,
          List.all_nil, and_true] at happ
        obtain ⟨⟨hout, hset, hproto⟩, hport⟩ := happ
        obtain ⟨q', hq', hkey', hip⟩ := (hfilled.holds_key h.count hp hq).mp hset
        refine ⟨⟨hexcl, (all_outMatch a _ p).mp hout⟩, of_decide_eq_true hproto,
          fun hno => absurd hipset (by simp [hno]), q', hq', hip, ?_⟩
        rw [hkey']
        exact (all_key q.1 _ p).mp hport
      · rintro ⟨⟨-, hout⟩, hproto, -, q, hq, hip, hport⟩
        refine ⟨keyRule a q.1, List.mem_map_of_mem (List.mem_eraseDups.mpr (List.mem_map_of_mem hq)), ?_⟩
        simp only [Rule.applies, keyRule, List.all_append, Bool.and_eq_true, List.all_cons,
          List.all_nil, and_true]
        exact ⟨⟨(all_outMatch a _ p).mpr hout, (hfilled.holds_key h.count hp hq).mpr ⟨q, hq, rfl, hip⟩,
          decide_eq_true hproto⟩, (all_key q.1 _ p).mpr hport⟩
    rw [if_pos hipset, target_uniform huniform, if_congr happlies rfl rfl]
    split
    · exact hverdict
    · rfl
  · -- without: the local networks return first, then there is one rule for each line
    have hret : ∀ r ∈ localNets.map (fun net => (⟨[.dst net], .ret⟩ : Rule)), r.target = .ret := by
      intro r hr
      obtain ⟨net, -, rfl⟩ := List.mem_map.mp hr
      rfl
    have hlocal : (localNets.map (fun net => (⟨[.dst net], .ret⟩ : Rule))).any
        (fun r => r.applies (Match.holds k'.sets) p) = true ↔
          ∃ net ∈ localNets, inNetwork net p.dst = true := by
      simp [Rule.applies, Match.holds]
    have huniform : ∀ r ∈ (specLines a.spec).map (lineRule a),
        r.target = .redirect a.redirectPort := by
      intro r hr
      obtain ⟨q, -, rfl⟩ := List.mem_map.mp hr
      rfl
    have happlies : ((specLines a.spec).map (lineRule a)).any
        (fun r => r.applies (Match.holds k'.sets) p) = true ↔
          (a.iface ≠ [] → onInterface a.iface p.out) ∧ p.proto = .tcp ∧ ∃ q ∈ specLines a.spec,
            Ip.read4 q.2 = some p.dst ∧ (q.1 = autoKey ∨ portNumber q.1 = some p.dport) := by
      rw [List.any_eq_true]
      constructor
      · rintro ⟨r, hr, happ⟩
        obtain ⟨q, hq, rfl⟩ := List.mem_map.mp hr
        simp only [Rule.applies, lineRule, List.all_append, Bool.and_eq_true, List.all_cons,
          List.all_nil, and_true] at happ
        obtain ⟨⟨hout, hproto, hdst⟩, hport⟩ := happ
        obtain ⟨n, hn, heq⟩ := h.addresses q hq
        have hip : p.dst = n := (inNetwork_text4 hn p.dst).mp (heq ▸ hdst)
        refine ⟨(all_outMatch a _ p).mp hout, of_decide_eq_true hproto, q, hq, ?_,
          (all_key q.1 _ p).mp hport⟩
        rw [heq, hip, Ip.read4_text4 hn]
      · rintro ⟨hout, hproto, q, hq, hip, hport⟩
        obtain ⟨n, hn, heq⟩ := h.addresses q hq
        rw [heq, Ip.read4_text4 hn] at hip
        refine ⟨lineRule a q, List.mem_map_of_mem hq, ?_⟩
        simp only [Rule.applies, lineRule, List.all_append, Bool.and_eq_true, List.all_cons,
          List.all_nil, and_true]
        refine ⟨⟨(all_outMatch a _ p).mpr hout, decide_eq_true hproto, ?_⟩,
          (all_key q.1 _ p).mpr hport⟩
        show inNetwork q.2 p.dst = true
        rw [heq]
        exact (inNetwork_text4 hn p.dst).mpr (Option.some.inj hip).symm
    rw [if_neg hipset, target_append, target_uniform hret, target_uniform huniform,
      if_congr hlocal rfl rfl, if_congr happlies rfl rfl]
    by_cases hnet : ∃ net ∈ localNets, inNetwork net p.dst = true
    · have hno : ¬ Redirected a p := by
        rintro ⟨-, -, hnets, -⟩
        obtain ⟨net, hmem, hin⟩ := hnet
        rw [hnets (Bool.eq_false_iff.mpr hipset) net hmem] at hin
        cases hin
      rw [if_pos hnet, if_neg hno]
      rfl
    · have hnets : ∀ net ∈ localNets, inNetwork net p.dst = false := by
        intro net hmem
        exact Bool.eq_false_iff.mpr (fun hin => hnet ⟨net, hmem, hin⟩)
      rw [if_neg hnet, Option.none_or]
      by_cases hq : Redirected a p
      · rw [if_pos ⟨hq.1.2, hq.2.1, hq.2.2.2⟩, if_pos hq]
        exact hverdict
      · rw [if_neg (fun hall => hq ⟨⟨hexcl, hall.1⟩, hall.2.1, fun _ => hnets, hall.2.2⟩), if_neg hq]
        rfl

/-- What is not excluded is dropped if it is a datagram for QUIC to one of the addresses. -/
theorem target_quicRules (h : Applicable k a port) {k' : Kernel} {p : Packet} (hp : p.dst ≠ 0)
    (hfilled : a.ipset = true → ∃ seen, Filled k' seen (specLines a.spec))
    (hquic : a.dropQuic = true) (hexcl : ¬ Excluded a p) :
    (target (Match.holds k'.sets) (quicRules a) p).bind Target.verdict =
      if QuicDropped a p then some .drop else none := by
  have hdrop : ∀ r ∈ quicRules a, r.target = .drop := by
    intro r hr
    unfold quicRules at hr
    split at hr
    · rw [List.mem_singleton.mp hr]
    · obtain ⟨q, -, rfl⟩ := List.mem_map.mp hr
      rfl
  have hport : portNumber "443".toList = some 443 := by decide
  have happlies : (quicRules a).any (fun r => r.applies (Match.holds k'.sets) p) = true ↔
      QuicDropped a p := by
    have hcond : QuicDropped a p ↔ (a.iface ≠ [] → onInterface a.iface p.out) ∧ p.proto = .udp ∧
        p.dport = 443 ∧ ∃ q ∈ specLines a.spec, Ip.read4 q.2 = some p.dst :=
      ⟨fun hq => ⟨hq.2.1.2, hq.2.2⟩, fun hq => ⟨hquic, ⟨hexcl, hq.1⟩, hq.2⟩⟩
    rw [hcond]
    unfold quicRules
    by_cases hipset : a.ipset = true
    · -- the one rule matches the set of all addresses
      obtain ⟨seen, hfilled⟩ := hfilled hipset
      rw [if_pos hipset, List.any_cons, List.any_nil, Bool.or_false, Rule.applies, List.all_append,
        Bool.and_eq_true, all_outMatch, ← hfilled.holds_all h.count hp]
      simp only [List.all_cons, List.all_nil, Bool.and_true, Bool.and_eq_true]
      refine and_congr_right' ?_
      simp only [Match.holds, decide_eq_true_eq, hport, Option.some.injEq, eq_comm (a := 443)]
      tauto
    · rw [if_neg hipset, List.any_map, List.any_eq_true]
      constructor
      · rintro ⟨q, hq, happ⟩
        obtain ⟨n, hn, heq⟩ := h.addresses q hq
        simp only [Function.comp, Rule.applies, List.all_append, Bool.and_eq_true, List.all_cons,
          List.all_nil, and_true, all_outMatch] at happ
        obtain ⟨hout, hproto, hdst, hdport⟩ := happ
        have hip : p.dst = n := (inNetwork_text4 hn p.dst).mp (heq ▸ hdst)
        refine ⟨hout, of_decide_eq_true hproto, ?_, q, hq, by rw [heq, hip, Ip.read4_text4 hn]⟩
        exact (Option.some.inj (hport.symm.trans (of_decide_eq_true hdport))).symm
      · rintro ⟨hout, hproto, hdport, q, hq, hip⟩
        obtain ⟨n, hn, heq⟩ := h.addresses q hq
        rw [heq, Ip.read4_text4 hn] at hip
        refine ⟨q, hq, ?_⟩
        simp only [Function.comp, Rule.applies, List.all_append, Bool.and_eq_true, List.all_cons,
          List.all_nil, and_true, all_outMatch]
        refine ⟨hout, decide_eq_true hproto, ?_, decide_eq_true (by rw [hdport]; exact hport)⟩
        show inNetwork q.2 p.dst = true
        rw [heq]
        exact (inNetwork_text4 hn p.dst).mpr (Option.some.inj hip).symm
  rw [target_uniform hdrop, if_congr happlies rfl rfl]
  split <;> rfl

end

/-! ### The hooks -/

/-- The chain has the rules, and its hook ends with the jump to it, behind jumps to the chain for
the whole machine only. -/
structure Installed (k : Kernel) (c : ChainName) (rules : List Rule) : Prop where
  chain : k.rules.chains c = some rules
  hook : ∃ l, k.rules.hooks (homeTable c) = l ++ [.jump c] ∧ ∀ c', .jump c' ∈ l → c' = .redirect

theorem Installed.of_ensureJump {c : ChainName} {rules : List Rule}
    (hchain : k.rules.chains c = some rules)
    (hjumps : ∀ c', c' ≠ .redirect → k.rules.jumps (homeTable c) c' = 0) (hc : c ≠ .redirect) :
    Installed (k.exec (.ensureJump c)) c rules := by
  constructor
  · rw [Kernel.exec, Ruleset.chains_ensureJump]
    exact hchain
  · refine ⟨k.rules.hooks (homeTable c), ?_, fun c' hmem => ?_⟩
    · rw [Kernel.exec, Ruleset.hooks_ensureJump]
      exact if_pos ⟨rfl, hjumps c hc, by rw [hchain]; rfl⟩
    · by_contra hne
      exact k.rules.jump_notMem _ _ (hjumps c' hne) hmem

/-- What the hook of an installed chain decides. -/
theorem Installed.verdict {c : ChainName} {rules : List Rule} (h : Installed k c rules)
    (hredirect : k.rules.chains .redirect = none) (p : Packet) :
    k.verdict (homeTable c) p = (k.foreignVerdict (homeTable c) p).or
      ((target (Match.holds k.sets) rules p).bind Target.verdict) := by
  obtain ⟨l, hhook, hl⟩ := h.hook
  exact Ruleset.decide_last hhook h.chain (fun c' hc' => by rw [hl c' hc', hredirect])

/-- What the rules decide behind the exclusions. -/
theorem target_excluded (a : ScriptArgs) (sets : Dict Str (List ℕ)) (rules : List Rule) (p : Packet) :
    (target (Match.holds sets) (exclusionRules a ++ rules) p).bind Target.verdict =
      if Excluded a p then none else (target (Match.holds sets) rules p).bind Target.verdict := by
  rw [target_append, target_exclusionRules]
  split <;> rfl

theorem startSelectiveCommands_eq (k : Kernel) (a : ScriptArgs) :
    startSelectiveCommands k a = frontCommands a ++ (exclusionRules a).map (.append .selective) ++
      setCommands k a ++ (selectiveRules a).map (.append .selective) ++ [.ensureJump .selective] ++
      (if a.dropQuic then renewChain .selectiveQuic ++
        (exclusionRules a ++ quicRules a).map (.append .selectiveQuic) ++
        [.ensureJump .selectiveQuic] else []) := by
  rw [startSelectiveCommands, redirectCommands_eq, addExclusions_eq, quicCommands_eq, frontCommands]
  simp only [List.append_assoc]

/-- The kernel after the script: its chains are installed, and the sets are filled. -/
structure Selected (a : ScriptArgs) (k k' : Kernel) : Prop where
  redirect : k'.rules.chains .redirect = k.rules.chains .redirect
  others : ∀ t, k'.rules.others t = k.rules.others t
  selective : Installed k' .selective (exclusionRules a ++ selectiveRules a)
  quic : a.dropQuic = true → Installed k' .selectiveQuic (exclusionRules a ++ quicRules a)
  quiet : a.dropQuic = false → ∀ c, .jump c ∈ k'.rules.hooks .filter → c = .redirect
  filled : a.ipset = true → ∃ seen, Filled k' seen (specLines a.spec)

/-- The sets and their keys. -/
theorem Filled.contains (h : Filled k seen lines) :
    k.sets.contains allSet = true ∧ ∀ q ∈ lines, k.sets.contains (keySet q.1) = true :=
  ⟨Dict.contains_eq_true.mpr ⟨_, h.all⟩,
    fun q hq => Dict.contains_eq_true.mpr ⟨_, h.keys q.1 (h.cover q hq)⟩⟩

/-- The rules of the exclusions use no set. -/
theorem noSet_exclusionRules (a : ScriptArgs) :
    ∀ r ∈ exclusionRules a, ∀ name, Match.set name ∉ r.conds := by
  intro r hr name
  rcases List.mem_append.mp hr with hr | hr
  all_goals
    split at hr
    · cases hr
    · rw [List.mem_singleton.mp hr]
      simp

/-- The part of the script that is about connections. -/
theorem selected_front (h : Tidy k) {port : ℕ} (happ : Applicable k a port) :
    ∃ k', k.execAll (frontCommands a ++ (exclusionRules a).map (.append .selective) ++
        setCommands k a ++ (selectiveRules a).map (.append .selective) ++
        [.ensureJump .selective]) = k' ∧
      Installed k' .selective (exclusionRules a ++ selectiveRules a) ∧
      k'.rules.chains .redirect = k.rules.chains .redirect ∧
      k'.rules.chains .selectiveQuic = none ∧
      (∀ t, k'.rules.others t = k.rules.others t) ∧
      (∀ c, c ≠ .redirect → k'.rules.jumps .filter c = 0) ∧
      (a.excludeCgroup = [] ∨ HasCgroup a.excludeCgroup k') ∧
      (a.ipset = true → ∃ seen, Filled k' seen (specLines a.spec)) := by
  -- k₁ has an empty chain, k₂ the exclusions, k₃ the sets and k₄ the rules; then the jump is added
  obtain ⟨htidy₁, hchains₁, hjumps₁, hothers₁, hsets₁, hcgroup₁⟩ := fronted h happ.cgroup
  generalize hk₁ : k.execAll (frontCommands a) = k₁ at htidy₁ hchains₁ hjumps₁ hothers₁ hsets₁ hcgroup₁
  have hempty : k₁.rules.chains .selective = some [] := by rw [hchains₁, if_pos rfl]
  have hk₂ := execAll_appends hempty (accepts_exclusionRules hcgroup₁)
  rw [List.nil_append] at hk₂
  generalize hk₂' : k₁.execAll ((exclusionRules a).map (.append .selective)) = k₂ at hk₂
  have hselective₂ : k₂.rules.chains .selective = some (exclusionRules a) := by simp [hk₂]
  have hquic₂ : k₂.rules.chains .selectiveQuic = none := by simp [hk₂, hchains₁]
  have htidy₂ : Tidy k₂ := by
    rw [← hk₂', ← addExclusions_eq]
    exact (triple_tidy (plain_exclusions a _)).last k₁ htidy₁ trivial
  have hset₂ : setCommands k a = setCommands k₂ a := by
    have hown : ownSets k = ownSets k₂ := by rw [ownSets, ownSets, hk₂, hsets₁]
    rw [setCommands, setCommands, hown]
  have hk₃ := execAll_onSets (k := k₂) (onSets_setCommands k₂ a)
  have hfilled : a.ipset = true →
      ∃ seen, Filled (k₂.execAll (setCommands k₂ a)) seen (specLines a.spec) := by
    intro hipset
    refine filled_setCommands htidy₂ ?_ hquic₂ hipset happ.keys ?_
    · intro rules hrules
      rw [← Option.some.inj (hselective₂.symm.trans hrules)]
      exact noSet_exclusionRules a
    · intro q hq
      obtain ⟨n, hn, heq⟩ := happ.addresses q hq
      exact ⟨n, by rw [heq, Ip.read4_text4 hn]⟩
  generalize hk₃' : k₂.execAll (setCommands k₂ a) = k₃ at hk₃ hfilled
  have hselective₃ : k₃.rules.chains .selective = some (exclusionRules a) := by
    rw [hk₃]
    exact hselective₂
  have hk₄ := execAll_appends hselective₃ (accepts_selectiveRules happ k₃ (fun hipset => by
    obtain ⟨seen, hfilled⟩ := hfilled hipset
    exact hfilled.contains.2))
  generalize hk₄' : k₃.execAll ((selectiveRules a).map (.append .selective)) = k₄ at hk₄
  have hchains₄ : ∀ c, k₄.rules.chains c =
      if c = .selective then some (exclusionRules a ++ selectiveRules a) else k₁.rules.chains c := by
    intro c
    rw [hk₄, Ruleset.chains_setChain]
    split
    · rfl
    · next hc =>
      rw [hk₃, hk₂]
      simp [hc]
  have hhooks₄ : k₄.rules.hooks = k₁.rules.hooks := by rw [hk₄, hk₃, hk₂]; rfl
  have hjumps₄ : ∀ t c, k₄.rules.jumps t c = k₁.rules.jumps t c := fun t c =>
    Ruleset.jumps_of_hooks _ _ _ hhooks₄
  refine ⟨k₄.exec (.ensureJump .selective), ?_, ?_, ?_, ?_, ?_, ?_, ?_, ?_⟩
  · rw [execAll_append, execAll_append, execAll_append, execAll_append, hk₁, hk₂', hset₂, hk₃', hk₄']
    rfl
  · exact .of_ensureJump (by rw [hchains₄, if_pos rfl])
      (fun c' hc' => by rw [hjumps₄, hjumps₁ _ _ hc']) (by decide)
  · rw [Kernel.exec, Ruleset.chains_ensureJump, hchains₄, hchains₁]
    simp
  · rw [Kernel.exec, Ruleset.chains_ensureJump, hchains₄, hchains₁]
    simp
  · intro t
    rw [Kernel.exec, Ruleset.others_ensureJump, Ruleset.others, hhooks₄]
    exact hothers₁ t
  · intro c hc
    rw [Kernel.exec, Ruleset.jumps_ensureJump, if_neg (by simp [homeTable]), hjumps₄, hjumps₁ _ _ hc]
  · refine hcgroup₁.imp_right (fun hmem => ?_)
    have hcgroups : k₄.cgroups = k₁.cgroups := by rw [hk₄, hk₃, hk₂]
    show cgroupPath a.excludeCgroup ∈ k₄.cgroups
    rw [hcgroups]
    exact hmem
  · intro hipset
    obtain ⟨seen, hfilled⟩ := hfilled hipset
    have hsets : (k₄.exec (.ensureJump .selective)).sets = k₃.sets := by
      rw [hk₄]
      rfl
    exact ⟨seen, by rw [hsets]; exact hfilled.all, fun key hkey => by
      rw [hsets]; exact hfilled.keys key hkey, hfilled.cover, hfilled.usual⟩

/-- **The kernel after the script.** -/
theorem selected_startSelective (h : Tidy k) {port : ℕ} (happ : Applicable k a port) :
    Selected a k (k.execAll (startSelectiveCommands k a)) := by
  obtain ⟨k₅, hk₅, hinst, hredirect, hnoquic, hothers, hjumps, hcgroup, hfilled⟩ :=
    selected_front h happ
  rw [startSelectiveCommands_eq, execAll_append, hk₅]
  cases hquic : a.dropQuic with
  | false =>
    -- no chain for QUIC: the kernel is the one that the first part leaves
    refine ⟨hredirect, hothers, hinst, fun hno => absurd (hquic.symm.trans hno) (by decide),
      fun _ c hmem => ?_, hfilled⟩
    by_contra hc
    exact k₅.rules.jump_notMem _ _ (hjumps c hc) hmem
  | true =>
    -- k₆ has an empty chain for QUIC, k₇ its rules
    have hrenew : k₅.execAll (renewChain .selectiveQuic) =
        { k₅ with rules := (k₅.rules.newChain .selectiveQuic).flush .selectiveQuic } := rfl
    have hchains₆ : ∀ c, (k₅.execAll (renewChain .selectiveQuic)).rules.chains c =
        if c = .selectiveQuic then some [] else k₅.rules.chains c := by
      intro c
      rw [hrenew]
      show ((k₅.rules.newChain .selectiveQuic).flush .selectiveQuic).chains c = _
      rw [Ruleset.chains_flush, Ruleset.chains_newChain, Ruleset.chains_newChain, hnoquic]
      by_cases hc : c = .selectiveQuic
      · simp [hc]
      · simp [hc]
    generalize hk₆ : k₅.execAll (renewChain .selectiveQuic) = k₆ at hrenew hchains₆
    have hacc : ∀ r ∈ exclusionRules a ++ quicRules a, k₆.accepts r = true := by
      intro r hr
      rcases List.mem_append.mp hr with hr | hr
      · exact accepts_exclusionRules (by rw [hrenew]; exact hcgroup) r hr
      · refine accepts_quicRules happ (fun hipset => ?_) r hr
        obtain ⟨seen, hfilled⟩ := hfilled hipset
        rw [hrenew]
        exact hfilled.contains.1
    have hk₇ := execAll_appends (by rw [hchains₆, if_pos rfl]) hacc
    rw [List.nil_append] at hk₇
    generalize hk₇' : k₆.execAll ((exclusionRules a ++ quicRules a).map (.append .selectiveQuic)) =
      k₇ at hk₇
    have hchains₇ : ∀ c, k₇.rules.chains c = if c = .selectiveQuic then
        some (exclusionRules a ++ quicRules a) else k₅.rules.chains c := by
      intro c
      rw [hk₇, Ruleset.chains_setChain]
      split
      · rfl
      · next hc => rw [hchains₆, if_neg hc]
    have hhooks₇ : k₇.rules.hooks = k₅.rules.hooks := by rw [hk₇, hrenew]; rfl
    have hlast : k₅.execAll (renewChain .selectiveQuic ++
        (exclusionRules a ++ quicRules a).map (.append .selectiveQuic) ++
        [.ensureJump .selectiveQuic]) = k₇.exec (.ensureJump .selectiveQuic) := by
      rw [execAll_append, execAll_append, hk₆, hk₇']
      rfl
    rw [if_pos rfl, hlast]
    obtain ⟨l, hhook, hl⟩ := hinst.hook
    refine ⟨?_, fun t => ?_, ⟨?_, l, ?_, hl⟩, fun _ => ?_, fun hno => absurd (hquic.symm.trans hno) (by decide), ?_⟩
    · rw [Kernel.exec, Ruleset.chains_ensureJump, hchains₇]
      simp [hredirect]
    · rw [Kernel.exec, Ruleset.others_ensureJump, Ruleset.others, hhooks₇]
      exact hothers t
    · rw [Kernel.exec, Ruleset.chains_ensureJump, hchains₇]
      simp [hinst.chain]
    · rw [Kernel.exec, Ruleset.hooks_ensureJump, if_neg (by simp [homeTable]), hhooks₇]
      exact hhook
    · refine .of_ensureJump (by rw [hchains₇, if_pos rfl]) (fun c' hc' => ?_) (by decide)
      rw [Ruleset.jumps_of_hooks _ _ _ hhooks₇]
      exact hjumps c' hc'
    · intro hipset
      obtain ⟨seen, hfilled⟩ := hfilled hipset
      have hsets : (k₇.exec (.ensureJump .selectiveQuic)).sets = k₅.sets := by
        rw [hk₇, hrenew]
        rfl
      exact ⟨seen, by rw [hsets]; exact hfilled.all, fun key hkey => by
        rw [hsets]; exact hfilled.keys key hkey, hfilled.cover, hfilled.usual⟩

/-- The rules of others are as they were. -/
theorem Selected.foreignVerdict {k k' : Kernel} {a : ScriptArgs} (hsel : Selected a k k') (t : Table)
    (p : Packet) : k'.foreignVerdict t p = k.foreignVerdict t p := by
  rw [Kernel.foreignVerdict, Kernel.foreignVerdict, hsel.others]

/-- What becomes of a connection. -/
theorem Selected.verdict_nat {k k' : Kernel} {a : ScriptArgs} (hsel : Selected a k k') {port : ℕ}
    (happ : Applicable k a port) (hredirect : k.rules.chains .redirect = none) {p : Packet}
    (hp : p.dst ≠ 0) : k'.verdict .nat p =
      (k.foreignVerdict .nat p).or (if Redirected a p then some (.redirect port) else none) := by
  refine (hsel.selective.verdict (hsel.redirect.trans hredirect) p).trans ?_
  rw [target_excluded, hsel.foreignVerdict]
  refine congrArg _ ?_
  by_cases hexcl : Excluded a p
  · rw [if_pos hexcl, if_neg (fun hr => hr.1.1 hexcl)]
  · rw [if_neg hexcl, target_selectiveRules happ hp hsel.filled hexcl]

/-- What becomes of a datagram. -/
theorem Selected.verdict_filter {k k' : Kernel} {a : ScriptArgs} (hsel : Selected a k k') {port : ℕ}
    (happ : Applicable k a port) (hredirect : k.rules.chains .redirect = none) {p : Packet}
    (hp : p.dst ≠ 0) : k'.verdict .filter p =
      (k.foreignVerdict .filter p).or (if QuicDropped a p then some .drop else none) := by
  have hnone : k'.rules.chains .redirect = none := hsel.redirect.trans hredirect
  cases hquic : a.dropQuic with
  | true =>
    refine ((hsel.quic hquic).verdict hnone p).trans ?_
    rw [target_excluded, hsel.foreignVerdict]
    refine congrArg _ ?_
    by_cases hexcl : Excluded a p
    · rw [if_pos hexcl, if_neg (fun hq => hq.2.1.1 hexcl)]
    · rw [if_neg hexcl, target_quicRules happ hp hsel.filled hquic hexcl]
  | false =>
    have hno : ¬ QuicDropped a p := fun hq => absurd (hquic.symm.trans hq.1) (by decide)
    rw [if_neg hno, Option.or_none, ← hsel.foreignVerdict]
    refine Ruleset.findSome?_fateOf (fun c hmem => ?_)
    show (k'.rules.chains c).bind _ = none
    rw [hsel.quiet hquic c hmem, hnone]
    rfl

/-- **What becomes of a packet** after the selective mode has been set up, with no chain for the
whole machine: the rules of others go first, and then a connection is redirected and a datagram
for QUIC is dropped if the specification says so. -/
theorem selective_verdict {k k' : Kernel} (hclean : k.Clean)
    (hrun : kernelMachine.Reaches Machine.anyStep k k') (hredirect : k'.rules.chains .redirect = none)
    {a : ScriptArgs} {port : ℕ} (happ : Applicable k' a port) {p : Packet} (hp : p.dst ≠ 0) :
    (k'.execAll (startSelectiveCommands k' a)).verdict .nat p =
        (k'.foreignVerdict .nat p).or (if Redirected a p then some (.redirect port) else none) ∧
      (k'.execAll (startSelectiveCommands k' a)).verdict .filter p =
        (k'.foreignVerdict .filter p).or (if QuicDropped a p then some .drop else none) := by
  have hsel := selected_startSelective (tidy_of_reaches hclean hrun) happ
  exact ⟨hsel.verdict_nat happ hredirect hp, hsel.verdict_filter happ hredirect hp⟩

theorem applicable_oneAddress : Applicable Kernel.fresh oneAddress 17478 := by
  have hlines : specLines oneAddress.spec = [(autoKey, Ip.text4 0xc0000201)] := by decide
  constructor
  · decide
  · decide
  · exact .inr rfl
  · rw [hlines]
    simp
  · rw [hlines]
    intro q hq
    exact ⟨0xc0000201, by decide, by rw [List.mem_singleton.mp hq]⟩
  · rw [hlines]
    decide

/-- A connection to the address is redirected. -/
theorem selective_verdict_redirected :
    (Kernel.fresh.execAll (startSelectiveCommands Kernel.fresh oneAddress)).verdict .nat
      (connection []) = some (.redirect 17478) := by
  have hverdict := (selective_verdict Kernel.clean_fresh (.refl _) rfl applicable_oneAddress
    (p := connection []) (by decide)).1
  rw [if_pos (by decide)] at hverdict
  exact hverdict

end HuntProxy.Interception
