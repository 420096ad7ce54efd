import HuntProxy.Interception.Registry
import HuntProxy.Interception.Selection
import HuntProxy.Lib.Split
import Mathlib.Data.List.Dedup

/-!
# From the registry to the packets

The addresses of the enabled resources are written to a file, one on a line, with `auto` or a port
in front; the script reads the lines and sets up the rules. What has been written is what is
read, since all addresses come from resolutions and are in their usual form. So a connection is
redirected if an enabled resource has its address now, and takes its port.

## Main definitions

- `Tables.specEntries`, `Tables.writeIpsetSpec` — the lines and the file
- `Tables.activeAddresses`, `Tables.autoAddresses` — the addresses for the status and the runner
- `Tables.Wanted` — a resource wants the connection

## Main results

- `specLines_writeIpsetSpec` — the script reads what has been written
- `mem_autoAddresses_iff` — the runner looks into what is redirected on all ports
- `intercepted_iff` — what becomes of a connection
-/

namespace HuntProxy.Interception

open Text

/-! ### Writing -/

namespace Tables

/-- The lines of one resource: those of its addresses that are not empty, with its ports. -/
def linesOfResource (res : ListedResource) : List (Str × Str) :=
  let ips := res.ips.filter (fun ip => ip ≠ [])
  if res.row.enabled = false then []
  else if res.row.auto then ips.map (fun ip => (autoKey, ip))
  else res.portList.flatMap (fun port => ips.map (fun ip => (Nat.toDigits 10 port, ip)))

/-- The keys and the addresses that are written. -/
def specEntries (t : Tables) : List (Str × Str) := t.listResources.flatMap linesOfResource

/-- `write_ipset_spec`: the text of the file, and the number of its lines. -/
def writeIpsetSpec (t : Tables) : Str × ℕ :=
  let lines := t.specEntries.map (fun q => q.1 ++ '\t' :: q.2)
  (['\n'].intercalate lines ++ (if lines = [] then [] else ['\n']), lines.length)

/-- Texts in their order, each of them once. -/
def sortedSet (l : List Str) : List Str := l.dedup.mergeSort (fun a b => decide (a ≤ b))

/-- `active_addresses`. -/
def activeAddresses (t : Tables) : List Str :=
  sortedSet (t.listResources.flatMap (fun res =>
    if res.row.enabled then res.ips.filter (fun ip => ip ≠ []) else []))

/-- `auto_addresses`. -/
def autoAddresses (t : Tables) : List Str :=
  sortedSet (t.listResources.flatMap (fun res =>
    if res.row.enabled && res.row.auto then res.ips.filter (fun ip => ip ≠ []) else []))

end Tables

/-! ### Reading -/

/-- A key and an address with one blank between them. -/
theorem readKeyIp_tab {key ip : Str} (hkey : ∀ c ∈ key, isBlank c = false) (hne : key ≠ [])
    (hip : ∀ c ∈ ip, isBlank c = false) (hne' : ip ≠ []) :
    readKeyIp (key ++ '\t' :: ip) = (key, ip) := by
  have hbare : Bare isBlank (key ++ '\t' :: ip) := by
    constructor
    · intro c hc
      rw [List.head?_append_of_ne_nil _ hne] at hc
      exact hkey c (List.mem_of_head? hc)
    · intro c hc
      rw [List.getLast?_append_of_ne_nil _ (List.cons_ne_nil _ _), List.getLast?_cons_of_ne_nil hne']
        at hc
      exact hip c (List.mem_of_getLast? hc)
  have hkey' : ∀ c ∈ key, (!isBlank c) = true := fun c hc => by rw [hkey c hc]; rfl
  have hip' : ip.dropWhile isBlank = ip :=
    dropWhile_of_head (fun c hc => hip c (List.mem_of_head? hc))
  have htab : isBlank '\t' = true := by decide
  simp only [readKeyIp, trim_of_bare hbare]
  rw [List.takeWhile_append_of_pos hkey', List.dropWhile_append_of_pos hkey', List.takeWhile_cons,
    List.dropWhile_cons, htab]
  simp [htab, hip']

/-- Lines that have been joined are read as they were. -/
theorem specLines_of_lines {entries : List (Str × Str)}
    (hkey : ∀ q ∈ entries, (∀ c ∈ q.1, isBlank c = false ∧ c ≠ '\n') ∧ q.1 ≠ [])
    (hip : ∀ q ∈ entries, (∀ c ∈ q.2, isBlank c = false ∧ c ≠ '\n') ∧ q.2 ≠ []) {text : Str}
    (htext : text = ['\n'].intercalate (entries.map (fun q => q.1 ++ '\t' :: q.2)) ++
      (if entries.map (fun q => q.1 ++ '\t' :: q.2) = [] then [] else ['\n'])) :
    specLines (some text) = entries := by
  have hsplit : (text.splitOn '\n').dropLast = entries.map (fun q => q.1 ++ '\t' :: q.2) := by
    generalize hlines : entries.map (fun q => q.1 ++ '\t' :: q.2) = lines at htext
    have hnl : ∀ w ∈ lines ++ [[]], '\n' ∉ w := by
      intro w hw hmem
      rcases List.mem_append.mp hw with hw | hw
      · rw [← hlines] at hw
        obtain ⟨q, hq, rfl⟩ := List.mem_map.mp hw
        rcases List.mem_append.mp hmem with hmem | hmem
        · exact ((hkey q hq).1 _ hmem).2 rfl
        · rcases List.mem_cons.mp hmem with hmem | hmem
          · exact absurd hmem (by decide)
          · exact ((hip q hq).1 _ hmem).2 rfl
      · rw [List.mem_singleton.mp hw] at hmem
        cases hmem
    have hjoin : text = ['\n'].intercalate (lines ++ [[]]) := by
      rw [htext]
      cases lines with
      | nil => rfl
      | cons w rest =>
        rw [if_neg (List.cons_ne_nil _ _)]
        exact (intercalate_concat_nil _ (List.cons_ne_nil _ _)).symm
    rw [hjoin, List.splitOn_intercalate '\n' hnl (by simp), List.dropLast_concat]
  have hread : ∀ q ∈ entries, readKeyIp (q.1 ++ '\t' :: q.2) = q := fun q hq =>
    readKeyIp_tab (fun c hc => ((hkey q hq).1 c hc).1) (hkey q hq).2
      (fun c hc => ((hip q hq).1 c hc).1) (hip q hq).2
  have hall : (entries.map (fun q => q.1 ++ '\t' :: q.2)).map readKeyIp = entries := by
    rw [List.map_map]
    exact (List.map_congr_left hread).trans (List.map_id entries)
  rw [specLines, Option.getD_some, hsplit, hall]
  refine List.filter_eq_self.mpr (fun q hq => decide_eq_true ⟨(hkey q hq).2, (hip q hq).2⟩)

/-! ### Addresses that have been resolved -/

theorem text4_of_text {ip : Ip.Address} (h : ip.family = .v4) :
    ∃ n < 2 ^ 32, ip.text = Ip.text4 n := by
  refine ⟨ip.value, ?_, ?_⟩
  · have hrange := ip.inRange
    rwa [h] at hrange
  · rw [Ip.Address.text, h]

/-- What is resolved are IPv4 addresses in their usual form. -/
theorem usual_resolveSync {resolver : Resolver} {address : Str} {result : List Str × Str × Str}
    (h : resolveSync resolver address = .ok result) :
    ∀ ip ∈ result.1, ∃ n < 2 ^ 32, ip = Ip.text4 n := by
  have hiter : ∀ l : List Str, ∀ ip ∈ iterV4 l, ∃ n < 2 ^ 32, ip = Ip.text4 n := by
    intro l ip hip
    obtain ⟨raw, -, hraw⟩ := List.mem_filterMap.mp hip
    obtain ⟨a, -, ha⟩ := Option.bind_eq_some_iff.mp hraw
    split at ha
    · next hv4 =>
      rw [← Option.some.inj ha]
      exact text4_of_text hv4
    · cases ha
  unfold resolveSync at h
  dsimp only at h
  generalize (if "*.".toList.isPrefixOf address then address.drop 2 else address) = host at h
  split at h
  · rw [← Except.ok.inj h]
    simp
  · split at h
    · next a _ =>
      split at h
      · rw [← Except.ok.inj h]
        simp
      · next hv4 =>
        rw [← Except.ok.inj h]
        simp only [List.mem_singleton, forall_eq]
        exact text4_of_text (not_not.mp hv4)
    · split at h
      · rw [← Except.ok.inj h]
        simp
      · cases h
      · split at h
        · rw [← Except.ok.inj h]
          simp
        · rw [← Except.ok.inj h]
          exact hiter _

/-- **The addresses of all entries** are in their usual form. -/
theorem ResourceEntry.Answered.usual {R : Resolver → Prop} {e : ResourceEntry} (h : e.Answered R) :
    ∀ ip ∈ e.resolved, ∃ n < 2 ^ 32, ip = Ip.text4 n := by
  rcases h with ⟨hnone, -⟩ | htimeout | ⟨resolver, -, hresult⟩
  · rw [hnone]
    simp
  · rw [(Prod.mk.inj htimeout).1]
    simp
  · exact usual_resolveSync hresult

namespace Tables

variable {lower : LowerCase} {R : Resolver → Prop} {t : Tables}

/-- A resource has an address: one of its entries is resolved to it. -/
def Has (t : Tables) (row : Resource) (ip : Str) : Prop :=
  ∃ e ∈ t.entries, e.resource = row.id ∧ ip ∈ e.resolved

theorem Sound.usual (h : t.Sound lower R) {row : Resource} {ip : Str} (hip : t.Has row ip) :
    ∃ n < 2 ^ 32, ip = Ip.text4 n := by
  obtain ⟨e, he, -, hmem⟩ := hip
  exact (h.entries e he).answered.usual ip hmem

theorem text4_ne_nil {n : ℕ} : Ip.text4 n ≠ [] := List.ne_nil_of_mem (Ip.dot_mem_text4 n)

/-- The addresses of a resource that are listed, but for empty ones. -/
theorem Sound.mem_ips (h : t.Sound lower R) {row : Resource} {res : ListedResource}
    (hres : t.listed row = some res) {ip : Str} :
    ip ∈ res.ips.filter (fun ip => ip ≠ []) ↔ t.Has row ip := by
  have hips : ip ∈ res.ips ↔ t.Has row ip := by
    obtain ⟨ports, -, rfl⟩ := Option.map_eq_some_iff.mp hres
    rw [List.mem_mergeSort, List.mem_dedup, List.mem_flatMap]
    simp only [List.mem_filter, decide_eq_true_eq, Has, and_assoc]
  rw [List.mem_filter, hips]
  refine and_iff_left_of_imp (fun hip => ?_)
  obtain ⟨n, -, rfl⟩ := h.usual hip
  exact decide_eq_true text4_ne_nil

/-- A line is written for an address of an enabled resource, with `auto` or one of its ports. -/
theorem Sound.mem_specEntries (h : t.Sound lower R) {q : Str × Str} :
    q ∈ t.specEntries ↔ ∃ row ∈ t.resources, row.enabled = true ∧ t.Has row q.2 ∧
      (row.auto = true ∧ q.1 = autoKey ∨ row.auto = false ∧
        ∃ ports, portList row.ports = some ports ∧ ∃ port ∈ ports, q.1 = Nat.toDigits 10 port) := by
  have hlines : ∀ row res, t.listed row = some res →
      (q ∈ linesOfResource res ↔ row.enabled = true ∧ t.Has row q.2 ∧
        (row.auto = true ∧ q.1 = autoKey ∨ row.auto = false ∧
          ∃ ports, portList row.ports = some ports ∧ ∃ port ∈ ports, q.1 = Nat.toDigits 10 port)) := by
    intro row res hres
    have hmem : ∀ ip, ip ∈ res.ips.filter (fun ip => ip ≠ []) ↔ t.Has row ip := fun ip =>
      h.mem_ips hres
    have hrow : res.row = row ∧ portList row.ports = some res.portList := by
      obtain ⟨ports, hports, rfl⟩ := Option.map_eq_some_iff.mp hres
      exact ⟨rfl, hports⟩
    unfold linesOfResource
    rw [hrow.1, hrow.2]
    generalize res.ips.filter (fun ip => ip ≠ []) = ips at hmem
    obtain ⟨key, ip⟩ := q
    cases row.enabled with
    | false => simp
    | true =>
      cases row.auto with
      | true =>
        simp only [Bool.true_eq_false, if_false, if_true, List.mem_map, Prod.mk.injEq, hmem, true_and,
          false_and, or_false]
        constructor
        · rintro ⟨ip', hip', rfl, rfl⟩
          exact ⟨hip', rfl⟩
        · rintro ⟨hip, rfl⟩
          exact ⟨ip, hip, rfl, rfl⟩
      | false =>
        simp only [Bool.true_eq_false, Bool.false_eq_true, if_false, List.mem_flatMap, List.mem_map,
          Prod.mk.injEq, hmem, true_and, false_and, false_or]
        constructor
        · rintro ⟨port, hport, ip', hip', rfl, rfl⟩
          exact ⟨hip', res.portList, rfl, port, hport, rfl⟩
        · rintro ⟨hip, ports, hports, port, hport, rfl⟩
          exact ⟨port, (Option.some.inj hports) ▸ hport, ip, hip, rfl, rfl⟩
  unfold specEntries
  rw [List.mem_flatMap]
  constructor
  · rintro ⟨res, hres, hq⟩
    obtain ⟨row, hrow, hlisted⟩ := exists_of_mem_listResources hres
    exact ⟨row, hrow, (hlines row res hlisted).mp hq⟩
  · rintro ⟨row, hrow, hq⟩
    obtain ⟨ports, hset, hports, -⟩ := (h.resources row hrow).ports
    have hsome : (t.listed row).isSome = true := by
      rw [listed, Option.isSome_map, hports, portList_portsText hset]
      rfl
    obtain ⟨res, hlisted⟩ := Option.isSome_iff_exists.mp hsome
    exact ⟨res, h.mem_listResources.mpr ⟨row, hrow, hlisted⟩, (hlines row res hlisted).mpr hq⟩

end Tables

/-! ### What has been written -/

theorem plain_toDigits (n : ℕ) : ∀ c ∈ Nat.toDigits 10 n, isBlank c = false ∧ c ≠ '\n' := by
  intro c hc
  constructor
  · rw [isBlank, Bool.or_eq_false_iff, decide_eq_false_iff_not, decide_eq_false_iff_not]
    exact ⟨Decimal.ne_of_mem_toDigits hc (by decide), Decimal.ne_of_mem_toDigits hc (by decide)⟩
  · exact Decimal.ne_of_mem_toDigits hc (by decide)

theorem plain_text4 {n : ℕ} (hn : n < 2 ^ 32) :
    ∀ c ∈ Ip.text4 n, isBlank c = false ∧ c ≠ '\n' := by
  intro c hc
  have hplain := Ip.mem_read4 (Ip.read4_text4 hn) hc
  constructor
  · rw [isBlank, Bool.or_eq_false_iff, decide_eq_false_iff_not, decide_eq_false_iff_not]
    constructor
    · rintro rfl
      exact absurd hplain (by decide)
    · rintro rfl
      exact absurd hplain (by decide)
  · rintro rfl
    exact absurd hplain (by decide)

namespace Tables

variable {lower : LowerCase} {R : Resolver → Prop} {t : Tables}

/-- The lines have their keys and their addresses in the usual form. -/
theorem Sound.usual_specEntries (h : t.Sound lower R) {q : Str × Str} (hq : q ∈ t.specEntries) :
    (q.1 = autoKey ∨ ∃ n < 65536, q.1 = Nat.toDigits 10 n) ∧ ∃ n < 2 ^ 32, q.2 = Ip.text4 n := by
  obtain ⟨row, hrow, -, hhas, hkey⟩ := h.mem_specEntries.mp hq
  refine ⟨?_, h.usual hhas⟩
  rcases hkey with ⟨-, hauto⟩ | ⟨-, ports, hports, port, hport, hkey⟩
  · exact .inl hauto
  · obtain ⟨ports', hset, hports', -⟩ := (h.resources row hrow).ports
    rw [hports', portList_portsText hset] at hports
    obtain rfl := Option.some.inj hports
    exact .inr ⟨port, Nat.lt_succ_of_le (hset.range port hport).2, hkey⟩

/-- **The script reads what has been written.** -/
theorem Sound.specLines_writeIpsetSpec (h : t.Sound lower R) :
    specLines (some t.writeIpsetSpec.1) = t.specEntries := by
  refine specLines_of_lines (fun q hq => ?_) (fun q hq => ?_) rfl
  · rcases (h.usual_specEntries hq).1 with hauto | ⟨n, -, hn⟩
    · have hplain : autoKey.all (fun c => !isBlank c && c != '\n') = true := by decide
      rw [hauto]
      exact ⟨fun c hc => by simpa using List.all_eq_true.mp hplain c hc, by decide⟩
    · rw [hn]
      exact ⟨plain_toDigits n, Nat.toDigits_ne_nil⟩
  · obtain ⟨n, hn, heq⟩ := (h.usual_specEntries hq).2
    rw [heq]
    exact ⟨plain_text4 hn, text4_ne_nil⟩

theorem mem_sortedSet {l : List Str} {s : Str} : s ∈ sortedSet l ↔ s ∈ l := by
  rw [sortedSet, List.mem_mergeSort, List.mem_dedup]

/-- **The runner looks into connections** to the addresses all of whose ports are redirected. -/
theorem Sound.mem_autoAddresses_iff (h : t.Sound lower R) {ip : Str} :
    ip ∈ t.autoAddresses ↔ (autoKey, ip) ∈ t.specEntries := by
  rw [autoAddresses, mem_sortedSet, h.mem_specEntries, List.mem_flatMap]
  constructor
  · rintro ⟨res, hres, hip⟩
    obtain ⟨row, hrow, hlisted⟩ := exists_of_mem_listResources hres
    obtain ⟨ports, -, rfl⟩ := Option.map_eq_some_iff.mp hlisted
    split at hip
    · next hflags =>
      obtain ⟨henabled, hauto⟩ := Bool.and_eq_true_iff.mp hflags
      exact ⟨row, hrow, henabled, (h.mem_ips hlisted).mp hip, .inl ⟨hauto, rfl⟩⟩
    · cases hip
  · rintro ⟨row, hrow, henabled, hhas, hkey⟩
    rcases hkey with ⟨hauto, -⟩ | ⟨-, _, -, port, -, hport⟩
    · obtain ⟨ports, hset, hports, -⟩ := (h.resources row hrow).ports
      have hsome : (t.listed row).isSome = true := by
        rw [listed, Option.isSome_map, hports, portList_portsText hset]
        rfl
      obtain ⟨res, hlisted⟩ := Option.isSome_iff_exists.mp hsome
      have hrow' : res.row = row := by
        obtain ⟨_, -, rfl⟩ := Option.map_eq_some_iff.mp hlisted
        rfl
      refine ⟨res, h.mem_listResources.mpr ⟨row, hrow, hlisted⟩, ?_⟩
      rw [hrow', henabled, hauto, Bool.and_self, if_pos rfl]
      exact (h.mem_ips hlisted).mpr hhas
    · exact absurd hport.symm (toDigits_ne_autoKey port)

/-! ### What is wanted -/

/-- An enabled resource has the address of a connection, and takes its port. -/
def Wanted (t : Tables) (p : Packet) : Prop :=
  ∃ row ∈ t.resources, row.enabled = true ∧
    (row.auto = true ∨ p.dport ∈ (portList row.ports).getD []) ∧ t.Has row (Ip.text4 p.dst)

/-- An enabled resource has the address, and takes any port. -/
def WantedAtAll (t : Tables) (p : Packet) : Prop :=
  ∃ row ∈ t.resources, row.enabled = true ∧
    (row.auto = true ∨ (portList row.ports).getD [] ≠ []) ∧ t.Has row (Ip.text4 p.dst)

instance (row : Resource) (ip : Str) : Decidable (t.Has row ip) :=
  inferInstanceAs (Decidable (∃ e ∈ _, _ ∧ _))

instance (p : Packet) : Decidable (t.Wanted p) :=
  inferInstanceAs (Decidable (∃ row ∈ _, _ ∧ (_ ∨ _) ∧ _))

instance (p : Packet) : Decidable (t.WantedAtAll p) :=
  inferInstanceAs (Decidable (∃ row ∈ _, _ ∧ (_ ∨ _ ≠ _) ∧ _))

/-- A line that names the address and the port is one of a resource that wants the connection. -/
theorem Sound.exists_line_iff (h : t.Sound lower R) {p : Packet} (hdst : p.dst < 2 ^ 32) :
    (∃ q ∈ t.specEntries, Ip.read4 q.2 = some p.dst ∧
      (q.1 = autoKey ∨ portNumber q.1 = some p.dport)) ↔ t.Wanted p := by
  constructor
  · rintro ⟨q, hq, hip, hkey⟩
    obtain ⟨row, hrow, henabled, hhas, hline⟩ := h.mem_specEntries.mp hq
    obtain ⟨n, hn, heq⟩ := h.usual hhas
    rw [heq, Ip.read4_text4 hn] at hip
    refine ⟨row, hrow, henabled, ?_, by rw [← Option.some.inj hip, ← heq]; exact hhas⟩
    rcases hline with ⟨hauto, -⟩ | ⟨-, ports, hports, port, hport, hline⟩
    · exact .inl hauto
    · obtain ⟨ports', hset, hports', -⟩ := (h.resources row hrow).ports
      have hlt : port < 65536 := by
        rw [hports', portList_portsText hset] at hports
        obtain rfl := Option.some.inj hports
        exact Nat.lt_succ_of_le (hset.range port hport).2
      rw [hline] at hkey
      have hnumber := hkey.resolve_left (toDigits_ne_autoKey port)
      rw [portNumber_toDigits hlt] at hnumber
      refine .inr ?_
      rw [hports, Option.getD_some, ← Option.some.inj hnumber]
      exact hport
  · rintro ⟨row, hrow, henabled, hport, hhas⟩
    cases hauto : row.auto with
    | true =>
      exact ⟨(autoKey, Ip.text4 p.dst),
        h.mem_specEntries.mpr ⟨row, hrow, henabled, hhas, .inl ⟨hauto, rfl⟩⟩,
        Ip.read4_text4 hdst, .inl rfl⟩
    | false =>
      have hmem := hport.resolve_left (by rw [hauto]; exact Bool.false_ne_true)
      obtain ⟨ports, hset, hports, -⟩ := (h.resources row hrow).ports
      have hread : portList row.ports = some ports := by rw [hports, portList_portsText hset]
      rw [hread, Option.getD_some] at hmem
      exact ⟨(Nat.toDigits 10 p.dport, Ip.text4 p.dst),
        h.mem_specEntries.mpr ⟨row, hrow, henabled, hhas, .inr ⟨hauto, ports, hread, _, hmem, rfl⟩⟩,
        Ip.read4_text4 hdst, .inr (portNumber_toDigits (Nat.lt_succ_of_le (hset.range _ hmem).2))⟩

/-- A line that names the address. -/
theorem Sound.exists_address_iff (h : t.Sound lower R) {p : Packet} (hdst : p.dst < 2 ^ 32) :
    (∃ q ∈ t.specEntries, Ip.read4 q.2 = some p.dst) ↔ t.WantedAtAll p := by
  constructor
  · rintro ⟨q, hq, hip⟩
    obtain ⟨row, hrow, henabled, hhas, hline⟩ := h.mem_specEntries.mp hq
    obtain ⟨n, hn, heq⟩ := h.usual hhas
    rw [heq, Ip.read4_text4 hn] at hip
    refine ⟨row, hrow, henabled, ?_, by rw [← Option.some.inj hip, ← heq]; exact hhas⟩
    rcases hline with ⟨hauto, -⟩ | ⟨-, ports, hports, port, hport, -⟩
    · exact .inl hauto
    · rw [hports, Option.getD_some]
      exact .inr (List.ne_nil_of_mem hport)
  · rintro ⟨row, hrow, henabled, hports, hhas⟩
    cases hauto : row.auto with
    | true =>
      exact ⟨(autoKey, Ip.text4 p.dst),
        h.mem_specEntries.mpr ⟨row, hrow, henabled, hhas, .inl ⟨hauto, rfl⟩⟩, Ip.read4_text4 hdst⟩
    | false =>
      have hne := hports.resolve_left (by rw [hauto]; exact Bool.false_ne_true)
      obtain ⟨port, hport⟩ := List.exists_mem_of_ne_nil _ hne
      cases hread : portList row.ports with
      | none =>
        rw [hread] at hport
        cases hport
      | some ports =>
        rw [hread] at hport
        exact ⟨(Nat.toDigits 10 port, Ip.text4 p.dst),
          h.mem_specEntries.mpr ⟨row, hrow, henabled, hhas, .inr ⟨hauto, ports, hread, port, hport, rfl⟩⟩,
          Ip.read4_text4 hdst⟩

end Tables

/-! ### From the registry to the packets -/

/-- The kernel and the arguments fit, apart from the specification. -/
structure Started (k : Kernel) (a : ScriptArgs) (port : ℕ) : Prop where
  port : portNumber a.redirectPort = some port
  iface : a.iface.length ≤ 15
  cgroup : a.excludeCgroup = [] ∨ k.cgroupV2 = true

/-- **What becomes of a packet** when the selective mode is set up for the resources as they are,
after any edits, resolutions and restarts: behind the rules of others, a connection is redirected
if an enabled resource has its address and takes its port. -/
theorem intercepted_iff {lower : LowerCase} {R : Resolver → Prop} {r : Registry}
    (hregistry : (registryMachine lower).Reaches (AnsweredBy R) Registry.empty r) {k k' : Kernel}
    (hclean : k.Clean) (hrun : kernelMachine.Reaches Machine.anyStep k k')
    (hredirect : k'.rules.chains .redirect = none) {a : ScriptArgs} {port : ℕ}
    (hstart : Started k' a port) (hspec : a.spec = some r.tables.writeIpsetSpec.1)
    (hcount : r.tables.writeIpsetSpec.2 ≤ maxElem) {p : Packet} (hp : p.dst ≠ 0)
    (hdst : p.dst < 2 ^ 32) :
    (k'.execAll (startSelectiveCommands k' a)).verdict .nat p =
        (k'.foreignVerdict .nat p).or
          (if Concerned a p ∧ p.proto = .tcp ∧
              (a.ipset = false → ∀ net ∈ localNets, inNetwork net p.dst = false) ∧ r.tables.Wanted p
            then some (.redirect port) else none) ∧
      (k'.execAll (startSelectiveCommands k' a)).verdict .filter p =
        (k'.foreignVerdict .filter p).or
          (if a.dropQuic = true ∧ Concerned a p ∧ p.proto = .udp ∧ p.dport = 443 ∧
              r.tables.WantedAtAll p
            then some .drop else none) := by
  have hsound := (Registry.sound_of_reaches hregistry).tables
  have hlines : specLines a.spec = r.tables.specEntries := by
    rw [hspec]
    exact hsound.specLines_writeIpsetSpec
  have happ : Applicable k' a port := by
    refine ⟨hstart.port, hstart.iface, hstart.cgroup, ?_, ?_, ?_⟩
    · rw [hlines]
      exact fun q hq => (hsound.usual_specEntries hq).1
    · rw [hlines]
      exact fun q hq => (hsound.usual_specEntries hq).2
    · rw [hlines]
      exact (List.length_map _).symm.le.trans hcount
  have hsel := selected_startSelective (tidy_of_reaches hclean hrun) happ
  rw [hsel.verdict_nat happ hredirect hp, hsel.verdict_filter happ hredirect hp]
  refine ⟨congrArg _ (if_congr ?_ rfl rfl), congrArg _ (if_congr ?_ rfl rfl)⟩
  · rw [Redirected, hlines, hsound.exists_line_iff hdst]
  · rw [QuicDropped, hlines, hsound.exists_address_iff hdst]

/-- The rows of the registry with one resource. -/
def oneRow : Tables where
  resources := [⟨"res_1".toList, "one".toList, true, true, [], 0⟩]
  entries := [⟨1, "res_1".toList, "192.0.2.1".toList, ["192.0.2.1".toList], "ok".toList, [], 0⟩]
  nextId := 2

/-- One resource that can be listed. -/
theorem listResources_one {t : Tables} {row : Resource} {res : ListedResource}
    (hrow : t.resources = [row]) (hres : t.listed row = some res) : t.listResources = [res] := by
  rw [Tables.listResources, hrow, List.mergeSort_singleton, List.mapM_cons, hres]
  rfl

/-- The resource before and after its resolution, as it is listed. -/
def oneListed (e : ResourceEntry) (ips : List Str) : ListedResource :=
  ⟨⟨"res_1".toList, "one".toList, true, true, [], 0⟩, [], [e], ips⟩

theorem listed_one {t : Tables} {row : Resource} {e : ResourceEntry} (hentries : t.entries = [e])
    (he : e.resource = row.id) {ips : List Str} (hips : e.resolved = ips)
    (hone : ips = [] ∨ ∃ ip, ips = [ip]) (hports : row.ports = []) :
    t.listed row = some ⟨row, [], [e], ips⟩ := by
  have hread : portList row.ports = some [] := by
    rw [hports]
    rfl
  rw [Tables.listed, hread, hentries]
  rcases hone with rfl | ⟨ip, rfl⟩
  · simp [he, hips]
  · simp [he, hips]

theorem tables_resolvedRegistry : resolvedRegistry.tables = oneRow := by
  have hlisted : createdRegistry.tables.listResources =
      [oneListed ⟨1, "res_1".toList, "192.0.2.1".toList, [], "pending".toList, [], 0⟩ []] :=
    listResources_one rfl (listed_one rfl rfl rfl (.inl rfl) rfl)
  have hfound : createdRegistry.tables.getResource "res_1".toList =
      some (oneListed ⟨1, "res_1".toList, "192.0.2.1".toList, [], "pending".toList, [], 0⟩ []) := by
    rw [Tables.getResource, hlisted]
    rfl
  have hstarted : createdRegistry.perform asciiLowerCase (.startResolve "res_1".toList 0) =
      { createdRegistry with running := [⟨0, [(1, "192.0.2.1".toList)]⟩] } := by
    rw [Registry.perform, Registry.startResolve, hfound]
    rfl
  have hresult : resolveSync emptyResolver "192.0.2.1".toList =
      .ok (["192.0.2.1".toList], "ok".toList, []) := by
    have hhost : (if "*.".toList.isPrefixOf "192.0.2.1".toList then "192.0.2.1".toList.drop 2
        else "192.0.2.1".toList) = "192.0.2.1".toList := by decide
    have hip : Ip.ipAddress "192.0.2.1".toList =
        some ⟨.v4, 0xc0000201, none, by decide, fun _ => rfl⟩ := by decide
    simp only [resolveSync, hhost, hip]
    rfl
  rw [resolvedRegistry, hstarted, Registry.perform, Registry.answer]
  simp only [List.getElem?_cons_zero, hresult]
  rfl

/-- A connection to the address of the resource is redirected. -/
theorem intercepted_iff_resolved :
    (Kernel.fresh.execAll (startSelectiveCommands Kernel.fresh
      { oneAddress with spec := some resolvedRegistry.tables.writeIpsetSpec.1 })).verdict .nat
        (connection []) = some (.redirect 17478) := by
  have hlisted : oneRow.listResources =
      [oneListed ⟨1, "res_1".toList, "192.0.2.1".toList, ["192.0.2.1".toList], "ok".toList, [], 0⟩
        ["192.0.2.1".toList]] :=
    listResources_one rfl (listed_one rfl rfl rfl (.inr ⟨_, rfl⟩) rfl)
  have hcount : resolvedRegistry.tables.writeIpsetSpec.2 ≤ maxElem := by
    rw [tables_resolvedRegistry, Tables.writeIpsetSpec, Tables.specEntries, hlisted]
    decide
  have hverdict := (intercepted_iff reaches_resolvedRegistry Kernel.clean_fresh (.refl _) rfl
    (a := { oneAddress with spec := some resolvedRegistry.tables.writeIpsetSpec.1 })
    ⟨applicable_oneAddress.port, applicable_oneAddress.iface, applicable_oneAddress.cgroup⟩ rfl hcount
    (p := connection []) (by decide) (by decide)).1
  rw [tables_resolvedRegistry] at hverdict ⊢
  rw [if_pos (by decide)] at hverdict
  exact hverdict

end HuntProxy.Interception
