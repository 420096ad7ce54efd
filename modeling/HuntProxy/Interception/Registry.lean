import HuntProxy.Interception.Address
import HuntProxy.Lib.Decimal
import HuntProxy.Lib.Machine
import Mathlib.Algebra.Order.Field.Rat
import Mathlib.Data.List.Nodup

/-!
# The registry of resources

A resource is a group of addresses, for which all ports are redirected, or some. Names are
resolved one after the other, and while an answer is awaited the resource may be edited or
deleted. The answer is written to the row for which it was awaited; and as the number of a row is
never used again, an answer that comes too late is written nowhere.

All connections to the database are one. A step that fails in its midst leaves what it has done,
and the next commit of anyone stores it; what has not been committed is gone after a restart.

## Main definitions

- `Tables`, `Registry` — the rows, and what is going on
- `createResource`, `updateResource`, `deleteResource`, `toggleResource` — the edits
- `startResolve`, `answer` — a resolution and its parts
- `registryMachine` — all of this in any order
- `Tables.Sound` — what holds of the rows at any time

## Main results

- `portList_sanitizePorts` — the ports that are stored are those that are read
- `rows_sound` — the rows are sound, also after a restart
-/

namespace HuntProxy.Interception

open Text

/-! ### Ports -/

/-- One part of a list of ports: the ports in front, and its own if it is a new one. -/
def addPort (ports : List ℕ) (part : Str) : List ℕ :=
  if Text.strip part = [] then ports
  else
    match Decimal.int (Text.strip part) with
    | none => ports
    | some p => if 1 ≤ p ∧ p ≤ 65535 ∧ p.toNat ∉ ports then ports ++ [p.toNat] else ports

/-- The ports that a text names. -/
def portsOf (raw : Str) : List ℕ := (raw.splitOn ',').foldl addPort []

/-- Ports as they are stored. -/
def portsText (ports : List ℕ) : Str := [','].intercalate (ports.map (Nat.toDigits 10))

/-- `_sanitize_ports`. -/
def sanitizePorts (raw : Str) : Str := portsText (portsOf raw)

/-- `p.strip().isdigit()`, for decimal digits. -/
def isNumber (p : Str) : Bool := Text.strip p != [] && (Text.strip p).all Decimal.isDecimal

/-- The `port_list` of stored ports; `none` if `int` refuses one. -/
def portList (ports : Str) : Option (List ℕ) :=
  ((ports.splitOn ',').filter isNumber).mapM (fun p => (Decimal.int p).map Int.toNat)

/-- Ports in their range, each of them once. -/
structure PortSet (ports : List ℕ) : Prop where
  range : ∀ p ∈ ports, 1 ≤ p ∧ p ≤ 65535
  nodup : ports.Nodup

theorem PortSet.addPort {ports : List ℕ} (h : PortSet ports) (part : Str) :
    PortSet (addPort ports part) := by
  unfold Interception.addPort
  split
  · exact h
  · split
    · exact h
    · next p _ =>
      split
      · next hp =>
        constructor
        · intro q hq
          rcases List.mem_append.mp hq with hq | hq
          · exact h.range q hq
          · rw [List.mem_singleton.mp hq]
            omega
        · exact h.nodup.append (List.nodup_singleton _) (by simpa using hp.2.2)
      · exact h

theorem portSet_portsOf (raw : Str) : PortSet (portsOf raw) := by
  have hfold : ∀ (parts : List Str) (ports : List ℕ), PortSet ports →
      PortSet (parts.foldl addPort ports) := by
    intro parts
    induction parts with
    | nil => exact fun _ h => h
    | cons part rest ih => exact fun ports h => ih _ (h.addPort part)
  exact hfold _ _ ⟨by simp, List.nodup_nil⟩

theorem isNumber_toDigits (n : ℕ) : isNumber (Nat.toDigits 10 n) = true := by
  rw [isNumber, strip_of_noSpace Decimal.isSpace_toDigits, Bool.and_eq_true, bne_iff_ne,
    List.all_eq_true]
  exact ⟨Nat.toDigits_ne_nil,
    fun c hc => Decimal.isDecimal_of_isDigit (Decimal.isDigit_toDigits c hc)⟩

/-- **The ports that are stored are those that are read.** -/
theorem portList_portsText {ports : List ℕ} (h : PortSet ports) :
    portList (portsText ports) = some ports := by
  have hread : ∀ p ∈ ports, (Decimal.int (Nat.toDigits 10 p)).map Int.toNat = some p := by
    intro p hp
    have hlt : p < 10 ^ 5 := (h.range p hp).2.trans_lt (by decide)
    have hlen : (Nat.toDigits 10 p).length ≤ Decimal.maxDigits :=
      ((Nat.length_toDigits_le_iff (by decide) (by decide)).mpr hlt).trans (by decide)
    rw [Decimal.int_toDigits hlen]
    rfl
  cases ports with
  | nil => rfl
  | cons p rest =>
    have hcomma : ∀ w ∈ (p :: rest).map (Nat.toDigits 10), ',' ∉ w := by
      intro w hw
      obtain ⟨n, -, rfl⟩ := List.mem_map.mp hw
      exact Numeral.not_mem_toDigits (by decide) (by decide) n (by decide)
    have hsplit : (portsText (p :: rest)).splitOn ',' = (p :: rest).map (Nat.toDigits 10) :=
      List.splitOn_intercalate ',' hcomma (by simp)
    have hfilter : ((p :: rest).map (Nat.toDigits 10)).filter isNumber =
        (p :: rest).map (Nat.toDigits 10) := by
      refine List.filter_eq_self.mpr (fun w hw => ?_)
      obtain ⟨n, -, rfl⟩ := List.mem_map.mp hw
      exact isNumber_toDigits n
    rw [portList, hsplit, hfilter]
    exact Ip.mapM_map_of hread

/-! ### Rows -/

/-- A row of `interception_resources`. -/
structure Resource where
  id : Str
  name : Str
  enabled : Bool
  auto : Bool
  ports : Str
  createdAt : ℚ

/-- A row of `interception_entries`. -/
structure ResourceEntry where
  id : ℕ
  resource : Str
  address : Str
  resolved : List Str
  status : Str
  error : Str
  lastResolvedAt : ℚ

/-- The rows in their order, and the number of the next entry. -/
structure Tables where
  resources : List Resource
  entries : List ResourceEntry
  nextId : ℕ

/-- A resolution that is going on: when it was begun, and the entries that are to be resolved. -/
structure Resolution where
  now : ℚ
  rest : List (ℕ × Str)

/-- The rows, those that have been committed, and the resolutions that are going on. -/
structure Registry where
  tables : Tables
  saved : Tables
  running : List Resolution

/-- Addresses from outside: items, of which some may not be texts, or something without items. -/
inductive AddressList
  | items (l : List (Option Str))
  | other

/-- The data of a request: the texts, the truth and the items of what it gives. -/
structure ResourceData where
  name : Option Str
  enabled : Option Bool
  auto : Option Bool
  ports : Option Str
  addresses : Option AddressList

/-! ### Edits -/

namespace Tables

variable (lower : LowerCase) (t : Tables)

/-- `INSERT OR IGNORE` of an entry; the number is used up if it is ignored. -/
def insertEntry (rid address : Str) : Tables :=
  if t.entries.any (fun e => e.resource = rid ∧ e.address = address) then
    { t with nextId := t.nextId + 1 }
  else
    { t with
      entries := t.entries ++ [⟨t.nextId, rid, address, [], "pending".toList, [], 0⟩]
      nextId := t.nextId + 1 }

/-- One item of the addresses. -/
def saveItem (rid : Str) (t : Tables) (item : Option Str) : Tables :=
  let address := item.elim [] (normalizeAddress lower)
  if address = [] then t else t.insertEntry rid address

/-- The entries of a resource are deleted. -/
def dropEntries (rid : Str) : Tables :=
  { t with entries := t.entries.filter (fun e => e.resource ≠ rid) }

/-- `_save_entries`, and whether it gets to its end. -/
def saveEntries (rid : Str) : AddressList → Tables × Bool
  | .items l => (l.foldl (saveItem lower rid) (t.dropEntries rid), true)
  | .other => (t.dropEntries rid, false)

/-- `_policy_from_data`. -/
def policyFromData (data : ResourceData) (auto : Bool) (ports : Str) : Bool × Str :=
  let auto := data.auto.getD auto
  (auto, if auto then [] else sanitizePorts (data.ports.getD ports))

/-- `create_resource` with a name; the resource is known by the milliseconds of the time. -/
def createResource (name : Str) (ms : ℕ) (now : ℚ) (data : ResourceData) : Tables × Bool :=
  let rid := "res_".toList ++ Nat.toDigits 10 ms
  let policy := policyFromData data true []
  let row : Resource := ⟨rid, name, data.enabled.getD true, policy.1, policy.2, now⟩
  if t.resources.any (fun r => r.id = rid) then (t, false)
  else
    saveEntries lower { t with resources := t.resources ++ [row] } rid
      (data.addresses.getD (.items []))

/-- The row of a resource is changed. -/
def setResource (rid : Str) (f : Resource → Resource) : Tables :=
  { t with resources := t.resources.map (fun r => if r.id = rid then f r else r) }

/-- `update_resource`. -/
def updateResource (rid : Str) (data : ResourceData) : Tables × Bool :=
  match t.resources.find? (fun r => r.id = rid) with
  | none => (t, false)
  | some row =>
    let text := Text.strip (data.name.getD row.name)
    let policy := policyFromData data row.auto row.ports
    let t := t.setResource rid (fun r =>
      { r with
        name := if text = [] then row.name else text
        enabled := data.enabled.getD row.enabled
        auto := policy.1
        ports := policy.2 })
    match data.addresses with
    | none => (t, true)
    | some addresses => saveEntries lower t rid addresses

/-- `delete_resource`. -/
def deleteResource (rid : Str) : Tables × Bool :=
  ({ t.dropEntries rid with resources := t.resources.filter (fun r => r.id ≠ rid) }, true)

/-- `toggle_resource`. -/
def toggleResource (rid : Str) : Tables × Bool :=
  (t.setResource rid (fun r => { r with enabled := !r.enabled }), t.resources.any (fun r => r.id = rid))

/-- What an entry gets when it is resolved. -/
def writeAnswer (id : ℕ) (now : ℚ) (answer : List Str × Str × Str) : Tables :=
  { t with
    entries := t.entries.map (fun e =>
      if e.id = id then
        { e with
          resolved := answer.1, status := answer.2.1, error := answer.2.2, lastResolvedAt := now }
      else e) }

end Tables

/-! ### Listing -/

/-- A resource as it is listed. -/
structure ListedResource where
  row : Resource
  portList : List ℕ
  entries : List ResourceEntry
  ips : List Str

namespace Tables

/-- A resource with its ports, its entries and all of their addresses. -/
def listed (t : Tables) (row : Resource) : Option ListedResource :=
  let entries := t.entries.filter (fun e => e.resource = row.id)
  (portList row.ports).map (fun ports =>
    ⟨row, ports, entries, ((entries.flatMap ResourceEntry.resolved).dedup).mergeSort
      (fun a b => decide (a ≤ b))⟩)

/-- `list_resources`: in the order of their creation; nothing, if one of them cannot be listed. -/
def listResources (t : Tables) : List ListedResource :=
  (((t.resources.mergeSort (fun r r' => decide (r.createdAt ≤ r'.createdAt))).mapM t.listed)).getD []

/-- `get_resource`. -/
def getResource (t : Tables) (rid : Str) : Option ListedResource :=
  t.listResources.find? (fun r => r.row.id = rid)

end Tables

/-! ### The registry -/

namespace Registry

variable (lower : LowerCase) (r : Registry)

/-- An edit: what was there before is committed, and what it does if it gets to its end. -/
def edit (op : Tables → Tables × Bool) : Registry :=
  let result := op r.tables
  { r with
    tables := result.1
    saved := if result.2 then result.1 else r.tables }

/-- `create_resource`: nothing is done without a name. -/
def create (ms : ℕ) (now : ℚ) (data : ResourceData) : Registry :=
  let name := Text.strip (data.name.getD [])
  if name = [] then r else r.edit (fun t => t.createResource lower name ms now data)

/-- `resolve_resource` up to the first answer. -/
def startResolve (rid : Str) (now : ℚ) : Registry :=
  match r.tables.getResource rid with
  | none => { r with saved := r.tables }
  | some res =>
    if res.entries = [] then { r with saved := r.tables }
    else
      { r with
        saved := r.tables
        running := r.running ++ [⟨now, res.entries.map (fun e => (e.id, e.address))⟩] }

/-- A resolution gets its next answer, which is written; an error ends it, and so does the last
answer, and then all is committed. -/
def answer (i : ℕ) (ask : Str → Except Str (List Str × Str × Str)) : Registry :=
  match r.running[i]? with
  | none => r
  | some ⟨_, []⟩ => r
  | some ⟨now, (id, address) :: rest⟩ =>
    match ask address with
    | .error _ => { r with saved := r.tables, running := r.running.eraseIdx i }
    | .ok result =>
      let t := r.tables.writeAnswer id now result
      if rest = [] then { tables := t, saved := t, running := r.running.eraseIdx i }
      else { r with tables := t, running := r.running.set i ⟨now, rest⟩ }

/-- What `resolve_resource` takes for an answer that did not come in time. -/
def dnsTimeout : List Str × Str × Str := ([], "error".toList, "DNS timeout".toList)

end Registry

/-- What happens to the registry. -/
inductive RegistryOp
  | create (ms : ℕ) (now : ℚ) (data : ResourceData)
  | update (rid : Str) (data : ResourceData)
  | delete (rid : Str)
  | toggle (rid : Str)
  | startResolve (rid : Str) (now : ℚ)
  | answer (i : ℕ) (resolver : Resolver)
  | timeout (i : ℕ)
  | commit
  | restart

/-- One step. -/
def Registry.perform (lower : LowerCase) (r : Registry) : RegistryOp → Registry
  | .create ms now data => r.create lower ms now data
  | .update rid data => r.edit (fun t => t.updateResource lower rid data)
  | .delete rid => r.edit (fun t => t.deleteResource rid)
  | .toggle rid => r.edit (fun t => t.toggleResource rid)
  | .startResolve rid now => r.startResolve rid now
  | .answer i resolver => r.answer i (resolveSync resolver)
  | .timeout i => r.answer i (fun _ => .ok Registry.dnsTimeout)
  | .commit => { r with saved := r.tables }
  | .restart => { r with tables := r.saved, running := [] }

/-- The registry under any sequence of steps. -/
def registryMachine (lower : LowerCase) : Machine Registry RegistryOp where
  step r op := some (r.perform lower op)

/-- The registry of a new database. -/
def Registry.empty : Registry := ⟨⟨[], [], 1⟩, ⟨[], [], 1⟩, []⟩

/-! ### What holds of the rows -/

/-- An entry has no answer yet, or one of a resolver of the class, or one did not come in time. -/
def ResourceEntry.Answered (R : Resolver → Prop) (e : ResourceEntry) : Prop :=
  e.resolved = [] ∧ e.status = "pending".toList ∨
    (e.resolved, e.status, e.error) = Registry.dnsTimeout ∨
    ∃ resolver, R resolver ∧ resolveSync resolver e.address = .ok (e.resolved, e.status, e.error)

/-- A resource has a name, and its ports are stored as they are read; none if all are redirected. -/
structure Resource.Sound (r : Resource) : Prop where
  named : r.name ≠ []
  ports : ∃ ports, PortSet ports ∧ r.ports = portsText ports ∧ (r.auto = true → ports = [])

/-- An entry belongs to a resource, has an address that is normalised, and its own answer. -/
structure ResourceEntry.Sound (lower : LowerCase) (R : Resolver → Prop) (t : Tables)
    (e : ResourceEntry) : Prop where
  fresh : e.id < t.nextId
  owned : ∃ r ∈ t.resources, r.id = e.resource
  nonempty : e.address ≠ []
  normalised : ∃ raw, e.address = normalizeAddress lower raw
  answered : e.Answered R

namespace Tables

/-- What holds of the rows. -/
structure Sound (lower : LowerCase) (R : Resolver → Prop) (t : Tables) : Prop where
  ids : (t.resources.map Resource.id).Nodup
  resources : ∀ r ∈ t.resources, r.Sound
  numbers : t.entries.Pairwise (fun e e' => e.id < e'.id)
  unique : (t.entries.map (fun e => (e.resource, e.address))).Nodup
  entries : ∀ e ∈ t.entries, e.Sound lower R t

/-- A number of an entry belongs to one address only, from some rows to later ones. -/
structure Extends (t t' : Tables) : Prop where
  nextId : t.nextId ≤ t'.nextId
  entries : ∀ e' ∈ t'.entries, t.nextId ≤ e'.id ∨
    ∃ e ∈ t.entries, e.id = e'.id ∧ e.address = e'.address

variable {lower : LowerCase} {R : Resolver → Prop} {t t' t'' : Tables} {rid : Str}

theorem Extends.refl (t : Tables) : Extends t t :=
  ⟨Nat.le_refl _, fun e he => .inr ⟨e, he, rfl, rfl⟩⟩

theorem Extends.trans (h : Extends t t') (h' : Extends t' t'') : Extends t t'' := by
  refine ⟨h.nextId.trans h'.nextId, fun e'' he'' => ?_⟩
  rcases h'.entries e'' he'' with hnew | ⟨e', he', hid', haddr'⟩
  · exact .inl (h.nextId.trans hnew)
  · rcases h.entries e' he' with hnew | ⟨e, he, hid, haddr⟩
    · exact .inl (hid' ▸ hnew)
    · exact .inr ⟨e, he, hid.trans hid', haddr.trans haddr'⟩

/-! Entries -/

@[simp] theorem resources_insertEntry (t : Tables) (rid address : Str) :
    (t.insertEntry rid address).resources = t.resources := by
  unfold insertEntry
  split <;> rfl

theorem Extends.insertEntry (t : Tables) (rid address : Str) :
    Extends t (t.insertEntry rid address) := by
  unfold Tables.insertEntry
  split
  · exact ⟨Nat.le_succ _, fun e he => .inr ⟨e, he, rfl, rfl⟩⟩
  · refine ⟨Nat.le_succ _, fun e he => ?_⟩
    rcases List.mem_append.mp he with he | he
    · exact .inr ⟨e, he, rfl, rfl⟩
    · rw [List.mem_singleton.mp he]
      exact .inl (Nat.le_refl _)

theorem Sound.insertEntry (h : t.Sound lower R) (howned : ∃ r ∈ t.resources, r.id = rid)
    {address : Str} (hne : address ≠ []) (haddr : ∃ raw, address = normalizeAddress lower raw) :
    (t.insertEntry rid address).Sound lower R := by
  unfold Tables.insertEntry
  split
  · exact ⟨h.ids, h.resources, h.numbers, h.unique, fun e he =>
      { h.entries e he with fresh := Nat.lt_succ_of_lt (h.entries e he).fresh }⟩
  · next hnew =>
    refine ⟨h.ids, h.resources, ?_, ?_, fun e he => ?_⟩
    · refine List.pairwise_append.mpr ⟨h.numbers, List.pairwise_singleton _ _, fun e he e' he' => ?_⟩
      rw [List.mem_singleton.mp he']
      exact (h.entries e he).fresh
    · rw [List.map_append]
      refine List.nodup_append.mpr ⟨h.unique, List.nodup_singleton _, ?_⟩
      rintro q hq q' hq' rfl
      obtain ⟨e, he, rfl⟩ := List.mem_map.mp hq
      obtain ⟨hres, haddress⟩ := Prod.mk.inj (List.mem_singleton.mp hq')
      exact hnew (List.any_eq_true.mpr ⟨e, he, decide_eq_true ⟨hres, haddress⟩⟩)
    · rcases List.mem_append.mp he with he | he
      · exact { h.entries e he with fresh := Nat.lt_succ_of_lt (h.entries e he).fresh }
      · rw [List.mem_singleton.mp he]
        exact ⟨Nat.lt_succ_self _, howned, hne, haddr, .inl ⟨rfl, rfl⟩⟩

theorem Sound.dropEntries (h : t.Sound lower R) (rid : Str) : (t.dropEntries rid).Sound lower R :=
  ⟨h.ids, h.resources, h.numbers.filter _, h.unique.sublist (List.filter_sublist.map _),
    fun e he => { h.entries e (List.mem_filter.mp he).1 with }⟩

theorem Extends.dropEntries (t : Tables) (rid : Str) : Extends t (t.dropEntries rid) :=
  ⟨Nat.le_refl _, fun e he => .inr ⟨e, (List.mem_filter.mp he).1, rfl, rfl⟩⟩

/-- One item: its entry, if it has an address. -/
theorem saveItem_cases (lower : LowerCase) (t : Tables) (rid : Str) (item : Option Str) :
    saveItem lower rid t item = t ∨ ∃ raw, normalizeAddress lower raw ≠ [] ∧
      saveItem lower rid t item = t.insertEntry rid (normalizeAddress lower raw) := by
  cases item with
  | none => exact .inl rfl
  | some raw =>
    by_cases hempty : normalizeAddress lower raw = []
    · exact .inl (if_pos hempty)
    · exact .inr ⟨raw, hempty, if_neg hempty⟩

/-- **The entries of a resource** are replaced. -/
theorem Sound.saveEntries (h : t.Sound lower R) (howned : ∃ r ∈ t.resources, r.id = rid)
    (addresses : AddressList) :
    (saveEntries lower t rid addresses).1.Sound lower R ∧
      Extends t (saveEntries lower t rid addresses).1 := by
  cases addresses with
  | other => exact ⟨h.dropEntries rid, .dropEntries t rid⟩
  | items l =>
    have hfold : ∀ (l : List (Option Str)) (t' : Tables), t'.Sound lower R →
        t'.resources = t.resources → Extends t t' →
        (l.foldl (saveItem lower rid) t').Sound lower R ∧
          Extends t (l.foldl (saveItem lower rid) t') := by
      intro l
      induction l with
      | nil => exact fun t' h' _ hext => ⟨h', hext⟩
      | cons item rest ih =>
        intro t' h' hres hext
        rw [List.foldl_cons]
        rcases saveItem_cases lower t' rid item with hsame | ⟨raw, hne, hnew⟩
        · rw [hsame]
          exact ih t' h' hres hext
        · rw [hnew]
          exact ih _ (h'.insertEntry (hres ▸ howned) hne ⟨raw, rfl⟩)
            ((resources_insertEntry ..).trans hres) (hext.trans (.insertEntry ..))
    exact hfold l _ (h.dropEntries rid) rfl (.dropEntries t rid)

/-! Resources -/

theorem sound_policy (data : ResourceData) {auto : Bool} {ports : Str} :
    ∃ l, PortSet l ∧ (policyFromData data auto ports).2 = portsText l ∧
      ((policyFromData data auto ports).1 = true → l = []) := by
  unfold policyFromData
  by_cases hauto : data.auto.getD auto = true
  · exact ⟨[], ⟨by simp, List.nodup_nil⟩, if_pos hauto, fun _ => rfl⟩
  · exact ⟨_, portSet_portsOf _, if_neg hauto, fun htrue => absurd htrue hauto⟩

/-- The row of a resource keeps its key. -/
theorem Sound.setResource (h : t.Sound lower R) (rid : Str) {f : Resource → Resource}
    (hid : ∀ r, r.id = rid → (f r).id = rid)
    (hsound : ∀ r ∈ t.resources, r.id = rid → (f r).Sound) :
    (t.setResource rid f).Sound lower R ∧ Extends t (t.setResource rid f) := by
  have hkey : ∀ r : Resource, (if r.id = rid then f r else r).id = r.id := by
    intro r
    split
    · next heq => rw [hid r heq, heq]
    · rfl
  have hids : (t.setResource rid f).resources.map Resource.id = t.resources.map Resource.id := by
    rw [Tables.setResource, List.map_map]
    exact List.map_congr_left (fun r _ => hkey r)
  refine ⟨⟨hids ▸ h.ids, fun r hr => ?_, h.numbers, h.unique, fun e he => ?_⟩,
    ⟨Nat.le_refl _, fun e he => .inr ⟨e, he, rfl, rfl⟩⟩⟩
  · obtain ⟨old, hold, rfl⟩ := List.mem_map.mp hr
    split
    · next heq => exact hsound old hold heq
    · exact h.resources old hold
  · obtain ⟨r, hr, heq⟩ := (h.entries e he).owned
    exact { h.entries e he with owned := ⟨_, List.mem_map_of_mem hr, (hkey r).trans heq⟩ }

/-- A resource with a new key. -/
theorem Sound.addResource (h : t.Sound lower R) {row : Resource}
    (hnew : ∀ r ∈ t.resources, r.id ≠ row.id) (hrow : row.Sound) :
    Sound lower R { t with resources := t.resources ++ [row] } := by
  refine ⟨?_, fun r hr => ?_, h.numbers, h.unique, fun e he => ?_⟩
  · rw [List.map_append]
    refine List.nodup_append.mpr ⟨h.ids, List.nodup_singleton _, ?_⟩
    rintro q hq q' hq' rfl
    obtain ⟨r, hr, rfl⟩ := List.mem_map.mp hq
    exact hnew r hr (List.mem_singleton.mp hq')
  · rcases List.mem_append.mp hr with hr | hr
    · exact h.resources r hr
    · rw [List.mem_singleton.mp hr]
      exact hrow
  · obtain ⟨r, hr, heq⟩ := (h.entries e he).owned
    exact { h.entries e he with owned := ⟨r, List.mem_append_left _ hr, heq⟩ }

theorem Sound.createResource (h : t.Sound lower R) {name : Str} (hname : name ≠ []) (ms : ℕ) (now : ℚ)
    (data : ResourceData) :
    (createResource lower t name ms now data).1.Sound lower R ∧
      Extends t (createResource lower t name ms now data).1 := by
  unfold Tables.createResource
  dsimp only
  split
  · exact ⟨h, .refl t⟩
  · next hnew =>
    have hkey : ∀ r ∈ t.resources, r.id ≠ "res_".toList ++ Nat.toDigits 10 ms := fun r hr heq =>
      hnew (List.any_eq_true.mpr ⟨r, hr, decide_eq_true heq⟩)
    have hrow : Resource.Sound ⟨"res_".toList ++ Nat.toDigits 10 ms, name, data.enabled.getD true,
        (policyFromData data true []).1, (policyFromData data true []).2, now⟩ :=
      ⟨hname, sound_policy data⟩
    have hadd := h.addResource hkey hrow
    obtain ⟨hsave, hext⟩ := hadd.saveEntries
      ⟨_, List.mem_append_right _ (List.mem_singleton_self _), rfl⟩
      (data.addresses.getD (.items []))
    exact ⟨hsave, hext.nextId, hext.entries⟩

theorem mem_setResource {row : Resource} (hmem : row ∈ t.resources) (hid : row.id = rid)
    (f : Resource → Resource) : f row ∈ (t.setResource rid f).resources :=
  List.mem_map.mpr ⟨row, hmem, if_pos hid⟩

theorem Sound.updateResource (h : t.Sound lower R) (rid : Str) (data : ResourceData) :
    (updateResource lower t rid data).1.Sound lower R ∧
      Extends t (updateResource lower t rid data).1 := by
  unfold Tables.updateResource
  split
  · exact ⟨h, .refl t⟩
  · next row hrow =>
    have hmem : row ∈ t.resources := List.mem_of_find?_eq_some hrow
    have hid : row.id = rid := by simpa using List.find?_some hrow
    obtain ⟨hset, hext⟩ := h.setResource rid (f := fun r =>
      { r with
        name := if Text.strip (data.name.getD row.name) = [] then row.name
          else Text.strip (data.name.getD row.name)
        enabled := data.enabled.getD row.enabled
        auto := (policyFromData data row.auto row.ports).1
        ports := (policyFromData data row.auto row.ports).2 }) (fun r heq => heq) (fun r _ _ => by
        refine ⟨?_, sound_policy data⟩
        show (if Text.strip (data.name.getD row.name) = [] then row.name else _) ≠ []
        split
        · exact (h.resources row hmem).named
        · next hne => exact hne)
    dsimp only
    split
    · exact ⟨hset, hext⟩
    · next addresses _ =>
      obtain ⟨hsave, hext'⟩ := hset.saveEntries ⟨_, mem_setResource hmem hid _, hid⟩ addresses
      exact ⟨hsave, hext.trans hext'⟩

theorem Sound.deleteResource (h : t.Sound lower R) (rid : Str) :
    (t.deleteResource rid).1.Sound lower R ∧ Extends t (t.deleteResource rid).1 := by
  refine ⟨⟨h.ids.sublist (List.filter_sublist.map _), fun r hr => h.resources r (List.mem_filter.mp hr).1,
    (h.dropEntries rid).numbers, (h.dropEntries rid).unique, fun e he => ?_⟩,
    ⟨Nat.le_refl _, (Extends.dropEntries t rid).entries⟩⟩
  obtain ⟨he, hother⟩ := List.mem_filter.mp he
  obtain ⟨r, hr, heq⟩ := (h.entries e he).owned
  have hkeep : r.id ≠ rid := heq ▸ of_decide_eq_true hother
  exact { h.entries e he with owned := ⟨r, List.mem_filter.mpr ⟨hr, decide_eq_true hkeep⟩, heq⟩ }

theorem Sound.toggleResource (h : t.Sound lower R) (rid : Str) :
    (t.toggleResource rid).1.Sound lower R ∧ Extends t (t.toggleResource rid).1 :=
  h.setResource rid (fun _ heq => heq) (fun r hr _ => ⟨(h.resources r hr).named, (h.resources r hr).ports⟩)

/-- An answer is written to the entry for which it was awaited. -/
theorem Sound.writeAnswer (h : t.Sound lower R) (id : ℕ) (now : ℚ) (answer : List Str × Str × Str)
    (hanswer : ∀ e ∈ t.entries, e.id = id → answer = Registry.dnsTimeout ∨
      ∃ resolver, R resolver ∧ resolveSync resolver e.address = .ok answer) :
    (t.writeAnswer id now answer).Sound lower R ∧ Extends t (t.writeAnswer id now answer) := by
  refine ⟨⟨h.ids, h.resources, ?_, ?_, fun e' he' => ?_⟩, ⟨Nat.le_refl _, fun e' he' => ?_⟩⟩
  · refine List.pairwise_map.mpr (h.numbers.imp (fun {e e'} hlt => ?_))
    split <;> split <;> exact hlt
  · have hsame : (t.writeAnswer id now answer).entries.map (fun e => (e.resource, e.address)) =
        t.entries.map (fun e => (e.resource, e.address)) := by
      rw [Tables.writeAnswer, List.map_map]
      refine List.map_congr_left (fun e _ => ?_)
      dsimp only [Function.comp]
      split <;> rfl
    rw [hsame]
    exact h.unique
  · obtain ⟨e, he, rfl⟩ := List.mem_map.mp he'
    have hold := h.entries e he
    split
    · next hid =>
      exact ⟨hold.fresh, hold.owned, hold.nonempty, hold.normalised,
        .inr (hanswer e he hid)⟩
    · exact { hold with }
  · obtain ⟨e, he, rfl⟩ := List.mem_map.mp he'
    refine .inr ⟨e, he, ?_⟩
    split <;> exact ⟨rfl, rfl⟩

end Tables

/-! ### What is listed -/

/-- The results of a list that are all there. -/
theorem mem_mapM {α β : Type} {f : α → Option β} {l : List α} {l' : List β} (h : l.mapM f = some l')
    {b : β} : b ∈ l' ↔ ∃ a ∈ l, f a = some b := by
  induction l generalizing l' with
  | nil =>
    obtain rfl : [] = l' := Option.some.inj h
    simp
  | cons a rest ih =>
    rw [List.mapM_cons] at h
    obtain ⟨b', hb', h⟩ := Option.bind_eq_some_iff.mp h
    obtain ⟨l'', hl'', h⟩ := Option.bind_eq_some_iff.mp h
    obtain rfl : b' :: l'' = l' := Option.some.inj h
    rw [List.mem_cons, ih hl'', List.exists_mem_cons_iff, hb', Option.some.injEq]
    exact or_congr_left eq_comm

theorem isSome_mapM {α β : Type} {f : α → Option β} {l : List α} (h : ∀ a ∈ l, ∃ b, f a = some b) :
    ∃ l', l.mapM f = some l' := by
  induction l with
  | nil => exact ⟨[], rfl⟩
  | cons a rest ih =>
    obtain ⟨⟨b, hb⟩, hrest⟩ := List.forall_mem_cons.mp h
    obtain ⟨l', hl'⟩ := ih hrest
    exact ⟨b :: l', by rw [List.mapM_cons, hb, hl']; rfl⟩

namespace Tables

variable {lower : LowerCase} {R : Resolver → Prop} {t t' : Tables} {rid : Str}

/-- What is listed is a resource with its entries. -/
theorem exists_of_mem_listResources {res : ListedResource} (h : res ∈ t.listResources) :
    ∃ row ∈ t.resources, t.listed row = some res := by
  unfold listResources at h
  cases hlist : (t.resources.mergeSort (fun r r' => decide (r.createdAt ≤ r'.createdAt))).mapM
      t.listed with
  | none =>
    rw [hlist] at h
    cases h
  | some l =>
    rw [hlist, Option.getD_some] at h
    obtain ⟨row, hrow, hlisted⟩ := (mem_mapM hlist).mp h
    exact ⟨row, List.mem_mergeSort.mp hrow, hlisted⟩

/-- **Every resource is listed**: its ports can be read. -/
theorem Sound.mem_listResources (h : t.Sound lower R) {res : ListedResource} :
    res ∈ t.listResources ↔ ∃ row ∈ t.resources, t.listed row = some res := by
  refine ⟨exists_of_mem_listResources, fun hrow => ?_⟩
  have hall : ∀ row ∈ t.resources.mergeSort (fun r r' => decide (r.createdAt ≤ r'.createdAt)),
      ∃ res, t.listed row = some res := by
    intro row hrow
    obtain ⟨ports, hset, hports, -⟩ := (h.resources row (List.mem_mergeSort.mp hrow)).ports
    have hsome : (t.listed row).isSome = true := by
      rw [listed, Option.isSome_map, hports, portList_portsText hset]
      rfl
    exact Option.isSome_iff_exists.mp hsome
  obtain ⟨l, hl⟩ := isSome_mapM hall
  obtain ⟨row, hmem, hlisted⟩ := hrow
  rw [listResources, hl, Option.getD_some]
  exact (mem_mapM hl).mpr ⟨row, List.mem_mergeSort.mpr hmem, hlisted⟩

theorem entries_of_listed {row : Resource} {res : ListedResource} (h : t.listed row = some res) :
    res.entries = t.entries.filter (fun e => e.resource = row.id) := by
  obtain ⟨ports, -, rfl⟩ := Option.map_eq_some_iff.mp h
  rfl

/-- The entries of a resource that is found are rows of the table. -/
theorem mem_of_getResource {res : ListedResource} (h : t.getResource rid = some res)
    {e : ResourceEntry} (he : e ∈ res.entries) : e ∈ t.entries := by
  obtain ⟨row, -, hlisted⟩ := exists_of_mem_listResources (List.mem_of_find?_eq_some h)
  rw [entries_of_listed hlisted] at he
  exact (List.mem_filter.mp he).1

/-- An entry is known by its number. -/
theorem Sound.eq_of_id (h : t.Sound lower R) {e e' : ResourceEntry} (he : e ∈ t.entries)
    (he' : e' ∈ t.entries) (hid : e.id = e'.id) : e = e' := by
  have hnodup : (t.entries.map ResourceEntry.id).Nodup :=
    List.pairwise_map.mpr (h.numbers.imp (fun hlt => Nat.ne_of_lt hlt))
  exact List.inj_on_of_nodup_map hnodup he he' hid

end Tables

/-! ### Runs -/

namespace Registry

variable {lower : LowerCase} {R : Resolver → Prop} {r : Registry}

/-- The resolutions that are going on know numbers with their addresses. -/
def Pending (r : Registry) : Prop :=
  ∀ task ∈ r.running, ∀ q ∈ task.rest, q.1 < r.tables.nextId ∧
    ∀ e ∈ r.tables.entries, e.id = q.1 → e.address = q.2

/-- The rows are sound, now and when they were committed. -/
structure Sound (lower : LowerCase) (R : Resolver → Prop) (r : Registry) : Prop where
  tables : r.tables.Sound lower R
  saved : r.saved.Sound lower R
  pending : r.Pending

/-- Later rows keep what the resolutions know. -/
theorem Pending.extends (h : r.Pending) {t : Tables} (ht : r.tables.Extends t) {s : Tables}
    {running : List Resolution} (hrun : ∀ task ∈ running, ∃ old ∈ r.running, task.rest ⊆ old.rest) :
    Pending ⟨t, s, running⟩ := by
  intro task htask q hq
  obtain ⟨old, hold, hsub⟩ := hrun task htask
  obtain ⟨hlt, haddr⟩ := h old hold q (hsub hq)
  refine ⟨hlt.trans_le ht.nextId, fun e he hid => ?_⟩
  rcases ht.entries e he with hnew | ⟨e₀, he₀, hid₀, haddr₀⟩
  · omega
  · rw [← haddr₀]
    exact haddr e₀ he₀ (hid₀.trans hid)

theorem Sound.edit (h : r.Sound lower R) (op : Tables → Tables × Bool)
    (hop : (op r.tables).1.Sound lower R ∧ r.tables.Extends (op r.tables).1) :
    (r.edit op).Sound lower R := by
  refine ⟨hop.1, ?_, h.pending.extends hop.2 (fun task htask => ⟨task, htask, fun _ hq => hq⟩)⟩
  show Tables.Sound lower R (if (op r.tables).2 then (op r.tables).1 else r.tables)
  split
  · exact hop.1
  · exact h.tables

theorem Sound.create (h : r.Sound lower R) (ms : ℕ) (now : ℚ) (data : ResourceData) :
    (r.create lower ms now data).Sound lower R := by
  unfold Registry.create
  dsimp only
  split
  · exact h
  · next hname => exact h.edit _ (h.tables.createResource hname ms now data)

theorem Sound.startResolve (h : r.Sound lower R) (rid : Str) (now : ℚ) :
    (r.startResolve rid now).Sound lower R := by
  unfold Registry.startResolve
  split
  · exact ⟨h.tables, h.tables, h.pending⟩
  · next res hres =>
    split
    · exact ⟨h.tables, h.tables, h.pending⟩
    · refine ⟨h.tables, h.tables, fun task htask q hq => ?_⟩
      rcases List.mem_append.mp htask with htask | htask
      · exact h.pending task htask q hq
      · rw [List.mem_singleton.mp htask] at hq
        obtain ⟨e, he, rfl⟩ := List.mem_map.mp hq
        have hmem := Tables.mem_of_getResource hres he
        exact ⟨(h.tables.entries e hmem).fresh, fun e' he' hid =>
          congrArg ResourceEntry.address (h.tables.eq_of_id he' hmem hid)⟩

/-- **An answer** is of a resolver of the class, for the address for which it is awaited. -/
theorem Sound.answer (h : r.Sound lower R) (i : ℕ) {ask : Str → Except Str (List Str × Str × Str)}
    (hask : ∀ address result, ask address = .ok result → result = dnsTimeout ∨
      ∃ resolver, R resolver ∧ resolveSync resolver address = .ok result) :
    (r.answer i ask).Sound lower R := by
  have herase : ∀ task ∈ r.running.eraseIdx i, ∃ old ∈ r.running, task.rest ⊆ old.rest :=
    fun task htask => ⟨task, List.mem_of_mem_eraseIdx htask, fun _ hq => hq⟩
  unfold Registry.answer
  split
  · exact h
  · exact h
  · next now id address rest htask =>
    have hmem : (⟨now, (id, address) :: rest⟩ : Resolution) ∈ r.running := List.mem_of_getElem? htask
    split
    · exact ⟨h.tables, h.tables, h.pending.extends (.refl _) herase⟩
    · next result hresult =>
      obtain ⟨hwrite, hext⟩ := h.tables.writeAnswer id now result
        (fun e he hid => by
          rw [(h.pending _ hmem _ List.mem_cons_self).2 e he hid]
          exact hask address result hresult)
      dsimp only
      split
      · exact ⟨hwrite, hwrite, h.pending.extends hext herase⟩
      · refine ⟨hwrite, h.saved, h.pending.extends hext (fun task hset => ?_)⟩
        rcases List.mem_or_eq_of_mem_set hset with hold | rfl
        · exact ⟨task, hold, fun _ hq => hq⟩
        · exact ⟨_, hmem, List.subset_cons_self _ _⟩

end Registry

/-- The resolvers that answer belong to a class. -/
def AnsweredBy (R : Resolver → Prop) : Machine.Guard Registry RegistryOp := fun _ op _ =>
  ∀ i resolver, op = .answer i resolver → R resolver

/-- **One step** keeps the registry sound. -/
theorem Registry.Sound.perform {lower : LowerCase} {R : Resolver → Prop} {r : Registry}
    (h : r.Sound lower R) {op : RegistryOp} (hop : AnsweredBy R r op (r.perform lower op)) :
    (r.perform lower op).Sound lower R := by
  cases op with
  | create ms now data => exact h.create ms now data
  | update rid data => exact h.edit (fun t => t.updateResource lower rid data) (h.tables.updateResource rid data)
  | delete rid => exact h.edit (fun t => t.deleteResource rid) (h.tables.deleteResource rid)
  | toggle rid => exact h.edit (fun t => t.toggleResource rid) (h.tables.toggleResource rid)
  | startResolve rid now => exact h.startResolve rid now
  | answer i resolver =>
    exact h.answer i (fun address result hresult => .inr ⟨resolver, hop i resolver rfl, hresult⟩)
  | timeout i =>
    exact h.answer i (fun address result hresult => .inl (Except.ok.inj hresult).symm)
  | commit => exact ⟨h.tables, h.tables, h.pending⟩
  | restart => exact ⟨h.saved, h.saved, fun task htask => by cases htask⟩

theorem Registry.sound_empty (lower : LowerCase) (R : Resolver → Prop) :
    Registry.empty.Sound lower R := by
  have hempty : Tables.Sound lower R ⟨[], [], 1⟩ :=
    ⟨List.nodup_nil, by simp, List.Pairwise.nil, List.nodup_nil, by simp⟩
  exact ⟨hempty, hempty, fun task htask => by cases htask⟩

/-- A run keeps the registry sound. -/
theorem Registry.sound_of_reaches {lower : LowerCase} {R : Resolver → Prop} {r : Registry}
    (hrun : (registryMachine lower).Reaches (AnsweredBy R) Registry.empty r) : r.Sound lower R := by
  refine hrun.invariant (Registry.sound_empty lower R) ?_
  rintro s op s' hs hstep hop
  obtain rfl : s.perform lower op = s' := Option.some.inj hstep
  exact hs.perform hop

/-- **The rows are sound** after any sequence of edits, resolutions and restarts. -/
theorem rows_sound {lower : LowerCase} {R : Resolver → Prop} {r : Registry}
    (hrun : (registryMachine lower).Reaches (AnsweredBy R) Registry.empty r) :
    r.tables.Sound lower R ∧ r.saved.Sound lower R :=
  ⟨(Registry.sound_of_reaches hrun).tables, (Registry.sound_of_reaches hrun).saved⟩

/-- A request for a resource with one address. -/
def oneResource : ResourceData where
  name := some "one".toList
  enabled := none
  auto := none
  ports := none
  addresses := some (.items [some "192.0.2.1".toList])

/-- The registry after the resource has been created. -/
def createdRegistry : Registry :=
  Registry.empty.perform asciiLowerCase (.create 1 0 oneResource)

/-- The registry after it has been resolved. -/
def resolvedRegistry : Registry :=
  (createdRegistry.perform asciiLowerCase (.startResolve "res_1".toList 0)).perform asciiLowerCase
    (.answer 0 emptyResolver)

theorem reaches_startResolve : (registryMachine asciiLowerCase).Reaches
    (AnsweredBy (· = emptyResolver)) Registry.empty
    (createdRegistry.perform asciiLowerCase (.startResolve "res_1".toList 0)) := by
  have hcreated : (registryMachine asciiLowerCase).Reaches (AnsweredBy (· = emptyResolver))
      Registry.empty createdRegistry := .single rfl (fun _ _ hop => by cases hop)
  exact hcreated.tail rfl (fun _ _ hop => by cases hop)

theorem reaches_resolvedRegistry : (registryMachine asciiLowerCase).Reaches
    (AnsweredBy (· = emptyResolver)) Registry.empty resolvedRegistry := by
  refine reaches_startResolve.tail rfl ?_
  rintro i resolver hop
  cases hop
  rfl

/-- A request for another list of addresses. -/
def otherAddresses : ResourceData where
  name := none
  enabled := none
  auto := none
  ports := none
  addresses := some (.items [some "192.0.2.2".toList, some "192.0.2.1".toList])

/-- The registry after this request has come during the resolution: the answer is for an entry that
is gone. -/
def editedRegistry : Registry :=
  ((createdRegistry.perform asciiLowerCase (.startResolve "res_1".toList 0)).perform asciiLowerCase
    (.update "res_1".toList otherAddresses)).perform asciiLowerCase (.answer 0 emptyResolver)

theorem rows_sound_edited :
    editedRegistry.tables.entries.map (fun e => (e.id, e.address, e.status)) =
        [(2, "192.0.2.2".toList, "pending".toList), (3, "192.0.2.1".toList, "pending".toList)] ∧
      editedRegistry.tables.Sound asciiLowerCase (· = emptyResolver) ∧
      editedRegistry.saved.Sound asciiLowerCase (· = emptyResolver) := by
  have hupdated : (registryMachine asciiLowerCase).Reaches (AnsweredBy (· = emptyResolver))
      Registry.empty ((createdRegistry.perform asciiLowerCase (.startResolve "res_1".toList 0)).perform
        asciiLowerCase (.update "res_1".toList otherAddresses)) :=
    reaches_startResolve.tail rfl (fun _ _ hop => by cases hop)
  have hanswered : (registryMachine asciiLowerCase).Reaches (AnsweredBy (· = emptyResolver))
      Registry.empty editedRegistry := by
    refine hupdated.tail rfl ?_
    rintro i resolver hop
    cases hop
    rfl
  exact ⟨by decide +kernel, rows_sound hanswered⟩

end HuntProxy.Interception
