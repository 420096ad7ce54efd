import HuntProxy.Routing.Cache
import Mathlib.Data.List.Nodup

/-!
# The order of the domain lists

A new list gets a priority behind all others. `reorder_domain_lists` numbers the lists that it is
given from zero on, and leaves the others: a list that is not named may then have the priority of
one that is, and which of them comes first is up to the order of the rows.

## Main definitions

- `Ordered` — identifiers and priorities are distinct
- `Clear` — no list that is not named has a priority that will be given away
- `Determined` — the stored priorities decide every route

## Main results

- `reorder_lists` — what a reordering does to the lists
- `ordered_reorder_iff` — when it keeps the priorities distinct
- `domain_list_order` — the runs in which they are
- `partial_reorder_ties` — two lists with one priority
-/

namespace HuntProxy.Routing

namespace Database

/-! ### Distinct priorities -/

/-- Identifiers, which are the key of the table, and priorities are distinct. -/
structure Ordered (db : Database) : Prop where
  ids : (db.lists.map DomainList.id).Nodup
  priorities : (db.lists.map DomainList.priority).Nodup

/-- The reordering gives away no priority of a list that it does not name. -/
def Clear (order : List Str) (db : Database) : Prop :=
  ∀ l ∈ db.lists, l.id ∉ order → ∀ l' ∈ db.lists, l'.id ∈ order →
    l.priority ≠ (order.idxOf l'.id : ℤ)

instance (order : List Str) (db : Database) : Decidable (Clear order db) :=
  inferInstanceAs (Decidable (∀ l ∈ db.lists, _))

/-- Whatever order the rows of the query come in, every host has the same route. -/
def Determined (lower strip : Str → Str) (db : Database) : Prop :=
  ∀ (rows rows' : db.RoutedLists) (runner : Option ProxyRunner) (host : Str),
    resolveRoute lower (routeCacheBuild lower strip db rows) runner host =
      resolveRoute lower (routeCacheBuild lower strip db rows') runner host

/-- The named lists come in the given order. -/
def Follows (order : List Str) (db : Database) : Prop :=
  ∀ l ∈ db.lists, ∀ l' ∈ db.lists, l.id ∈ order → l'.id ∈ order →
    order.idxOf l.id < order.idxOf l'.id → l.priority < l'.priority

variable {db : Database}

/-- Lists with the same identifier are the same row. -/
theorem Ordered.eq_of_id (h : db.Ordered) {l l' : DomainList} (hl : l ∈ db.lists)
    (hl' : l' ∈ db.lists) (hid : l.id = l'.id) : l = l' :=
  List.inj_on_of_nodup_map h.ids hl hl' hid

theorem Ordered.eq_of_priority (h : db.Ordered) {l l' : DomainList} (hl : l ∈ db.lists)
    (hl' : l' ∈ db.lists) (hpriority : l.priority = l'.priority) : l = l' :=
  List.inj_on_of_nodup_map h.priorities hl hl' hpriority

/-- Distinct priorities leave the query one order of its rows. -/
theorem Ordered.rows_eq (h : db.Ordered) (rows rows' : db.RoutedLists) :
    rows.rows = rows'.rows := by
  have hmem (r : db.RoutedLists) {l : DomainList} (hl : l ∈ r.rows) : l ∈ db.lists :=
    (List.mem_filter.mp (r.perm.mem_iff.mp hl)).1
  refine List.Perm.eq_of_pairwise (fun l l' hl hl' hle hle' => ?_) rows.sorted rows'.sorted
    (rows.perm.trans rows'.perm.symm)
  exact h.eq_of_priority (hmem rows hl) (hmem rows' hl') (le_antisymm hle hle')

theorem Ordered.determined (h : db.Ordered) (lower strip : Str → Str) :
    db.Determined lower strip := by
  intro rows rows' runner host
  have hcache : routeCacheBuild lower strip db rows = routeCacheBuild lower strip db rows' := by
    unfold routeCacheBuild
    rw [h.rows_eq rows rows']
  rw [hcache]

/-! ### Reordering -/

/-- A list with the priority that an order gives it, counted from `k` on. -/
def placed (order : List Str) (k : ℕ) (l : DomainList) : DomainList :=
  if order.contains l.id then { l with priority := ((k + order.idxOf l.id : ℕ) : ℤ) } else l

theorem placed_of_mem {order : List Str} {l : DomainList} (hmem : l.id ∈ order) (k : ℕ) :
    placed order k l = { l with priority := ((k + order.idxOf l.id : ℕ) : ℤ) } :=
  if_pos (List.contains_iff_mem.mpr hmem)

theorem placed_of_notMem {order : List Str} {l : DomainList} (hmem : l.id ∉ order) (k : ℕ) :
    placed order k l = l :=
  if_neg fun h => hmem (List.contains_iff_mem.mp h)

@[simp] theorem placed_id (order : List Str) (k : ℕ) (l : DomainList) :
    (placed order k l).id = l.id := by
  unfold placed
  split <;> rfl

/-- One update after the other places every named list. -/
theorem reorder_lists {order : List Str} (hnodup : order.Nodup) (k : ℕ) (db : Database) :
    ((order.zipIdx k).foldl
      (fun db (p : Str × ℕ) => db.updateList p.1 (fun l => { l with priority := (p.2 : ℤ) })) db).lists =
      db.lists.map (placed order k) := by
  induction order generalizing k db with
  | nil =>
    have hnone : placed [] k = id := by
      funext l
      rfl
    rw [hnone, List.map_id]
    rfl
  | cons a order ih =>
    obtain ⟨hnew, hnodup⟩ := List.nodup_cons.mp hnodup
    rw [List.zipIdx_cons, List.foldl_cons, ih hnodup, updateList, List.map_map]
    refine List.map_congr_left (fun l _ => ?_)
    rw [Function.comp_apply]
    by_cases hid : l.id = a
    · -- the list that is named first is not named again
      subst hid
      rw [placed_of_mem List.mem_cons_self, if_pos rfl, List.idxOf_cons_self]
      have hplaced : { l with priority := (k : ℤ) }.id ∉ order := hnew
      rw [placed_of_notMem hplaced]
      rfl
    · rw [if_neg hid]
      have hne : ¬ a = l.id := fun h => hid h.symm
      by_cases hmem : l.id ∈ order
      · rw [placed_of_mem hmem, placed_of_mem (List.mem_cons_of_mem a hmem),
          List.idxOf_cons_ne _ hne]
        congr 2
        omega
      · have hmem' : l.id ∉ a :: order := by simp [hid, hmem]
        rw [placed_of_notMem hmem, placed_of_notMem hmem']

/-- Two lists that are placed alike. -/
theorem placed_inj (h : db.Ordered) {order : List Str} (hclear : Clear order db) {l l' : DomainList}
    (hl : l ∈ db.lists) (hl' : l' ∈ db.lists)
    (heq : (placed order 0 l).priority = (placed order 0 l').priority) : l = l' := by
  by_cases hmem : l.id ∈ order <;> by_cases hmem' : l'.id ∈ order
  · rw [placed_of_mem hmem, placed_of_mem hmem'] at heq
    have hindex : order.idxOf l.id = order.idxOf l'.id := by simpa using heq
    exact h.eq_of_id hl hl' ((List.idxOf_inj hmem).mp hindex)
  · rw [placed_of_mem hmem, placed_of_notMem hmem'] at heq
    refine absurd heq.symm ?_
    simpa using hclear l' hl' hmem' l hl hmem
  · rw [placed_of_notMem hmem, placed_of_mem hmem'] at heq
    refine absurd heq ?_
    simpa using hclear l hl hmem l' hl' hmem'
  · rw [placed_of_notMem hmem, placed_of_notMem hmem'] at heq
    exact h.eq_of_priority hl hl' heq

end Database

namespace RoutingState

open Database (Ordered Clear placed)

variable {s s' : RoutingState}

theorem reorderDomainLists_lists (s : RoutingState) {order : List Str} (hnodup : order.Nodup) :
    (s.reorderDomainLists order).db.lists = s.db.lists.map (placed order 0) :=
  Database.reorder_lists hnodup 0 s.db

/-- **A reordering keeps the priorities distinct** exactly when it is clear of the lists that it
does not name. -/
theorem ordered_reorder_iff (h : s.db.Ordered) {order : List Str} (hnodup : order.Nodup) :
    (s.reorderDomainLists order).db.Ordered ↔ Clear order s.db := by
  have hlists := s.reorderDomainLists_lists hnodup
  constructor
  · -- two lists of one priority would be one list, named and not named
    intro hordered l hl hmem l' hl' hmem' heq
    have hpriorities := hordered.priorities
    rw [hlists, List.map_map] at hpriorities
    have hsame : (placed order 0 l).priority = (placed order 0 l').priority := by
      rw [Database.placed_of_notMem hmem, Database.placed_of_mem hmem']
      simpa using heq
    have hll' : l = l' := List.inj_on_of_nodup_map hpriorities hl hl' hsame
    exact hmem (hll' ▸ hmem')
  · intro hclear
    have hids : ((s.reorderDomainLists order).db.lists.map DomainList.id) =
        s.db.lists.map DomainList.id := by
      rw [hlists, List.map_map]
      exact List.map_congr_left fun l _ => Database.placed_id order 0 l
    refine ⟨hids ▸ h.ids, ?_⟩
    rw [hlists, List.map_map]
    exact (List.nodup_map_iff_inj_on h.ids.of_map).mpr fun l hl l' hl' heq =>
      Database.placed_inj h hclear hl hl' heq

/-- The named lists follow the order, whatever the others do. -/
theorem follows_reorder (s : RoutingState) {order : List Str} (hnodup : order.Nodup) :
    (s.reorderDomainLists order).db.Follows order := by
  have hlists := s.reorderDomainLists_lists hnodup
  intro l hl l' hl' hmem hmem' hless
  rw [hlists] at hl hl'
  obtain ⟨l, -, rfl⟩ := List.mem_map.mp hl
  obtain ⟨l', -, rfl⟩ := List.mem_map.mp hl'
  rw [Database.placed_id] at hmem hmem' hless
  rw [Database.placed_id] at hless
  rw [Database.placed_of_mem hmem, Database.placed_of_mem hmem']
  simpa using hless

/-! ### The other operations -/

/-- The maximum of a fold is an upper bound. -/
theorem le_foldl_max (l : List ℤ) (a : ℤ) : a ≤ l.foldl max a ∧ ∀ x ∈ l, x ≤ l.foldl max a := by
  induction l generalizing a with
  | nil => exact ⟨le_rfl, fun x hx => by cases hx⟩
  | cons b l ih =>
    obtain ⟨hle, hall⟩ := ih (max a b)
    refine ⟨(le_max_left a b).trans hle, fun x hx => ?_⟩
    rcases List.mem_cons.mp hx with rfl | hx
    · exact (le_max_right a x).trans hle
    · exact hall x hx

theorem nodup_map_append_single {β : Type*} {g : DomainList → β} {lists : List DomainList}
    {row : DomainList} (h : (lists.map g).Nodup) (hnew : ∀ l ∈ lists, g l ≠ g row) :
    ((lists ++ [row]).map g).Nodup := by
  rw [List.map_append, List.nodup_append]
  refine ⟨h, List.nodup_singleton _, fun a ha b hb heq => ?_⟩
  obtain ⟨l, hl, rfl⟩ := List.mem_map.mp ha
  rw [List.mem_singleton.mp hb] at heq
  exact hnew l hl heq

/-- A new list comes behind all others. -/
theorem ordered_append {db : Database} (h : db.Ordered) {row : DomainList}
    (hid : ∀ l ∈ db.lists, l.id ≠ row.id) (hpriority : row.priority = db.nextPriority) :
    ({ db with lists := db.lists ++ [row] } : Database).Ordered := by
  have hless : ∀ l ∈ db.lists, l.priority < row.priority := by
    intro l hl
    rw [hpriority, Database.nextPriority]
    exact Int.lt_add_one_of_le ((le_foldl_max _ _).2 _ (List.mem_map_of_mem hl))
  exact ⟨nodup_map_append_single h.ids hid,
    nodup_map_append_single h.priorities fun l hl => (hless l hl).ne⟩

/-- What an update of a row keeps, it keeps in the list of all rows. -/
theorem map_updateList {β : Type*} {g : DomainList → β} {f : DomainList → DomainList}
    (hf : ∀ l, g (f l) = g l) (db : Database) (id : Str) :
    (db.updateList id f).lists.map g = db.lists.map g := by
  rw [Database.updateList, List.map_map]
  refine List.map_congr_left fun l _ => ?_
  rw [Function.comp_apply]
  split
  · exact hf l
  · rfl

/-- An update of a row that keeps its identifier and its priority. -/
theorem ordered_updateList {db : Database} (h : db.Ordered) (id : Str) {f : DomainList → DomainList}
    (hid : ∀ l, (f l).id = l.id) (hpriority : ∀ l, (f l).priority = l.priority) :
    (db.updateList id f).Ordered := by
  have hids := map_updateList hid db id
  have hpriorities := map_updateList hpriority db id
  exact ⟨hids ▸ h.ids, hpriorities ▸ h.priorities⟩

/-- Rows that are left out. -/
theorem ordered_filter {db db' : Database} (h : db.Ordered) (hsub : db'.lists.Sublist db.lists) :
    db'.Ordered :=
  ⟨h.ids.sublist (hsub.map _), h.priorities.sublist (hsub.map _)⟩

theorem ordered_dropEntries {db : Database} (h : db.Ordered) (id : Str) :
    (db.dropEntries id).Ordered := ⟨h.ids, h.priorities⟩

/-- The entries do not count. -/
theorem ordered_congr {db db' : Database} (hlists : db'.lists = db.lists) :
    db'.Ordered ↔ db.Ordered :=
  ⟨fun h => ⟨hlists ▸ h.ids, hlists ▸ h.priorities⟩,
    fun h => ⟨hlists.symm ▸ h.ids, hlists.symm ▸ h.priorities⟩⟩

theorem addEntry_lists (db : Database) (e : DomainEntry) : (db.addEntry e).lists = db.lists := by
  unfold Database.addEntry
  split <;> rfl

theorem addPatterns_lists (lower strip : Str → Str) (db : Database) (id : Str) (domains : List Str) :
    (db.addPatterns lower strip id domains).lists = db.lists := by
  unfold Database.addPatterns
  induction domains generalizing db with
  | nil => rfl
  | cons raw domains ih =>
    rw [List.foldl_cons, ih]
    dsimp only
    split
    · rfl
    · exact addEntry_lists db _

theorem addEntries_lists (db : Database) (id : Str) (domains : List Str) :
    (domains.foldl (fun db d => db.addEntry ⟨id, d⟩) db).lists = db.lists := by
  induction domains generalizing db with
  | nil => rfl
  | cons d domains ih => rw [List.foldl_cons, ih, addEntry_lists]

section

variable {lower strip : Str → Str} {order : (db : Database) → db.RoutedLists}
  {normalize : Str → Option Str}

/-- The operations on domain lists, with reorderings of distinct identifiers: a backup brings
priorities of its own. -/
def ListOps : Machine.Guard RoutingState Op := fun _ op _ =>
  match op with
  | .reorderDomainLists ids => ids.Nodup
  | .restoreBackup .. => False
  | _ => True

/-- The reorderings are clear of the lists that they do not name. -/
def ClearOps : Machine.Guard RoutingState Op := fun s op s' =>
  ListOps s op s' ∧ ∀ ids, op = .reorderDomainLists ids → Clear ids s.db

theorem ordered_createDomainList (h : s.db.Ordered) (id : Str) (data : ListFields) :
    (createDomainList lower strip s id data).db.Ordered := by
  simp only [createDomainList]
  split
  · exact h
  · next hnew =>
    refine (ordered_congr (addPatterns_lists lower strip _ _ _)).mpr (ordered_append h ?_ rfl)
    intro l hl heq
    refine hnew (.inr (.inr ?_))
    exact List.any_eq_true.mpr ⟨l, hl, beq_iff_eq.mpr heq⟩

theorem ordered_updateDomainList (h : s.db.Ordered) (id : Str) (data : ListFields) :
    (updateDomainList lower strip s id data).db.Ordered := by
  unfold updateDomainList
  split
  · exact h
  · next existing _ =>
    have hrow : (if strip (data.name.getD []) = [] then s.db
        else s.db.updateList id fun l =>
          { l with
            name := strip (data.name.getD [])
            source :=
              if data.source.getD [] ≠ [] then data.source.getD []
              else if existing.source ≠ [] then existing.source else "manual".toList
            url := data.url.getD existing.url
            route := data.route.getD []
            enabled := data.enabled.getD true }).Ordered := by
      split
      · exact h
      · exact ordered_updateList h id (fun _ => rfl) fun _ => rfl
    dsimp only [routeCacheInvalidate]
    split
    · exact hrow
    · refine (ordered_congr (addPatterns_lists lower strip _ _ _)).mpr ?_
      exact ordered_dropEntries hrow id

theorem ordered_toggleDomainList (h : s.db.Ordered) (id : Str) :
    (s.toggleDomainList id).db.Ordered := by
  unfold toggleDomainList
  split
  · exact h
  · exact ordered_updateList h id (fun _ => rfl) fun _ => rfl

theorem ordered_parseDomainBlocklist (h : s.db.Ordered) (text : List Str)
    (sourceId name route : Str) :
    (parseDomainBlocklist normalize s text sourceId name route).db.Ordered := by
  simp only [parseDomainBlocklist]
  split
  · exact h
  · refine (ordered_congr (addEntries_lists _ _ _)).mpr ?_
    split
    · refine ordered_dropEntries (ordered_updateList h sourceId ?_ ?_) sourceId
      · exact fun _ => rfl
      · exact fun _ => rfl
    · next hnew =>
      refine ordered_append h (fun l hl heq => hnew ?_) rfl
      exact List.any_eq_true.mpr ⟨l, hl, beq_iff_eq.mpr heq⟩

theorem ordered_deleteBlocklistSource (h : s.db.Ordered) (id : Str) :
    (s.deleteBlocklistSource id).db.Ordered := by
  unfold deleteBlocklistSource
  split
  · exact h
  · dsimp only
    split
    · exact h
    · exact ordered_filter h List.filter_sublist

/-- **Step lemma**: what keeps the priorities distinct. -/
theorem ordered_step (h : s.db.Ordered) {op : Op}
    (hs : (machine lower strip order normalize).step s op = some s') (hg : ClearOps s op s') :
    s'.db.Ordered := by
  obtain rfl : s.apply lower strip order normalize op = s' := Option.some.inj hs
  cases op with
  | createDomainList id data => exact ordered_createDomainList h id data
  | updateDomainList id data => exact ordered_updateDomainList h id data
  | deleteDomainList id => exact ordered_filter h List.filter_sublist
  | toggleDomainList id => exact ordered_toggleDomainList h id
  | reorderDomainLists ids => exact (ordered_reorder_iff h hg.1).mpr (hg.2 ids rfl)
  | routingEnable | routingDisable | routingSetDefault => exact ⟨h.ids, h.priorities⟩
  | parseDomainBlocklist text sourceId name route =>
    exact ordered_parseDomainBlocklist h text sourceId name route
  | deleteBlocklistSource id => exact ordered_deleteBlocklistSource h id
  | restoreBackup lists entries config sources => exact hg.1.elim
  | resolveRoute now host =>
    -- a look at the cache changes no row
    simp only [apply, routeCacheGet]
    split
    · exact h
    · split <;> exact h

/-- Reorderings that are not clear are the only way to lose the order. -/
theorem reaches_clear_iff (hstart : s.db.Ordered) :
    (machine lower strip order normalize).Reaches
        (fun t op t' => ListOps t op t' ∧ t'.db.Ordered) s s' ↔
      (machine lower strip order normalize).Reaches ClearOps s s' := by
  constructor
  · intro hrun
    refine (hrun.of_invariant (I := fun t => t.db.Ordered) hstart fun t op t' hordered hs hg => ?_).1
    refine ⟨⟨hg.1, fun ids hop => ?_⟩, hg.2⟩
    subst hop
    cases hs
    exact (ordered_reorder_iff hordered hg.1).mp hg.2
  · intro hrun
    refine (hrun.of_invariant (I := fun t => t.db.Ordered) hstart fun t op t' hordered hs hg => ?_).1
    have hordered' := ordered_step hordered hs hg
    exact ⟨⟨hg.1, hordered'⟩, hordered'⟩

/-- **The order of the domain lists is well defined** in every run whose reorderings are clear of the
lists that they do not name: the priorities are distinct, the routes are determined by them, and a
reordering puts the lists that it names into its order. -/
theorem domain_list_order (hstart : s.db.Ordered)
    (hrun : (machine lower strip order normalize).Reaches ClearOps s s') :
    s'.db.Ordered ∧ s'.db.Determined lower strip ∧
      ∀ ids, ids.Nodup → (s'.reorderDomainLists ids).db.Follows ids := by
  have hordered : s'.db.Ordered := hrun.invariant (I := fun t => t.db.Ordered) hstart
    fun _ _ _ hi hs hg => ordered_step hi hs hg
  exact ⟨hordered, hordered.determined lower strip, fun ids hnodup => s'.follows_reorder hnodup⟩

end

/-- No list, and routing enabled. -/
def noLists : RoutingState where
  db := ⟨[], [], Dict.empty.insert "routing_enabled".toList "true".toList⟩
  sources := []
  cache := none
  cacheTs := 0

/-- Two lists for one domain. -/
def twoLists : List Op :=
  [.createDomainList "news".toList
      { name := some "News".toList, route := some "pool".toList, domains := some ["press.org".toList] },
    .createDomainList "work".toList
      { name := some "Work".toList, route := some "direct".toList, domains := some ["press.org".toList] }]

theorem ordered_noLists : noLists.db.Ordered := ⟨List.nodup_nil, List.nodup_nil⟩

/-- Whether a step of a sample meets the guard. -/
def clearSample (s : RoutingState) : Op → RoutingState → Bool
  | .createDomainList .., _ => true
  | .reorderDomainLists ids, _ => decide (ids.Nodup ∧ Clear ids s.db)
  | _, _ => false

theorem clearOps_of_sample (s : RoutingState) (op : Op) (s' : RoutingState)
    (h : clearSample s op s' = true) : ClearOps s op s' := by
  cases op with
  | createDomainList id data => exact ⟨trivial, fun ids hop => by cases hop⟩
  | reorderDomainLists ids =>
    obtain ⟨hnodup, hclear⟩ := of_decide_eq_true h
    refine ⟨hnodup, fun ids' hop => ?_⟩
    cases hop
    exact hclear
  | _ => cases h

/-- A complete reordering, and one of a single list that is clear of the other. -/
theorem domain_list_order_swapped :
    ∃ s', (machine asciiLower asciiStrip Database.byPriority some).Reaches ClearOps noLists s' ∧
      s'.db.lists.map DomainList.priority = [1, 0] ∧ s'.db.Ordered ∧
        s'.db.Determined asciiLower asciiStrip := by
  have hrun : ∃ s', (machine asciiLower asciiStrip Database.byPriority some).Reaches ClearOps
      noLists s' ∧ decide (s'.db.lists.map DomainList.priority = [1, 0]) = true :=
    Machine.exists_reaches_of_exec (g := clearSample)
      (l := twoLists ++ [.reorderDomainLists ["work".toList, "news".toList],
        .reorderDomainLists ["work".toList]]) clearOps_of_sample (by decide +kernel)
  obtain ⟨s', hs', hpriorities⟩ := hrun
  have horder := domain_list_order ordered_noLists hs'
  exact ⟨s', hs', of_decide_eq_true hpriorities, horder.1, horder.2.1⟩

/-- The second list is put first, on its own: both lists have the priority zero, and the order of the
rows decides. -/
theorem partial_reorder_ties :
    ¬ ∀ s' : RoutingState,
      (machine asciiLower asciiStrip Database.byPriority some).Reaches ListOps noLists s' →
        s'.db.Ordered ∧ s'.db.Determined asciiLower asciiStrip := by
  intro hall
  have hrun : ∃ s', (machine asciiLower asciiStrip Database.byPriority some).Reaches ListOps
      noLists s' ∧ decide (s'.db.lists.map DomainList.priority = [0, 0]) = true :=
    Machine.exists_reaches_of_exec
      (g := fun _ op _ => match op with
        | .createDomainList .. => true
        | .reorderDomainLists ids => decide ids.Nodup
        | _ => false)
      (l := twoLists ++ [.reorderDomainLists ["work".toList]])
      (fun _ op _ h => by
        cases op with
        | createDomainList id data => exact trivial
        | reorderDomainLists ids => exact (of_decide_eq_true h : ids.Nodup)
        | _ => cases h) (by decide +kernel)
  obtain ⟨s', hs', hpriorities⟩ := hrun
  have hdistinct := (hall s' hs').1.priorities
  rw [of_decide_eq_true hpriorities] at hdistinct
  revert hdistinct
  decide

end RoutingState

end HuntProxy.Routing
