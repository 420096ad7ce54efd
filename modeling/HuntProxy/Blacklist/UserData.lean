import HuntProxy.Blacklist.Migrate

/-!
# What the migration does to the data of the user

The migration tells the sources of an older default set from the user's own by their
identifiers alone. A source of the user is not in the default set and is removed with its
entries, or it has an identifier of the set and is overwritten. A domain list that the user
keeps under the identifier of a removed source loses its entries.

## Main definitions

- `BlocklistDb.UserDataKept` — the data of the user is as it was
- `BlocklistDb.Apart` — the data of the user and the default sets do not meet

## Main results

- `at_migrateBlocklists` — what the migration does to one identifier
- `migrate_keeps_iff` — when the migration keeps the data of the user
- `own_source_removed` — a source of the user that is removed
-/

namespace HuntProxy

open Ip (Str)
open Routing (Database DomainList DomainEntry RoutingState)

namespace BlocklistDb

/-- Two states have the same under an identifier. -/
structure SameAt (s s' : BlocklistDb) (id : Str) : Prop where
  source : s'.source id = s.source id
  rowsOf : s'.rowsOf id = s.rowsOf id
  listsOf : s'.listsOf id = s.listsOf id
  entriesOf : s'.entriesOf id = s.entriesOf id

/-- Every source that the user made is as it was, with the addresses, the domain list and the
domains under its identifier; so is every domain list made by hand, with its domains. Sources,
addresses and domains that are added, changed or removed are not the user's. -/
structure UserDataKept (s s' : BlocklistDb) : Prop where
  sources : ∀ id, s.userMade id = true → SameAt s s' id
  manual : ∀ l ∈ s.db.lists, l.source = "manual".toList →
    l ∈ s'.db.lists ∧ s'.entriesOf l.id = s.entriesOf l.id
  rows : ∀ id, s'.rowsOf id ≠ s.rowsOf id → s.userRows id = false
  entries : ∀ id, s'.entriesOf id ≠ s.entriesOf id → s.userEntries id = false

/-- A source of the user is one of the default set already, as it stands there; under the
identifier of a source that is not in the set there are no addresses, or no domains, of the
user's, depending on the type of the source. -/
structure Apart (s : BlocklistDb) (ds : DefaultBlocklists) : Prop where
  sources : ∀ id b, s.userMade id = true → s.source id = some b →
    ∃ p ∈ ds.ordered, p.1.id = id ∧ b.refresh p.1 p.2 = b
  rows : ∀ id b, id ∉ ds.ids → s.source id = some b → b.listType = "ip".toList →
    s.userRows id = true → s.rowsOf id = []
  entries : ∀ id b, id ∉ ds.ids → s.source id = some b → b.listType ≠ "ip".toList →
    s.userEntries id = true ∨ (∃ l ∈ s.db.lists, l.id = id ∧ l.source = "manual".toList) →
      s.entriesOf id = []

namespace SameAt

theorem refl (s : BlocklistDb) (id : Str) : SameAt s s id := ⟨rfl, rfl, rfl, rfl⟩

theorem trans {s t u : BlocklistDb} {id : Str} (h : SameAt s t id) (h' : SameAt t u id) :
    SameAt s u id :=
  ⟨h'.source.trans h.source, h'.rowsOf.trans h.rowsOf, h'.listsOf.trans h.listsOf,
    h'.entriesOf.trans h.entriesOf⟩

end SameAt

/-! ### The removal of a source -/

/-- The source under an identifier is of type `ip`. -/
def ipAt (s : BlocklistDb) (id : Str) : Bool := (s.source id).any fun b => b.listType = "ip".toList

/-- The source under an identifier is of another type, which counts as domains. -/
def domainAt (s : BlocklistDb) (id : Str) : Bool :=
  (s.source id).any fun b => b.listType ≠ "ip".toList

theorem dropSource_of_none {s : BlocklistDb} {id : Str} (h : s.source id = none) :
    s.dropSource id = s := by
  rw [dropSource, h]

/-- Rows that a removal does not touch are found as before. -/
theorem filter_key_of_kept {ρ : Type*} (key : ρ → Str) {p : ρ → Bool} {id : Str}
    (hp : ∀ r, key r = id → p r = true) (l : List ρ) :
    (l.filter p).filter (fun r => key r = id) = l.filter (fun r => key r = id) := by
  rw [List.filter_filter]
  refine List.filter_congr fun r _ => ?_
  by_cases hr : key r = id
  · rw [hp r hr, Bool.and_true]
  · rw [decide_eq_false hr, Bool.false_and]

/-- Rows that are removed are not found any more. -/
theorem filter_key_of_dropped {ρ : Type*} (key : ρ → Str) {p : ρ → Bool} {id : Str}
    (hp : ∀ r, key r = id → p r = false) (l : List ρ) :
    (l.filter p).filter (fun r => key r = id) = [] := by
  rw [List.filter_filter, List.filter_eq_nil_iff]
  intro r _ hr
  rw [Bool.and_eq_true, decide_eq_true_iff] at hr
  exact Bool.false_ne_true ((hp r hr.1).symm.trans hr.2)

theorem source_eq_none_iff {s : BlocklistDb} {id : Str} :
    s.source id = none ↔ id ∉ s.blocklists.map BlocklistRow.id := by
  rw [source, List.find?_eq_none, List.mem_map]
  simp only [decide_eq_true_eq, not_exists, not_and]

theorem id_of_source {s : BlocklistDb} {id : Str} {b : BlocklistRow} (h : s.source id = some b) :
    b.id = id := by
  have hb := List.find?_some h
  exact of_decide_eq_true hb

theorem blocklists_dropSource (s : BlocklistDb) (id : Str) :
    (s.dropSource id).blocklists = s.blocklists.filter (fun b => b.id ≠ id) := by
  unfold dropSource
  cases h : s.source id with
  | none =>
    refine (List.filter_eq_self.mpr fun b hb => ?_).symm
    have hne := List.find?_eq_none.mp h b hb
    simpa using hne
  | some b =>
    dsimp only
    split <;> rfl

theorem rows_dropSource (s : BlocklistDb) (id : Str) :
    (s.dropSource id).rows = if s.ipAt id then deleteSourceRows s.rows id else s.rows := by
  unfold dropSource ipAt
  cases s.source id with
  | none => rfl
  | some b =>
    rw [Option.any_some]
    dsimp only
    by_cases hip : b.listType = "ip".toList
    · rw [if_pos hip, if_pos (decide_eq_true hip)]
    · rw [if_neg hip, if_neg (Bool.not_eq_true _ ▸ decide_eq_false hip)]

theorem db_dropSource (s : BlocklistDb) (id : Str) :
    (s.dropSource id).db =
      if s.domainAt id then
        { s.db.dropEntries id with
          lists := (s.db.dropEntries id).lists.filter fun l =>
            !(l.id == id && RoutingState.isBlocklist l.source) }
      else s.db := by
  unfold dropSource domainAt
  cases s.source id with
  | none => rfl
  | some b =>
    rw [Option.any_some]
    dsimp only
    by_cases hip : b.listType = "ip".toList
    · rw [if_pos hip, if_neg (not_not.mpr hip ∘ of_decide_eq_true)]
    · rw [if_neg hip, if_pos (decide_eq_true hip)]

theorem source_dropSource (s : BlocklistDb) (id : Str) : (s.dropSource id).source id = none := by
  rw [source_eq_none_iff, blocklists_dropSource, List.mem_map]
  rintro ⟨b, hb, hid⟩
  exact of_decide_eq_true (List.mem_filter.mp hb).2 hid

theorem rowsOf_dropSource (s : BlocklistDb) (id : Str) :
    (s.dropSource id).rowsOf id = if s.ipAt id then [] else s.rowsOf id := by
  unfold rowsOf
  rw [rows_dropSource]
  split
  · exact filter_key_of_dropped IpRow.sourceId
      (fun r hr => decide_eq_false (not_not.mpr hr)) s.rows
  · rfl

theorem entriesOf_dropSource (s : BlocklistDb) (id : Str) :
    (s.dropSource id).entriesOf id = if s.domainAt id then [] else s.entriesOf id := by
  unfold entriesOf
  rw [db_dropSource]
  split
  · refine filter_key_of_dropped DomainEntry.listId (fun e he => ?_) s.db.entries
    rw [he, bne_self_eq_false]
  · rfl

theorem listsOf_dropSource (s : BlocklistDb) (id : Str) :
    (s.dropSource id).listsOf id =
      if s.domainAt id then (s.listsOf id).filter (fun l => !RoutingState.isBlocklist l.source)
      else s.listsOf id := by
  unfold listsOf
  rw [db_dropSource]
  split
  · show List.filter _ (List.filter _ s.db.lists) = List.filter _ (List.filter _ s.db.lists)
    rw [List.filter_filter, List.filter_filter]
    refine List.filter_congr fun l _ => ?_
    by_cases hl : l.id = id
    · rw [hl, beq_self_eq_true, Bool.true_and, Bool.and_comm]
    · rw [decide_eq_false hl, Bool.false_and, Bool.and_false]
  · rfl

/-- Nothing happens under another identifier. -/
theorem sameAt_dropSource_of_ne (s : BlocklistDb) {id id' : Str} (h : id ≠ id') :
    SameAt s (s.dropSource id') id where
  source := by
    unfold source
    rw [blocklists_dropSource, List.find?_filter]
    congr 1
    funext b
    refine decide_eq_decide.mpr ⟨fun hboth => of_decide_eq_true hboth.2, fun hb => ?_⟩
    exact ⟨decide_eq_true (hb ▸ h), decide_eq_true hb⟩
  rowsOf := by
    unfold rowsOf
    rw [rows_dropSource]
    split
    · exact filter_key_of_kept IpRow.sourceId (fun r hr => decide_eq_true (hr ▸ h)) s.rows
    · rfl
  listsOf := by
    unfold listsOf
    rw [db_dropSource]
    split
    · refine filter_key_of_kept DomainList.id (fun l hl => ?_) s.db.lists
      rw [hl, beq_false_of_ne h, Bool.false_and, Bool.not_false]
    · rfl
  entriesOf := by
    unfold entriesOf
    rw [db_dropSource]
    split
    · refine filter_key_of_kept DomainEntry.listId (fun e he => ?_) s.db.entries
      rw [he, bne_iff_ne]
      exact h
    · rfl

/-- What is removed under an identifier depends on what is there. -/
theorem SameAt.dropSource {s t : BlocklistDb} {id : Str} (h : SameAt s t id) :
    SameAt (s.dropSource id) (t.dropSource id) id where
  source := by rw [source_dropSource, source_dropSource]
  rowsOf := by rw [rowsOf_dropSource, rowsOf_dropSource, ipAt, ipAt, h.source, h.rowsOf]
  listsOf := by
    rw [listsOf_dropSource, listsOf_dropSource, domainAt, domainAt, h.source, h.listsOf]
  entriesOf := by
    rw [entriesOf_dropSource, entriesOf_dropSource, domainAt, domainAt, h.source, h.entriesOf]

/-- Several removals, seen under one identifier. -/
theorem sameAt_foldl_dropSource (ids : List Str) (s : BlocklistDb) (id : Str) :
    SameAt (if id ∈ ids then s.dropSource id else s) (ids.foldl BlocklistDb.dropSource s) id := by
  induction ids generalizing s with
  | nil => exact .refl s id
  | cons a ids ih =>
    rw [List.foldl_cons]
    refine SameAt.trans ?_ (ih (s.dropSource a))
    by_cases ha : id = a
    · subst ha
      rw [if_pos List.mem_cons_self, dropSource_of_none (s.source_dropSource id), ite_self]
      exact .refl _ id
    · have hsame := s.sameAt_dropSource_of_ne ha
      by_cases hid : id ∈ ids
      · rw [if_pos (List.mem_cons_of_mem a hid), if_pos hid]
        exact hsame.dropSource
      · rw [if_neg hid, if_neg (List.not_mem_cons_of_ne_of_not_mem ha hid)]
        exact hsame

/-! ### The default set -/

theorem mem_ordered_iff {ds : DefaultBlocklists} {id : Str} :
    id ∈ ds.ordered.map (fun p => p.1.id) ↔ id ∈ ds.ids := by
  unfold DefaultBlocklists.ordered DefaultBlocklists.ids
  have hmap : (fun p : DefaultBlocklist × ℕ => p.1.id) = DefaultBlocklist.id ∘ Prod.fst := rfl
  rw [hmap, ← List.map_map, List.zipIdx_map_fst, List.mem_map, List.mem_map]
  simp only [List.mem_insertionSort]

theorem nodup_ordered (ds : DefaultBlocklists) : (ds.ordered.map fun p => p.1.id).Nodup := by
  unfold DefaultBlocklists.ordered
  have hmap : (fun p : DefaultBlocklist × ℕ => p.1.id) = DefaultBlocklist.id ∘ Prod.fst := rfl
  rw [hmap, ← List.map_map, List.zipIdx_map_fst]
  exact ((List.perm_insertionSort _ _).map _).nodup_iff.mpr ds.nodup

/-- The migration of the default set changes the sources only. -/
theorem foldl_addDefault_eq (l : List (DefaultBlocklist × ℕ)) (s : BlocklistDb) :
    ∃ blocklists, l.foldl addDefault s = { s with blocklists := blocklists } := by
  induction l generalizing s with
  | nil => exact ⟨s.blocklists, rfl⟩
  | cons p l ih =>
    obtain ⟨blocklists, h⟩ := ih (s.addDefault p)
    exact ⟨blocklists, h⟩

theorem source_addDefault (s : BlocklistDb) (p : DefaultBlocklist × ℕ) (id : Str) :
    (s.addDefault p).source id =
      if id = p.1.id then
        some ((s.source id).elim (p.1.row p.2) fun b => b.refresh p.1 p.2)
      else s.source id := by
  unfold source addDefault
  dsimp only
  by_cases hany : s.blocklists.any (fun b => b.id = p.1.id) = true
  · rw [if_pos hany, List.find?_map]
    have hid : ((fun b : BlocklistRow => decide (b.id = id)) ∘
        fun b => if b.id = p.1.id then b.refresh p.1 p.2 else b) = fun b => decide (b.id = id) := by
      funext b
      dsimp only [Function.comp]
      split <;> rfl
    rw [hid]
    by_cases hp : id = p.1.id
    · rw [if_pos hp]
      cases hfind : s.blocklists.find? (fun b => b.id = id) with
      | none =>
        rw [List.any_eq_true] at hany
        obtain ⟨b, hb, hbid⟩ := hany
        rw [← hp] at hbid
        exact absurd hbid (List.find?_eq_none.mp hfind b hb)
      | some b =>
        have hb : b.id = id := id_of_source hfind
        rw [Option.map_some, if_pos (hb.trans hp), Option.elim_some]
    · rw [if_neg hp]
      cases hfind : s.blocklists.find? (fun b => b.id = id) with
      | none => rfl
      | some b =>
        have hb : b.id = id := id_of_source hfind
        rw [Option.map_some, if_neg fun h => hp (hb.symm.trans h)]
  · rw [if_neg hany, List.find?_append]
    by_cases hp : id = p.1.id
    · have hnone : s.blocklists.find? (fun b => b.id = id) = none := by
        refine List.find?_eq_none.mpr fun b hb hbid => hany ?_
        exact List.any_eq_true.mpr ⟨b, hb, hp ▸ hbid⟩
      rw [if_pos hp, hnone, Option.none_or, Option.elim_none]
      exact List.find?_cons_of_pos (decide_eq_true hp.symm)
    · rw [if_neg hp]
      have hnone : [p.1.row p.2].find? (fun b => b.id = id) = none :=
        List.find?_eq_none.mpr fun b hb hbid => hp (by
          rw [List.mem_singleton.mp hb] at hbid
          exact (of_decide_eq_true hbid).symm)
      rw [hnone, Option.or_none]

theorem source_foldl_addDefault_of_notMem {l : List (DefaultBlocklist × ℕ)} {id : Str}
    (h : id ∉ l.map (fun p => p.1.id)) (s : BlocklistDb) :
    (l.foldl addDefault s).source id = s.source id := by
  induction l generalizing s with
  | nil => rfl
  | cons p l ih =>
    rw [List.map_cons, List.mem_cons, not_or] at h
    rw [List.foldl_cons, ih h.2, source_addDefault, if_neg h.1]

/-- A source of the set is added or updated once. -/
theorem source_foldl_addDefault_of_mem {l : List (DefaultBlocklist × ℕ)}
    (hl : (l.map fun p => p.1.id).Nodup) {p : DefaultBlocklist × ℕ} (hp : p ∈ l)
    (s : BlocklistDb) :
    (l.foldl addDefault s).source p.1.id =
      some ((s.source p.1.id).elim (p.1.row p.2) fun b => b.refresh p.1 p.2) := by
  induction l generalizing s with
  | nil => cases hp
  | cons q l ih =>
    rw [List.map_cons, List.nodup_cons] at hl
    rw [List.foldl_cons]
    rcases List.mem_cons.mp hp with rfl | hp
    · rw [source_foldl_addDefault_of_notMem hl.1, source_addDefault, if_pos rfl]
    · have hne : p.1.id ≠ q.1.id := fun h =>
        hl.1 (List.mem_map.mpr ⟨p, hp, h⟩)
      rw [ih hl.2 hp, source_addDefault, if_neg hne]

/-! ### The migration -/

/-- A source that is not in the default set loses what is stored for it, according to its type. -/
theorem sameAt_migrate_of_notMem {ds : DefaultBlocklists} {id : Str} (h : id ∉ ds.ids)
    (s : BlocklistDb) : SameAt (s.dropSource id) (s.migrateBlocklists ds) id := by
  obtain ⟨blocklists, hadd⟩ := foldl_addDefault_eq ds.ordered s
  have hsource : (ds.ordered.foldl addDefault s).source id = s.source id :=
    source_foldl_addDefault_of_notMem (fun hid => h (mem_ordered_iff.mp hid)) s
  have hsame : SameAt s (ds.ordered.foldl addDefault s) id :=
    ⟨hsource, by rw [hadd]; rfl, by rw [hadd]; rfl, by rw [hadd]; rfl⟩
  have hdrop := sameAt_foldl_dropSource ((ds.ordered.foldl addDefault s).stale ds)
    (ds.ordered.foldl addDefault s) id
  by_cases hid : id ∈ (ds.ordered.foldl addDefault s).stale ds
  · rw [if_pos hid] at hdrop
    exact hsame.dropSource.trans hdrop
  · have hnone : s.source id = none := by
      rw [← hsource, source_eq_none_iff]
      intro hmem
      exact hid (List.mem_filter.mpr ⟨hmem, decide_eq_true h⟩)
    rw [if_neg hid] at hdrop
    rw [dropSource_of_none hnone]
    exact hsame.trans hdrop

/-- Of a source of the default set only the row changes. -/
theorem migrate_of_mem {ds : DefaultBlocklists} {p : DefaultBlocklist × ℕ} (hp : p ∈ ds.ordered)
    (s : BlocklistDb) :
    (s.migrateBlocklists ds).source p.1.id =
        some ((s.source p.1.id).elim (p.1.row p.2) fun b => b.refresh p.1 p.2) ∧
      (s.migrateBlocklists ds).rowsOf p.1.id = s.rowsOf p.1.id ∧
      (s.migrateBlocklists ds).listsOf p.1.id = s.listsOf p.1.id ∧
      (s.migrateBlocklists ds).entriesOf p.1.id = s.entriesOf p.1.id := by
  obtain ⟨blocklists, hadd⟩ := foldl_addDefault_eq ds.ordered s
  have hdrop := sameAt_foldl_dropSource ((ds.ordered.foldl addDefault s).stale ds)
    (ds.ordered.foldl addDefault s) p.1.id
  have hkept : p.1.id ∉ (ds.ordered.foldl addDefault s).stale ds := fun hstale =>
    of_decide_eq_true (List.mem_filter.mp hstale).2
      (mem_ordered_iff.mp (List.mem_map.mpr ⟨p, hp, rfl⟩))
  rw [if_neg hkept] at hdrop
  refine ⟨hdrop.source.trans (source_foldl_addDefault_of_mem (nodup_ordered ds) hp s),
    hdrop.rowsOf.trans ?_, hdrop.listsOf.trans ?_, hdrop.entriesOf.trans ?_⟩ <;> rw [hadd] <;> rfl

/-- What the migration does to the tables under one identifier. -/
theorem at_migrateBlocklists (s : BlocklistDb) (ds : DefaultBlocklists) (id : Str) :
    (s.migrateBlocklists ds).rowsOf id =
        (if id ∉ ds.ids ∧ s.ipAt id = true then [] else s.rowsOf id) ∧
      (s.migrateBlocklists ds).entriesOf id =
        (if id ∉ ds.ids ∧ s.domainAt id = true then [] else s.entriesOf id) ∧
      (s.migrateBlocklists ds).listsOf id =
        if id ∉ ds.ids ∧ s.domainAt id = true then
          (s.listsOf id).filter (fun l => !RoutingState.isBlocklist l.source)
        else s.listsOf id := by
  by_cases hid : id ∈ ds.ids
  · obtain ⟨p, hp, rfl⟩ := List.mem_map.mp (mem_ordered_iff.mpr hid)
    obtain ⟨-, hrows, hlists, hentries⟩ := migrate_of_mem hp s
    rw [if_neg fun h => h.1 hid, if_neg fun h => h.1 hid, if_neg fun h => h.1 hid]
    exact ⟨hrows, hentries, hlists⟩
  · have hsame := sameAt_migrate_of_notMem hid s
    simp only [hid, not_false_eq_true, true_and]
    exact ⟨hsame.rowsOf.trans (s.rowsOf_dropSource id),
      hsame.entriesOf.trans (s.entriesOf_dropSource id),
      hsame.listsOf.trans (s.listsOf_dropSource id)⟩

/-- A source that the user made, and that was not removed, is in the table. -/
def MadePresent (s : BlocklistDb) : Prop :=
  ∀ id, s.userMade id = true → id ∈ s.blocklists.map BlocklistRow.id

theorem exists_source {s : BlocklistDb} (hs : s.MadePresent) {id : Str}
    (h : s.userMade id = true) : ∃ b, s.source id = some b := by
  refine Option.ne_none_iff_exists'.mp fun hnone => ?_
  exact source_eq_none_iff.mp hnone (hs id h)

theorem sources_of_kept {s : BlocklistDb} {ds : DefaultBlocklists}
    (h : s.UserDataKept (s.migrateBlocklists ds)) {id : Str} {b : BlocklistRow}
    (huser : s.userMade id = true) (hb : s.source id = some b) :
    ∃ p ∈ ds.ordered, p.1.id = id ∧ b.refresh p.1 p.2 = b := by
  have hsource := (h.sources id huser).source
  rw [hb] at hsource
  by_cases hid : id ∈ ds.ids
  · obtain ⟨p, hp, rfl⟩ := List.mem_map.mp (mem_ordered_iff.mpr hid)
    rw [(migrate_of_mem hp s).1, hb, Option.elim_some] at hsource
    exact ⟨p, hp, rfl, Option.some.inj hsource⟩
  · rw [(sameAt_migrate_of_notMem hid s).source, source_dropSource] at hsource
    cases hsource

theorem Apart.of_kept {s : BlocklistDb} {ds : DefaultBlocklists}
    (h : s.UserDataKept (s.migrateBlocklists ds)) : s.Apart ds where
  sources id b huser hb := sources_of_kept h huser hb
  rows id b hid hb hip huser := by
    obtain ⟨hrows, -, -⟩ := s.at_migrateBlocklists ds id
    have hipAt : s.ipAt id = true := by
      rw [ipAt, hb, Option.any_some]
      exact decide_eq_true hip
    rw [if_pos ⟨hid, hipAt⟩] at hrows
    by_contra hne
    have hfalse := h.rows id fun heq => hne (heq.symm.trans hrows)
    exact Bool.false_ne_true (hfalse.symm.trans huser)
  entries id b hid hb htype howned := by
    obtain ⟨-, hentries, -⟩ := s.at_migrateBlocklists ds id
    have hdomainAt : s.domainAt id = true := by
      rw [domainAt, hb, Option.any_some]
      exact decide_eq_true htype
    rw [if_pos ⟨hid, hdomainAt⟩] at hentries
    by_contra hne
    rcases howned with huser | ⟨l, hl, rfl, hmanual⟩
    · have hfalse := h.entries id fun heq => hne (heq.symm.trans hentries)
      exact Bool.false_ne_true (hfalse.symm.trans huser)
    · exact hne ((h.manual l hl hmanual).2.symm.trans hentries)

/-- A source of the user that agrees with the default set stays, with all that belongs to it. -/
theorem Apart.sameAt {s : BlocklistDb} {ds : DefaultBlocklists} (h : s.Apart ds)
    (hs : s.MadePresent) {id : Str} (huser : s.userMade id = true) :
    SameAt s (s.migrateBlocklists ds) id := by
  obtain ⟨b, hb⟩ := exists_source hs huser
  obtain ⟨p, hp, rfl, hrefresh⟩ := h.sources id b huser hb
  obtain ⟨hsource, hrows, hlists, hentries⟩ := migrate_of_mem hp s
  rw [hb, Option.elim_some, hrefresh, ← hb] at hsource
  exact ⟨hsource, hrows, hlists, hentries⟩

/-- Domains that are removed belong to a source that is not in the set. -/
theorem Apart.entriesOf {s : BlocklistDb} {ds : DefaultBlocklists} (h : s.Apart ds) {id : Str}
    (howned : s.userEntries id = true ∨ (∃ l ∈ s.db.lists, l.id = id ∧ l.source = "manual".toList)) :
    (s.migrateBlocklists ds).entriesOf id = s.entriesOf id := by
  obtain ⟨-, hentries, -⟩ := s.at_migrateBlocklists ds id
  rw [hentries]
  split
  · next hstale =>
    obtain ⟨hid, hdomain⟩ := hstale
    obtain ⟨b, hb, htype⟩ := (Option.any_eq_true _ _).mp hdomain
    exact (h.entries id b hid hb (of_decide_eq_true htype) howned).symm
  · rfl

theorem Apart.rowsOf {s : BlocklistDb} {ds : DefaultBlocklists} (h : s.Apart ds) {id : Str}
    (huser : s.userRows id = true) : (s.migrateBlocklists ds).rowsOf id = s.rowsOf id := by
  obtain ⟨hrows, -, -⟩ := s.at_migrateBlocklists ds id
  rw [hrows]
  split
  · next hstale =>
    obtain ⟨hid, hip⟩ := hstale
    obtain ⟨b, hb, htype⟩ := (Option.any_eq_true _ _).mp hip
    exact (h.rows id b hid hb (of_decide_eq_true htype) huser).symm
  · rfl

/-- A list made by hand is not taken for one of a blocklist. -/
theorem mem_lists_migrate {s : BlocklistDb} (ds : DefaultBlocklists) {l : DomainList}
    (hl : l ∈ s.db.lists) (hmanual : l.source = "manual".toList) :
    l ∈ (s.migrateBlocklists ds).db.lists := by
  obtain ⟨-, -, hlists⟩ := s.at_migrateBlocklists ds l.id
  have hmem : l ∈ s.listsOf l.id := List.mem_filter.mpr ⟨hl, decide_eq_true rfl⟩
  have hmem' : l ∈ (s.migrateBlocklists ds).listsOf l.id := by
    rw [hlists]
    split
    · refine List.mem_filter.mpr ⟨hmem, ?_⟩
      rw [hmanual]
      decide
    · exact hmem
  exact (List.mem_filter.mp hmem').1

theorem Apart.kept {s : BlocklistDb} {ds : DefaultBlocklists} (h : s.Apart ds)
    (hs : s.MadePresent) : s.UserDataKept (s.migrateBlocklists ds) where
  sources _ huser := h.sameAt hs huser
  manual l hl hmanual := ⟨mem_lists_migrate ds hl hmanual, h.entriesOf (.inr ⟨l, hl, rfl, hmanual⟩)⟩
  rows _ hne := Bool.eq_false_iff.mpr fun huser => hne (h.rowsOf huser)
  entries _ hne := Bool.eq_false_iff.mpr fun huser => hne (h.entriesOf (.inl huser))

/-! ### The sources of the user are in the table -/

section

variable (lower upper : Str → Str) (normalize : Str → Option Str)

/-- Nothing happens to the sources. -/
def SourcesSame (s s' : BlocklistDb) : Prop :=
  s'.blocklists = s.blocklists ∧ s'.userMade = s.userMade

theorem MadePresent.congr {s s' : BlocklistDb} (hs : s.MadePresent) (h : SourcesSame s s') :
    s'.MadePresent := by
  intro id hid
  rw [h.2] at hid
  rw [h.1]
  exact hs id hid

theorem sourcesSame_persistRows (s : BlocklistDb) (id name text : Str) (user : Bool) :
    SourcesSame s (s.persistRows id name text user) := by
  unfold persistRows
  dsimp only
  split <;> exact ⟨rfl, rfl⟩

theorem sourcesSame_fetched (s : BlocklistDb) (d : Str × Str) :
    SourcesSame s (s.fetched lower normalize d) := by
  unfold fetched
  split
  · exact ⟨rfl, rfl⟩
  · split
    · exact sourcesSame_persistRows s _ _ _ _
    · exact ⟨rfl, rfl⟩

theorem sourcesSame_foldl_fetched (l : List (Str × Str)) (s : BlocklistDb) :
    SourcesSame s (l.foldl (fetched lower normalize) s) := by
  induction l generalizing s with
  | nil => exact ⟨rfl, rfl⟩
  | cons d l ih =>
    have hd := s.sourcesSame_fetched lower normalize d
    have hl := ih (s.fetched lower normalize d)
    exact ⟨hl.1.trans hd.1, hl.2.trans hd.2⟩

/-- A change of the rows that leaves their identifiers. -/
theorem MadePresent.map {s : BlocklistDb} (hs : s.MadePresent) {f : BlocklistRow → BlocklistRow}
    (hf : ∀ b, (f b).id = b.id) :
    ({ s with blocklists := s.blocklists.map f } : BlocklistDb).MadePresent := by
  intro id hid
  have hids : (s.blocklists.map f).map BlocklistRow.id = s.blocklists.map BlocklistRow.id := by
    rw [List.map_map]
    exact List.map_congr_left fun b _ => hf b
  show id ∈ (s.blocklists.map f).map BlocklistRow.id
  rw [hids]
  exact hs id hid

theorem MadePresent.updateBlocklistSource {s : BlocklistDb} (hs : s.MadePresent) (id : Str)
    (data : SourceFields) :
    ({ s with blocklists :=
        HuntProxy.updateBlocklistSource lower upper s.blocklists id data } : BlocklistDb).MadePresent := by
  unfold HuntProxy.updateBlocklistSource
  split
  · exact hs
  · refine hs.map fun b => ?_
    split <;> rfl

theorem MadePresent.toggleBlocklistSource {s : BlocklistDb} (hs : s.MadePresent) (id : Str) :
    ({ s with blocklists :=
        HuntProxy.toggleBlocklistSource s.blocklists id } : BlocklistDb).MadePresent := by
  refine hs.map fun b => ?_
  split <;> rfl

theorem MadePresent.createBlocklistSource {s : BlocklistDb} (hs : s.MadePresent)
    (data : SourceFields) : (s.createBlocklistSource lower upper data).MadePresent := by
  unfold BlocklistDb.createBlocklistSource HuntProxy.createBlocklistSource
  intro id hid
  dsimp only at hid ⊢
  split at hid
  · next hrefused =>
    rw [if_pos hrefused]
    rw [if_pos rfl] at hid
    exact hs id hid
  · next hok =>
    rw [if_neg hok, List.map_append]
    rw [if_neg (by simp)] at hid
    by_cases hnew : id = given data.id ""
    · refine List.mem_append_right _ ?_
      rw [hnew]
      exact List.mem_cons_self
    · rw [Function.update_of_ne hnew] at hid
      exact List.mem_append_left _ (hs id hid)

theorem userMade_dropSource (s : BlocklistDb) (id : Str) {id' : Str}
    (h : (s.dropSource id).userMade id' = true) : s.userMade id' = true ∧
      (id' ≠ id ∨ s.source id = none) := by
  unfold dropSource at h
  cases hb : s.source id with
  | none =>
    rw [hb] at h
    exact ⟨h, .inr rfl⟩
  | some b =>
    rw [hb] at h
    have hupdate : Function.update s.userMade id false id' = true := by
      dsimp only at h
      split at h <;> exact h
    by_cases hid : id' = id
    · rw [hid, Function.update_self] at hupdate
      cases hupdate
    · rw [Function.update_of_ne hid] at hupdate
      exact ⟨hupdate, .inl hid⟩

theorem MadePresent.dropSource {s : BlocklistDb} (hs : s.MadePresent) (id : Str) :
    (s.dropSource id).MadePresent := by
  intro id' hid
  obtain ⟨huser, hne⟩ := userMade_dropSource s id hid
  have hmem := hs id' huser
  obtain ⟨b, hb, rfl⟩ := List.mem_map.mp hmem
  rw [blocklists_dropSource]
  refine List.mem_map.mpr ⟨b, List.mem_filter.mpr ⟨hb, ?_⟩, rfl⟩
  refine decide_eq_true fun heq => ?_
  rcases hne with hne | hnone
  · exact hne heq
  · rw [source_eq_none_iff, ← heq] at hnone
    exact hnone hmem

theorem MadePresent.foldl_dropSource {s : BlocklistDb} (hs : s.MadePresent) (ids : List Str) :
    (ids.foldl BlocklistDb.dropSource s).MadePresent := by
  induction ids generalizing s with
  | nil => exact hs
  | cons id ids ih => exact ih (hs.dropSource id)

theorem MadePresent.foldl_addDefault {s : BlocklistDb} (hs : s.MadePresent)
    (l : List (DefaultBlocklist × ℕ)) : (l.foldl addDefault s).MadePresent := by
  induction l generalizing s with
  | nil => exact hs
  | cons p l ih =>
    refine ih ?_
    unfold addDefault
    split
    · refine hs.map fun b => ?_
      split <;> rfl
    · intro id hid
      show id ∈ (s.blocklists ++ [p.1.row p.2]).map BlocklistRow.id
      rw [List.map_append]
      exact List.mem_append_left _ (hs id hid)

theorem MadePresent.seedDefaultBlocklists {s : BlocklistDb} (hs : s.MadePresent)
    (ds : DefaultBlocklists) : (s.seedDefaultBlocklists ds).MadePresent := by
  unfold BlocklistDb.seedDefaultBlocklists
  split
  · next hempty =>
    intro id hid
    have hmem := hs id hid
    rw [hempty] at hmem
    cases hmem
  · exact hs

theorem MadePresent.apply {s : BlocklistDb} (hs : s.MadePresent) (op : BlocklistOp) :
    (s.apply lower upper normalize op).MadePresent := by
  cases op with
  | createBlocklistSource data => exact hs.createBlocklistSource lower upper data
  | updateBlocklistSource id data => exact hs.updateBlocklistSource lower upper id data
  | toggleBlocklistSource id => exact hs.toggleBlocklistSource id
  | deleteBlocklistSource id => exact hs.dropSource id
  | downloadBlocklists done => exact hs.congr (sourcesSame_foldl_fetched lower normalize done.items s)
  | downloadIpBlacklist id name text user => exact hs.congr (sourcesSame_persistRows s id name text user)
  | createDomainList id data => exact hs.congr ⟨rfl, rfl⟩
  | updateDomainList id data => exact hs.congr ⟨rfl, rfl⟩
  | deleteDomainList id => exact hs.congr ⟨rfl, rfl⟩
  | toggleDomainList id => exact hs.congr ⟨rfl, rfl⟩
  | reorderDomainLists order => exact hs.congr ⟨rfl, rfl⟩
  | seedDefaultBlocklists ds => exact hs.seedDefaultBlocklists ds
  | migrateBlocklists ds => exact (hs.foldl_addDefault ds.ordered).foldl_dropSource _

/-! ### Whole runs -/

/-- In every database that can be reached, the migration leaves the data of the user alone just
when it and the default sets do not meet. -/
theorem migrate_keeps_iff {s : BlocklistDb}
    (h : (machine lower upper normalize).Reaches Machine.anyStep .empty s) (ds : DefaultBlocklists) :
    s.UserDataKept (s.migrateBlocklists ds) ↔ s.Apart ds := by
  have hs : s.MadePresent := by
    refine h.invariant (fun id hid => absurd hid Bool.false_ne_true) ?_
    intro s op s' hs hstep _
    cases hstep
    exact hs.apply lower upper normalize op
  exact ⟨Apart.of_kept, fun hapart => hapart.kept hs⟩

end

/-- A default set with one source. -/
def sampleDefaults : DefaultBlocklists where
  sources := [⟨['d'], ['D'], ['R', 'U'], "inside".toList, "ip".toList, ['u'], "block".toList, []⟩]
  nodup := List.nodup_singleton _

/-- A later set, without it. -/
def laterDefaults : DefaultBlocklists := ⟨[], List.nodup_nil⟩

/-- A list made by hand is left alone when the default source goes. -/
theorem migrate_keeps_iff_manual :
    let s := (empty.apply id id some (.seedDefaultBlocklists sampleDefaults)).apply id id some
      (.createDomainList ['m'] { name := some ['M'], domains := some [['a', '.', 'b']] })
    s.UserDataKept (s.migrateBlocklists laterDefaults) := by
  refine (migrate_keeps_iff id id some ?_ laterDefaults).mpr ⟨nofun, fun _ _ _ _ _ => nofun, ?_⟩
  · exact (Machine.Reaches.single (a := .seedDefaultBlocklists sampleDefaults) rfl trivial).trans
      (Machine.Reaches.single (a := .createDomainList ['m'] _) rfl trivial)
  · intro id b _ hb htype
    exact absurd (List.mem_singleton.mp (List.mem_of_find?_eq_some hb) ▸ rfl) htype

/-- **A source of the user is removed** at the next start: its identifier is not in the default
set. -/
theorem own_source_removed :
    ∃ s, (machine id id some).Reaches Machine.anyStep .empty s ∧ s.userMade ['x'] = true ∧
      s.source ['x'] ≠ none ∧ (s.migrateBlocklists sampleDefaults).source ['x'] = none ∧
      ¬ s.UserDataKept (s.migrateBlocklists sampleDefaults) := by
  refine ⟨_,
    (Machine.Reaches.single (a := .migrateBlocklists sampleDefaults) rfl trivial).trans
      (Machine.Reaches.single (a := .createBlocklistSource
        { id := some ['x'], name := some ['X'], url := some ['u'] }) rfl trivial),
    ?_, ?_, ?_, fun h => ?_⟩
  · decide +kernel
  · decide +kernel
  · decide +kernel
  · have hsource := (h.sources ['x'] (by decide +kernel)).source
    revert hsource
    decide +kernel

end BlocklistDb

end HuntProxy
