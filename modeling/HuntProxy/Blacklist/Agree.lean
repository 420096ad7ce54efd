import HuntProxy.Blacklist.Sources

/-!
# The index and the table

The index agrees with the table when it has the same entries under the same sources, and
every lookup in it is that after a restart. It does after a start, and every operation that
rebuilds the index restores it. Three operations do not: a download of the IP lists clears
the index and fills it with the lists that arrive, but only replaces the rows of these, and
the loader does not read all of them back; the deletion of a blocklist source deletes its
rows and leaves the index; and the restoration of a backup without rows leaves the index.

## Main definitions

- `Agree` — the index has the entries of the table
- `Restorable` — and a restart changes no lookup
- `ListOp.Keeps` — what an operation must meet

## Main results

- `agree_apply_iff` — when one operation keeps the entries in agreement
- `restorable_apply_iff` — when it also keeps the lookups
- `index_agrees` — the runs in which the index agrees
- `failed_download_disagrees` — a download without an answer
-/

namespace HuntProxy

open Ip (Str)
open Routing.RoutingState (restoreTable)

/-- The index has exactly the entries of the table, under their sources. -/
def Agree (st : IpStore) : Prop :=
  ∀ key source, source ∈ sourcesOf ((st.index.entries.get? key).getD []) ↔ HasRow st.rows key source

/-- The rows of a table are known by the table alone. -/
theorem agree_reload (st : IpStore) : Agree st.loadIpBlacklistFromDb :=
  (loadedFrom_reload st).entries

theorem agree_start (rows : List IpRow) (ipSources : List IpSource) (blocklists : List BlocklistRow) :
    Agree (ListState.start rows ipSources blocklists).store := by
  change Agree (IpStore.loadIpBlacklist ⟨.empty, rows⟩)
  unfold IpStore.loadIpBlacklist
  split
  · next hnone =>
    intro key source
    have hrows : rows = [] := hnone
    simp [hrows, HasRow, IpIndex.empty, sourcesOf]
  · exact agree_reload _

/-! ### Downloads -/

/-- The lists that a download brings are of different sources. -/
theorem nodup_sourceIds {f : Str × Str → Option ListText}
    (hf : ∀ d l, f d = some l → l.sourceId = d.1) (done : Dict Str Str) :
    ((done.items.filterMap f).map ListText.sourceId).Nodup := by
  have hsub : ((done.items.filterMap f).map ListText.sourceId).Sublist (done.items.map Prod.fst) := by
    induction done.items with
    | nil => exact List.Sublist.refl _
    | cons d items ih =>
      rw [List.filterMap_cons]
      cases hd : f d with
      | none => exact ih.cons _
      | some l =>
        rw [List.map_cons, List.map_cons, hf d l hd]
        exact ih.cons_cons _
  exact done.nodup.sublist hsub

theorem sourceId_ipListOf {s : ListState} {d : Str × Str} {l : ListText} (h : s.ipListOf d = some l) :
    l.sourceId = d.1 ∧ l.persist = true := by
  obtain ⟨src, hsrc, rfl⟩ := Option.map_eq_some_iff.mp h
  have hid := List.find?_some hsrc
  simp only [Bool.and_eq_true, decide_eq_true_eq] at hid
  exact ⟨hid.1, rfl⟩

theorem persist_filterMap {f : Str × Str → Option ListText}
    (hf : ∀ d l, f d = some l → l.sourceId = d.1 ∧ l.persist = true) (done : Dict Str Str) :
    ∀ l ∈ done.items.filterMap f, l.persist = true := by
  intro l hl
  obtain ⟨d, -, hd⟩ := List.mem_filterMap.mp hl
  exact (hf d l hd).2

/-- **The index agrees after it has been cleared and filled**, just when every source that
has rows is filled again. -/
theorem agree_refill_iff (st : IpStore) (ls : List ListText) (hpersist : ∀ l ∈ ls, l.persist = true)
    (hsources : (ls.map ListText.sourceId).Nodup) :
    Agree (IpStore.readLists { st with index := .empty } ls) ↔
      ∀ row ∈ st.rows, ∃ l ∈ ls, l.entries ≠ [] ∧ row.sourceId = l.sourceId := by
  have hix : IndexOf (IpStore.readLists { st with index := .empty } ls).index
      (ls.flatMap ListText.entries) := IndexOf.readLists (s := { st with index := .empty }) .empty ls
  have hrows := hasRow_readLists { st with index := .empty } ls hpersist hsources
  constructor
  · intro h row hrow
    by_contra hnot
    push Not at hnot
    have hleft := (hrows row.entry row.sourceId).mpr (.inl ⟨⟨row, hrow, rfl, rfl⟩, hnot⟩)
    obtain ⟨p, hp, -⟩ := (hix.entries row.entry row.sourceId).mp ((h _ _).mpr hleft)
    obtain ⟨l, hl, hmem⟩ := List.mem_flatMap.mp hp
    exact hnot l hl (List.ne_nil_of_mem hmem) (ListText.fst_of_mem_entries hmem)
  · intro h key source
    rw [hix.entries, hrows]
    constructor
    · exact .inr
    · rintro (⟨⟨row, hrow, -, rfl⟩, hnot⟩ | hfilled)
      · obtain ⟨l, hl, hne, heq⟩ := h row hrow
        exact absurd heq (hnot l hl hne)
      · exact hfilled

/-! ### One operation -/

/-- What an operation must meet so that the index still has the entries of the table. -/
def ListOp.KeepsRows (s : ListState) : ListOp → Prop
  | .downloadIpBlacklists done =>
    ∀ row ∈ s.store.rows, ∃ l ∈ done.items.filterMap s.ipListOf,
      l.entries ≠ [] ∧ row.sourceId = l.sourceId
  | .deleteBlocklistSource id =>
    (∃ b, s.blocklists.find? (fun b => b.id = id) = some b ∧ b.listType = "ip".toList) →
      ∀ row ∈ s.store.rows, row.sourceId ≠ id
  | .restoreBackup backup => backup.rows = some [] → s.store.rows = []
  | _ => True

/-- What an operation must meet so that a restart finds what the index finds. -/
def ListOp.KeepsLookups (s : ListState) : ListOp → Prop
  | .downloadIpBlacklists done => ∀ l ∈ done.items.filterMap s.ipListOf, l.Covered
  | _ => True

/-- The condition of this module on one operation. -/
def ListOp.Keeps (s : ListState) (op : ListOp) : Prop := op.KeepsRows s ∧ op.KeepsLookups s

theorem agree_loadIpBlacklist_iff {st : IpStore} {rows : List IpRow} (h : Agree st) :
    Agree (IpStore.loadIpBlacklist { st with rows := rows }) ↔ (rows = [] → st.rows = []) := by
  unfold IpStore.loadIpBlacklist
  by_cases hrows : rows = []
  · rw [if_pos hrows]
    constructor
    · intro hagree _
      refine List.eq_nil_iff_forall_not_mem.mpr fun row hrow => ?_
      have hentry := (hagree row.entry row.sourceId).mp ((h _ _).mpr ⟨row, hrow, rfl, rfl⟩)
      simp [HasRow, hrows] at hentry
    · intro hnone key source
      rw [h key source]
      simp [HasRow, hrows, hnone hrows]
  · rw [if_neg hrows]
    exact ⟨fun _ hnil => absurd hnil hrows, fun _ => agree_reload _⟩

theorem agree_deleteRows_iff {st : IpStore} (h : Agree st) (id : Str) :
    Agree { st with rows := deleteSourceRows st.rows id } ↔ ∀ row ∈ st.rows, row.sourceId ≠ id := by
  constructor
  · intro hagree row hrow hid
    have hentry := (hagree row.entry row.sourceId).mp ((h _ _).mpr ⟨row, hrow, rfl, rfl⟩)
    rw [hasRow_deleteSourceRows] at hentry
    exact hentry.2 hid
  · intro hnone key source
    rw [h key source, hasRow_deleteSourceRows]
    refine ⟨fun hrow => ⟨hrow, ?_⟩, And.left⟩
    obtain ⟨row, hmem, -, rfl⟩ := hrow
    exact hnone row hmem

theorem restoreTable_eq_nil {ρ κ : Type} [DecidableEq κ] (key : ρ → κ) (rows : List ρ)
    (backup : Option (List ρ)) :
    restoreTable key rows backup = [] ↔ backup = some [] ∨ backup = none ∧ rows = [] := by
  have hfold : ∀ (more rows : List ρ), more.foldl (Routing.Database.insertOrReplace key) rows = [] →
      more = [] ∧ rows = [] := by
    intro more
    induction more with
    | nil => exact fun rows h => ⟨rfl, h⟩
    | cons r more ih =>
      intro rows h
      have hne := (ih _ h).2
      simp [Routing.Database.insertOrReplace] at hne
  cases backup with
  | none => simp [restoreTable]
  | some backup =>
    constructor
    · intro h
      exact .inl (congrArg some (hfold backup [] h).1)
    · rintro (h | h)
      · cases h
        rfl
      · cases h.1

/-- Without an enabled source of type `ip` no list of addresses is read. -/
theorem blocklists_nil {s : ListState} {done : Dict Str Str}
    (h : ¬ s.blocklists.any (fun b => b.enabled && b.listType = "ip".toList) = true) :
    done.items.filterMap s.blocklistOf = [] := by
  refine List.filterMap_eq_nil_iff.mpr fun d _ => ?_
  refine Option.map_eq_none_iff.mpr (List.find?_eq_none.mpr fun b hb hfound => h ?_)
  simp only [Bool.and_eq_true, decide_eq_true_eq] at hfound
  exact List.any_eq_true.mpr ⟨b, hb, by simp [hfound]⟩

/-- **When one operation keeps the entries in agreement.** -/
theorem agree_apply_iff (lower upper : Str → Str) {s : ListState} (h : Agree s.store) (op : ListOp) :
    Agree (s.apply lower upper op).store ↔ op.KeepsRows s := by
  cases op with
  | downloadIpBlacklists done =>
    exact agree_refill_iff s.store _ (persist_filterMap (fun _ _ => sourceId_ipListOf) done)
      (nodup_sourceIds (fun _ _ hd => (sourceId_ipListOf hd).1) done)
  | createIpBlacklistSource data => exact iff_of_true h trivial
  | updateIpBlacklistSource id data =>
    refine iff_of_true ?_ trivial
    simp only [ListState.apply, ListState.updateIpBlacklistSource]
    split
    · split
      · exact agree_reload _
      · exact h
    · exact h
  | toggleIpBlacklistSource id =>
    refine iff_of_true ?_ trivial
    simp only [ListState.apply, ListState.toggleIpBlacklistSource]
    split
    · exact h
    · split
      · exact agree_reload _
      · exact h
  | deleteIpBlacklistSource id => exact iff_of_true (agree_reload _) trivial
  | downloadBlocklists done =>
    refine iff_of_true ?_ trivial
    simp only [ListState.apply, ListState.downloadBlocklists]
    split
    · exact agree_reload _
    · next hnone =>
      -- no list of networks has arrived: the rows and the index stay
      rw [blocklists_nil hnone]
      exact h
  | createBlocklistSource data => exact iff_of_true h trivial
  | updateBlocklistSource id data => exact iff_of_true h trivial
  | toggleBlocklistSource id => exact iff_of_true h trivial
  | deleteBlocklistSource id =>
    simp only [ListState.apply, ListState.deleteBlocklistSource, ListOp.KeepsRows]
    cases s.blocklists.find? (fun b => b.id = id) with
    | none => exact iff_of_true h nofun
    | some b =>
      dsimp only
      -- the rows go with the source, and the index is not built again
      by_cases hip : b.listType = "ip".toList
      · rw [if_pos hip, agree_deleteRows_iff h]
        exact ⟨fun hnone _ => hnone, fun hkeep => hkeep ⟨b, rfl, hip⟩⟩
      · rw [if_neg hip]
        refine iff_of_true h fun ⟨b', hb', hip'⟩ => ?_
        cases hb'
        exact absurd hip' hip
  | restoreBackup backup =>
    refine (agree_loadIpBlacklist_iff h).trans ?_
    rw [restoreTable_eq_nil]
    constructor
    · exact fun hkeep hnone => hkeep (.inl hnone)
    · rintro hkeep (hnone | ⟨-, hrows⟩)
      · exact hkeep hnone
      · exact hrows

/-! ### Restarts -/

/-- The index has the entries of the table, and a restart changes no lookup. -/
structure Restorable (st : IpStore) : Prop where
  agree : Agree st
  same : ReloadSame st

/-- An index that has been read from the table is the one after a restart. -/
theorem reloadSame_reload (st : IpStore) : ReloadSame st.loadIpBlacklistFromDb :=
  fun _ _ _ _ => Iff.rfl

theorem restorable_start (rows : List IpRow) (ipSources : List IpSource)
    (blocklists : List BlocklistRow) :
    Restorable (ListState.start rows ipSources blocklists).store := by
  refine ⟨agree_start rows ipSources blocklists, ?_⟩
  change ReloadSame (IpStore.loadIpBlacklist ⟨.empty, rows⟩)
  unfold IpStore.loadIpBlacklist
  split
  · next hnone =>
    have hrows : rows = [] := hnone
    subst hrows
    exact fun _ _ _ _ => Iff.rfl
  · exact reloadSame_reload _

/-- A download after which the entries agree keeps the lookups just when nothing that is
lost goes uncovered. -/
theorem reloadSame_refill_iff (st : IpStore) (ls : List ListText)
    (hsources : (ls.map ListText.sourceId).Nodup)
    (hagree : Agree (IpStore.readLists { st with index := .empty } ls)) :
    ReloadSame (IpStore.readLists { st with index := .empty } ls) ↔ ∀ l ∈ ls, l.Covered := by
  have hindex : IndexOf (IpStore.readLists { st with index := .empty } ls).index
      (ls.flatMap ListText.entries) := IndexOf.readLists (s := { st with index := .empty }) .empty ls
  refine reloadSame_iff_covered hsources hindex (fun key source => ?_)
  rw [← hindex.entries]
  exact (hagree key source).symm

/-- An operation that keeps the entries keeps the lookups, or is a download of lists that
lose an entry. -/
theorem same_apply_iff (lower upper : Str → Str) {s : ListState} (h : Restorable s.store) (op : ListOp)
    (hkeeps : op.KeepsRows s) :
    ReloadSame (s.apply lower upper op).store ↔ op.KeepsLookups s := by
  cases op with
  | downloadIpBlacklists done =>
    exact reloadSame_refill_iff s.store _ (nodup_sourceIds (fun _ _ hd => (sourceId_ipListOf hd).1) done)
      ((agree_apply_iff lower upper h.agree (.downloadIpBlacklists done)).mpr hkeeps)
  | createIpBlacklistSource data => exact iff_of_true h.same trivial
  | updateIpBlacklistSource id data =>
    refine iff_of_true ?_ trivial
    simp only [ListState.apply, ListState.updateIpBlacklistSource]
    split
    · split
      · exact reloadSame_reload _
      · exact h.same
    · exact h.same
  | toggleIpBlacklistSource id =>
    refine iff_of_true ?_ trivial
    simp only [ListState.apply, ListState.toggleIpBlacklistSource]
    split
    · exact h.same
    · split
      · exact reloadSame_reload _
      · exact h.same
  | deleteIpBlacklistSource id => exact iff_of_true (reloadSame_reload _) trivial
  | downloadBlocklists done =>
    refine iff_of_true ?_ trivial
    simp only [ListState.apply, ListState.downloadBlocklists]
    split
    · exact reloadSame_reload _
    · next hnone =>
      rw [blocklists_nil hnone]
      exact h.same
  | createBlocklistSource data => exact iff_of_true h.same trivial
  | updateBlocklistSource id data => exact iff_of_true h.same trivial
  | toggleBlocklistSource id => exact iff_of_true h.same trivial
  | deleteBlocklistSource id =>
    refine iff_of_true ?_ trivial
    simp only [ListState.apply, ListState.deleteBlocklistSource]
    cases hfound : s.blocklists.find? (fun b => b.id = id) with
    | none => exact h.same
    | some b =>
      dsimp only
      split
      · next hip =>
        -- no row is deleted
        have hrows : deleteSourceRows s.store.rows id = s.store.rows :=
          List.filter_eq_self.mpr (fun row hrow => decide_eq_true (hkeeps ⟨b, hfound, hip⟩ row hrow))
        rw [hrows]
        exact h.same
      · exact h.same
  | restoreBackup backup =>
    refine iff_of_true ?_ trivial
    simp only [ListState.apply, ListState.restoreBackup, IpStore.loadIpBlacklist]
    split
    · next hnone =>
      -- the table was empty before, so the store is as it was
      have hrows : s.store.rows = [] := by
        rcases (restoreTable_eq_nil _ _ _).mp hnone with hbackup | ⟨-, hrows⟩
        · exact hkeeps hbackup
        · exact hrows
      have hsame : restoreTable (fun row : IpRow => (row.entry, row.sourceId)) s.store.rows
          backup.rows = s.store.rows := hnone.trans hrows.symm
      rw [hsame]
      exact h.same
    · exact reloadSame_reload _

/-- **When one operation keeps the agreement**, of the entries and of the lookups. -/
theorem restorable_apply_iff (lower upper : Str → Str) {s : ListState} (h : Restorable s.store)
    (op : ListOp) : Restorable (s.apply lower upper op).store ↔ op.Keeps s := by
  constructor
  · intro hafter
    have hrows := (agree_apply_iff lower upper h.agree op).mp hafter.agree
    exact ⟨hrows, (same_apply_iff lower upper h op hrows).mp hafter.same⟩
  · rintro ⟨hrows, hlookups⟩
    exact ⟨(agree_apply_iff lower upper h.agree op).mpr hrows,
      (same_apply_iff lower upper h op hrows).mpr hlookups⟩

/-! ### Every run -/

/-- **The index agrees with the table** after every operation of a run from a start whose
operations all keep it, and a run after each of whose operations it agrees is one of these. -/
theorem index_agrees (lower upper : Str → Str) (rows : List IpRow) (ipSources : List IpSource)
    (blocklists : List BlocklistRow) (s : ListState) :
    ((ListState.machine lower upper).Reaches (fun s op _ => op.Keeps s)
        (ListState.start rows ipSources blocklists) s → Restorable s.store) ∧
      ((ListState.machine lower upper).Reaches (fun _ _ s' => Restorable s'.store)
          (ListState.start rows ipSources blocklists) s →
        (ListState.machine lower upper).Reaches (fun s op _ => op.Keeps s)
          (ListState.start rows ipSources blocklists) s) := by
  have hstart := restorable_start rows ipSources blocklists
  constructor
  · intro h
    refine h.invariant (I := fun s => Restorable s.store) hstart fun s op s' hagree hstep hkeeps => ?_
    cases hstep
    exact (restorable_apply_iff lower upper hagree op).mpr hkeeps
  · intro h
    refine (Machine.Reaches.of_exact (I := fun s => Restorable s.store) h hstart
      fun s op s' hagree hstep hagree' => ?_).1
    cases hstep
    exact ⟨(restorable_apply_iff lower upper hagree op).mp hagree', hagree'⟩

/-- A download in which the source answers with another address. -/
def sampleDownload : Dict Str Str :=
  Dict.empty.insert ['s'] ['1', '.', '2', '.', '3', '.', '5']

theorem index_agrees_sampleDownload : Restorable
    ((ListState.start [sampleRow] [sampleSource] []).downloadIpBlacklists sampleDownload).store := by
  have hlists : sampleDownload.items.filterMap
      (ListState.start [sampleRow] [sampleSource] []).ipListOf =
      [⟨['s'], ['S'], ['1', '.', '2', '.', '3', '.', '5'], true⟩] := rfl
  refine (index_agrees id id [sampleRow] [sampleSource] [] _).1 (Machine.Reaches.single
    (a := .downloadIpBlacklists sampleDownload) rfl ⟨fun row hrow => ?_, fun l hl => ?_⟩)
  · rw [List.mem_singleton.mp hrow, hlists]
    exact ⟨_, List.mem_cons_self, by decide, rfl⟩
  · rw [hlists] at hl
    rw [List.mem_singleton.mp hl]
    have hnone : ∀ p ∈ parsedEntries ['1', '.', '2', '.', '3', '.', '5'] ['S'], ¬ p.Lost := by decide
    exact fun p hp hlost => absurd hlost (hnone p hp)

/-- **After a download without an answer the rows are left and the index is empty.** -/
theorem failed_download_disagrees :
    ∃ s, (ListState.machine id id).Reaches Machine.anyStep
      (ListState.start [sampleRow] [sampleSource] []) s ∧ ¬ Agree s.store := by
  refine ⟨_, Machine.Reaches.single (a := .downloadIpBlacklists .empty) rfl trivial, fun h => ?_⟩
  have hrow : HasRow [sampleRow] sampleRow.entry ['s'] := ⟨sampleRow, by decide, rfl, rfl⟩
  exact absurd ((h sampleRow.entry ['s']).mpr hrow) (by decide)

end HuntProxy
