import HuntProxy.Storage.SaveState

/-!
# When a full save is atomic

The writer may end a batch between the `DELETE` and the `INSERT` of a table: what is
committed then is an empty table. And the set of dirty ratings is cleared whether or not the
batches with the ratings went through. Where no batch is torn like this, and no batch is lost
that carries a rating the database does not have, every table is whole at every moment, and
every rating that has not reached the database is marked.

## Main definitions

- `Aligned` — no `DELETE` of the batch is left without its `INSERT`
- `Saver.Careful` — the runs in which no batch is torn and no new rating is lost
- `Saver.TableInv` — what is outstanding for a table, and what may come of it

## Main results

- `Saver.TableInv.commit`, `Saver.TableInv.lost` — the end of a batch
- `Saver.saved_whole` — careful runs keep the promises of a save
- `Saver.torn_save` — a run that does not
-/

namespace HuntProxy

open Ip (Str)
open Transaction (runAll)

variable {ρ : Type*}

/-! ### Statements about one table -/

/-- The statement is about the table. -/
def Stmt.about (t : Table) : Stmt ρ → Bool
  | .delete t' => t' = t
  | .insert t' _ => t' = t
  | .upsert _ => t = .ratings
  | .other => false

/-- The statements about a table. -/
def stmtsOn (t : Table) (l : List (Stmt ρ)) : List (Stmt ρ) := l.filter (Stmt.about t)

/-- No `DELETE` is left without its `INSERT`. -/
def Aligned (l : List (Stmt ρ)) : Prop := ∀ t, (stmtsOn t l).getLast? ≠ some (.delete t)

instance [DecidableEq ρ] (l : List (Stmt ρ)) : Decidable (Aligned l) :=
  inferInstanceAs (Decidable (∀ t, (stmtsOn t l).getLast? ≠ some (.delete t)))

/-- What a statement does to a table. -/
def Stmt.effect (t : Table) (d : Dict Str ρ) : Stmt ρ → Dict Str ρ
  | .delete t' => if t' = t then .empty else d
  | .insert t' rows => if t' = t then (insertAll t.conflict rows d).getD d else d
  | .upsert rows => if t = .ratings then upsertAll rows d else d
  | .other => d

/-- What statements do to a table, one after the other. -/
def effects (t : Table) (l : List (Stmt ρ)) (d : Dict Str ρ) : Dict Str ρ :=
  l.foldl (Stmt.effect t) d

/-- Upserts, one after the other. -/
def upserts (ups : List (List (Str × ρ))) (d : Dict Str ρ) : Dict Str ρ :=
  ups.foldl (fun d rows => upsertAll rows d) d

theorem stmtsOn_append (t : Table) (l l' : List (Stmt ρ)) :
    stmtsOn t (l ++ l') = stmtsOn t l ++ stmtsOn t l' :=
  List.filter_append l l'

theorem effects_append (t : Table) (l l' : List (Stmt ρ)) (d : Dict Str ρ) :
    effects t (l ++ l') d = effects t l' (effects t l d) :=
  List.foldl_append

theorem upserts_append (ups ups' : List (List (Str × ρ))) (d : Dict Str ρ) :
    upserts (ups ++ ups') d = upserts ups' (upserts ups d) :=
  List.foldl_append

/-- A statement about another table leaves a table alone. -/
theorem Stmt.effect_of_not_about {t : Table} {st : Stmt ρ} (h : st.about t = false)
    (d : Dict Str ρ) : st.effect t d = d := by
  cases st with
  | delete t' => exact if_neg (by simpa [Stmt.about] using h)
  | insert t' rows => exact if_neg (by simpa [Stmt.about] using h)
  | upsert rows => exact if_neg (by simpa [Stmt.about] using h)
  | other => rfl

/-- Only the statements about a table matter to it. -/
theorem effects_stmtsOn (t : Table) (l : List (Stmt ρ)) (d : Dict Str ρ) :
    effects t (stmtsOn t l) d = effects t l d := by
  induction l generalizing d with
  | nil => rfl
  | cons st rest ih =>
    unfold stmtsOn at ih ⊢
    cases h : st.about t with
    | true =>
      rw [List.filter_cons_of_pos h]
      exact ih (st.effect t d)
    | false =>
      rw [List.filter_cons_of_neg (by simp [h]), ih]
      change effects t rest d = effects t rest (st.effect t d)
      rw [Stmt.effect_of_not_about h]

theorem sqlExec_effect {st : Stmt ρ} {db db' : Tables ρ} (h : sqlExec st db = some db')
    (t : Table) : db' t = st.effect t (db t) := by
  cases st with
  | delete t' =>
    cases h
    by_cases ht : t' = t
    · subst ht
      simp [Tables.update, Stmt.effect]
    · simp [Tables.update, Stmt.effect, ht, Ne.symm ht]
  | insert t' rows =>
    simp only [sqlExec, Option.map_eq_some_iff] at h
    obtain ⟨d, hd, rfl⟩ := h
    by_cases ht : t' = t
    · subst ht
      simp [Tables.update, Stmt.effect, hd]
    · simp [Tables.update, Stmt.effect, ht, Ne.symm ht]
  | upsert rows =>
    cases h
    by_cases ht : t = .ratings
    · subst ht
      simp [Tables.update, Stmt.effect]
    · simp [Tables.update, Stmt.effect, ht]
  | other =>
    cases h
    rfl

/-- A batch that goes through has done to a table what its statements do. -/
theorem runAll_effects {raises : ℕ → Bool} {l : List (ℕ × Stmt ρ)} {db db' : Tables ρ}
    (h : runAll (sqlite raises) l db = some db') (t : Table) :
    db' t = effects t (l.map Prod.snd) (db t) := by
  induction l generalizing db with
  | nil =>
    cases h
    rfl
  | cons i rest ih =>
    rw [runAll, Option.bind_eq_some_iff] at h
    obtain ⟨db₁, hi, hrest⟩ := h
    rw [sqlite, Option.ite_none_left_eq_some] at hi
    rw [ih hrest, sqlExec_effect hi.2]
    rfl

theorem effects_upserts {t : Table} (ht : t = .ratings) (ups : List (List (Str × ρ)))
    (d : Dict Str ρ) : effects t (ups.map Stmt.upsert) d = upserts ups d := by
  induction ups generalizing d with
  | nil => rfl
  | cons rows rest ih =>
    change effects t (rest.map Stmt.upsert) (Stmt.effect t d (.upsert rows)) = _
    rw [ih, Stmt.effect, if_pos ht]
    rfl

/-- The rows of a dictionary, inserted into others, follow them. -/
theorem insertAll_append (c : Conflict) {l l' : List (Str × ρ)}
    (h : ((l ++ l').map Prod.fst).Nodup) (hl : (l.map Prod.fst).Nodup) :
    insertAll c l' ⟨l, hl⟩ = some ⟨l ++ l', h⟩ := by
  induction l' generalizing l with
  | nil => simp [insertAll]
  | cons p rest ih =>
    have hp : p.1 ∉ l.map Prod.fst := by
      rw [List.map_append, List.map_cons] at h
      exact fun hmem => absurd rfl ((List.nodup_append.mp h).2.2 p.1 hmem p.1 List.mem_cons_self)
    have hcontains : (⟨l, hl⟩ : Dict Str ρ).contains p.1 = false :=
      Dict.contains_eq_false.mpr (Dict.get?_of_notMem_keys hp)
    have hput : Dict.put p.1 p.2 l = l ++ [p] := Dict.put_of_notMem hp
    have hrest : ((l ++ [p] ++ rest).map Prod.fst).Nodup := by
      rwa [List.append_assoc, List.singleton_append]
    have hone : ((l ++ [p]).map Prod.fst).Nodup := by
      rw [List.map_append] at hrest
      exact (List.nodup_append.mp hrest).1
    have hinsert : (⟨l, hl⟩ : Dict Str ρ).insert p.1 p.2 = ⟨l ++ [p], hone⟩ := by
      simp only [Dict.insert, hput]
    have hfresh : c.put ⟨l, hl⟩ p = some ⟨l ++ [p], hone⟩ := by
      unfold Conflict.put
      rw [hcontains, if_neg Bool.false_ne_true, hinsert]
    rw [insertAll, hfresh, Option.bind_some, ih hrest hone]
    simp

/-- **An emptied table is refilled exactly.** -/
theorem effects_refill (t : Table) (d new : Dict Str ρ) :
    effects t [.delete t, .insert t new.items] d = new := by
  have hfill := insertAll_append t.conflict (l := []) new.nodup List.nodup_nil
  change Stmt.effect t (Stmt.effect t d (.delete t)) (.insert t new.items) = new
  rw [Stmt.effect, if_pos rfl, Stmt.effect, if_pos rfl]
  change (insertAll t.conflict new.items ⟨[], List.nodup_nil⟩).getD _ = new
  rw [hfill]
  rfl

/-! ### Upserts -/

theorem get?_upsertAll {rows : List (Str × ρ)} {addr : Str} {r : ρ} {d : Dict Str ρ}
    (hrows : ∀ p ∈ rows, p.1 = addr → p.2 = r)
    (h : d.get? addr = some r ∨ ∃ p ∈ rows, p.1 = addr) :
    (upsertAll rows d).get? addr = some r := by
  induction rows generalizing d with
  | nil =>
    rcases h with h | ⟨p, hp, -⟩
    · exact h
    · cases hp
  | cons p rest ih =>
    have hrest : ∀ q ∈ rest, q.1 = addr → q.2 = r := fun q hq => hrows q (List.mem_cons_of_mem p hq)
    refine ih hrest ?_
    rw [Dict.get?_insert]
    by_cases hp : addr = p.1
    · left
      rw [if_pos hp, hrows p List.mem_cons_self hp.symm]
    · rw [if_neg hp]
      refine h.imp id ?_
      rintro ⟨q, hq, rfl⟩
      rcases List.mem_cons.mp hq with rfl | hq
      · exact absurd rfl hp
      · exact ⟨q, hq, rfl⟩

/-- What upserts leave under a key was there, or is in one of them. -/
theorem mem_of_upserts {ups : List (List (Str × ρ))} {d : Dict Str ρ} {addr : Str} {r : ρ}
    (h : (upserts ups d).get? addr = some r) :
    d.get? addr = some r ∨ ∃ rows ∈ ups, (addr, r) ∈ rows := by
  have hone : ∀ (rows : List (Str × ρ)) (d : Dict Str ρ),
      (upsertAll rows d).get? addr = some r → d.get? addr = some r ∨ (addr, r) ∈ rows := by
    intro rows
    induction rows with
    | nil => exact fun d h => .inl h
    | cons p rest ih =>
      intro d h
      rcases ih _ h with h | h
      · rw [Dict.get?_insert] at h
        split at h
        · next hp =>
          cases h
          exact .inr (hp ▸ List.mem_cons_self)
        · exact .inl h
      · exact .inr (List.mem_cons_of_mem p h)
  induction ups generalizing d with
  | nil => exact .inl h
  | cons rows rest ih =>
    rcases ih h with h | ⟨rows', hrows', hmem⟩
    · exact (hone rows d h).imp id (fun hmem => ⟨rows, List.mem_cons_self, hmem⟩)
    · exact .inr ⟨rows', List.mem_cons_of_mem rows hrows', hmem⟩

/-- Upserts of rows that are there change nothing. -/
theorem upserts_of_stored {ups : List (List (Str × ρ))} {d : Dict Str ρ}
    (h : ∀ rows ∈ ups, ∀ p ∈ rows, d.get? p.1 = some p.2) : upserts ups d = d := by
  have hone : ∀ rows : List (Str × ρ), (∀ p ∈ rows, d.get? p.1 = some p.2) →
      upsertAll rows d = d := by
    intro rows hrows
    induction rows with
    | nil => rfl
    | cons p rest ih =>
      change upsertAll rest (d.insert p.1 p.2) = d
      rw [Dict.insert_of_get? (hrows p List.mem_cons_self)]
      exact ih (fun q hq => hrows q (List.mem_cons_of_mem p hq))
  induction ups with
  | nil => rfl
  | cons rows rest ih =>
    change upserts rest (upsertAll rows d) = d
    rw [hone rows (h rows List.mem_cons_self)]
    exact ih (fun rows' hrows' => h rows' (List.mem_cons_of_mem rows hrows'))

/-! ### What is outstanding -/

/-- A batch that is not torn ends among the upserts, or takes everything. -/
theorem split_outstanding {t : Table} {batch later tail : List (Stmt ρ)}
    {ups : List (List (Str × ρ))} {rows : List (Str × ρ)}
    (h : batch ++ later = ups.map .upsert ++ tail)
    (htail : tail = [] ∨ tail = [.delete t, .insert t rows])
    (haligned : batch.getLast? ≠ some (.delete t)) :
    (∃ ups₁ ups₂, ups = ups₁ ++ ups₂ ∧ batch = ups₁.map .upsert ∧
      later = ups₂.map .upsert ++ tail) ∨
    batch = ups.map .upsert ++ tail ∧ later = [] ∧ tail ≠ [] := by
  rcases List.append_eq_append_iff.mp h with ⟨l, hups, hlater⟩ | ⟨l, hbatch, htail'⟩
  · left
    obtain ⟨ups₁, ups₂, rfl, rfl, rfl⟩ := List.map_eq_append_iff.mp hups
    exact ⟨ups₁, ups₂, rfl, rfl, hlater⟩
  · rcases htail with rfl | rfl
    · obtain ⟨rfl, rfl⟩ := List.append_eq_nil_iff.mp htail'.symm
      left
      exact ⟨ups, [], by simp, by simpa using hbatch, by simp⟩
    · cases l with
      | nil =>
        left
        exact ⟨ups, [], by simp, by simpa using hbatch, by simpa using htail'.symm⟩
      | cons st l =>
        obtain ⟨rfl, hrest⟩ := List.cons.inj htail'
        cases l with
        | nil =>
          -- the batch would end with the `DELETE`
          exact absurd (by rw [hbatch]; simp) haligned
        | cons st' l =>
          obtain ⟨rfl, hnil⟩ := List.cons.inj hrest
          obtain ⟨rfl, rfl⟩ := List.append_eq_nil_iff.mp hnil.symm
          exact .inr ⟨hbatch, rfl, List.cons_ne_nil _ _⟩

namespace Saver

/-- The statements that a full save has still to submit. -/
def todo (s : Saver ρ) : List (Stmt ρ) :=
  match s.pc with
  | .idle => []
  | .saving _ todo => todo

/-- The statements that have not been worked off. -/
def outstanding (s : Saver ρ) : List (Stmt ρ) :=
  s.writer.outstanding.map Prod.snd ++ s.todo

/-- What is outstanding for a table: upserts, and then what is left of a full save; and what
may come of the table. -/
structure TableInv (s : Saver ρ) (t : Table) (ups : List (List (Str × ρ)))
    (tail : List (Stmt ρ)) : Prop where
  outstanding : stmtsOn t s.outstanding = ups.map .upsert ++ tail
  refill : tail = [] ∨ tail = [.delete t, .insert t (s.memory t).items]
  saving : tail ≠ [] → s.memory t ∈ s.versions t ∧ s.pc ≠ .idle
  versions : ∀ ups', ups'.Sublist ups → upserts ups' (s.writer.saved t) ∈ s.versions t
  marked : t = .ratings → ∀ addr r, (s.memory t).get? addr = some r →
    addr ∈ s.dirty ∨ (upserts ups (s.writer.saved t)).get? addr = some r
  stored : t = .ratings → tail = [] → ∀ todo, s.pc = .saving .state todo →
    ups = [] ∧ ∀ addr r, (s.memory t).get? addr = some r →
      (s.writer.saved t).get? addr = some r

/-- The rows of ratings that a statement carries. -/
def ratingRows : Stmt ρ → List (Str × ρ)
  | .insert .ratings rows => rows
  | .upsert rows => rows
  | _ => []

/-- The database has the ratings that the present batch carries. -/
def BatchStored (s : Saver ρ) : Prop :=
  ∀ i ∈ s.writer.batch, ∀ p ∈ ratingRows i.2, (s.writer.saved .ratings).get? p.1 = some p.2

instance [DecidableEq ρ] (s : Saver ρ) : Decidable s.BatchStored :=
  inferInstanceAs (Decidable (∀ i ∈ s.writer.batch, ∀ p ∈ ratingRows i.2,
    (s.writer.saved .ratings).get? p.1 = some p.2))

/-- No batch is torn, and none is lost that carries a rating the database does not have. -/
def Careful (raises : ℕ → Bool) : Machine.Guard (Saver ρ) (SaverEvent ρ) := fun s a _ =>
  match a with
  | .worker a =>
    (a = .collected ∨ a = .noConnection → Aligned (s.writer.batch.map Prod.snd)) ∧
      (s.writer.loses (sqlite raises) a = true → s.BatchStored)
  | _ => True

instance [DecidableEq ρ] (raises : ℕ → Bool) (s s' : Saver ρ) (a : SaverEvent ρ) :
    Decidable (Careful raises s a s') :=
  match a with
  | .worker a => inferInstanceAs (Decidable
      ((a = .collected ∨ a = .noConnection → Aligned (s.writer.batch.map Prod.snd)) ∧
        (s.writer.loses (sqlite raises) a = true → s.BatchStored)))
  | .change _ => .isTrue trivial
  | .beginSave _ => .isTrue trivial
  | .submitNext => .isTrue trivial
  | .drainReturns => .isTrue trivial
  | .saveDirtyRatings => .isTrue trivial

/-! ### The end of a batch -/

/-- The statements that are outstanding after the end of a batch. -/
def later (s : Saver ρ) : List (Stmt ρ) := s.writer.queue.map Prod.snd ++ s.todo

theorem outstanding_eq (s : Saver ρ) :
    s.outstanding = s.writer.batch.map Prod.snd ++ s.later := by
  simp [outstanding, DbWriter.outstanding, later]

theorem outstanding_finish (s : Saver ρ) (db : Tables ρ) (stands : Bool) :
    ({ s with writer := s.writer.finish db stands } : Saver ρ).outstanding = s.later := by
  simp [outstanding, DbWriter.outstanding, DbWriter.finish, later, todo]

/-- The statements of the batch and of what follows it, about one table. -/
theorem TableInv.split {s : Saver ρ} {t : Table} {ups : List (List (Str × ρ))}
    {tail : List (Stmt ρ)} (h : s.TableInv t ups tail)
    (haligned : Aligned (s.writer.batch.map Prod.snd)) :
    (∃ ups₁ ups₂, ups = ups₁ ++ ups₂ ∧
      stmtsOn t (s.writer.batch.map Prod.snd) = ups₁.map .upsert ∧
      stmtsOn t s.later = ups₂.map .upsert ++ tail) ∨
    stmtsOn t (s.writer.batch.map Prod.snd) = ups.map .upsert ++ tail ∧
      stmtsOn t s.later = [] ∧ tail ≠ [] := by
  refine split_outstanding ?_ h.refill (haligned t)
  rw [← stmtsOn_append, ← outstanding_eq, h.outstanding]

/-- Upserts are about the ratings. -/
theorem ups_eq_nil {t : Table} (ht : t ≠ .ratings) {l rest : List (Stmt ρ)}
    {ups : List (List (Str × ρ))} (h : stmtsOn t l = ups.map .upsert ++ rest) : ups = [] := by
  cases ups with
  | nil => rfl
  | cons rows ups =>
    have hmem : Stmt.upsert rows ∈ stmtsOn t l := by
      rw [h]
      exact List.mem_append_left _ List.mem_cons_self
    have habout := (List.mem_filter.mp hmem).2
    exact absurd (by simpa [Stmt.about] using habout) ht

/-- **A batch is committed**: some of the upserts have been made, or everything has. -/
theorem TableInv.commit {raises : ℕ → Bool} {s : Saver ρ} {t : Table}
    {ups : List (List (Str × ρ))} {tail : List (Stmt ρ)} (h : s.TableInv t ups tail)
    {db : Tables ρ} (haligned : Aligned (s.writer.batch.map Prod.snd))
    (hran : runAll (sqlite raises) s.writer.batch s.writer.saved = some db) :
    ∃ ups' tail', ({ s with writer := s.writer.finish db true } : Saver ρ).TableInv t ups' tail' := by
  have hsaved : db t = effects t (stmtsOn t (s.writer.batch.map Prod.snd)) (s.writer.saved t) := by
    rw [runAll_effects hran, effects_stmtsOn]
  rcases h.split haligned with ⟨ups₁, ups₂, rfl, hbatch, hlater⟩ | ⟨hbatch, hlater, htail⟩
  · -- the batch ends among the upserts
    have hups : db t = upserts ups₁ (s.writer.saved t) := by
      rw [hsaved, hbatch]
      by_cases ht : t = .ratings
      · exact effects_upserts ht ups₁ _
      · have hall : stmtsOn t (s.writer.batch.map Prod.snd) = ups₁.map .upsert ++ [] := by
          rw [List.append_nil, hbatch]
        have hnil : ups₁ = [] := ups_eq_nil ht hall
        rw [hnil]
        rfl
    refine ⟨ups₂, tail, ?_, h.refill, h.saving, ?_, ?_, ?_⟩
    · rw [outstanding_finish, hlater]
    · intro ups' hups'
      change upserts ups' (db t) ∈ s.versions t
      rw [hups, ← upserts_append]
      exact h.versions _ (hups'.append_left ups₁)
    · intro ht addr r hr
      change addr ∈ s.dirty ∨ (upserts ups₂ (db t)).get? addr = some r
      rw [hups, ← upserts_append]
      exact h.marked ht addr r hr
    · intro ht hnil todo hpc
      obtain ⟨hnone, hall⟩ := h.stored ht hnil todo hpc
      obtain ⟨rfl, rfl⟩ := List.append_eq_nil_iff.mp hnone
      refine ⟨rfl, fun addr r hr => ?_⟩
      change (db t).get? addr = some r
      rw [hups]
      exact hall addr r hr
  · -- the batch holds the DELETE and the INSERT of the table
    have htail' := h.refill.resolve_left htail
    have hnew : db t = s.memory t := by
      rw [hsaved, hbatch, effects_append, htail', effects_refill]
    refine ⟨[], [], ?_, .inl rfl, fun hne => absurd rfl hne, ?_, ?_, ?_⟩
    · rw [outstanding_finish, hlater]
      rfl
    · intro ups' hups'
      rw [List.eq_nil_of_sublist_nil hups']
      change db t ∈ s.versions t
      rw [hnew]
      exact (h.saving htail).1
    · intro _ addr r hr
      right
      change (db t).get? addr = some r
      rw [hnew]
      exact hr
    · intro _ _ _ _
      refine ⟨rfl, fun addr r hr => ?_⟩
      change (db t).get? addr = some r
      rw [hnew]
      exact hr

/-- **A batch is lost** whose ratings the database has. -/
theorem TableInv.lost {s : Saver ρ} {t : Table} {ups : List (List (Str × ρ))}
    {tail : List (Stmt ρ)} (h : s.TableInv t ups tail) {stands : Bool}
    (haligned : Aligned (s.writer.batch.map Prod.snd)) (hstored : s.BatchStored) :
    ∃ ups' tail', ({ s with writer := s.writer.finish s.writer.saved stands } :
      Saver ρ).TableInv t ups' tail' := by
  -- the ratings that are lost are in the database already
  have hcarried : ∀ st ∈ stmtsOn t (s.writer.batch.map Prod.snd), ∀ p ∈ ratingRows st,
      (s.writer.saved .ratings).get? p.1 = some p.2 := by
    intro st hst p hp
    obtain ⟨i, hi, rfl⟩ := List.mem_map.mp (List.mem_filter.mp hst).1
    exact hstored i hi p hp
  rcases h.split haligned with ⟨ups₁, ups₂, rfl, hbatch, hlater⟩ | ⟨hbatch, hlater, htail⟩
  · refine ⟨ups₂, tail, ?_, h.refill, h.saving, ?_, ?_, ?_⟩
    · rw [outstanding_finish, hlater]
    · intro ups' hups'
      exact h.versions ups' (hups'.trans (List.sublist_append_right ups₁ ups₂))
    · intro ht addr r hr
      have hnoop : upserts ups₁ (s.writer.saved t) = s.writer.saved t := by
        refine upserts_of_stored (fun rows hrows p hp => ?_)
        rw [ht]
        refine hcarried (.upsert rows) ?_ p hp
        rw [hbatch]
        exact List.mem_map_of_mem hrows
      have hmarked := h.marked ht addr r hr
      rwa [upserts_append, hnoop] at hmarked
    · intro ht hnil todo hpc
      obtain ⟨hnone, hall⟩ := h.stored ht hnil todo hpc
      exact ⟨(List.append_eq_nil_iff.mp hnone).2, hall⟩
  · have hall : t = .ratings → ∀ addr r, (s.memory t).get? addr = some r →
        (s.writer.saved t).get? addr = some r := by
      intro ht addr r hr
      subst ht
      refine hcarried (.insert .ratings (s.memory .ratings).items) ?_ (addr, r)
        (Dict.get?_eq_some_iff.mp hr)
      rw [hbatch, h.refill.resolve_left htail]
      simp
    refine ⟨[], [], ?_, .inl rfl, fun hne => absurd rfl hne, ?_, ?_, ?_⟩
    · rw [outstanding_finish, hlater]
      rfl
    · intro ups' hups'
      rw [List.eq_nil_of_sublist_nil hups']
      exact h.versions [] (List.nil_sublist _)
    · exact fun ht addr r hr => .inr (hall ht addr r hr)
    · exact fun ht _ _ _ => ⟨rfl, hall ht⟩

/-! ### Runs -/

/-- What careful runs preserve. -/
structure Inv (raises : ℕ → Bool) (db : Tables ρ) (s : Saver ρ) : Prop where
  worked : DbWriter.Worked (sqlite raises) db s.writer
  aligned : ∀ rest, s.writer.pc = .executing rest → Aligned (s.writer.batch.map Prod.snd)
  tables : ∀ t, ∃ ups tail, s.TableInv t ups tail
  todo : ∀ save todo, s.pc = .saving save todo → todo <:+ save.stmts s.memory

/-- A step that leaves alone what is outstanding for a table. -/
theorem TableInv.congr {s s' : Saver ρ} {t : Table} {ups : List (List (Str × ρ))}
    {tail : List (Stmt ρ)} (h : s.TableInv t ups tail)
    (houtstanding : stmtsOn t s'.outstanding = stmtsOn t s.outstanding)
    (hsaved : s'.writer.saved = s.writer.saved) (hmemory : s'.memory = s.memory)
    (hversions : s'.versions = s.versions) (hdirty : s'.dirty = s.dirty)
    (hidle : s'.pc = .idle → s.pc = .idle)
    (hpc : ∀ todo', s'.pc = .saving .state todo' → ∃ todo, s.pc = .saving .state todo) :
    s'.TableInv t ups tail where
  outstanding := houtstanding.trans h.outstanding
  refill := hmemory ▸ h.refill
  saving htail := ⟨hmemory ▸ hversions ▸ (h.saving htail).1, fun hi => (h.saving htail).2 (hidle hi)⟩
  versions ups' hups' := hsaved ▸ hversions ▸ h.versions ups' hups'
  marked ht := hmemory ▸ hdirty ▸ hsaved ▸ h.marked ht
  stored ht hnil todo' htodo' := by
    obtain ⟨todo, htodo⟩ := hpc todo' htodo'
    exact hmemory ▸ hsaved ▸ h.stored ht hnil todo htodo

/-- While no full save is under way, only upserts are outstanding. -/
theorem TableInv.idle {s : Saver ρ} {t : Table} {ups : List (List (Str × ρ))}
    {tail : List (Stmt ρ)} (h : s.TableInv t ups tail) (hidle : s.pc = .idle) : tail = [] := by
  by_contra htail
  exact (h.saving htail).2 hidle

theorem stmtsOn_stmts (save : Save) (memory : Tables ρ) (t : Table) :
    stmtsOn t (save.stmts memory) =
      if t ∈ save.tables then [.delete t, .insert t (memory t).items] else [] := by
  cases save <;> cases t <;> simp [stmtsOn, Save.stmts, Save.tables, Stmt.about]

section

variable {raises : ℕ → Bool} {db : Tables ρ} {s s' : Saver ρ}

theorem Inv.change [DecidableEq ρ] (h : s.Inv raises db) (hidle : s.pc = .idle) (memory : Tables ρ) :
    (s.change memory).Inv raises db where
  worked := h.worked
  aligned := h.aligned
  todo save todo hpc := by
    rw [show (s.change memory).pc = .idle from hidle] at hpc
    cases hpc
  tables t := by
    obtain ⟨ups, tail, ht⟩ := h.tables t
    obtain rfl := ht.idle hidle
    refine ⟨ups, [], ht.outstanding, .inl rfl, fun hne => absurd rfl hne, ht.versions, ?_, ?_⟩
    · intro hr addr r hmem
      subst hr
      have hmem : (memory .ratings).get? addr = some r := hmem
      change addr ∈ s.dirty ++ _ ∨ (upserts ups (s.writer.saved .ratings)).get? addr = some r
      by_cases hsame : (s.memory .ratings).get? addr = some r
      · exact (ht.marked rfl addr r hsame).imp (List.mem_append_left _) id
      · left
        refine List.mem_append_right _ (List.mem_filter.mpr ⟨Dict.mem_keys.mpr ⟨r, hmem⟩, ?_⟩)
        rw [hmem]
        simpa using Ne.symm hsame
    · intro _ _ todo hpc
      rw [show (s.change memory).pc = .idle from hidle] at hpc
      cases hpc

theorem Inv.beginSave (h : s.Inv raises db) (hidle : s.pc = .idle) (save : Save) :
    (s.beginSave save).Inv raises db where
  worked := h.worked
  aligned := h.aligned
  todo save' todo hpc := by
    cases hpc
    exact List.suffix_rfl
  tables t := by
    obtain ⟨ups, tail, ht⟩ := h.tables t
    obtain rfl := ht.idle hidle
    have hbefore : stmtsOn t (s.writer.outstanding.map Prod.snd) = ups.map .upsert := by
      have hout := ht.outstanding
      rw [Saver.outstanding, Saver.todo, hidle] at hout
      simpa using hout
    have hout : stmtsOn t (s.beginSave save).outstanding =
        ups.map .upsert ++ stmtsOn t (save.stmts s.memory) := by
      rw [← hbefore, ← stmtsOn_append]
      rfl
    rw [stmtsOn_stmts] at hout
    by_cases hsave : t ∈ save.tables
    · rw [if_pos hsave] at hout
      have hversions : (s.beginSave save).versions t = s.versions t ++ [s.memory t] := if_pos hsave
      refine ⟨ups, _, hout, .inr rfl, fun _ => ⟨?_, fun hi => by cases hi⟩, ?_, ht.marked, ?_⟩
      · rw [hversions]
        exact List.mem_append_right _ List.mem_cons_self
      · intro ups' hups'
        rw [hversions]
        exact List.mem_append_left _ (ht.versions ups' hups')
      · exact fun _ hnil => absurd hnil (List.cons_ne_nil _ _)
    · rw [if_neg hsave] at hout
      have hversions : (s.beginSave save).versions t = s.versions t := if_neg hsave
      refine ⟨ups, [], hout, .inl rfl, fun hne => absurd rfl hne, ?_, ht.marked, ?_⟩
      · intro ups' hups'
        rw [hversions]
        exact ht.versions ups' hups'
      · intro hr _ todo hpc
        cases hpc
        exact absurd (by rw [hr]; decide) hsave

theorem Inv.endSave (h : s.Inv raises db) {save : Save} (hpc : s.pc = .saving save [])
    (hdrained : s.writer.drained = true) : (s.endSave save).Inv raises db where
  worked := h.worked
  aligned := h.aligned
  todo save' todo hpc := by cases hpc
  tables t := by
    obtain ⟨ups, tail, ht⟩ := h.tables t
    have hempty : s.writer.outstanding = [] := h.worked.outstanding_of_drained hdrained
    have hout : s.outstanding = [] := by rw [Saver.outstanding, Saver.todo, hpc, hempty]; rfl
    have hnil := ht.outstanding
    rw [hout] at hnil
    obtain ⟨hups, rfl⟩ := List.append_eq_nil_iff.mp hnil.symm
    obtain rfl := List.map_eq_nil_iff.mp hups
    have hout' : (s.endSave save).outstanding = [] := by
      change s.writer.outstanding.map Prod.snd ++ [] = []
      rw [hempty]
      rfl
    refine ⟨[], [], by rw [hout']; rfl, .inl rfl, fun hne => absurd rfl hne, ?_, ?_, ?_⟩
    · intro ups' hups'
      rw [List.eq_nil_of_sublist_nil hups']
      exact List.mem_cons_self
    · intro hr addr r hmem
      cases save with
      | state => exact .inr ((ht.stored hr rfl [] hpc).2 addr r hmem)
      | workingFile => exact ht.marked hr addr r hmem
    · intro _ _ todo hpc'
      cases hpc'

theorem mem_dirtyRows {addr : Str} {r : ρ} (hmem : (s.memory .ratings).get? addr = some r)
    (hdirty : addr ∈ s.dirty) : (addr, r) ∈ s.dirtyRows :=
  List.mem_filterMap.mpr ⟨addr, hdirty, by rw [hmem]; rfl⟩

theorem eq_of_mem_dirtyRows {addr : Str} {r : ρ} (hmem : (s.memory .ratings).get? addr = some r) :
    ∀ p ∈ s.dirtyRows, p.1 = addr → p.2 = r := by
  rintro p hp rfl
  obtain ⟨addr, -, hrow⟩ := List.mem_filterMap.mp hp
  obtain ⟨r', hr', rfl⟩ := Option.map_eq_some_iff.mp hrow
  rw [hmem] at hr'
  exact (Option.some.inj hr').symm

theorem Inv.saveDirtyRatings (h : s.Inv raises db) (hidle : s.pc = .idle) :
    s.saveDirtyRatings.Inv raises db := by
  unfold Saver.saveDirtyRatings
  split
  · exact h
  split
  · next hrows =>
    -- the dirty ratings have left the memory
    refine ⟨h.worked, h.aligned, fun t => ?_, h.todo⟩
    obtain ⟨ups, tail, ht⟩ := h.tables t
    refine ⟨ups, tail, ht.outstanding, ht.refill, ht.saving, ht.versions, ?_, ht.stored⟩
    intro hr addr r hmem
    subst hr
    rcases ht.marked rfl addr r hmem with hdirty | hsaved
    · have hrow : (addr, r) ∈ s.dirtyRows := mem_dirtyRows (s := s) hmem hdirty
      rw [hrows] at hrow
      cases hrow
    · exact .inr hsaved
  · refine ⟨h.worked.step (a := .submit (.upsert s.dirtyRows)) rfl, h.aligned, fun t => ?_, h.todo⟩
    obtain ⟨ups, tail, ht⟩ := h.tables t
    obtain rfl := ht.idle hidle
    have hbefore : stmtsOn t (s.writer.outstanding.map Prod.snd) = ups.map .upsert := by
      have hout := ht.outstanding
      rw [Saver.outstanding, Saver.todo, hidle] at hout
      simpa using hout
    have hout (dirty : List Str) (versions : Table → List (Dict Str ρ)) :
        stmtsOn t (Saver.outstanding { s with
          writer := s.writer.submit (.upsert s.dirtyRows), dirty := dirty, versions := versions }) =
        ups.map .upsert ++ stmtsOn t [.upsert s.dirtyRows] := by
      rw [← hbefore, ← stmtsOn_append, Saver.outstanding, Saver.todo]
      dsimp only
      rw [hidle, DbWriter.outstanding_submit]
      simp
    by_cases hr : t = .ratings
    · subst hr
      refine ⟨ups ++ [s.dirtyRows], [], ?_, .inl rfl, fun hne => absurd rfl hne, ?_, ?_, ?_⟩
      · rw [hout]
        simp [stmtsOn, Stmt.about]
      · intro ups' hups'
        dsimp only
        rw [if_pos rfl]
        obtain ⟨l₁, l₂, rfl, hl₁, hl₂⟩ := List.sublist_append_iff.mp hups'
        rcases List.sublist_singleton.mp hl₂ with rfl | rfl
        · rw [List.append_nil]
          exact List.mem_append_left _ (ht.versions l₁ hl₁)
        · refine List.mem_append_right _ (List.mem_map.mpr ⟨_, ht.versions l₁ hl₁, ?_⟩)
          rw [upserts_append]
          rfl
      · intro _ addr r hmem
        right
        rw [upserts_append]
        refine get?_upsertAll (eq_of_mem_dirtyRows hmem) ?_
        exact (ht.marked rfl addr r hmem).symm.imp id
          (fun hdirty => ⟨(addr, r), mem_dirtyRows hmem hdirty, rfl⟩)
      · intro _ _ todo hpc
        rw [show s.pc = .idle from hidle] at hpc
        cases hpc
    · refine ⟨ups, [], ?_, .inl rfl, fun hne => absurd rfl hne, ?_, fun ht => absurd ht hr,
        fun ht => absurd ht hr⟩
      · rw [hout]
        simp [stmtsOn, Stmt.about, hr]
      · intro ups' hups'
        dsimp only
        rw [if_neg hr]
        exact ht.versions ups' hups'

/-- The writer takes a step in a careful run. -/
theorem Inv.worker (h : s.Inv raises db) {a : WriterEvent (Stmt ρ)}
    {w : DbWriter (Stmt ρ) (Tables ρ)} (hs : s.writer.step (sqlite raises) a = some w)
    (ha : ∀ st, a = .submit st → st = .other) (hcareful : Careful raises s (.worker a) s') :
    ({ s with writer := w } : Saver ρ).Inv raises db := by
  have hworked := h.worked.step hs
  have haligned (rest : List (ℕ × Stmt ρ)) : s.writer.pc = .executing rest →
      Aligned (s.writer.batch.map Prod.snd) := h.aligned rest
  cases h.worked.effect hs with
  | submit i =>
    obtain rfl := ha i rfl
    refine ⟨hworked, h.aligned, fun t => ?_, h.todo⟩
    obtain ⟨ups, tail, ht⟩ := h.tables t
    refine ⟨ups, tail, ht.congr ?_ rfl rfl rfl rfl id (fun todo htodo => ⟨todo, htodo⟩)⟩
    rw [Saver.outstanding, Saver.outstanding, Saver.todo, Saver.todo, DbWriter.outstanding_submit]
    simp [stmtsOn, Stmt.about]
  | quiet saved outstanding starts =>
    refine ⟨hworked, ?_, fun t => ?_, h.todo⟩
    · intro rest hrest
      rcases starts rest hrest with ⟨rfl, hbatch⟩ | ⟨⟨rest', hrest'⟩, hbatch⟩
      · rw [hbatch]
        exact hcareful.1 (.inl rfl)
      · rw [hbatch]
        exact haligned rest' hrest'
    · obtain ⟨ups, tail, ht⟩ := h.tables t
      refine ⟨ups, tail, ht.congr ?_ saved rfl rfl rfl id (fun todo htodo => ⟨todo, htodo⟩)⟩
      rw [Saver.outstanding, Saver.outstanding, outstanding]
      rfl
  | commit ran at_ =>
    refine ⟨hworked, (fun rest hrest => by cases hrest), fun t => ?_, h.todo⟩
    obtain ⟨ups, tail, ht⟩ := h.tables t
    exact ht.commit (haligned [] at_) ran
  | lost loses at_ =>
    refine ⟨hworked, (fun rest hrest => by cases hrest), fun t => ?_, h.todo⟩
    obtain ⟨ups, tail, ht⟩ := h.tables t
    have hbatch : Aligned (s.writer.batch.map Prod.snd) := by
      rcases at_ with rfl | ⟨rest, hrest⟩
      · exact hcareful.1 (.inr rfl)
      · exact haligned rest hrest
    exact ht.lost hbatch (hcareful.2 loses)

/-- **Step lemma**: a careful step keeps the tables whole and the ratings marked. -/
theorem Inv.step [DecidableEq ρ] (h : s.Inv raises db) {a : SaverEvent ρ} (hs : s.step raises a = some s')
    (hcareful : Careful raises s a s') : s'.Inv raises db := by
  cases a with
  | change memory =>
    simp only [Saver.step] at hs
    split at hs <;> cases hs
    next hidle => exact h.change hidle memory
  | beginSave save =>
    simp only [Saver.step] at hs
    split at hs <;> cases hs
    next hidle => exact h.beginSave hidle save
  | saveDirtyRatings =>
    simp only [Saver.step] at hs
    split at hs <;> cases hs
    next hidle => exact h.saveDirtyRatings hidle
  | drainReturns =>
    simp only [Saver.step] at hs
    split at hs
    · next save hpc =>
      split at hs <;> cases hs
      next hdrained => exact h.endSave hpc hdrained
    · cases hs
  | submitNext =>
    simp only [Saver.step] at hs
    split at hs
    · next save st rest hpc =>
      cases hs
      refine ⟨h.worked.step (a := .submit st) rfl, h.aligned, fun t => ?_, ?_⟩
      · obtain ⟨ups, tail, ht⟩ := h.tables t
        refine ⟨ups, tail, ht.congr ?_ rfl rfl rfl rfl (fun hi => by cases hi) ?_⟩
        · rw [Saver.outstanding, Saver.outstanding, Saver.todo, Saver.todo, hpc,
            DbWriter.outstanding_submit]
          simp
        · intro todo htodo
          cases htodo
          exact ⟨_, hpc⟩
      · intro save' todo htodo
        cases htodo
        exact (List.suffix_cons st rest).trans (h.todo save _ hpc)
    · cases hs
  | worker a =>
    simp only [Saver.step] at hs
    split at hs
    · cases hs
      exact h.worker rfl (fun st hst => by cases hst; rfl) hcareful
    · cases hs
    · next hsubmit hother =>
      obtain ⟨w, hw, rfl⟩ := Option.map_eq_some_iff.mp hs
      exact h.worker hw (fun st hst => absurd hst (hother st)) hcareful

theorem Loaded.inv (h : s.Loaded) : ∃ db, s.Inv raises db := by
  obtain ⟨db, hdb⟩ := h.writer
  have hsaved : s.writer.saved = db := by rw [hdb]; rfl
  have hout : s.outstanding = [] := by
    rw [Saver.outstanding, Saver.todo, h.pc, hdb]
    rfl
  refine ⟨db, hdb ▸ .start db, ?_, fun t => ?_, ?_⟩
  · intro rest hrest
    rw [hdb] at hrest
    cases hrest
  · refine ⟨[], [], by rw [hout]; rfl, .inl rfl, fun hne => absurd rfl hne, ?_, ?_, ?_⟩
    · intro ups' hups'
      rw [List.eq_nil_of_sublist_nil hups', h.versions t]
      exact List.mem_cons_self
    · rintro rfl addr r hr
      exact h.marked addr r hr
    · intro _ _ todo hpc
      rw [h.pc] at hpc
      cases hpc
  · intro save todo hpc
    rw [h.pc] at hpc
    cases hpc

theorem Inv.whole (h : s.Inv raises db) : s.Whole := by
  intro t
  obtain ⟨ups, tail, ht⟩ := h.tables t
  exact ht.versions [] (List.nil_sublist ups)

theorem Inv.allMarked (h : s.Inv raises db) : s.Marked := by
  intro addr r hmem
  obtain ⟨ups, tail, ht⟩ := h.tables .ratings
  refine (ht.marked rfl addr r hmem).imp id (fun hups => ?_)
  refine (mem_of_upserts hups).imp id ?_
  rintro ⟨rows, hrows, hrow⟩
  have hmem : Stmt.upsert rows ∈ stmtsOn .ratings s.outstanding := by
    rw [ht.outstanding]
    exact List.mem_append_left _ (List.mem_map_of_mem hrows)
  rcases List.mem_append.mp (List.mem_filter.mp hmem).1 with hwriter | htodo
  · obtain ⟨⟨n, st⟩, hst, rfl⟩ := List.mem_map.mp hwriter
    exact ⟨n, rows, hst, hrow⟩
  · -- a full save submits no upserts
    cases hpc : s.pc with
    | idle => simp [Saver.todo, hpc] at htodo
    | saving save todo =>
      simp only [Saver.todo, hpc] at htodo
      have hstmts := (h.todo save todo hpc).subset htodo
      simp [Save.stmts] at hstmts

/-- **The full save is atomic** in careful runs: while no batch ends between the `DELETE` and
the `INSERT` of a table, and no batch is lost that carries a rating the database does not
have, every saved table holds one of its contents as a whole at every moment, and every
rating that has not reached the database is marked dirty. -/
theorem saved_whole [DecidableEq ρ] (raises : ℕ → Bool) {s s' : Saver ρ} (h : s.Loaded)
    (hreaches : (machine raises).Reaches (Careful raises) s s') : s'.Whole ∧ s'.Marked := by
  obtain ⟨db, hinv⟩ : ∃ db, s.Inv raises db := h.inv
  have hinv' := hreaches.invariant hinv (fun _ _ _ hI hs hg => hI.step hs hg)
  exact ⟨hinv'.whole, hinv'.allMarked⟩

end

/-! ### Saves of one proxy -/

/-- One working proxy is stored, and the memory has another one. -/
def oneWorking : Saver ℕ :=
  let db : Tables ℕ := fun t => if t = .workingProxies then Dict.empty.insert "a:1".toList 1 else .empty
  { memory := fun t => if t = .workingProxies then Dict.empty.insert "b:2".toList 2 else .empty
    dirty := []
    pc := .idle
    writer := .start db
    versions := fun t => [db t] }

theorem oneWorking_loaded : oneWorking.Loaded where
  writer := ⟨_, rfl⟩
  pc := rfl
  versions _ := rfl
  marked addr r h := by
    rw [show oneWorking.memory .ratings = .empty from rfl] at h
    cases h

/-- A new proxy has been rated, besides. -/
def oneRated : Saver ℕ :=
  { oneWorking with
    memory := fun t =>
      if t = .ratings then Dict.empty.insert "b:2".toList 5 else oneWorking.memory t
    dirty := ["b:2".toList] }

theorem oneRated_loaded : oneRated.Loaded where
  writer := ⟨_, rfl⟩
  pc := rfl
  versions _ := rfl
  marked addr r h := by
    have hrated : (Dict.empty.insert "b:2".toList 5).get? addr = some r := h
    rw [Dict.get?_insert] at hrated
    split at hrated
    · next heq => exact .inl (List.mem_singleton.mpr heq)
    · cases hrated

/-- The rating is written by itself, then the working proxies, whose `DELETE` and `INSERT` the writer
finds at once, and then the whole state, all of which it finds at once. -/
def savedInThreeBatches : List (SaverEvent ℕ) :=
  [.saveDirtyRatings, .worker .get, .worker .collected, .worker .execute, .worker .commit] ++
    [.beginSave .workingFile, .submitNext, .submitNext, .worker .get, .worker .getNowait,
      .worker .collected, .worker .execute, .worker .execute, .worker .commit, .drainReturns] ++
    .beginSave .state :: List.replicate 8 .submitNext ++ .worker .get ::
      List.replicate 7 (.worker .getNowait) ++ .worker .collected ::
      List.replicate 8 (.worker .execute) ++ [.worker .commit, .drainReturns]

theorem saved_whole_batches :
    ∃ s : Saver ℕ, s.Whole ∧ s.Marked ∧ s.dirty = [] ∧
      (s.writer.saved .ratings).items = [("b:2".toList, 5)] ∧
      (s.writer.saved .workingProxies).items = [("b:2".toList, 2)] := by
  have hrun : ((machine (fun _ => false)).exec
      (fun s a s' => decide (Careful (fun _ => false) s a s')) oneRated savedInThreeBatches).any
        (fun s => decide (s.dirty = [] ∧ (s.writer.saved .ratings).items = [("b:2".toList, 5)] ∧
          (s.writer.saved .workingProxies).items = [("b:2".toList, 2)])) = true := by
    decide +kernel
  obtain ⟨s, hs, hp⟩ := Machine.exists_reaches_of_exec (G := Careful (fun _ => false))
    (fun _ _ _ => of_decide_eq_true) hrun
  obtain ⟨hwhole, hmarked⟩ := saved_whole (fun _ => false) oneRated_loaded hs
  exact ⟨s, hwhole, hmarked, of_decide_eq_true hp⟩

/-- The writer is faster than the event loop. -/
def savedInTwoBatches : List (SaverEvent ℕ) :=
  [.beginSave .workingFile, .submitNext, .worker .get, .worker .collected, .worker .execute,
    .worker .commit]

/-- After the first of two batches the table is empty: the stored proxy is lost, and the new
one is not there. -/
theorem torn_save :
    ¬ ∀ (raises : ℕ → Bool) (s s' : Saver ℕ), s.Loaded →
      (machine raises).Reaches Machine.anyStep s s' → s'.Whole ∧ s'.Marked := by
  intro hall
  have hrun : ((machine (fun _ => false)).exec (fun _ _ _ => true) oneWorking
      savedInTwoBatches).any (fun s =>
        !decide ((s.writer.saved .workingProxies).items ∈
          (s.versions .workingProxies).map Dict.items)) = true := by decide
  obtain ⟨s, hs, hp⟩ := Machine.exists_reaches_of_exec (G := Machine.anyStep)
    (fun _ _ _ _ => trivial) hrun
  simp only [Bool.not_eq_true', decide_eq_false_iff_not] at hp
  exact hp (List.mem_map_of_mem ((hall _ _ s oneWorking_loaded hs).1 .workingProxies))

end Saver

end HuntProxy
