import Mathlib.Data.List.Basic
import Mathlib.Data.List.TakeWhile

/-!
# Patterns that backtrack

A pattern is given by the ways in which it matches a beginning of a text, in the order in
which a backtracking matcher tries them: each way is a value and the rest of the text. A
matcher takes the first one. Most facts about a match need no more than the set of the ways, and
that one is read off the pattern.

## Main definitions

- `Pattern` — patterns, with `pure` and `bind` for the empty pattern and for sequences
- `item`, `word`, `many`, `many1`, `someLazy`, `upTo`, `opt`, `alt`, `atEnd` — the constructs
- `Pattern.first`, `Pattern.scan` — the match of a text, and all matches in a text

## Main results

- `mem_many`, `mem_someLazy` and the like — the ways of each construct
- `first_bind_of_unique`, `first_upTo` — the first way
- `scan_of_none`, `scan_of_match` — the matches one after the other
-/

namespace HuntProxy

/-- The ways to match a beginning of a text, the first one first. -/
structure Pattern (σ α : Type) where
  run : List σ → List (α × List σ)

namespace Pattern

variable {σ α β : Type}

instance : Monad (Pattern σ) where
  pure a := ⟨fun s => [(a, s)]⟩
  bind p f := ⟨fun s => (p.run s).flatMap (fun r => (f r.1).run r.2)⟩

/-! ### The constructs -/

/-- One letter of a class. -/
def item (p : σ → Bool) : Pattern σ σ where
  run
    | [] => []
    | c :: s => if p c then [(c, s)] else []

/-- A given word. -/
def word [BEq σ] (w : List σ) : Pattern σ (List σ) where
  run s := if w.isPrefixOf s then [(w, s.drop w.length)] else []

/-- The ways to take letters of a class, as many as possible first. -/
def manyRun (p : σ → Bool) : List σ → List (List σ × List σ)
  | [] => [([], [])]
  | c :: s =>
    if p c then (manyRun p s).map (fun r => (c :: r.1, r.2)) ++ [([], c :: s)] else [([], c :: s)]

/-- The ways to take at least one letter of a class, as few as possible first. -/
def someLazyRun (p : σ → Bool) : List σ → List (List σ × List σ)
  | [] => []
  | c :: s => if p c then ([c], s) :: (someLazyRun p s).map (fun r => (c :: r.1, r.2)) else []

/-- The ways to take at most `n` letters of a class, as many as possible first. -/
def atMostRun (p : σ → Bool) : ℕ → List σ → List (List σ × List σ)
  | 0, s => [([], s)]
  | _ + 1, [] => [([], [])]
  | n + 1, c :: s =>
    if p c then (atMostRun p n s).map (fun r => (c :: r.1, r.2)) ++ [([], c :: s)]
    else [([], c :: s)]

/-- Any number of letters of a class. -/
def many (p : σ → Bool) : Pattern σ (List σ) := ⟨manyRun p⟩

/-- At least one letter of a class. -/
def many1 (p : σ → Bool) : Pattern σ (List σ) := do
  let c ← item p
  let w ← many p
  pure (c :: w)

/-- At least one letter of a class, as few as possible. -/
def someLazy (p : σ → Bool) : Pattern σ (List σ) := ⟨someLazyRun p⟩

/-- Between one and `n + 1` letters of a class. -/
def upTo (n : ℕ) (p : σ → Bool) : Pattern σ (List σ) := do
  let c ← item p
  let w ← (⟨atMostRun p n⟩ : Pattern σ (List σ))
  pure (c :: w)

/-- A part that may be missing. -/
def opt (p : Pattern σ α) : Pattern σ (Option α) where
  run s := (p.run s).map (fun r => (some r.1, r.2)) ++ [(none, s)]

/-- One of several patterns, tried in their order. -/
def alt (ps : List (Pattern σ α)) : Pattern σ α := ⟨fun s => ps.flatMap (fun p => p.run s)⟩

/-- The end of the text, or of its last line. -/
def atEnd [BEq σ] (newline : σ) : Pattern σ Unit where
  run s := if s.isEmpty || s == [newline] then [((), s)] else []

/-! ### Matching -/

/-- The match of a beginning of the text. -/
def first (p : Pattern σ α) (s : List σ) : Option (α × List σ) := (p.run s).head?

/-- The values of all matches in a text, from the left and without overlaps; `skip` letters
still belong to the match before. The pattern matches no empty text. -/
def scan (p : Pattern σ α) : ℕ → List σ → List α
  | _, [] => []
  | skip + 1, _ :: s => scan p skip s
  | 0, c :: s =>
    (p.first (c :: s)).elim (scan p 0 s)
      (fun r => r.1 :: scan p (s.length - r.2.length) s)

/-! ### The ways of each construct -/

@[simp] theorem mem_pure {a b : α} {s t : List σ} :
    (b, t) ∈ (pure a : Pattern σ α).run s ↔ b = a ∧ t = s := by
  change (b, t) ∈ [(a, s)] ↔ _
  simp

@[simp] theorem mem_bind {p : Pattern σ α} {f : α → Pattern σ β} {b : β} {s u : List σ} :
    (b, u) ∈ (p >>= f).run s ↔ ∃ a t, (a, t) ∈ p.run s ∧ (b, u) ∈ (f a).run t := by
  change (b, u) ∈ (p.run s).flatMap (fun r => (f r.1).run r.2) ↔ _
  simp [List.mem_flatMap]

@[simp] theorem mem_item {p : σ → Bool} {c : σ} {s t : List σ} :
    (c, t) ∈ (item p).run s ↔ s = c :: t ∧ p c = true := by
  cases s with
  | nil => simp [item]
  | cons d s =>
    by_cases hd : p d = true
    · simp only [item, if_pos hd, List.mem_singleton, Prod.mk.injEq, List.cons.injEq]
      constructor
      · rintro ⟨rfl, rfl⟩
        exact ⟨⟨rfl, rfl⟩, hd⟩
      · rintro ⟨⟨rfl, rfl⟩, -⟩
        exact ⟨rfl, rfl⟩
    · simp only [item, if_neg hd, List.not_mem_nil, List.cons.injEq, false_iff]
      rintro ⟨⟨rfl, -⟩, hc⟩
      exact hd hc

@[simp] theorem mem_word [BEq σ] [LawfulBEq σ] {w v s t : List σ} :
    (v, t) ∈ (word w).run s ↔ v = w ∧ s = w ++ t := by
  by_cases h : w.isPrefixOf s = true
  · obtain ⟨rest, rfl⟩ := List.isPrefixOf_iff_prefix.mp h
    simp only [word, if_pos h, List.drop_left, List.mem_singleton, Prod.mk.injEq,
      List.append_cancel_left_eq]
    exact and_congr_right (fun _ => eq_comm)
  · simp only [word, if_neg h, List.not_mem_nil, false_iff]
    rintro ⟨-, rfl⟩
    exact h (List.isPrefixOf_iff_prefix.mpr (List.prefix_append w t))

@[simp] theorem mem_many {p : σ → Bool} {w s t : List σ} :
    (w, t) ∈ (many p).run s ↔ s = w ++ t ∧ ∀ c ∈ w, p c = true := by
  change (w, t) ∈ manyRun p s ↔ _
  induction s generalizing w with
  | nil =>
    simp only [manyRun, List.mem_singleton, Prod.mk.injEq, List.nil_eq_append_iff]
    constructor
    · rintro ⟨rfl, rfl⟩
      exact ⟨⟨rfl, rfl⟩, nofun⟩
    · exact And.left
  | cons d s ih =>
    by_cases hd : p d = true
    · simp only [manyRun, if_pos hd, List.mem_append, List.mem_map, List.mem_singleton,
        Prod.mk.injEq]
      constructor
      · rintro (⟨⟨w', t'⟩, hr, rfl, rfl⟩ | ⟨rfl, rfl⟩)
        · obtain ⟨rfl, hw⟩ := ih.mp hr
          exact ⟨rfl, List.forall_mem_cons.mpr ⟨hd, hw⟩⟩
        · exact ⟨rfl, nofun⟩
      · rintro ⟨hs, hw⟩
        cases w with
        | nil => exact .inr ⟨rfl, hs.symm⟩
        | cons c w =>
          obtain ⟨rfl, rfl⟩ := List.cons.inj hs
          exact .inl ⟨(w, t), ih.mpr ⟨rfl, (List.forall_mem_cons.mp hw).2⟩, rfl, rfl⟩
    · simp only [manyRun, if_neg hd, List.mem_singleton, Prod.mk.injEq]
      constructor
      · rintro ⟨rfl, rfl⟩
        exact ⟨rfl, nofun⟩
      · rintro ⟨hs, hw⟩
        cases w with
        | nil => exact ⟨rfl, hs.symm⟩
        | cons c w =>
          obtain ⟨rfl, -⟩ := List.cons.inj hs
          exact absurd (hw d List.mem_cons_self) hd

@[simp] theorem mem_many1 {p : σ → Bool} {w s t : List σ} :
    (w, t) ∈ (many1 p).run s ↔ s = w ++ t ∧ w ≠ [] ∧ ∀ c ∈ w, p c = true := by
  simp only [many1, mem_bind, mem_item, mem_many, mem_pure]
  constructor
  · rintro ⟨c, s', ⟨rfl, hc⟩, w', t', ⟨rfl, hw⟩, rfl, rfl⟩
    exact ⟨rfl, List.cons_ne_nil c w', List.forall_mem_cons.mpr ⟨hc, hw⟩⟩
  · rintro ⟨rfl, hne, hw⟩
    obtain ⟨c, w', rfl⟩ := List.exists_cons_of_ne_nil hne
    obtain ⟨hc, hw'⟩ := List.forall_mem_cons.mp hw
    exact ⟨c, w' ++ t, ⟨rfl, hc⟩, w', t, ⟨rfl, hw'⟩, rfl, rfl⟩

@[simp] theorem mem_someLazy {p : σ → Bool} {w s t : List σ} :
    (w, t) ∈ (someLazy p).run s ↔ s = w ++ t ∧ w ≠ [] ∧ ∀ c ∈ w, p c = true := by
  change (w, t) ∈ someLazyRun p s ↔ _
  induction s generalizing w with
  | nil =>
    simp only [someLazyRun, List.not_mem_nil, false_iff, List.nil_eq_append_iff]
    rintro ⟨⟨rfl, -⟩, hne, -⟩
    exact hne rfl
  | cons d s ih =>
    by_cases hd : p d = true
    · simp only [someLazyRun, if_pos hd, List.mem_cons, List.mem_map, Prod.mk.injEq]
      constructor
      · rintro (⟨rfl, rfl⟩ | ⟨⟨w', t'⟩, hr, rfl, rfl⟩)
        · exact ⟨rfl, List.cons_ne_nil d [], List.forall_mem_cons.mpr ⟨hd, nofun⟩⟩
        · obtain ⟨rfl, -, hw⟩ := ih.mp hr
          exact ⟨rfl, List.cons_ne_nil d w', List.forall_mem_cons.mpr ⟨hd, hw⟩⟩
      · rintro ⟨hs, hne, hw⟩
        obtain ⟨c, w', rfl⟩ := List.exists_cons_of_ne_nil hne
        obtain ⟨rfl, rfl⟩ := List.cons.inj hs
        by_cases hw' : w' = []
        · subst hw'
          exact .inl ⟨rfl, rfl⟩
        · exact .inr ⟨(w', t), ih.mpr ⟨rfl, hw', (List.forall_mem_cons.mp hw).2⟩, rfl, rfl⟩
    · simp only [someLazyRun, if_neg hd, List.not_mem_nil, false_iff]
      rintro ⟨hs, hne, hw⟩
      obtain ⟨c, w', rfl⟩ := List.exists_cons_of_ne_nil hne
      obtain ⟨rfl, -⟩ := List.cons.inj hs
      exact hd (hw d List.mem_cons_self)

/-- At most `n` letters of a class. -/
theorem mem_atMostRun {p : σ → Bool} {n : ℕ} {w s t : List σ} :
    (w, t) ∈ atMostRun p n s ↔ s = w ++ t ∧ w.length ≤ n ∧ ∀ c ∈ w, p c = true := by
  induction n generalizing w s with
  | zero =>
    simp only [atMostRun, List.mem_singleton, Prod.mk.injEq, Nat.le_zero, List.length_eq_zero_iff]
    constructor
    · rintro ⟨rfl, rfl⟩
      exact ⟨rfl, rfl, nofun⟩
    · rintro ⟨rfl, rfl, -⟩
      exact ⟨rfl, rfl⟩
  | succ n ih =>
    cases s with
    | nil =>
      simp only [atMostRun, List.mem_singleton, Prod.mk.injEq, List.nil_eq_append_iff]
      constructor
      · rintro ⟨rfl, rfl⟩
        exact ⟨⟨rfl, rfl⟩, Nat.zero_le _, nofun⟩
      · exact And.left
    | cons d s =>
      by_cases hd : p d = true
      · simp only [atMostRun, if_pos hd, List.mem_append, List.mem_map, List.mem_singleton,
          Prod.mk.injEq]
        constructor
        · rintro (⟨⟨w', t'⟩, hr, rfl, rfl⟩ | ⟨rfl, rfl⟩)
          · obtain ⟨rfl, hlen, hw⟩ := ih.mp hr
            exact ⟨rfl, Nat.succ_le_succ hlen, List.forall_mem_cons.mpr ⟨hd, hw⟩⟩
          · exact ⟨rfl, Nat.zero_le _, nofun⟩
        · rintro ⟨hs, hlen, hw⟩
          cases w with
          | nil => exact .inr ⟨rfl, hs.symm⟩
          | cons c w =>
            obtain ⟨rfl, rfl⟩ := List.cons.inj hs
            exact .inl ⟨(w, t), ih.mpr ⟨rfl, Nat.le_of_succ_le_succ hlen,
              (List.forall_mem_cons.mp hw).2⟩, rfl, rfl⟩
      · simp only [atMostRun, if_neg hd, List.mem_singleton, Prod.mk.injEq]
        constructor
        · rintro ⟨rfl, rfl⟩
          exact ⟨rfl, Nat.zero_le _, nofun⟩
        · rintro ⟨hs, -, hw⟩
          cases w with
          | nil => exact ⟨rfl, hs.symm⟩
          | cons c w =>
            obtain ⟨rfl, -⟩ := List.cons.inj hs
            exact absurd (hw d List.mem_cons_self) hd

@[simp] theorem mem_upTo {n : ℕ} {p : σ → Bool} {w s t : List σ} :
    (w, t) ∈ (upTo n p).run s ↔ s = w ++ t ∧ w ≠ [] ∧ w.length ≤ n + 1 ∧ ∀ c ∈ w, p c = true := by
  simp only [upTo, mem_bind, mem_item, mem_atMostRun, mem_pure]
  constructor
  · rintro ⟨c, s', ⟨rfl, hc⟩, w', t', ⟨rfl, hlen, hw⟩, rfl, rfl⟩
    exact ⟨rfl, List.cons_ne_nil c w', Nat.succ_le_succ hlen, List.forall_mem_cons.mpr ⟨hc, hw⟩⟩
  · rintro ⟨rfl, hne, hlen, hw⟩
    obtain ⟨c, w', rfl⟩ := List.exists_cons_of_ne_nil hne
    obtain ⟨hc, hw'⟩ := List.forall_mem_cons.mp hw
    exact ⟨c, w' ++ t, ⟨rfl, hc⟩, w', t, ⟨rfl, Nat.le_of_succ_le_succ hlen, hw'⟩, rfl, rfl⟩

@[simp] theorem mem_opt {p : Pattern σ α} {o : Option α} {s t : List σ} :
    (o, t) ∈ (opt p).run s ↔ (∃ a, o = some a ∧ (a, t) ∈ p.run s) ∨ o = none ∧ t = s := by
  simp only [opt, List.mem_append, List.mem_map, List.mem_singleton, Prod.mk.injEq]
  refine or_congr_left ⟨?_, ?_⟩
  · rintro ⟨⟨a, t'⟩, hr, rfl, rfl⟩
    exact ⟨a, rfl, hr⟩
  · rintro ⟨a, rfl, hr⟩
    exact ⟨(a, t), hr, rfl, rfl⟩

@[simp] theorem mem_alt {ps : List (Pattern σ α)} {a : α} {s t : List σ} :
    (a, t) ∈ (alt ps).run s ↔ ∃ p ∈ ps, (a, t) ∈ p.run s := by
  simp [alt, List.mem_flatMap]

@[simp] theorem mem_atEnd [BEq σ] [LawfulBEq σ] {newline : σ} {u : Unit} {s t : List σ} :
    (u, t) ∈ (atEnd newline).run s ↔ t = s ∧ (s = [] ∨ s = [newline]) := by
  by_cases h : (s.isEmpty || s == [newline]) = true
  · have hend : s = [] ∨ s = [newline] := by simpa using h
    simp only [atEnd, if_pos h, List.mem_singleton, Prod.mk.injEq]
    exact ⟨fun heq => ⟨heq.2, hend⟩, fun heq => ⟨trivial, heq.1⟩⟩
  · simp only [atEnd, if_neg h, List.not_mem_nil, false_iff]
    rintro ⟨-, hend⟩
    exact h (by simpa using hend)

/-- A letter that may be missing. -/
theorem opt_item_parts {p : σ → Bool} {o : Option σ} {s t : List σ}
    (h : (o, t) ∈ (opt (item p)).run s) : ∃ w, s = w ++ t ∧ ∀ c ∈ w, p c = true := by
  rcases mem_opt.mp h with ⟨c, -, hc⟩ | ⟨-, rfl⟩
  · obtain ⟨rfl, hpc⟩ := mem_item.mp hc
    exact ⟨[c], rfl, List.forall_mem_singleton.mpr hpc⟩
  · exact ⟨[], rfl, nofun⟩

/-- One of several words. -/
theorem mem_alt_words [BEq σ] [LawfulBEq σ] {ws : List (List σ)} {v s t : List σ} :
    (v, t) ∈ (alt (ws.map word)).run s ↔ v ∈ ws ∧ s = v ++ t := by
  simp only [mem_alt, List.mem_map]
  constructor
  · rintro ⟨_, ⟨w, hw, rfl⟩, hv⟩
    obtain ⟨rfl, rfl⟩ := mem_word.mp hv
    exact ⟨hw, rfl⟩
  · rintro ⟨hv, rfl⟩
    exact ⟨word v, ⟨v, hv, rfl⟩, mem_word.mpr ⟨rfl, rfl⟩⟩

/-! ### The first way -/

theorem mem_of_first {p : Pattern σ α} {s t : List σ} {a : α} (h : p.first s = some (a, t)) :
    (a, t) ∈ p.run s := List.mem_of_head? h

/-- A text that can be matched has a match. -/
theorem exists_first {p : Pattern σ α} {s t : List σ} {a : α} (h : (a, t) ∈ p.run s) :
    ∃ b u, p.first s = some (b, u) ∧ (b, u) ∈ p.run s := by
  cases hfirst : p.first s with
  | none =>
    rw [List.head?_eq_none_iff.mp hfirst] at h
    cases h
  | some r => exact ⟨r.1, r.2, rfl, mem_of_first hfirst⟩

theorem first_eq_none_iff {p : Pattern σ α} {s : List σ} :
    p.first s = none ↔ ∀ a t, (a, t) ∉ p.run s := by
  rw [first, List.head?_eq_none_iff, List.eq_nil_iff_forall_not_mem]
  exact ⟨fun h a t => h (a, t), fun h r => h r.1 r.2⟩

/-- Behind a part with one way only, the match is that of the rest. -/
theorem first_bind_of_unique {p : Pattern σ α} {f : α → Pattern σ β} {a : α} {s t : List σ}
    (h : (a, t) ∈ p.run s) (hunique : ∀ r ∈ p.run s, r = (a, t)) :
    (p >>= f).first s = (f a).first t := by
  change ((p.run s).flatMap (fun r => (f r.1).run r.2)).head? = ((f a).run t).head?
  obtain ⟨r, l, hl⟩ := List.exists_cons_of_ne_nil (List.ne_nil_of_mem h)
  rw [hl] at hunique ⊢
  obtain ⟨rfl, hothers⟩ := List.forall_mem_cons.mp hunique
  rw [List.flatMap_cons]
  cases hrest : (f a).run t with
  | nil =>
    have hnil : l.flatMap (fun r => (f r.1).run r.2) = [] := by
      rw [List.flatMap_eq_nil_iff]
      intro r hr
      rw [hothers r hr, hrest]
    rw [hnil]
    rfl
  | cons b bs => rfl

theorem first_map {p : Pattern σ α} (f : α → β) (s : List σ) :
    (p >>= fun a => pure (f a)).first s = (p.first s).map (fun r => (f r.1, r.2)) := by
  change ((p.run s).flatMap (fun r => [(f r.1, r.2)])).head? = (p.run s).head?.map _
  rw [← List.map_eq_flatMap, List.head?_map]

theorem first_atMostRun (p : σ → Bool) (n : ℕ) (s : List σ) : (atMostRun p n s).head? =
    some ((s.takeWhile p).take n, s.drop ((s.takeWhile p).take n).length) := by
  induction n generalizing s with
  | zero => rfl
  | succ n ih =>
    cases s with
    | nil => rfl
    | cons c s =>
      by_cases hc : p c = true
      · rw [atMostRun, if_pos hc, List.head?_append, List.head?_map, ih, List.takeWhile_cons, if_pos hc]
        rfl
      · rw [atMostRun, if_neg hc, List.takeWhile_cons, if_neg hc]
        rfl

/-- As many letters of the class as there are are taken. -/
theorem first_upTo {p : σ → Bool} (n : ℕ) {s : List σ} (h : s.takeWhile p ≠ []) : (upTo n p).first s =
    some ((s.takeWhile p).take (n + 1), s.drop ((s.takeWhile p).take (n + 1)).length) := by
  cases s with
  | nil => exact absurd rfl h
  | cons c s =>
    by_cases hc : p c = true
    · have hitem : (c, s) ∈ (item p).run (c :: s) := mem_item.mpr ⟨rfl, hc⟩
      have hunique : ∀ r ∈ (item p).run (c :: s), r = (c, s) := by
        rintro ⟨d, t⟩ hr
        obtain ⟨heq, -⟩ := mem_item.mp hr
        obtain ⟨rfl, rfl⟩ := List.cons.inj heq
        rfl
      rw [upTo, first_bind_of_unique hitem hunique, first_map, first, first_atMostRun,
        List.takeWhile_cons, if_pos hc]
      rfl
    · rw [List.takeWhile_cons, if_neg hc] at h
      exact absurd rfl h

/-! ### All matches -/

theorem scan_skip (p : Pattern σ α) (n : ℕ) (s : List σ) : p.scan n s = p.scan 0 (s.drop n) := by
  induction n generalizing s with
  | zero => rfl
  | succ n ih =>
    cases s with
    | nil => rfl
    | cons c s => exact ih s

theorem scan_of_none {p : Pattern σ α} {c : σ} {s : List σ} (h : p.first (c :: s) = none) :
    p.scan 0 (c :: s) = p.scan 0 s := by
  rw [scan, h, Option.elim_none]

/-- Behind a match, the matches of the rest follow. -/
theorem scan_of_match {p : Pattern σ α} {a : α} {w t : List σ} (hw : w ≠ [])
    (h : p.first (w ++ t) = some (a, t)) : p.scan 0 (w ++ t) = a :: p.scan 0 t := by
  obtain ⟨c, w, rfl⟩ := List.exists_cons_of_ne_nil hw
  rw [List.cons_append] at h ⊢
  rw [scan, h, Option.elim_some, scan_skip, List.length_append, Nat.add_sub_cancel, List.drop_left]

end Pattern

/-! ### Where a stretch of a class ends -/

/-- A stretch of letters of a class that is followed by none ends there. -/
theorem stretch_unique {σ : Type*} {p : σ → Bool} {w w' t t' : List σ}
    (hw : ∀ c ∈ w, p c = true) (hw' : ∀ c ∈ w', p c = true)
    (ht : ∀ c ∈ t.head?, p c = false) (ht' : ∀ c ∈ t'.head?, p c = false)
    (h : w ++ t = w' ++ t') : w = w' ∧ t = t' := by
  have hstop : ∀ u : List σ, (∀ c ∈ u.head?, p c = false) → u.takeWhile p = [] := by
    intro u hu
    cases u with
    | nil => rfl
    | cons c u => rw [List.takeWhile_cons, hu c rfl, if_neg Bool.false_ne_true]
  have htake := congrArg (List.takeWhile p) h
  rw [List.takeWhile_append_of_pos hw, List.takeWhile_append_of_pos hw', hstop t ht, hstop t' ht',
    List.append_nil, List.append_nil] at htake
  subst htake
  exact ⟨rfl, List.append_cancel_left h⟩

/-- A text is split at its first separator in one way. -/
theorem sep_unique {σ : Type*} {sep : σ} {s s' t t' : List σ} (hs : sep ∉ s) (hs' : sep ∉ s')
    (h : s ++ sep :: t = s' ++ sep :: t') : s = s' ∧ t = t' := by
  classical
  have hfree {u : List σ} (hu : sep ∉ u) : ∀ c ∈ u, decide (c ≠ sep) = true :=
    fun c hc => decide_eq_true (fun heq => hu (heq ▸ hc))
  have hstop (u : List σ) : ∀ c ∈ (sep :: u).head?, decide (c ≠ sep) = false := by simp
  obtain ⟨rfl, htail⟩ := stretch_unique (hfree hs) (hfree hs') (hstop t) (hstop t') h
  exact ⟨rfl, (List.cons.inj htail).2⟩

/-- A part of a stretch that ends leaves the rest of the stretch. -/
theorem stretch_part {σ : Type*} {p : σ → Bool} {w w' t t' : List σ} (hw : ∀ c ∈ w, p c = true)
    (ht' : ∀ c ∈ t'.head?, p c = false) (hne : t' ≠ []) (h : w ++ t = w' ++ t') :
    ∃ u, w' = w ++ u ∧ t = u ++ t' := by
  rcases List.append_eq_append_iff.mp h with hpart | ⟨u, rfl, rfl⟩
  · exact hpart
  · cases u with
    | nil => exact ⟨[], by simp, rfl⟩
    | cons c u =>
      have hc := ht' c rfl
      rw [hw c (List.mem_append_right w' List.mem_cons_self)] at hc
      cases hc

/-- The same from behind. -/
theorem stretch_part_end {σ : Type*} {p : σ → Bool} {w w' t t' : List σ}
    (hw : ∀ c ∈ w, p c = true) (ht' : ∀ c ∈ t'.getLast?, p c = false) (hne : t' ≠ [])
    (h : t ++ w = t' ++ w') : ∃ u, w' = u ++ w ∧ t = t' ++ u := by
  have hrev := congrArg List.reverse h
  rw [List.reverse_append, List.reverse_append] at hrev
  have hw' : ∀ c ∈ w.reverse, p c = true := fun c hc => hw c (List.mem_reverse.mp hc)
  obtain ⟨u, hu, ht⟩ := stretch_part hw' (by rwa [List.head?_reverse]) (by simpa using hne) hrev
  refine ⟨u.reverse, ?_, ?_⟩
  · rw [← List.reverse_reverse w', hu, List.reverse_append, List.reverse_reverse]
  · rw [← List.reverse_reverse t, ht, List.reverse_append, List.reverse_reverse]

end HuntProxy
