import Mathlib.Algebra.Order.Ring.Rat
import Mathlib.Data.List.Induction
import Mathlib.Data.Rat.Defs
import Mathlib.Tactic.Linarith

/-!
# A cached view with a time to live

A server keeps a view of its state, and makes it anew when it is too old. Each request changes the
state, may drop the cached view, and may read the view some times. The state can change behind the
cache, since not every request drops it.

## Main definitions

- `TimedCache` — what requests do to the state and to the cache
- `TimedCache.run` — requests one after another
- `TimedCache.Fresh` — a view is the one after some of the requests

## Main results

- `TimedCache.fresh_run` — the cached view is fresh after any requests
- `TimedCache.exists_of_reads` — what was read is the view after requests of which none dropped it
  and all came within the time to live
-/

namespace HuntProxy

/-- A server with a cached view. The times of a request are those at which it looks at the clock;
where it does not, they say when it is. -/
structure TimedCache (σ α β : Type*) where
  change : σ → α → σ
  drops : α → Bool
  reads : σ → α → List (ℚ × ℚ)
  times : α → List ℚ
  view : σ → β
  ttl : ℚ
  times_of_reads : ∀ s a, ∀ r ∈ reads s a, r.2 ∈ times a

namespace TimedCache

variable {σ α β : Type*}

/-- The state of a server, and the view that it keeps with its time. -/
@[ext]
structure State (σ β : Type*) where
  state : σ
  cache : Option (β × ℚ)

section

variable (C : TimedCache σ α β)

/-- A read: the clock is looked at to see whether the view is too old, and once more if it is made
anew. -/
def read (s : σ) (cache : Option (β × ℚ)) (r : ℚ × ℚ) : Option (β × ℚ) :=
  match cache with
  | none => some (C.view s, r.2)
  | some (v, t) => if C.ttl ≤ r.1 - t then some (C.view s, r.2) else some (v, t)

/-- A request. -/
def step (s : State σ β) (a : α) : State σ β where
  state := C.change s.state a
  cache := (C.reads s.state a).foldl (C.read (C.change s.state a))
    (if C.drops a then none else s.cache)

/-- Requests one after another. -/
def run (s : State σ β) (as : List α) : State σ β := as.foldl C.step s

/-- Requests do not go back in time. -/
def Timely (as : List α) : Prop := (as.flatMap C.times).Pairwise (· ≤ ·)

/-- A view, made at a time, is the one after some of the requests. None of the later ones has
dropped it. -/
def Fresh (s₀ : State σ β) (as : List α) (v : β) (t : ℚ) : Prop :=
  ∃ pre post, as = pre ++ post ∧ v = C.view (C.run s₀ pre).state ∧ t ∈ pre.flatMap C.times ∧
    ∀ a ∈ post, C.drops a = false

end

variable {C : TimedCache σ α β} {s₀ : State σ β} {as : List α} {a : α}

theorem run_concat : C.run s₀ (as ++ [a]) = C.step (C.run s₀ as) a := by
  rw [run, List.foldl_append, List.foldl_cons, List.foldl_nil, run]

theorem run_append (as' : List α) : C.run s₀ (as ++ as') = C.run (C.run s₀ as) as' :=
  List.foldl_append

theorem Fresh.concat {v : β} {t : ℚ} (h : C.Fresh s₀ as v t) (ha : C.drops a = false) :
    C.Fresh s₀ (as ++ [a]) v t := by
  obtain ⟨pre, post, rfl, hv, ht, hpost⟩ := h
  refine ⟨pre, post ++ [a], List.append_assoc .., hv, ht, ?_⟩
  intro b hb
  rcases List.mem_append.mp hb with hb | hb
  · exact hpost b hb
  · rw [List.mem_singleton.mp hb]
    exact ha

/-- A fresh view is not older than a request that dropped the one before. -/
theorem Fresh.of_drops {before after : List α} {v : β} {t : ℚ}
    (h : C.Fresh s₀ (before ++ a :: after) v t) (ha : C.drops a = true) :
    ∃ mid rest, after = mid ++ rest ∧ v = C.view (C.run s₀ (before ++ a :: mid)).state := by
  obtain ⟨pre, post, heq, hv, -, hpost⟩ := h
  have hkeep : C.drops a = true → a ∉ post := by
    intro hdrops hmem
    rw [hpost a hmem] at hdrops
    cases hdrops
  rcases List.append_eq_append_iff.mp heq with ⟨mid, rfl, hmid⟩ | ⟨mid, rfl, rfl⟩
  · cases mid with
    | nil =>
      rw [List.nil_append] at hmid
      exact absurd (hmid ▸ List.mem_cons_self) (hkeep ha)
    | cons b mid =>
      obtain ⟨rfl, rfl⟩ := List.cons.inj hmid
      exact ⟨mid, post, rfl, hv⟩
  · exact absurd (List.mem_append_right mid List.mem_cons_self) (hkeep ha)

/-- A view that is made anew is fresh. -/
theorem fresh_view {r : ℚ × ℚ} (hr : r ∈ C.reads (C.run s₀ as).state a) :
    C.Fresh s₀ (as ++ [a]) (C.view (C.change (C.run s₀ as).state a)) r.2 := by
  refine ⟨as ++ [a], [], (List.append_nil _).symm, ?_, ?_, ?_⟩
  · rw [run_concat]
    rfl
  · rw [List.flatMap_append, List.flatMap_singleton]
    exact List.mem_append_right _ (C.times_of_reads _ _ r hr)
  · intro b hb
    cases hb

/-- What a cache holds is fresh. -/
def FreshCache (C : TimedCache σ α β) (s₀ : State σ β) (as : List α) (cache : Option (β × ℚ)) :
    Prop :=
  ∀ v t, cache = some (v, t) → C.Fresh s₀ as v t

theorem FreshCache.read {cache : Option (β × ℚ)} (h : C.FreshCache s₀ (as ++ [a]) cache)
    {r : ℚ × ℚ} (hr : r ∈ C.reads (C.run s₀ as).state a) :
    C.FreshCache s₀ (as ++ [a]) (C.read (C.change (C.run s₀ as).state a) cache r) := by
  have hnew := fresh_view hr
  intro v t hcache
  cases cache with
  | none =>
    cases hcache
    exact hnew
  | some p =>
    unfold TimedCache.read at hcache
    dsimp only at hcache
    split at hcache
    · cases hcache
      exact hnew
    · exact h v t hcache

theorem FreshCache.reads {cache : Option (β × ℚ)} (h : C.FreshCache s₀ (as ++ [a]) cache)
    {rs : List (ℚ × ℚ)} (hrs : ∀ r ∈ rs, r ∈ C.reads (C.run s₀ as).state a) :
    C.FreshCache s₀ (as ++ [a]) (rs.foldl (C.read (C.change (C.run s₀ as).state a)) cache) := by
  induction rs generalizing cache with
  | nil => exact h
  | cons r rs ih =>
    obtain ⟨hr, hrest⟩ := List.forall_mem_cons.mp hrs
    exact ih (h.read hr) hrest

/-- What is kept when a request comes. -/
theorem FreshCache.kept (h : C.FreshCache s₀ as (C.run s₀ as).cache) (a : α) :
    C.FreshCache s₀ (as ++ [a]) (if C.drops a then none else (C.run s₀ as).cache) := by
  intro v t hcache
  split at hcache
  · cases hcache
  · next ha => exact (h v t hcache).concat (Bool.eq_false_iff.mpr ha)

/-- **The cached view is fresh** after any requests. -/
theorem fresh_run (h₀ : s₀.cache = none) (as : List α) :
    C.FreshCache s₀ as (C.run s₀ as).cache := by
  induction as using List.reverseRecOn with
  | nil =>
    intro v t hcache
    rw [run, List.foldl_nil, h₀] at hcache
    cases hcache
  | append_singleton as a ih =>
    rw [run_concat]
    exact (ih.kept a).reads (fun r hr => hr)

/-- What a request has read is kept. -/
theorem cache_ne_none (h : C.reads (C.run s₀ as).state a ≠ []) :
    (C.run s₀ (as ++ [a])).cache ≠ none := by
  rw [run_concat, step, ← List.dropLast_concat_getLast h, List.foldl_append, List.foldl_cons,
    List.foldl_nil]
  dsimp only
  unfold TimedCache.read
  split
  · exact Option.some_ne_none _
  · split <;> exact Option.some_ne_none _

/-- **What was read last** is the view after some of the requests. None of the later ones dropped
it, and all of them came within the time to live. -/
theorem exists_of_reads (h₀ : s₀.cache = none) (htime : C.Timely (as ++ [a])) {rs : List (ℚ × ℚ)}
    {r : ℚ × ℚ} (hreads : C.reads (C.run s₀ as).state a = rs ++ [r]) :
    ∃ v t pre post, (C.run s₀ (as ++ [a])).cache = some (v, t) ∧ as ++ [a] = pre ++ post ∧
      v = C.view (C.run s₀ pre).state ∧ (∀ b ∈ post, C.drops b = false) ∧
      ∀ b ∈ post, ∀ time ∈ C.times b, r.1 - time < C.ttl := by
  set cache := rs.foldl (C.read (C.change (C.run s₀ as).state a))
    (if C.drops a then none else (C.run s₀ as).cache) with hcache
  have hfresh : C.FreshCache s₀ (as ++ [a]) cache :=
    ((fresh_run h₀ as).kept a).reads (fun r' hr' => hreads ▸ List.mem_append_left [r] hr')
  have hlast : (C.run s₀ (as ++ [a])).cache = C.read (C.change (C.run s₀ as).state a) cache r := by
    rw [run_concat, step, hreads, List.foldl_append, List.foldl_cons, List.foldl_nil]
  have hnew : ∀ b ∈ ([] : List α), C.drops b = false := fun b hb => absurd hb List.not_mem_nil
  have hnew' : ∀ b ∈ ([] : List α), ∀ time ∈ C.times b, r.1 - time < C.ttl :=
    fun b hb => absurd hb List.not_mem_nil
  have hview : C.change (C.run s₀ as).state a = (C.run s₀ (as ++ [a])).state := by
    rw [run_concat]
    rfl
  rw [hlast, hview]
  cases hc : cache with
  | none => exact ⟨_, _, as ++ [a], [], rfl, (List.append_nil _).symm, rfl, hnew, hnew'⟩
  | some p =>
    obtain ⟨v, t⟩ := p
    rcases lt_or_ge (r.1 - t) C.ttl with hlt | hge
    · obtain ⟨pre, post, heq, hv, ht, hpost⟩ := hfresh v t hc
      refine ⟨v, t, pre, post, ?_, heq, hv, hpost, ?_⟩
      · rw [TimedCache.read, if_neg (not_le.mpr hlt)]
      -- the view was made before all of the later requests
      intro b hb time htime'
      have hsorted := htime
      rw [Timely, heq, List.flatMap_append, List.pairwise_append] at hsorted
      have hle := hsorted.2.2 t ht time (List.mem_flatMap.mpr ⟨b, hb, htime'⟩)
      linarith
    · exact ⟨_, _, as ++ [a], [], if_pos hge, (List.append_nil _).symm, rfl, hnew, hnew'⟩

end TimedCache

end HuntProxy
