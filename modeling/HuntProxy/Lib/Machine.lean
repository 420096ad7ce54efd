import Mathlib.Logic.Relation

/-!
# Machines driven by actions, and their guarded runs

A machine is a partial step function on states: `none` says that the action is not
enabled. Runs are closed under a *guard*, a condition that every step of the run
meets; the guard `fun _ _ _ => True` gives all runs. Safety properties are proved by
the invariant rule, and a run of one machine is transported to another one by a
simulation.

## Main definitions

- `Machine` — a partial step function
- `Machine.Reaches` — reachability by steps that all meet a guard
- `Machine.exec` — a guarded run, computed from its list of actions
- `Machine.Simulates` — every guarded step is matched by a run of another machine
-/

namespace HuntProxy

/-- A transition system whose actions carry all of its nondeterminism. -/
structure Machine (σ Λ : Type*) where
  step : σ → Λ → Option σ

namespace Machine

variable {σ Λ τ Μ : Type*}

/-- A condition on single steps: the state before, the action, the state after. -/
abbrev Guard (σ Λ : Type*) := σ → Λ → σ → Prop

/-- The guard that every step meets. -/
def anyStep : Guard σ Λ := fun _ _ _ => True

/-- One step of the machine that meets the guard. -/
def Step (M : Machine σ Λ) (G : Guard σ Λ) (s s' : σ) : Prop :=
  ∃ a, M.step s a = some s' ∧ G s a s'

/-- Reachability by steps that all meet the guard. -/
def Reaches (M : Machine σ Λ) (G : Guard σ Λ) : σ → σ → Prop :=
  Relation.ReflTransGen (M.Step G)

variable {M : Machine σ Λ} {G H : Guard σ Λ} {s s' s'' : σ}

theorem Reaches.refl (s : σ) : M.Reaches G s s :=
  Relation.ReflTransGen.refl

theorem Reaches.trans (h : M.Reaches G s s') (h' : M.Reaches G s' s'') :
    M.Reaches G s s'' :=
  Relation.ReflTransGen.trans h h'

theorem Reaches.tail (h : M.Reaches G s s') {a : Λ} (hs : M.step s' a = some s'')
    (hg : G s' a s'') : M.Reaches G s s'' :=
  Relation.ReflTransGen.tail h ⟨a, hs, hg⟩

theorem Reaches.single {a : Λ} (hs : M.step s a = some s') (hg : G s a s') :
    M.Reaches G s s' :=
  (Reaches.refl s).tail hs hg

/-- A run that meets a guard meets every weaker one. -/
theorem Reaches.mono (hGH : ∀ s a s', G s a s' → H s a s') (h : M.Reaches G s s') :
    M.Reaches H s s' := by
  induction h with
  | refl => exact .refl s
  | tail _ hst ih =>
    obtain ⟨a, hs, hg⟩ := hst
    exact ih.tail hs (hGH _ _ _ hg)

/-- **Invariant rule**: what every guarded step preserves holds along every guarded run. -/
theorem Reaches.invariant {I : σ → Prop} (h : M.Reaches G s s') (h₀ : I s)
    (hstep : ∀ s a s', I s → M.step s a = some s' → G s a s' → I s') : I s' := by
  induction h with
  | refl => exact h₀
  | tail _ hst ih =>
    obtain ⟨a, hs, hg⟩ := hst
    exact hstep _ a _ ih hs hg

/-- A run meets the guard that follows from an invariant along it. -/
theorem Reaches.of_invariant {I : σ → Prop} (h : M.Reaches G s s') (h₀ : I s)
    (hstep : ∀ s a s', I s → M.step s a = some s' → G s a s' → H s a s' ∧ I s') :
    M.Reaches H s s' ∧ I s' := by
  induction h with
  | refl => exact ⟨.refl s, h₀⟩
  | tail _ hst ih =>
    obtain ⟨a, hs, hg⟩ := hst
    obtain ⟨hh, hI⟩ := hstep _ a _ ih.2 hs hg
    exact ⟨ih.1.tail hs hh, hI⟩

/-- When only the steps that meet a guard lead to states with a property, the runs that stay
within the property meet the guard. -/
theorem Reaches.of_exact {I P : σ → Prop} (h : M.Reaches (fun _ _ s' => P s') s s') (h₀ : I s)
    (hstep : ∀ s a s', I s → M.step s a = some s' → P s' → G s a s' ∧ I s') :
    M.Reaches G s s' ∧ I s' :=
  h.of_invariant h₀ hstep

/-- When a property that holds after a step held before it, and the step met a guard, every run
that ends with the property meets the guard. -/
theorem Reaches.of_last {I P : σ → Prop} (h : M.Reaches H s s') (h₀ : I s)
    (hstep : ∀ s a s', I s → M.step s a = some s' → I s')
    (hback : ∀ s a s', I s → M.step s a = some s' → P s' → G s a s' ∧ P s) (hP : P s') :
    M.Reaches G s s' := by
  induction h with
  | refl => exact .refl s
  | tail hrun hst ih =>
    obtain ⟨a, hs, -⟩ := hst
    have hI : I _ := Reaches.invariant hrun h₀ (fun s a s' hI hs _ => hstep s a s' hI hs)
    obtain ⟨hg, hP'⟩ := hback _ a _ hI hs hP
    exact (ih hP').tail hs hg

/-- The state after a list of actions, provided that every step is enabled and meets
the guard. -/
def exec (M : Machine σ Λ) (G : σ → Λ → σ → Bool) (s : σ) : List Λ → Option σ
  | [] => some s
  | a :: rest =>
    match M.step s a with
    | none => none
    | some s' => if G s a s' then M.exec G s' rest else none

/-- A computed run is a guarded run. -/
theorem reaches_of_exec {g : σ → Λ → σ → Bool} {l : List Λ}
    (hg : ∀ s a s', g s a s' = true → G s a s') (h : M.exec g s l = some s') :
    M.Reaches G s s' := by
  induction l generalizing s with
  | nil =>
    simp only [exec, Option.some.injEq] at h
    exact h ▸ .refl s
  | cons a rest ih =>
    cases hs : M.step s a with
    | none => simp [exec, hs] at h
    | some t =>
      simp only [exec, hs] at h
      split at h
      · next ht => exact (Reaches.single hs (hg _ _ _ ht)).trans (ih h)
      · simp at h

/-- A property computed at the end of a computed run holds in some reachable state. -/
theorem exists_reaches_of_exec {g : σ → Λ → σ → Bool} {l : List Λ} {p : σ → Bool}
    (hg : ∀ s a s', g s a s' = true → G s a s') (h : (M.exec g s l).any p = true) :
    ∃ s', M.Reaches G s s' ∧ p s' = true := by
  cases hs : M.exec g s l with
  | none => simp [hs] at h
  | some s' =>
    rw [hs, Option.any_some] at h
    exact ⟨s', reaches_of_exec hg hs, h⟩

/-- A relation between the states of two machines under which every guarded step of
the first is matched by a guarded run of the second. -/
def Simulates (M : Machine σ Λ) (G : Guard σ Λ) (N : Machine τ Μ) (H : Guard τ Μ)
    (R : σ → τ → Prop) : Prop :=
  ∀ s a s' t, R s t → M.step s a = some s' → G s a s' → ∃ t', N.Reaches H t t' ∧ R s' t'

/-- Runs are transported along a simulation. -/
theorem Simulates.reaches {N : Machine τ Μ} {H : Guard τ Μ} {R : σ → τ → Prop}
    (sim : M.Simulates G N H R) {t : τ} (hR : R s t) (h : M.Reaches G s s') :
    ∃ t', N.Reaches H t t' ∧ R s' t' := by
  induction h with
  | refl => exact ⟨t, .refl t, hR⟩
  | tail _ hst ih =>
    obtain ⟨a, hs, hg⟩ := hst
    obtain ⟨u, hu, hRu⟩ := ih
    obtain ⟨u', hu', hRu'⟩ := sim _ a _ u hRu hs hg
    exact ⟨u', hu.trans hu', hRu'⟩

end Machine

end HuntProxy
