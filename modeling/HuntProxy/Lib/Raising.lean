import Mathlib.Data.List.Basic

/-!
# Computations that mutate a state and may raise

In `EStateM ε σ` an exception keeps the state as it was when it was raised, as it does in a
language whose objects are mutable. The lemmas here take such computations apart, and a
loop rule shows that a loop ends without an exception.

## Main definitions

- `stateOf` — the state a computation leaves behind, in either case
- `Atomic` — an exception leaves the state as it was before the call

## Main results

- `bind_of_ok`, `bind_of_error` — a sequence after its first part
- `forM_ok` — the loop rule
- `stateOf_forM` — what a loop keeps, whether it raises or not
-/

namespace HuntProxy

universe u

variable {ε σ : Type u}

/-- The state that a computation leaves behind. -/
def stateOf {α : Type u} : EStateM.Result ε σ α → σ
  | .ok _ s => s
  | .error _ s => s

/-- An exception leaves the state as it was. -/
def Atomic {α : Type u} (m : EStateM ε σ α) (s : σ) : Prop :=
  ∀ err s', m s = .error err s' → s' = s

theorem bind_apply {α β : Type u} (m : EStateM ε σ α) (n : α → EStateM ε σ β) (s : σ) :
    (m >>= n) s = match m s with
      | .ok a t => n a t
      | .error err t => .error err t := by
  change EStateM.bind m n s = _
  rw [EStateM.bind]
  rfl

/-- A first part that ends normally can be skipped. -/
theorem bind_of_ok {α β : Type u} {m : EStateM ε σ α} {n : α → EStateM ε σ β} {s t : σ} {a : α}
    (h : m s = .ok a t) : (m >>= n) s = n a t := by
  rw [bind_apply, h]

/-- What raises in its first part raises. -/
theorem bind_of_error {α β : Type u} {m : EStateM ε σ α} {n : α → EStateM ε σ β} {s t : σ} {err : ε}
    (h : m s = .error err t) : (m >>= n) s = .error err t := by
  rw [bind_apply, h]

/-- **Loop rule**: if the body raises nothing in a state that meets the invariant for the
items done so far, and establishes it with one more item, then the loop raises nothing. -/
theorem forM_ok {α : Type u} {body : α → EStateM ε σ PUnit} {I : List α → σ → Prop} {l done : List α}
    {s : σ} (h₀ : I done s)
    (hbody : ∀ done a s, a ∈ l → I done s → ∃ s', body a s = .ok ⟨⟩ s' ∧ I (a :: done) s') :
    ∃ s', l.forM body s = .ok ⟨⟩ s' ∧ I (l.reverse ++ done) s' := by
  induction l generalizing done s with
  | nil => exact ⟨s, rfl, h₀⟩
  | cons a rest ih =>
    obtain ⟨s₁, hs₁, h₁⟩ := hbody done a s List.mem_cons_self h₀
    obtain ⟨s', hs', h'⟩ := ih h₁
      (fun done b s hb => hbody done b s (List.mem_cons_of_mem a hb))
    refine ⟨s', ?_, ?_⟩
    · exact (bind_of_ok (n := fun _ => rest.forM body) hs₁).trans hs'
    · rw [List.reverse_cons, List.append_assoc]
      exact h'

/-- What every body keeps, the loop keeps. -/
theorem stateOf_forM {α : Type u} {body : α → EStateM ε σ PUnit} {I : σ → Prop} {s : σ} (h₀ : I s)
    (hbody : ∀ a s, I s → I (stateOf (body a s))) (l : List α) : I (stateOf (l.forM body s)) := by
  induction l generalizing s with
  | nil => exact h₀
  | cons a rest ih =>
    have ha := hbody a s h₀
    change I (stateOf ((body a >>= fun _ => rest.forM body) s))
    cases hs : body a s with
    | ok u t =>
      rw [hs] at ha
      rw [bind_of_ok hs]
      exact ih ha
    | error err t =>
      rw [hs] at ha
      rw [bind_of_error hs]
      exact ha

end HuntProxy
