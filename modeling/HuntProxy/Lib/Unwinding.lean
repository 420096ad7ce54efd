import Mathlib.Data.List.Forall2

/-!
# Noninterference

Two runs of a machine look the same from outside if a relation on the states, and one on the
inputs, are kept by every step and hide what makes a difference. It is enough to look at one
step of each run.

## Main definitions

- `outputs` — what can be seen of a run
- `Unwinding` — a relation that steps keep, and of whose states the same can be seen

## Main results

- `Unwinding.outputs_eq` — related runs look the same
-/

namespace HuntProxy

section

variable {σ ι ο : Type*} (step : σ → ι → σ × ο)

/-- What can be seen of a run. -/
def outputs : σ → List ι → List ο
  | _, [] => []
  | s, i :: is => (step s i).2 :: outputs (step s i).1 is

/-- Related states and inputs look the same, and lead to related states. -/
structure Unwinding (R : σ → σ → Prop) (Q : ι → ι → Prop) : Prop where
  output : ∀ {s s' i i'}, R s s' → Q i i' → (step s i).2 = (step s' i').2
  next : ∀ {s s' i i'}, R s s' → Q i i' → R (step s i).1 (step s' i').1

variable {step} {R : σ → σ → Prop} {Q : ι → ι → Prop} {s s' : σ} {is is' : List ι}

/-- **Related runs look the same.** -/
theorem Unwinding.outputs_eq (h : Unwinding step R Q) (hstates : R s s')
    (hinputs : List.Forall₂ Q is is') : outputs step s is = outputs step s' is' := by
  induction hinputs generalizing s s' with
  | nil => rfl
  | cons hi _ ih => rw [outputs, outputs, h.output hstates hi, ih (h.next hstates hi)]

end

end HuntProxy
