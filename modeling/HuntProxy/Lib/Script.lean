import Mathlib.Data.List.TakeDrop

/-!
# Scripts that may stop anywhere

A script runs its commands one after the other, and may be stopped behind any of them. A triple
has an invariant beside its two conditions: it holds wherever the script is stopped, and the
second condition holds when the script has come to its end.

## Main definitions

- `Script.Triple` — what holds of a script wherever it stops

## Main results

- `Script.Triple.append` — scripts one after the other
- `Script.Triple.each` — commands that all keep a condition
-/

namespace HuntProxy.Script

variable {σ α : Type*} {exec : σ → α → σ} {I P P' Q Q' R : σ → Prop} {cmds cmds' : List α}

/-- From states with the invariant and `P`, the script keeps the invariant wherever it is
stopped, and ends with `Q`. -/
structure Triple (exec : σ → α → σ) (I P : σ → Prop) (cmds : List α) (Q : σ → Prop) : Prop where
  stopped : ∀ s, I s → P s → ∀ n, I ((cmds.take n).foldl exec s)
  done : ∀ s, I s → P s → Q (cmds.foldl exec s)

namespace Triple

/-- The invariant holds at the end, too. -/
theorem last (h : Triple exec I P cmds Q) (s : σ) (hI : I s) (hP : P s) : I (cmds.foldl exec s) := by
  have hstop := h.stopped s hI hP cmds.length
  rwa [List.take_length] at hstop

theorem nil : Triple exec I P [] P :=
  ⟨fun s hI _ n => by simpa using hI, fun _ _ hP => hP⟩

/-- **Sequence rule.** -/
theorem append (h : Triple exec I P cmds Q) (h' : Triple exec I Q cmds' R) :
    Triple exec I P (cmds ++ cmds') R := by
  constructor
  · intro s hI hP n
    rw [List.take_append, List.foldl_append]
    rcases Nat.le_total n cmds.length with hn | hn
    · -- stopped in the first part
      rw [Nat.sub_eq_zero_of_le hn, List.take_zero]
      exact h.stopped s hI hP n
    · rw [List.take_of_length_le hn]
      exact h'.stopped _ (h.last s hI hP) (h.done s hI hP) _
  · intro s hI hP
    rw [List.foldl_append]
    exact h'.done _ (h.last s hI hP) (h.done s hI hP)

/-- **Consequence rule.** -/
theorem consequence (h : Triple exec I P cmds Q) (hP : ∀ s, I s → P' s → P s)
    (hQ : ∀ s, Q s → Q' s) : Triple exec I P' cmds Q' :=
  ⟨fun s hI hP' => h.stopped s hI (hP s hI hP'), fun s hI hP' => hQ _ (h.done s hI (hP s hI hP'))⟩

/-- One command. -/
theorem single {a : α} (hI : ∀ s, I s → P s → I (exec s a)) (hQ : ∀ s, I s → P s → Q (exec s a)) :
    Triple exec I P [a] Q := by
  refine ⟨fun s hs hP n => ?_, fun s hs hP => hQ s hs hP⟩
  cases n with
  | zero => simpa using hs
  | succ n => simpa using hI s hs hP

/-- **Loop rule**: commands that all keep the invariant and a condition. -/
theorem each (h : ∀ a ∈ cmds, ∀ s, I s → P s → I (exec s a) ∧ P (exec s a)) :
    Triple exec I P cmds P := by
  induction cmds with
  | nil => exact nil
  | cons a rest ih =>
    have hhead := h a List.mem_cons_self
    exact append (single (fun s hI hP => (hhead s hI hP).1) (fun s hI hP => (hhead s hI hP).2))
      (ih (fun b hb => h b (List.mem_cons_of_mem a hb)))

end Triple

end HuntProxy.Script
