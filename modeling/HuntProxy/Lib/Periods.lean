import Mathlib.Algebra.Order.Group.Defs
import Mathlib.Data.List.Basic
import Mathlib.Data.Set.Lattice
import Mathlib.Order.CompletePartialOrder
import Mathlib.Order.Interval.Set.Defs
import Mathlib.Order.Interval.Set.Disjoint
import Mathlib.Tactic.Abel

/-!
# Periods between points of time

Points of time in their order cut the time from the first of them to a last moment into
periods: each begins at its point and ends at the next one.

## Main definitions

- `periods` — the periods that begin at the given points

## Main results

- `periods_chain`, `periods_disjoint` — they follow each other without a gap and without overlap
- `sum_periods` — their lengths add up
-/

namespace HuntProxy

universe u

section

variable {α : Type u}

/-- The periods that begin at the given points; the last one ends at `stop`. -/
def periods (stop : α) : List α → List (α × α)
  | [] => []
  | [a] => [(a, stop)]
  | a :: b :: l => (a, b) :: periods stop (b :: l)

@[simp] theorem map_fst_periods (stop : α) (l : List α) : (periods stop l).map Prod.fst = l := by
  induction l with
  | nil => rfl
  | cons a l ih =>
    cases l with
    | nil => rfl
    | cons b l => rw [periods, List.map_cons, ih]

/-- A period ends where the next one begins. -/
theorem periods_chain (stop : α) (l : List α) :
    (periods stop l).IsChain (fun p q => p.2 = q.1) := by
  induction l with
  | nil => exact .nil
  | cons a l ih =>
    cases l with
    | nil => exact .singleton _
    | cons b l =>
      rw [periods]
      cases l with
      | nil => exact List.isChain_cons_cons.mpr ⟨rfl, ih⟩
      | cons c l => exact List.isChain_cons_cons.mpr ⟨rfl, ih⟩

/-- The last period ends at the last moment. -/
theorem getLast?_periods (stop : α) (l : List α) (hne : l ≠ []) :
    (periods stop l).getLast?.map Prod.snd = some stop := by
  induction l with
  | nil => exact absurd rfl hne
  | cons a l ih =>
    cases l with
    | nil => rfl
    | cons b l =>
      have hrest := ih (List.cons_ne_nil b l)
      rw [periods]
      cases l with
      | nil => exact hrest
      | cons c l => exact hrest

variable [LinearOrder α]

/-- No period ends before it begins, or behind the last moment. -/
theorem periods_le {stop : α} {l : List α} (hsorted : l.Pairwise (· ≤ ·)) (hstop : ∀ a ∈ l, a ≤ stop) :
    ∀ p ∈ periods stop l, p.1 ≤ p.2 ∧ p.2 ≤ stop := by
  induction l with
  | nil => exact nofun
  | cons a l ih =>
    obtain ⟨hfirst, hrest⟩ := List.pairwise_cons.mp hsorted
    obtain ⟨ha, hl⟩ := List.forall_mem_cons.mp hstop
    cases l with
    | nil => exact List.forall_mem_singleton.mpr ⟨ha, le_refl stop⟩
    | cons b l =>
      rw [periods]
      exact List.forall_mem_cons.mpr
        ⟨⟨hfirst b List.mem_cons_self, hl b List.mem_cons_self⟩, ih hrest hl⟩

/-- A period ends before every later one begins. -/
theorem periods_pairwise {stop : α} {l : List α} (hsorted : l.Pairwise (· ≤ ·)) :
    (periods stop l).Pairwise (fun p q => p.2 ≤ q.1) := by
  induction l with
  | nil => exact List.Pairwise.nil
  | cons a l ih =>
    obtain ⟨-, hrest⟩ := List.pairwise_cons.mp hsorted
    cases l with
    | nil => exact List.pairwise_singleton _ _
    | cons b l =>
      rw [periods]
      refine List.pairwise_cons.mpr ⟨fun q hq => ?_, ih hrest⟩
      -- a later period begins at one of the later points
      have hmem : q.1 ∈ b :: l := by
        rw [← map_fst_periods stop (b :: l)]
        exact List.mem_map_of_mem hq
      rcases List.mem_cons.mp hmem with heq | hmem
      · exact le_of_eq heq.symm
      · exact (List.pairwise_cons.mp hrest).1 _ hmem

/-- **The periods are disjoint.** -/
theorem periods_disjoint {stop : α} {l : List α} (hsorted : l.Pairwise (· ≤ ·)) :
    (periods stop l).Pairwise (fun p q => Disjoint (Set.Ico p.1 p.2) (Set.Ico q.1 q.2)) := by
  refine (periods_pairwise hsorted).imp fun {p q} hle => ?_
  refine Set.disjoint_left.mpr fun t hp hq => ?_
  exact absurd (lt_of_lt_of_le hp.2 hle) (not_lt.mpr hq.1)

end

/-- **The lengths of the periods add up.** -/
theorem sum_periods {α : Type u} [AddCommGroup α] (stop a : α) (l : List α) :
    ((periods stop (a :: l)).map (fun p => p.2 - p.1)).sum = stop - a := by
  induction l generalizing a with
  | nil => simp [periods]
  | cons b l ih =>
    rw [periods, List.map_cons, List.sum_cons, ih]
    abel

end HuntProxy
