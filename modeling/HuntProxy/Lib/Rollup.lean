import HuntProxy.Lib.Dict
import Mathlib.Algebra.BigOperators.Group.List.Basic
import Mathlib.Data.List.Dedup

/-!
# Sums kept under keys

A rollup adds contributions up under their keys. What it comes to is a function of the
contributions, `total`, which says for every key whether anything was added under it, and
how much. A dictionary that is bumped contribution by contribution keeps these totals, and
so does one that is filled from groups.

## Main definitions

- `total` — the sum of the contributions under a key, if there are any
- `bump` — add to the value of a key
- `groups` — the contributions, summed by key

## Main results

- `total_append`, `total_perm` — the order of the contributions does not matter
- `total_groups` — nor does grouping them first
- `sum_values_bump` — a bump raises the sum of all values by its own
-/

namespace HuntProxy.Rollup

variable {κ M : Type*} [DecidableEq κ]

/-- The values of a key. -/
def valuesAt (l : List (κ × M)) (k : κ) : List M :=
  (l.filter (fun p => p.1 = k)).map Prod.snd

@[simp] theorem valuesAt_nil (k : κ) : valuesAt ([] : List (κ × M)) k = [] := rfl

theorem valuesAt_append (l l' : List (κ × M)) (k : κ) :
    valuesAt (l ++ l') k = valuesAt l k ++ valuesAt l' k := by
  simp [valuesAt]

theorem valuesAt_perm {l l' : List (κ × M)} (h : l.Perm l') (k : κ) :
    (valuesAt l k).Perm (valuesAt l' k) :=
  (h.filter _).map _

theorem valuesAt_eq_nil_iff {l : List (κ × M)} {k : κ} : valuesAt l k = [] ↔ k ∉ l.map Prod.fst := by
  simp only [valuesAt, List.map_eq_nil_iff, List.filter_eq_nil_iff, decide_eq_true_eq, List.mem_map,
    not_exists, not_and]

variable [AddCommMonoid M]

/-- What the contributions under a key come to; `none` when there are none. -/
def total (l : List (κ × M)) (k : κ) : Option M :=
  if (valuesAt l k).isEmpty then none else some (valuesAt l k).sum

@[simp] theorem total_nil (k : κ) : total ([] : List (κ × M)) k = none := rfl

/-- The sum under a key, zero when there is nothing. -/
theorem getD_total (l : List (κ × M)) (k : κ) : (total l k).getD 0 = (valuesAt l k).sum := by
  unfold total
  split
  · next hnil =>
    rw [List.isEmpty_iff.mp hnil]
    rfl
  · rfl

/-- One more contribution. -/
theorem total_concat (l : List (κ × M)) (k k' : κ) (m : M) :
    total (l ++ [(k, m)]) k' = if k' = k then some ((total l k).getD 0 + m) else total l k' := by
  rw [getD_total]
  unfold total
  rw [valuesAt_append]
  by_cases hk : k' = k
  · subst hk
    have hone : valuesAt [(k', m)] k' = [m] := by simp [valuesAt]
    simp [hone]
  · have hnone : valuesAt [(k, m)] k' = [] := by simp [valuesAt, Ne.symm hk]
    rw [hnone, List.append_nil, if_neg hk]

/-- The order of the contributions does not matter. -/
theorem total_perm {l l' : List (κ × M)} (h : l.Perm l') (k : κ) : total l k = total l' k := by
  have hvalues := valuesAt_perm h k
  unfold total
  rw [hvalues.sum_eq, hvalues.isEmpty_eq]

/-! ### Groups -/

/-- The contributions, summed by key. -/
def groups (l : List (κ × M)) : List (κ × M) :=
  (l.map Prod.fst).dedup.map (fun k => (k, (valuesAt l k).sum))

omit [AddCommMonoid M] in
theorem valuesAt_map {keys : List κ} (h : keys.Nodup) (f : κ → M) (k : κ) :
    valuesAt (keys.map (fun k => (k, f k))) k = if k ∈ keys then [f k] else [] := by
  induction keys with
  | nil => rfl
  | cons k' rest ih =>
    obtain ⟨hnot, hrest⟩ := List.nodup_cons.mp h
    have hsplit : valuesAt ((k' :: rest).map (fun k => (k, f k))) k =
        valuesAt [(k', f k')] k ++ valuesAt (rest.map (fun k => (k, f k))) k :=
      valuesAt_append [(k', f k')] _ k
    rw [hsplit, ih hrest]
    by_cases hk : k' = k
    · subst hk
      simp [valuesAt, hnot]
    · simp [valuesAt, hk, Ne.symm hk]

/-- **Grouping first gives the same totals.** -/
theorem total_groups (l : List (κ × M)) (k : κ) : total (groups l) k = total l k := by
  have hvalues := valuesAt_map (List.nodup_dedup (l.map Prod.fst)) (fun k => (valuesAt l k).sum) k
  simp only [List.mem_dedup] at hvalues
  unfold total groups
  rw [hvalues]
  by_cases hk : k ∈ l.map Prod.fst
  · have hsome : valuesAt l k ≠ [] := fun h => valuesAt_eq_nil_iff.mp h hk
    simp [hk, hsome]
  · simp [hk, valuesAt_eq_nil_iff.mpr hk]

/-! ### Dictionaries of sums -/

/-- Add to the value of a key. -/
def bump (d : Dict κ M) (k : κ) (m : M) : Dict κ M := d.insert k ((d.get? k).getD 0 + m)

@[simp] theorem get?_bump (d : Dict κ M) (k k' : κ) (m : M) :
    (bump d k m).get? k' = if k' = k then some ((d.get? k).getD 0 + m) else d.get? k' :=
  Dict.get?_insert d k k' _

theorem sum_put (k : κ) (m : M) (l : List (κ × M)) :
    ((Dict.put k ((Dict.find k l).getD 0 + m) l).map Prod.snd).sum = (l.map Prod.snd).sum + m := by
  induction l with
  | nil => simp [Dict.put, Dict.find]
  | cons p rest ih =>
    obtain ⟨k', v⟩ := p
    by_cases hk : k' = k
    · simp only [Dict.put, Dict.find, if_pos hk, Option.getD_some, List.map_cons, List.sum_cons]
      exact add_right_comm v m _
    · simp only [Dict.put, Dict.find, if_neg hk, List.map_cons, List.sum_cons, ih]
      exact (add_assoc v _ m).symm

/-- **A bump raises the sum of all values by its own.** -/
theorem sum_values_bump (d : Dict κ M) (k : κ) (m : M) :
    (bump d k m).values.sum = d.values.sum + m :=
  sum_put k m d.items

/-- Bumping by a list of contributions adds all of them to the sum. -/
theorem sum_values_foldl (l : List (κ × M)) (d : Dict κ M) :
    (l.foldl (fun d p => bump d p.1 p.2) d).values.sum = d.values.sum + (l.map Prod.snd).sum := by
  induction l generalizing d with
  | nil => simp
  | cons p rest ih =>
    rw [List.foldl_cons, ih, sum_values_bump, List.map_cons, List.sum_cons, add_assoc]

end HuntProxy.Rollup
