import Mathlib.Data.List.Nodup
import Mathlib.Data.List.Basic

/-!
# Insertion-ordered dictionaries

A dictionary remembers the order in which its keys were first inserted, as a
Python `dict` does: replacing the value of a key keeps the key's place, a new key
goes to the end. Iterating over a snapshot of the keys therefore has a definite
order. The duplicate-freeness of the keys is a field, so no lemma asks for it.

## Main definitions

- `Dict` — ordered association lists without repeated keys
- `Dict.get?`, `Dict.insert`, `Dict.erase` — the operations, with their lookup laws
-/

namespace HuntProxy

/-- An association list in insertion order, without repeated keys. -/
structure Dict (κ ν : Type*) where
  items : List (κ × ν)
  nodup : (items.map Prod.fst).Nodup

namespace Dict

variable {κ ν : Type*}

/-- The dictionary without keys. -/
def empty : Dict κ ν := ⟨[], List.nodup_nil⟩

instance : Inhabited (Dict κ ν) := ⟨empty⟩

/-- The keys, oldest first. -/
def keys (d : Dict κ ν) : List κ := d.items.map Prod.fst

/-- The values, oldest key first. -/
def values (d : Dict κ ν) : List ν := d.items.map Prod.snd

variable [DecidableEq κ]

/-- The first value stored under a key of an association list. -/
def find (k : κ) : List (κ × ν) → Option ν
  | [] => none
  | (k', v) :: rest => if k' = k then some v else find k rest

/-- The value stored under `k`. -/
def get? (d : Dict κ ν) (k : κ) : Option ν := find k d.items

/-- Whether `k` is a key. -/
def contains (d : Dict κ ν) (k : κ) : Bool := (d.get? k).isSome

/-- Replace the value of a key of an association list, or append the key. -/
def put (k : κ) (v : ν) : List (κ × ν) → List (κ × ν)
  | [] => [(k, v)]
  | (k', v') :: rest => if k' = k then (k, v) :: rest else (k', v') :: put k v rest

theorem mem_put_keys (k x : κ) (v : ν) (l : List (κ × ν)) :
    x ∈ (put k v l).map Prod.fst ↔ x = k ∨ x ∈ l.map Prod.fst := by
  induction l with
  | nil => simp [put]
  | cons p rest ih =>
    obtain ⟨k', v'⟩ := p
    by_cases h : k' = k
    · subst h
      simp [put]
    · simp only [put, if_neg h, List.map_cons, List.mem_cons, ih]
      tauto

theorem put_nodup (k : κ) (v : ν) {l : List (κ × ν)} (h : (l.map Prod.fst).Nodup) :
    ((put k v l).map Prod.fst).Nodup := by
  induction l with
  | nil => simp [put]
  | cons p rest ih =>
    obtain ⟨k', v'⟩ := p
    simp only [List.map_cons, List.nodup_cons] at h
    by_cases hk : k' = k
    · subst hk
      simpa [put] using h
    · simp only [put, if_neg hk, List.map_cons, List.nodup_cons]
      refine ⟨?_, ih h.2⟩
      rw [mem_put_keys]
      rintro (rfl | hmem)
      · exact hk rfl
      · exact h.1 hmem

/-- Store `v` under `k`. -/
def insert (d : Dict κ ν) (k : κ) (v : ν) : Dict κ ν :=
  ⟨put k v d.items, put_nodup k v d.nodup⟩

/-- Remove the key `k`, if it is there. -/
def erase (d : Dict κ ν) (k : κ) : Dict κ ν :=
  ⟨d.items.filter (fun p => p.1 ≠ k),
    d.nodup.sublist (List.filter_sublist.map Prod.fst)⟩

/-- Remove every key of a list. -/
def eraseAll (d : Dict κ ν) (ks : List κ) : Dict κ ν := ks.foldl erase d

/-- Change every value. -/
def mapValues {μ : Type*} (f : ν → μ) (d : Dict κ ν) : Dict κ μ :=
  ⟨d.items.map (fun p => (p.1, f p.2)), by simpa [Function.comp_def] using d.nodup⟩

@[simp] theorem get?_mapValues {μ : Type*} (f : ν → μ) (d : Dict κ ν) (k : κ) :
    (d.mapValues f).get? k = (d.get? k).map f := by
  obtain ⟨l, hl⟩ := d
  simp only [get?, mapValues]
  induction l with
  | nil => rfl
  | cons p rest ih =>
    have hrest : (rest.map Prod.fst).Nodup := (List.nodup_cons.mp hl).2
    simp only [List.map_cons, find]
    split
    · rfl
    · exact ih hrest

@[simp] theorem get?_empty (k : κ) : (empty : Dict κ ν).get? k = none := rfl

theorem find_put (k k' : κ) (v : ν) (l : List (κ × ν)) :
    find k' (put k v l) = if k' = k then some v else find k' l := by
  induction l with
  | nil => simp [put, find, eq_comm]
  | cons p rest ih =>
    obtain ⟨x, w⟩ := p
    by_cases hx : x = k
    · subst hx
      by_cases hk : k' = x
      · simp [put, find, hk]
      · simp [put, find, hk, Ne.symm hk]
    · by_cases hk : k' = k
      · subst hk
        simp [put, find, hx, ih]
      · by_cases hxk : x = k' <;> simp [put, find, hx, hk, hxk, ih]

/-- Storing changes the lookup of its own key only. -/
@[simp] theorem get?_insert (d : Dict κ ν) (k k' : κ) (v : ν) :
    (d.insert k v).get? k' = if k' = k then some v else d.get? k' :=
  find_put k k' v d.items

/-- Change the value of a key, if it has one. -/
def modify (d : Dict κ ν) (k : κ) (f : ν → ν) : Dict κ ν :=
  match d.get? k with
  | none => d
  | some v => d.insert k (f v)

/-- A change of a value changes the lookup of its own key only. -/
@[simp] theorem get?_modify (d : Dict κ ν) (k k' : κ) (f : ν → ν) :
    (d.modify k f).get? k' = if k' = k then (d.get? k).map f else d.get? k' := by
  unfold modify
  cases hk : d.get? k with
  | none =>
    by_cases hk' : k' = k
    · rw [if_pos hk', hk', hk]
      rfl
    · rw [if_neg hk']
  | some v => exact get?_insert d k k' (f v)

theorem find_filter (k k' : κ) (l : List (κ × ν)) :
    find k' (l.filter (fun p => p.1 ≠ k)) = if k' = k then none else find k' l := by
  induction l with
  | nil => simp [find]
  | cons p rest ih =>
    obtain ⟨x, w⟩ := p
    simp only [ne_eq, decide_not] at ih
    by_cases hx : x = k
    · subst hx
      by_cases hk : k' = x
      · subst hk
        simpa using ih
      · simp [find, hk, Ne.symm hk, ih]
    · by_cases hk : k' = k
      · subst hk
        simp [find, hx, ih]
      · by_cases hxk : x = k' <;> simp [find, hx, hk, hxk, ih]

/-- A new key goes to the end. -/
theorem put_of_notMem {k : κ} {v : ν} {l : List (κ × ν)} (h : k ∉ l.map Prod.fst) :
    put k v l = l ++ [(k, v)] := by
  induction l with
  | nil => rfl
  | cons p rest ih =>
    obtain ⟨x, w⟩ := p
    simp only [List.map_cons, List.mem_cons, not_or] at h
    rw [put, if_neg (Ne.symm h.1), ih h.2, List.cons_append]

theorem put_of_find {k : κ} {v : ν} {l : List (κ × ν)} (h : find k l = some v) : put k v l = l := by
  induction l with
  | nil => cases h
  | cons p rest ih =>
    obtain ⟨x, w⟩ := p
    by_cases hx : x = k
    · subst hx
      rw [find, if_pos rfl] at h
      cases h
      rw [put, if_pos rfl]
    · rw [find, if_neg hx] at h
      rw [put, if_neg hx, ih h]

/-- Storing what is there already changes nothing. -/
theorem insert_of_get? {d : Dict κ ν} {k : κ} {v : ν} (h : d.get? k = some v) :
    d.insert k v = d := by
  obtain ⟨l, hl⟩ := d
  have hput : put k v l = l := put_of_find h
  simp only [insert, hput]

/-- Removing changes the lookup of its own key only. -/
@[simp] theorem get?_erase (d : Dict κ ν) (k k' : κ) :
    (d.erase k).get? k' = if k' = k then none else d.get? k' :=
  find_filter k k' d.items

/-- Removing a list of keys blanks exactly the lookups of these keys. -/
@[simp] theorem get?_eraseAll (d : Dict κ ν) (ks : List κ) (k : κ) :
    (d.eraseAll ks).get? k = if k ∈ ks then none else d.get? k := by
  induction ks generalizing d with
  | nil => simp [eraseAll]
  | cons x xs ih =>
    have h := ih (d.erase x)
    simp only [eraseAll, List.foldl_cons] at h ⊢
    rw [h, get?_erase]
    by_cases hk : k = x <;> by_cases hmem : k ∈ xs <;> simp [hk, hmem]

@[simp] theorem contains_eq_true {d : Dict κ ν} {k : κ} :
    d.contains k = true ↔ ∃ v, d.get? k = some v := by
  simp [contains, Option.isSome_iff_exists]

@[simp] theorem contains_eq_false {d : Dict κ ν} {k : κ} :
    d.contains k = false ↔ d.get? k = none := by
  simp [contains]

theorem find_eq_some_iff {l : List (κ × ν)} (h : (l.map Prod.fst).Nodup) {k : κ} {v : ν} :
    find k l = some v ↔ (k, v) ∈ l := by
  induction l with
  | nil => simp [find]
  | cons p rest ih =>
    obtain ⟨x, w⟩ := p
    simp only [List.map_cons, List.nodup_cons] at h
    by_cases hx : x = k
    · subst hx
      have hnot : ∀ u, (x, u) ∉ rest := fun u hu => h.1 (List.mem_map_of_mem hu)
      simp [find, hnot, eq_comm]
    · simp [find, hx, ih h.2, Ne.symm hx]

/-- The stored pairs are exactly what lookups find. -/
theorem get?_eq_some_iff {d : Dict κ ν} {k : κ} {v : ν} :
    d.get? k = some v ↔ (k, v) ∈ d.items :=
  find_eq_some_iff d.nodup

/-- The keys are exactly what has a value. -/
theorem mem_keys {d : Dict κ ν} {k : κ} : k ∈ d.keys ↔ ∃ v, d.get? k = some v := by
  simp [keys, get?_eq_some_iff]

theorem put_map {μ : Type*} (f : ν → μ) (k : κ) (v : ν) (l : List (κ × ν)) :
    (put k v l).map (fun p => (p.1, f p.2)) = put k (f v) (l.map (fun p => (p.1, f p.2))) := by
  induction l with
  | nil => rfl
  | cons p rest ih =>
    by_cases hk : p.1 = k
    · simp [put, hk]
    · simp [put, hk, ih]

/-- Changing the values, after a value has been stored. -/
theorem mapValues_insert {μ : Type*} (f : ν → μ) (d : Dict κ ν) (k : κ) (v : ν) :
    (d.insert k v).mapValues f = (d.mapValues f).insert k (f v) := by
  simp only [mapValues, insert, put_map]

/-- Changing the values, after a key has been removed. -/
theorem mapValues_erase {μ : Type*} (f : ν → μ) (d : Dict κ ν) (k : κ) :
    (d.erase k).mapValues f = (d.mapValues f).erase k := by
  simp only [mapValues, erase, List.filter_map]
  rfl

theorem get?_of_notMem_keys {d : Dict κ ν} {k : κ} (h : k ∉ d.keys) : d.get? k = none := by
  cases hk : d.get? k with
  | none => rfl
  | some v => exact absurd (mem_keys.mpr ⟨v, hk⟩) h

end Dict

end HuntProxy
