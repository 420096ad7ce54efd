import Mathlib.Data.List.Basic

/-!
# Registries of exclusive slots

A registry maps keys to the owner registered under them. Independently of it, an owner
is alive under at most one key. The registry is *covering* when every live owner is
registered under its key, and *backed* when every registered key belongs to a live
owner. Covering alone already makes the slots exclusive; backing says that no slot is
blocked for ever by an owner that has gone.

The two maps are given as functions, and the rules describe the maps after an
operation pointwise, so they apply to any representation of the registry.

## Main results

- `Covered.unique` — a covering registry has at most one live owner per key
- `Covered.acquire`, `Covered.release`, `Covered.clear` and the same rules for `Backed`
- `Compatible.acquire` — owners of slots that exclude each other
-/

namespace HuntProxy.Slots

variable {κ ω : Type*} {held held' : κ → Option ω} {live live' : ω → Option κ}

/-- Every live owner is registered under its key. -/
def Covered (held : κ → Option ω) (live : ω → Option κ) : Prop :=
  ∀ o k, live o = some k → held k = some o

/-- Every registered owner is alive under the key it is registered under. -/
def Backed (held : κ → Option ω) (live : ω → Option κ) : Prop :=
  ∀ k o, held k = some o → live o = some k

/-- A covering registry makes its slots exclusive. -/
theorem Covered.unique (h : Covered held live) {o o' : ω} {k : κ}
    (ho : live o = some k) (ho' : live o' = some k) : o = o' :=
  Option.some.inj ((h o k ho).symm.trans (h o' k ho'))

/-- In a covering registry an unregistered key has no live owner. -/
theorem Covered.not_live (h : Covered held live) {k : κ} (hk : held k = none) (o : ω) :
    live o ≠ some k := by
  intro ho
  rw [h o k ho] at hk
  exact Option.some_ne_none o hk

/-- A registry stays covering when maps change without changing their values. -/
theorem Covered.congr (h : Covered held live) (hh : ∀ k, held' k = held k)
    (hl : ∀ o, live' o = live o) : Covered held' live' := by
  intro o k ho
  rw [hh, h o k (hl o ▸ ho)]

theorem Backed.congr (h : Backed held live) (hh : ∀ k, held' k = held k)
    (hl : ∀ o, live' o = live o) : Backed held' live' := by
  intro k o hk
  rw [hl, h k o (hh k ▸ hk)]

variable [DecidableEq κ] [DecidableEq ω] {k : κ} {o : ω}

/-- Registering a new live owner under a free key keeps the registry covering. -/
theorem Covered.acquire (h : Covered held live) (hfree : held k = none)
    (hh : ∀ k', held' k' = if k' = k then some o else held k')
    (hl : ∀ o', live' o' = if o' = o then some k else live o') : Covered held' live' := by
  intro o' k' ho'
  rw [hl] at ho'
  rw [hh]
  by_cases hoo : o' = o
  · rw [if_pos hoo, Option.some.injEq] at ho'
    rw [if_pos ho'.symm, hoo]
  · rw [if_neg hoo] at ho'
    have hk : k' ≠ k := fun e => h.not_live hfree o' (e ▸ ho')
    rw [if_neg hk]
    exact h o' k' ho'

omit [DecidableEq ω] in
/-- Registering an owner that is not followed, under a free key, keeps the registry
covering. -/
theorem Covered.skip (h : Covered held live) (hfree : held k = none)
    (hh : ∀ k', held' k' = if k' = k then some o else held k')
    (hl : ∀ o', live' o' = live o') : Covered held' live' := by
  intro o' k' ho'
  rw [hl] at ho'
  have hk : k' ≠ k := fun e => h.not_live hfree o' (e ▸ ho')
  rw [hh, if_neg hk, h o' k' ho']

omit [DecidableEq κ] in
/-- The owners alive after one has ended were alive before, and are others. -/
theorem live_of_ended {o' : ω} {k' : κ} (hl : ∀ o', live' o' = if o' = o then none else live o')
    (ho' : live' o' = some k') : o' ≠ o ∧ live o' = some k' := by
  rw [hl] at ho'
  by_cases hoo : o' = o
  · rw [if_pos hoo] at ho'
    cases ho'
  · rw [if_neg hoo] at ho'
    exact ⟨hoo, ho'⟩

/-- An owner that ends and frees a key that no other owner holds keeps the registry
covering. -/
theorem Covered.release (h : Covered held live) (hk : ∀ o', o' ≠ o → live o' ≠ some k)
    (hh : ∀ k', held' k' = if k' = k then none else held k')
    (hl : ∀ o', live' o' = if o' = o then none else live o') : Covered held' live' := by
  intro o' k' ho'
  obtain ⟨hoo, ho'⟩ := live_of_ended hl ho'
  have hkk : k' ≠ k := fun e => hk o' hoo (e ▸ ho')
  rw [hh, if_neg hkk]
  exact h o' k' ho'

omit [DecidableEq κ] in
/-- An owner that ends without touching the registry keeps it covering. -/
theorem Covered.retire (h : Covered held live) (hh : ∀ k', held' k' = held k')
    (hl : ∀ o', live' o' = if o' = o then none else live o') : Covered held' live' := by
  intro o' k' ho'
  obtain ⟨-, ho'⟩ := live_of_ended hl ho'
  rw [hh, h o' k' ho']

omit [DecidableEq ω] in
/-- Clearing keys that have no live owner keeps the registry covering. -/
theorem Covered.clear (h : Covered held live) {ks : List κ}
    (hks : ∀ k ∈ ks, ∀ o, live o ≠ some k)
    (hh : ∀ k', held' k' = if k' ∈ ks then none else held k')
    (hl : ∀ o', live' o' = live o') : Covered held' live' := by
  intro o' k' ho'
  rw [hl] at ho'
  have hk : k' ∉ ks := fun hmem => hks k' hmem o' ho'
  rw [hh, if_neg hk, h o' k' ho']

/-- Registering a fresh owner keeps the registry backed. -/
theorem Backed.acquire (h : Backed held live) (hfresh : live o = none)
    (hh : ∀ k', held' k' = if k' = k then some o else held k')
    (hl : ∀ o', live' o' = if o' = o then some k else live o') : Backed held' live' := by
  intro k' o' hk'
  rw [hh] at hk'
  rw [hl]
  by_cases hkk : k' = k
  · rw [if_pos hkk, Option.some.injEq] at hk'
    rw [if_pos hk'.symm, hkk]
  · rw [if_neg hkk] at hk'
    have hlive := h k' o' hk'
    have hoo : o' ≠ o := by
      rintro rfl
      rw [hfresh] at hlive
      exact Option.some_ne_none k' hlive.symm
    rw [if_neg hoo, hlive]

/-- An owner that ends and frees its own key keeps the registry backed. -/
theorem Backed.release (h : Backed held live) (ho : live o = some k)
    (hh : ∀ k', held' k' = if k' = k then none else held k')
    (hl : ∀ o', live' o' = if o' = o then none else live o') : Backed held' live' := by
  intro k' o' hk'
  rw [hh] at hk'
  by_cases hkk : k' = k
  · rw [if_pos hkk] at hk'
    exact absurd hk' (Option.some_ne_none o').symm
  · rw [if_neg hkk] at hk'
    have hlive := h k' o' hk'
    have hoo : o' ≠ o := by
      rintro rfl
      exact hkk (Option.some.inj (hlive.symm.trans ho))
    rw [hl, if_neg hoo, hlive]

omit [DecidableEq ω] in
/-- Clearing keys keeps the registry backed. -/
theorem Backed.clear (h : Backed held live) {ks : List κ}
    (hh : ∀ k', held' k' = if k' ∈ ks then none else held k')
    (hl : ∀ o', live' o' = live o') : Backed held' live' := by
  intro k' o' hk'
  rw [hh] at hk'
  by_cases hmem : k' ∈ ks
  · rw [if_pos hmem] at hk'
    exact absurd hk' (Option.some_ne_none o').symm
  · rw [if_neg hmem] at hk'
    rw [hl, h k' o' hk']

/-! ### Slots that exclude each other -/

/-- No two live owners hold keys of which the first excludes the second. -/
def Compatible (excludes : κ → κ → Prop) (live : ω → Option κ) : Prop :=
  ∀ o o' k k', live o = some k → live o' = some k' → ¬ excludes k k'

omit [DecidableEq κ] [DecidableEq ω] in
/-- Fewer live owners stay compatible. -/
theorem Compatible.mono {excludes : κ → κ → Prop} (h : Compatible excludes live)
    (hl : ∀ o k, live' o = some k → live o = some k) : Compatible excludes live' :=
  fun o o' k k' ho ho' => h o o' k k' (hl o k ho) (hl o' k' ho')

omit [DecidableEq κ] in
/-- In a covering registry a key may be taken when all keys that exclude it, and all
that it excludes, are free. -/
theorem Compatible.acquire {excludes : κ → κ → Prop} (h : Compatible excludes live)
    (hc : Covered held live) (hself : ¬ excludes k k)
    (hclear : ∀ k', excludes k k' ∨ excludes k' k → held k' = none)
    (hl : ∀ o', live' o' = if o' = o then some k else live o') : Compatible excludes live' := by
  intro o₁ o₂ k₁ k₂ h₁ h₂ hex
  rw [hl] at h₁ h₂
  by_cases e₁ : o₁ = o <;> by_cases e₂ : o₂ = o
  · rw [if_pos e₁, Option.some.injEq] at h₁
    rw [if_pos e₂, Option.some.injEq] at h₂
    subst h₁ h₂
    exact hself hex
  · rw [if_pos e₁, Option.some.injEq] at h₁
    rw [if_neg e₂] at h₂
    subst h₁
    exact hc.not_live (hclear k₂ (.inl hex)) o₂ h₂
  · rw [if_neg e₁] at h₁
    rw [if_pos e₂, Option.some.injEq] at h₂
    subst h₂
    exact hc.not_live (hclear k₁ (.inr hex)) o₁ h₁
  · rw [if_neg e₁] at h₁
    rw [if_neg e₂] at h₂
    exact h o₁ o₂ k₁ k₂ h₁ h₂ hex

end HuntProxy.Slots
