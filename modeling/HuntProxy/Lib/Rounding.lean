import Mathlib.Algebra.Order.Floor.Ring
import Mathlib.Tactic.Linarith

/-!
# Rounding to decimals

Rounding to the nearest integer, where the half-way points go to the even neighbour, and
rounding to a number of decimals by it.

## Main definitions

- `roundHalfEven`, `roundTo` — the two roundings

## Main results

- `roundHalfEven_lt_iff` — what is rounded to less than an even number
- `roundTo_lt_iff` — what is rounded to less than a number with an even last decimal
-/

namespace HuntProxy

namespace Rounding

variable {K : Type*} [Field K] [LinearOrder K] [FloorRing K]

/-- The nearest integer, the even one of two. -/
def roundHalfEven (x : K) : ℤ :=
  if x - ⌊x⌋ < 1 / 2 then ⌊x⌋
  else if 1 / 2 < x - ⌊x⌋ then ⌊x⌋ + 1
  else if ⌊x⌋ % 2 = 0 then ⌊x⌋ else ⌊x⌋ + 1

/-- The nearest number with `k` decimals. -/
def roundTo (k : ℕ) (x : K) : K := roundHalfEven (x * 10 ^ k) / 10 ^ k

variable [IsStrictOrderedRing K]

theorem roundHalfEven_lt_iff {x : K} {n : ℤ} (hn : n % 2 = 0) :
    roundHalfEven x < n ↔ x < n - 1 / 2 := by
  have hlo := Int.floor_le x
  have hhi := Int.lt_floor_add_one x
  -- An integer bound becomes one of the field, and back.
  have hcast {m : ℤ} : m < n ↔ (m : K) + 1 ≤ n := by
    rw [← Int.cast_one, ← Int.cast_add, Int.cast_le, Int.add_one_le_iff]
  unfold roundHalfEven
  split
  · rw [hcast]
    constructor
    · intro h
      linarith
    · intro h
      by_contra hge
      have hle : ((n : ℤ) : K) ≤ (⌊x⌋ : ℤ) := Int.cast_le.mpr (not_lt.mp fun hlt => hge (hcast.mp hlt))
      linarith
  · split
    · have hcast' : ⌊x⌋ + 1 < n ↔ ((⌊x⌋ : ℤ) : K) + 2 ≤ n := by
        rw [hcast, Int.cast_add, Int.cast_one, add_assoc, one_add_one_eq_two]
      rw [hcast']
      constructor
      · intro h
        linarith
      · intro h
        by_contra hge
        have hle : n ≤ ⌊x⌋ + 1 := not_lt.mp fun hlt => hge (hcast'.mp hlt)
        have hle' : ((n : ℤ) : K) ≤ (⌊x⌋ : ℤ) + 1 := by
          rw [← Int.cast_one, ← Int.cast_add]
          exact Int.cast_le.mpr hle
        linarith
    · -- At a half-way point the even neighbour is taken on both sides.
      have hhalf : x = ⌊x⌋ + 1 / 2 := by linarith
      have hgoal : x < n - 1 / 2 ↔ ⌊x⌋ + 1 < n := by
        rw [← @Int.cast_lt K, Int.cast_add, Int.cast_one]
        constructor
        · intro h
          linarith
        · intro h
          linarith
      rw [hgoal]
      split
      · omega
      · exact Iff.rfl

theorem roundHalfEven_nonneg {x : K} (h : 0 ≤ x) : 0 ≤ roundHalfEven x := by
  by_contra hneg
  have hlt := (roundHalfEven_lt_iff (x := x) (n := 0) rfl).mp (not_le.mp hneg)
  rw [Int.cast_zero] at hlt
  linarith

theorem roundTo_nonneg {x : K} (k : ℕ) (h : 0 ≤ x) : 0 ≤ roundTo k x :=
  div_nonneg (Int.cast_nonneg (roundHalfEven_nonneg (mul_nonneg h (pow_nonneg (by norm_num) k))))
    (pow_nonneg (by norm_num) k)

/-- **A number is rounded to less than `n / 10 ^ k`** when it lies more than half a place below. -/
theorem roundTo_lt_iff {x : K} {k : ℕ} {n : ℤ} (hn : n % 2 = 0) :
    roundTo k x < n / 10 ^ k ↔ x < (n - 1 / 2) / 10 ^ k := by
  have hpos : (0 : K) < 10 ^ k := pow_pos (by norm_num) k
  rw [roundTo, div_lt_div_iff_of_pos_right hpos, Int.cast_lt, roundHalfEven_lt_iff hn,
    lt_div_iff₀ hpos]

end Rounding

end HuntProxy
