import Mathlib.Data.List.Basic
import Mathlib.Data.Nat.Notation

/-!
# Lower case

Lowering a text replaces each letter by its image, which may have several letters and may
depend on the letters around it (the final sigma of Greek). A letter of ASCII has the image
it has in every text, and an image has no other letters of ASCII than lower-case ones. The rest of
Unicode is left open.

## Main definitions

- `LowerCase` — the images of all letters
- `LowerCase.apply` — the text in lower case

## Main results

- `apply_of_ascii` — a text of ASCII, letter by letter
- `filter_apply` — letters of ASCII without case keep their places among each other
-/

namespace HuntProxy

/-- The images of the letters in lower case. -/
structure LowerCase where
  /-- The image of a letter between the texts in front of it and behind it. -/
  image : List Char → Char → List Char → List Char
  ascii : ∀ l c r, c.toNat < 128 → image l c r = [c.toLower]
  foreign : ∀ l c r, 128 ≤ c.toNat → ∀ d ∈ image l c r, 128 ≤ d.toNat ∨ d.isLower = true

namespace LowerCase

variable (m : LowerCase)

/-- The image of a text between two others. -/
def between (l : List Char) : List Char → List Char → List Char
  | [], _ => []
  | c :: s, r => m.image l c (s ++ r) ++ between (l ++ [c]) s r

/-- `str.lower`. -/
def apply (s : List Char) : List Char := m.between [] s []

/-! ### Letters of ASCII -/

/-- What holds of the first 128 letters holds of each letter of ASCII. -/
theorem of_ascii {P : Char → Prop} (h : ∀ n < 128, P (Char.ofNat n)) {c : Char}
    (hc : c.toNat < 128) : P c := by
  have hn := h c.toNat hc
  rwa [Char.ofNat_toNat] at hn

theorem ascii_of_isAlphanum {c : Char} (h : c.isAlphanum = true) : c.toNat < 128 := by
  have hbound {d : Char} (hd : d.val.toNat < 128) (hle : c.val ≤ d.val) : c.toNat < 128 :=
    Nat.lt_of_le_of_lt (UInt32.le_iff_toNat_le.mp hle) hd
  have hcases : (c.isUpper || c.isLower || c.isDigit) = true := h
  simp only [Bool.or_eq_true] at hcases
  obtain (hupper | hlower) | hdigit := hcases
  · exact hbound (d := 'Z') (by decide) (of_decide_eq_true hupper).2
  · exact hbound (d := 'z') (by decide) (of_decide_eq_true (Bool.and_eq_true_iff.mp hlower).2)
  · exact hbound (d := '9') (by decide) (of_decide_eq_true (Bool.and_eq_true_iff.mp hdigit).2)

/-- A letter of ASCII without case. -/
def Uncased (c : Char) : Prop := c.toNat < 128 ∧ c.isAlpha = false

instance (c : Char) : Decidable (Uncased c) := inferInstanceAs (Decidable (_ ∧ _))

theorem toLower_of_uncased {c : Char} (h : Uncased c) : c.toLower = c := by
  revert h
  by_cases hc : c.toNat < 128
  · exact of_ascii (P := fun c => Uncased c → c.toLower = c) (by decide) hc
  · exact fun h => absurd h.1 hc

/-- The image of a letter has no letter without case that is not the letter itself. -/
theorem toLower_uncased {c : Char} (hc : c.toNat < 128) (h : Uncased c.toLower) : c.toLower = c :=
  of_ascii (P := fun c => Uncased c.toLower → c.toLower = c) (by decide) hc h

theorem not_uncased_of_isLower {d : Char} (h : d.isLower = true) : ¬ Uncased d := by
  rintro ⟨-, halpha⟩
  have hcases : (d.isUpper || d.isLower) = false := halpha
  rw [h, Bool.or_true] at hcases
  cases hcases

/-! ### The image of a text -/

@[simp] theorem between_nil (l r : List Char) : m.between l [] r = [] := rfl

theorem between_append (l s t r : List Char) :
    m.between l (s ++ t) r = m.between l s (t ++ r) ++ m.between (l ++ s) t r := by
  induction s generalizing l with
  | nil => simp
  | cons c s ih => simp [between, ih]

theorem between_of_ascii {s : List Char} (h : ∀ c ∈ s, c.toNat < 128) (l r : List Char) :
    m.between l s r = s.map Char.toLower := by
  induction s generalizing l with
  | nil => rfl
  | cons c s ih =>
    obtain ⟨hc, hs⟩ := List.forall_mem_cons.mp h
    rw [between, m.ascii l c (s ++ r) hc, ih hs, List.map_cons, List.singleton_append]

/-- A text of ASCII is lowered letter by letter. -/
theorem apply_of_ascii {s : List Char} (h : ∀ c ∈ s, c.toNat < 128) :
    m.apply s = s.map Char.toLower := m.between_of_ascii h [] []

theorem filter_image {q : Char → Bool} (hq : ∀ c, q c = true → Uncased c) (l r : List Char)
    (c : Char) : (m.image l c r).filter q = [c].filter q := by
  by_cases hc : c.toNat < 128
  · rw [m.ascii l c r hc]
    by_cases hlow : Uncased c.toLower
    · rw [toLower_uncased hc hlow]
    · have hnot : ¬ q c = true := by
        intro h
        rw [toLower_of_uncased (hq c h)] at hlow
        exact hlow (hq c h)
      have hnot' : ¬ q c.toLower = true := fun h => hlow (hq _ h)
      simp [hnot, hnot']
  · have hnot : ¬ q c = true := fun h => hc (hq c h).1
    have himage : ∀ d ∈ m.image l c r, ¬ q d = true := by
      intro d hd h
      rcases m.foreign l c r (Nat.le_of_not_lt hc) d hd with hlarge | hlower
      · exact absurd (hq d h).1 (Nat.not_lt.mpr hlarge)
      · exact not_uncased_of_isLower hlower (hq d h)
    rw [List.filter_eq_nil_iff.mpr himage]
    simp [hnot]

/-- **Letters of ASCII without case** stay where they are among each other. -/
theorem filter_between {q : Char → Bool} (hq : ∀ c, q c = true → Uncased c) (l s r : List Char) :
    (m.between l s r).filter q = s.filter q := by
  induction s generalizing l with
  | nil => rfl
  | cons c s ih =>
    rw [between, List.filter_append, m.filter_image hq, ih, ← List.filter_append,
      List.singleton_append]

theorem filter_apply {q : Char → Bool} (hq : ∀ c, q c = true → Uncased c) (s : List Char) :
    (m.apply s).filter q = s.filter q := m.filter_between hq [] s []

theorem mem_between {c : Char} (hc : Uncased c) {l s r : List Char} :
    c ∈ m.between l s r ↔ c ∈ s := by
  have hfilter := m.filter_between (q := fun d => d == c)
    (fun d hd => by rw [beq_iff_eq.mp hd]; exact hc) l s r
  have hmem (t : List Char) : c ∈ t ↔ c ∈ t.filter (fun d => d == c) := by simp
  rw [hmem, hfilter, ← hmem]

theorem mem_apply {c : Char} (hc : Uncased c) {s : List Char} : c ∈ m.apply s ↔ c ∈ s :=
  m.mem_between hc

end LowerCase

/-- Lower case where all letters have case but those of ASCII have none. -/
def asciiLowerCase : LowerCase where
  image _ c _ := [if c.toNat < 128 then c.toLower else c]
  ascii _ c _ hc := by rw [if_pos hc]
  foreign _ c _ hc d hd := by
    rw [if_neg (Nat.not_lt.mpr hc)] at hd
    exact .inl (List.mem_singleton.mp hd ▸ hc)

end HuntProxy
