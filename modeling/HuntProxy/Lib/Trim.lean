import Mathlib.Data.List.Basic
import Mathlib.Data.List.TakeWhile

/-!
# Trimming the ends of a text

Letters of a class are taken away at both ends of a text, as `str.strip` does with white space
and with the letters it is given. The trimmed text is the one between two stretches of the
class that neither begins nor ends in it.

## Main definitions

- `trim` — the text without the letters of a class at its ends
- `Bare` — a text with nothing to trim

## Main results

- `trim_append` — what stands around a bare text is trimmed
- `trim_split`, `bare_trim` — what is trimmed, and what is left
-/

namespace HuntProxy

variable {σ : Type*}

/-- The text without the letters of the class at its ends. -/
def trim (p : σ → Bool) (s : List σ) : List σ := ((s.dropWhile p).reverse.dropWhile p).reverse

/-- The text neither begins nor ends with a letter of the class. -/
structure Bare (p : σ → Bool) (s : List σ) : Prop where
  head : ∀ c ∈ s.head?, p c = false
  last : ∀ c ∈ s.getLast?, p c = false

variable {p : σ → Bool}

theorem dropWhile_of_head {s : List σ} (h : ∀ c ∈ s.head?, p c = false) : s.dropWhile p = s := by
  cases s with
  | nil => rfl
  | cons c s => rw [List.dropWhile_cons, h c rfl, if_neg Bool.false_ne_true]

theorem head_dropWhile (s : List σ) : ∀ c ∈ (s.dropWhile p).head?, p c = false := by
  induction s with
  | nil => nofun
  | cons d s ih =>
    intro c hc
    rw [List.dropWhile_cons] at hc
    split at hc
    · exact ih c hc
    · next hd =>
      obtain rfl : d = c := Option.some.inj hc
      exact Bool.eq_false_iff.mpr hd

theorem Bare.of_all {s : List σ} (h : ∀ c ∈ s, p c = false) : Bare p s :=
  ⟨fun c hc => h c (List.mem_of_head? hc), fun c hc => h c (List.mem_of_getLast? hc)⟩

theorem Bare.append {s t : List σ} (hs : Bare p s) (ht : Bare p t) (hsne : s ≠ []) (htne : t ≠ []) :
    Bare p (s ++ t) := by
  refine ⟨fun c hc => hs.head c ?_, fun c hc => ht.last c ?_⟩
  · rwa [List.head?_append_of_ne_nil s hsne] at hc
  · rwa [List.getLast?_append_of_ne_nil s htne] at hc

/-- A text between two bare ones is bare, whatever it is. -/
theorem Bare.around {s t : List σ} (mid : List σ) (hs : Bare p s) (ht : Bare p t) (hsne : s ≠ [])
    (htne : t ≠ []) : Bare p (s ++ mid ++ t) := by
  refine ⟨fun c hc => hs.head c ?_, fun c hc => ht.last c ?_⟩
  · rwa [List.append_assoc, List.head?_append_of_ne_nil s hsne] at hc
  · rwa [List.getLast?_append_of_ne_nil _ htne] at hc

/-- **What stands around a bare text is trimmed.** -/
theorem trim_append {left s right : List σ} (hleft : ∀ c ∈ left, p c = true) (hs : Bare p s)
    (hright : ∀ c ∈ right, p c = true) : trim p (left ++ s ++ right) = s := by
  have hback (t : List σ) (ht : Bare p t) : (t.reverse).dropWhile p = t.reverse :=
    dropWhile_of_head (fun c hc => ht.last c (by rwa [List.head?_reverse] at hc))
  have hright' : ∀ c ∈ right.reverse, p c = true := fun c hc => hright c (List.mem_reverse.mp hc)
  rw [trim, List.append_assoc, List.dropWhile_append_of_pos hleft]
  cases s with
  | nil =>
    have hall : right.dropWhile p = [] := by
      rw [← List.append_nil right, List.dropWhile_append_of_pos hright, List.dropWhile_nil]
    rw [List.nil_append, hall]
    rfl
  | cons c s =>
    have hfront : (c :: s ++ right).dropWhile p = c :: s ++ right :=
      dropWhile_of_head (fun d hd => hs.head d hd)
    rw [hfront, List.reverse_append, List.dropWhile_append_of_pos hright', hback _ hs,
      List.reverse_reverse]

theorem trim_append_left {left : List σ} (hleft : ∀ c ∈ left, p c = true) (s : List σ) :
    trim p (left ++ s) = trim p s := by
  rw [trim, List.dropWhile_append_of_pos hleft, trim]

theorem trim_append_right {s right : List σ} (hs : Bare p s) (hright : ∀ c ∈ right, p c = true) :
    trim p (s ++ right) = s :=
  @trim_append σ p [] s right nofun hs hright

theorem trim_of_bare {s : List σ} (hs : Bare p s) : trim p s = s := by
  have h := trim_append_right hs (List.forall_mem_nil _)
  rwa [List.append_nil] at h

/-- What is trimmed are letters of the class. -/
theorem trim_split (p : σ → Bool) (s : List σ) : ∃ left right, s = left ++ trim p s ++ right ∧
    (∀ c ∈ left, p c = true) ∧ ∀ c ∈ right, p c = true := by
  have hfront := List.takeWhile_append_dropWhile (p := p) (l := s)
  have hback := List.takeWhile_append_dropWhile (p := p) (l := (s.dropWhile p).reverse)
  have hclass (l : List σ) : ∀ c ∈ l.takeWhile p, p c = true :=
    List.all_eq_true.mp List.all_takeWhile
  refine ⟨s.takeWhile p, ((s.dropWhile p).reverse.takeWhile p).reverse, ?_, hclass s,
    fun c hc => hclass _ c (List.mem_reverse.mp hc)⟩
  have hmid : trim p s ++ ((s.dropWhile p).reverse.takeWhile p).reverse = s.dropWhile p := by
    rw [trim, ← List.reverse_append, hback, List.reverse_reverse]
  rw [List.append_assoc, hmid, hfront]

theorem bare_trim (p : σ → Bool) (s : List σ) : Bare p (trim p s) := by
  refine ⟨fun c hc => ?_, fun c hc => ?_⟩
  · -- the first letter is the first one of the text without its front
    have hsplit : trim p s ++ ((s.dropWhile p).reverse.takeWhile p).reverse = s.dropWhile p := by
      rw [trim, ← List.reverse_append, List.takeWhile_append_dropWhile, List.reverse_reverse]
    refine head_dropWhile s c ?_
    rw [← hsplit]
    cases htrim : trim p s with
    | nil =>
      rw [htrim] at hc
      cases hc
    | cons d t =>
      rw [htrim] at hc
      exact hc
  · rw [trim, List.getLast?_reverse] at hc
    exact head_dropWhile _ c hc

/-- Behind a bare text, only the end is trimmed. -/
theorem trim_bare_append {s : List σ} (hs : Bare p s) (hne : s ≠ []) (t : List σ) :
    ∃ t' right, t = t' ++ right ∧ (∀ c ∈ right, p c = true) ∧ trim p (s ++ t) = s ++ t' := by
  have hsplit := List.takeWhile_append_dropWhile (p := p) (l := t.reverse)
  have hright : ∀ c ∈ (t.reverse.takeWhile p).reverse, p c = true :=
    fun c hc => List.all_eq_true.mp List.all_takeWhile c (List.mem_reverse.mp hc)
  have ht : t = (t.reverse.dropWhile p).reverse ++ (t.reverse.takeWhile p).reverse := by
    rw [← List.reverse_append, hsplit, List.reverse_reverse]
  have hbare : Bare p (s ++ (t.reverse.dropWhile p).reverse) := by
    refine ⟨fun c hc => hs.head c ?_, fun c hc => ?_⟩
    · rwa [List.head?_append_of_ne_nil s hne] at hc
    · rw [List.getLast?_append, List.getLast?_reverse] at hc
      cases hback : (t.reverse.dropWhile p).head? with
      | none =>
        rw [hback] at hc
        exact hs.last c hc
      | some d =>
        rw [hback] at hc
        obtain rfl : d = c := Option.some.inj hc
        exact head_dropWhile _ d hback
  have htrim := trim_append_right hbare hright
  rw [List.append_assoc, ← ht] at htrim
  exact ⟨_, _, ht, hright, htrim⟩

theorem trim_trim (p : σ → Bool) (s : List σ) : trim p (trim p s) = trim p s :=
  trim_of_bare (bare_trim p s)

theorem mem_trim {s : List σ} {c : σ} (h : c ∈ s) (hc : p c = false) : c ∈ trim p s := by
  obtain ⟨left, right, hs, hleft, hright⟩ := trim_split p s
  rw [hs] at h
  rcases List.mem_append.mp h with h | h
  · rcases List.mem_append.mp h with h | h
    · rw [hleft c h] at hc
      cases hc
    · exact h
  · rw [hright c h] at hc
    cases hc

theorem mem_of_mem_trim {s : List σ} {c : σ} (h : c ∈ trim p s) : c ∈ s := by
  obtain ⟨left, right, hs, -, -⟩ := trim_split p s
  rw [hs]
  exact List.mem_append_left _ (List.mem_append_right _ h)

/-- Letters outside the class keep their places among each other. -/
theorem filter_trim {q : σ → Bool} (hq : ∀ c, q c = true → p c = false) (s : List σ) :
    (trim p s).filter q = s.filter q := by
  obtain ⟨left, right, hs, hleft, hright⟩ := trim_split p s
  have hnone (l : List σ) (hl : ∀ c ∈ l, p c = true) : l.filter q = [] :=
    List.filter_eq_nil_iff.mpr
      (fun c hc hqc => Bool.false_ne_true ((hq c hqc).symm.trans (hl c hc)))
  calc (trim p s).filter q = left.filter q ++ (trim p s).filter q ++ right.filter q := by
        rw [hnone left hleft, hnone right hright, List.nil_append, List.append_nil]
    _ = (left ++ trim p s ++ right).filter q := by rw [List.filter_append, List.filter_append]
    _ = s.filter q := by rw [← hs]

end HuntProxy
