import Mathlib.Data.List.TakeWhile

/-!
# Words removed from a text

`str.replace(w, "")` removes the occurrences of a word from the left, each behind the one before.
A part of the text in which no occurrence begins stays as it is. For a word that begins with a
head and a stop, where the head has no stop, an occurrence can begin in front of the first stop
of a text only with all of the head in front of that stop.

## Main definitions

- `removeAll` — the text without the occurrences of a word
- `beforeFirst`, `behindLast` — the parts of a text at a separator

## Main results

- `removeAll_front` — a front in which no occurrence begins
- `removeAll_stop` — a text up to a stop
-/

namespace HuntProxy

variable {σ : Type*} [DecidableEq σ]

/-- The text without the occurrences of a word; `skip` letters still belong to one. -/
def removeFrom (w : List σ) : ℕ → List σ → List σ
  | _, [] => []
  | skip + 1, _ :: s => removeFrom w skip s
  | 0, c :: s =>
    if w.isPrefixOf (c :: s) then removeFrom w (w.length - 1) s else c :: removeFrom w 0 s

/-- `s.replace(w, "")`. -/
def removeAll (w s : List σ) : List σ := removeFrom w 0 s

/-- `s.split(sep, 1)[0]`. -/
def beforeFirst (sep : σ) (s : List σ) : List σ := s.takeWhile (· ≠ sep)

/-- `s.rsplit(sep, 1)[1]`, when the separator occurs. -/
def behindLast (sep : σ) (s : List σ) : List σ := (s.reverse.takeWhile (· ≠ sep)).reverse

theorem removeFrom_eq_drop (w : List σ) (skip : ℕ) (s : List σ) :
    removeFrom w skip s = removeAll w (s.drop skip) := by
  induction skip generalizing s with
  | zero => rfl
  | succ skip ih =>
    cases s with
    | nil => rfl
    | cons c s => exact ih s

@[simp] theorem removeAll_nil (w : List σ) : removeAll w [] = [] := rfl

theorem removeAll_cons {w : List σ} {c : σ} {s : List σ} (h : ¬ w <+: c :: s) :
    removeAll w (c :: s) = c :: removeAll w s :=
  if_neg (fun hprefix => h (List.isPrefixOf_iff_prefix.mp hprefix))

/-- An occurrence is removed. -/
theorem removeAll_word {w : List σ} (hw : w ≠ []) (s : List σ) :
    removeAll w (w ++ s) = removeAll w s := by
  obtain ⟨c, w', rfl⟩ := List.exists_cons_of_ne_nil hw
  have hhit : (c :: w').isPrefixOf (c :: (w' ++ s)) = true :=
    List.isPrefixOf_iff_prefix.mpr (List.prefix_append (c :: w') s)
  calc removeAll (c :: w') (c :: w' ++ s) = removeFrom (c :: w') w'.length (w' ++ s) := if_pos hhit
    _ = removeAll (c :: w') s := by rw [removeFrom_eq_drop, List.drop_left]

/-- **A front in which no occurrence begins** stays. -/
theorem removeAll_front {w front rest : List σ}
    (h : ∀ pre suf, front = pre ++ suf → suf ≠ [] → ¬ w <+: suf ++ rest) :
    removeAll w (front ++ rest) = front ++ removeAll w rest := by
  induction front with
  | nil => rfl
  | cons c front ih =>
    have hnot : ¬ w <+: c :: (front ++ rest) := h [] (c :: front) rfl (List.cons_ne_nil c front)
    rw [List.cons_append, removeAll_cons hnot, ih, List.cons_append]
    rintro pre suf rfl hne
    exact h (c :: pre) suf rfl hne

/-- An occurrence in front of the first stop has its head there. -/
theorem head_eq_front {head more suf rest : List σ} {stop : σ} (hhead : stop ∉ head)
    (hsuf : stop ∉ suf) (h : head ++ stop :: more <+: suf ++ stop :: rest) : head = suf := by
  obtain ⟨more', heq⟩ := h
  have htake := congrArg (List.takeWhile (· ≠ stop)) heq
  have hstop (l t : List σ) (hl : stop ∉ l) : (l ++ stop :: t).takeWhile (· ≠ stop) = l := by
    have hall : ∀ c ∈ l, decide (c ≠ stop) = true :=
      fun c hc => decide_eq_true (fun hcs => hl (hcs ▸ hc))
    rw [List.takeWhile_append_of_pos hall, List.takeWhile_cons, if_neg (by simp), List.append_nil]
  rwa [List.append_assoc, List.cons_append, hstop head _ hhead, hstop suf rest hsuf] at htake

/-- **Up to a stop**, a text stays, unless the head of the word is at its end. -/
theorem removeAll_stop {head more front rest : List σ} {stop : σ} (hhead : stop ∉ head)
    (hfront : stop ∉ front) (hne : head ≠ []) (hnot : ¬ head <:+ front) :
    removeAll (head ++ stop :: more) (front ++ stop :: rest) =
      front ++ stop :: removeAll (head ++ stop :: more) rest := by
  have hstop : ¬ head ++ stop :: more <+: stop :: rest := by
    intro h
    exact hne (head_eq_front hhead List.not_mem_nil (List.nil_append (stop :: rest) ▸ h))
  rw [removeAll_front, removeAll_cons hstop]
  rintro pre suf rfl - h
  have hsuf : stop ∉ suf := fun hmem => hfront (List.mem_append_right pre hmem)
  obtain rfl := head_eq_front hhead hsuf h
  exact hnot (List.suffix_append pre head)

/-- **Up to a letter that the word does not have**, a text without a stop stays. -/
theorem removeAll_sep {head more front rest : List σ} {stop sep : σ}
    (hsep : sep ∉ head ++ stop :: more) (hfront : stop ∉ front) :
    removeAll (head ++ stop :: more) (front ++ sep :: rest) =
      front ++ sep :: removeAll (head ++ stop :: more) rest := by
  -- an occurrence would have the letter in it, or end before it and have its stop there
  have hnot (suf : List σ) (hsuf : stop ∉ suf) : ¬ head ++ stop :: more <+: suf ++ sep :: rest := by
    rintro ⟨more', heq⟩
    rcases List.append_eq_append_iff.mp heq with ⟨u, rfl, -⟩ | ⟨u, hw, hu⟩
    · exact hsuf (List.mem_append_left u (List.mem_append_right head List.mem_cons_self))
    · cases u with
      | nil =>
        rw [List.append_nil] at hw
        exact hsuf (hw ▸ List.mem_append_right head List.mem_cons_self)
      | cons c u =>
        obtain rfl : sep = c := (List.cons.inj hu).1
        exact hsep (hw ▸ List.mem_append_right suf List.mem_cons_self)
  rw [removeAll_front, removeAll_cons (hnot [] List.not_mem_nil)]
  rintro pre suf rfl -
  exact hnot suf (fun hmem => hfront (List.mem_append_right pre hmem))

/-- A text without a stop stays. -/
theorem removeAll_noStop {head more s : List σ} {stop : σ} (hs : stop ∉ s) :
    removeAll (head ++ stop :: more) s = s := by
  have h : removeAll (head ++ stop :: more) (s ++ []) = s ++ removeAll (head ++ stop :: more) [] := by
    refine removeAll_front ?_
    rintro pre suf rfl - ⟨more', heq⟩
    refine hs (List.mem_append_right pre ?_)
    rw [List.append_nil] at heq
    rw [← heq]
    exact List.mem_append_left _ (List.mem_append_right _ List.mem_cons_self)
  rwa [List.append_nil, removeAll_nil, List.append_nil] at h

/-! ### Parts at a separator -/

theorem beforeFirst_append {sep : σ} {s : List σ} (hs : sep ∉ s) (rest : List σ) :
    beforeFirst sep (s ++ sep :: rest) = s := by
  have hall : ∀ c ∈ s, decide (c ≠ sep) = true :=
    fun c hc => decide_eq_true (fun h => hs (h ▸ hc))
  rw [beforeFirst, List.takeWhile_append_of_pos hall, List.takeWhile_cons, if_neg (by simp),
    List.append_nil]

theorem beforeFirst_of_notMem {sep : σ} {s : List σ} (hs : sep ∉ s) : beforeFirst sep s = s :=
  List.takeWhile_eq_self_iff.mpr (fun _ hc => decide_eq_true (fun h => hs (h ▸ hc)))

theorem notMem_beforeFirst (sep : σ) (s : List σ) : sep ∉ beforeFirst sep s := by
  intro h
  simpa using List.mem_takeWhile_imp h

theorem behindLast_append {sep : σ} (front : List σ) {s : List σ} (hs : sep ∉ s) :
    behindLast sep (front ++ sep :: s) = s := by
  have hrev : (front ++ sep :: s).reverse = s.reverse ++ sep :: front.reverse := by simp
  have hs' : sep ∉ s.reverse := fun h => hs (List.mem_reverse.mp h)
  have hfirst := beforeFirst_append hs' front.reverse
  rw [behindLast, hrev]
  rw [beforeFirst] at hfirst
  rw [hfirst, List.reverse_reverse]

end HuntProxy
