import HuntProxy.Lib.Url
import HuntProxy.Routing.DomainValues

/-!
# Lines with a rule in them

A line of a list has a rule, blanks around it and perhaps a comment behind it. What stands
behind a rule in which no comment begins does not reach into the rule: the rule is read as it is
when the comment is begun by one of the separators, and otherwise with what is left of the
comment behind it.

## Main definitions

- `Comment`, `LineFrame` — what a line has around its rule
- `Quote`, `clashFront` — parts of a rule

## Main results

- `normalize_line`, `normalize_begun`, `normalize_notBegun` — the rule that is read of a line
-/

namespace HuntProxy.Routing

open Text Url

/-- White space within a line. -/
abbrev LineBlank := { s : Str // ∀ c ∈ s, Text.isSpace c = true ∧ isBreak c = false }

/-- A text within a line. -/
abbrev LineText := { s : Str // ∀ c ∈ s, isBreak c = false }

/-- The quote at the beginning of a text, if there is one, and at its end. -/
abbrev Quote := Option { c : Char // isQuote c = true }

/-- The text of a quote. -/
def Quote.text (q : Quote) : Str := (q.map Subtype.val).toList

/-- The letters of a value are not blank, no quotes and no ends of lines. -/
theorem isValueChar_plain {c : Char} (h : isValueChar c = true) :
    Text.isSpace c = false ∧ isQuote c = false ∧ notNewline c = true :=
  LowerCase.of_ascii
    (P := fun c => isValueChar c = true → Text.isSpace c = false ∧ isQuote c = false ∧ notNewline c = true)
    (by decide) (ascii_of_isValueChar h) h

inductive Marker
  | hash
  | slashes
  | semicolon
  deriving DecidableEq, Repr

def Marker.text : Marker → Str
  | .hash => "#".toList
  | .slashes => "//".toList
  | .semicolon => ";".toList

theorem Marker.mem (m : Marker) : m.text ∈ commentMarkers := by cases m <;> decide

/-- A comment behind a rule, with the white space between them. -/
structure Comment where
  gap : LineBlank
  marker : Marker
  text : LineText

/-- One of the separators of the parser begins the comment: the last letter of the white space,
with the marker. -/
def Comment.Begun (c : Comment) : Prop := c.gap.val.getLast?.toList ++ c.marker.text ∈ commentSeps

instance (c : Comment) : Decidable c.Begun := inferInstanceAs (Decidable (_ ∈ _))

theorem Comment.begun_iff (c : Comment) :
    c.Begun ↔ ∃ a ∈ c.gap.val.getLast?, a :: c.marker.text ∈ commentSeps := by
  have halone : ∀ m : Marker, m.text ∉ commentSeps := by
    intro m
    cases m <;> decide
  rw [Comment.Begun]
  cases c.gap.val.getLast? with
  | none => simpa using halone c.marker
  | some a => simp

/-- What a line has around its rule. -/
structure LineFrame where
  lead : LineBlank
  comment : Option Comment
  trail : LineBlank

/-- What stands behind the rule. -/
def LineFrame.behind (f : LineFrame) : Str :=
  f.comment.elim [] (fun c => c.gap.val ++ c.marker.text ++ c.text.val) ++ f.trail.val

/-- The line of a rule. -/
def LineFrame.write (f : LineFrame) (rule : Str) : Str := f.lead.val ++ (rule ++ f.behind)

/-- A line with nothing around its rule. -/
def bareFrame : LineFrame := ⟨⟨[], nofun⟩, none, ⟨[], nofun⟩⟩

theorem LineBlank.isSpace (b : LineBlank) : ∀ c ∈ b.val, Text.isSpace c = true := fun c hc => (b.property c hc).1

theorem Quote.isQuote (q : Quote) : ∀ c ∈ q.text, isQuote c = true := by
  intro c hc
  cases q with
  | none => cases hc
  | some q => exact List.mem_singleton.mp hc ▸ q.property

theorem Quote.length_le (q : Quote) : q.text.length ≤ 1 := by
  cases q with
  | none => exact Nat.zero_le 1
  | some q => exact Nat.le_refl 1

theorem notNewline_of_not_isBreak {c : Char} (h : isBreak c = false) : notNewline c = true := by
  rw [notNewline, bne_iff_ne]
  rintro rfl
  cases h

theorem LineFrame.notNewline (f : LineFrame) : ∀ c ∈ f.behind, notNewline c = true := by
  intro c hc
  refine notNewline_of_not_isBreak ?_
  rcases List.mem_append.mp hc with hc | hc
  · cases hcomment : f.comment with
    | none =>
      rw [hcomment] at hc
      cases hc
    | some comment =>
      rw [hcomment] at hc
      rcases List.mem_append.mp hc with hc | hc
      · rcases List.mem_append.mp hc with hc | hc
        · exact (comment.gap.property c hc).2
        · have hmarker : ∀ m : Marker, ∀ c ∈ m.text, isBreak c = false := by
            intro m
            cases m <;> simp [Marker.text, isBreak]
          exact hmarker comment.marker c hc
      · exact comment.text.property c hc
  · exact (f.trail.property c hc).2

theorem LineBlank.not_commentLetter (b : LineBlank) : ∀ c ∈ b.val, isCommentLetter c = false :=
  fun c hc => not_commentLetter_of_isSpace (b.isSpace c hc)

theorem Quote.not_commentLetter (q : Quote) : ∀ c ∈ q.text, isCommentLetter c = false := by
  intro c hc
  have hquote := q.isQuote c hc
  simp only [Routing.isQuote, Bool.or_eq_true, beq_iff_eq] at hquote
  rcases hquote with rfl | rfl <;> decide

/-! ### Clash rules -/

/-- The dash of a list item, with the white space behind it. -/
def dashText (dash : Option LineBlank) : Str := dash.elim [] (fun b => '-' :: b.val)

/-- The options behind a value. -/
def optionsText (options : Option LineText) : Str := options.elim [] (fun o => ',' :: o.val)

/-- A Clash rule up to its value: perhaps a dash and a quote, the type, a comma, and perhaps a
quote of the value. -/
def clashFront (dash : Option LineBlank) (quote : Quote) (t : Str) (gap blanks : LineBlank) (inner : Quote) :
    Str :=
  dashText dash ++ (quote.text ++ (t ++ gap.val)) ++ ',' :: (blanks.val ++ inner.text)

theorem clashFront_not_commentLetter (dash : Option LineBlank) (quote : Quote) {t : Str}
    (ht : t ∈ clashTypes) (gap blanks : LineBlank) (inner : Quote) :
    ∀ c ∈ clashFront dash quote t gap blanks inner, isCommentLetter c = false := by
  have htypes : ∀ t ∈ clashTypes, ∀ c ∈ t, isCommentLetter c = false := by
    simp [clashTypes, isCommentLetter]
  have hdash : ∀ c ∈ dashText dash, isCommentLetter c = false := by
    intro c hc
    cases dash with
    | none => cases hc
    | some b =>
      rcases List.mem_cons.mp hc with rfl | hc
      · rfl
      · exact b.not_commentLetter c hc
  simp only [clashFront, List.forall_mem_append, List.forall_mem_cons]
  exact ⟨⟨hdash, quote.not_commentLetter, htypes t ht, gap.not_commentLetter⟩, rfl,
    blanks.not_commentLetter, inner.not_commentLetter⟩

/-- A Clash rule begins with its dash, if it has one, and otherwise with a quote or its type. -/
theorem clashFront_head (dash : Option LineBlank) (quote : Quote) {t : Str} (ht : t ∈ clashTypes)
    (gap blanks : LineBlank) (inner : Quote) (rest : Str) :
    ∀ c ∈ (clashFront dash quote t gap blanks inner ++ rest).head?,
      Text.isSpace c = false ∧ isCommentLetter c = false ∧ c ≠ 'd' ∧ c ≠ 'f' ∧
        (c = '-' ↔ dash.isSome = true) := by
  have htypes : ∀ t ∈ clashTypes, ∃ c more, t = c :: more ∧ (c = 'D' ∨ c = 'I') := by
    intro t ht
    simp only [clashTypes, List.mem_cons, List.not_mem_nil, or_false] at ht
    rcases ht with rfl | rfl | rfl | rfl | rfl | rfl <;> simp
  intro c hc
  cases dash with
  | some b =>
    obtain rfl : '-' = c := Option.some.inj hc
    exact ⟨by decide, by decide, by decide, by decide, iff_of_true rfl rfl⟩
  | none =>
    cases quote with
    | some q =>
      obtain rfl : q.val = c := Option.some.inj hc
      have hq := q.property
      simp only [isQuote, Bool.or_eq_true, beq_iff_eq] at hq
      rcases hq with hq | hq <;> rw [hq] <;> decide
    | none =>
      obtain ⟨d, more, rfl, hd⟩ := htypes t ht
      obtain rfl : d = c := Option.some.inj hc
      rcases hd with rfl | rfl <;> decide

/-! ### The rule that is read -/

/-- A solid text at the beginning of a line is there when the rule is read. -/
theorem normalize_line (lower : LowerCase) {lead s : Str} (hlead : ∀ c ∈ lead, Text.isSpace c = true)
    (hs : Solid s) (rest : Str) :
    ∃ rest', normalizeDomainPattern lower (lead ++ (s ++ rest)) = normalizeRule lower (s ++ rest') ∧
      rest' ⊆ rest := by
  obtain ⟨kept, right, rfl, -, htrim⟩ := trim_bare_append hs.bare hs.ne rest
  have hstrip : Text.strip (lead ++ (s ++ (kept ++ right))) = s ++ kept := by
    rw [strip_eq_trim, trim_append_left hlead, htrim]
  obtain ⟨rest', hcut, hsub⟩ := stripComments_solid hs kept
  refine ⟨rest', ?_, fun c hc => List.mem_append_left right (hsub hc)⟩
  rw [normalizeDomainPattern_solid lower hs hstrip, hcut]

/-- Any solid text in a line. -/
theorem normalize_write (lower : LowerCase) (f : LineFrame) {s : Str} (hs : Solid s) (rest : Str) :
    ∃ rest', normalizeDomainPattern lower (f.write (s ++ rest)) = normalizeRule lower (s ++ rest') ∧
      rest' ⊆ rest ++ f.behind := by
  rw [LineFrame.write, List.append_assoc]
  exact normalize_line lower f.lead.isSpace hs (rest ++ f.behind)

/-- **A rule whose comment is begun by a separator** is read without the comment. -/
theorem normalize_begun (lower : LowerCase) (f : LineFrame) {s : Str} (hs : Solid s)
    (hbegun : ∀ c ∈ f.comment, c.Begun) :
    normalizeDomainPattern lower (f.write s) = normalizeRule lower s := by
  cases hcomment : f.comment with
  | none =>
    have hstrip : Text.strip (f.write s) = s ++ [] := by
      have htrim := trim_append f.lead.isSpace hs.bare f.trail.isSpace
      rw [LineFrame.write, LineFrame.behind, hcomment, ← List.append_assoc, List.append_nil]
      exact htrim
    rw [normalizeDomainPattern_solid lower hs hstrip, List.append_nil, stripComments_self hs]
  | some c =>
    obtain ⟨a, ha, hsep⟩ := c.begun_iff.mp (hbegun c hcomment)
    obtain ⟨gap, hgap⟩ := List.getLast?_eq_some_iff.mp ha
    have hspace : ∀ d ∈ gap ++ [a], Text.isSpace d = true := hgap ▸ c.gap.isSpace
    obtain ⟨hne, hbare, -⟩ := marker_closed c.marker.mem
    have hfront : Bare Text.isSpace (s ++ (gap ++ [a]) ++ c.marker.text) :=
      hs.bare.around _ hbare hs.ne hne
    obtain ⟨kept, right, -, -, htrim⟩ :=
      trim_bare_append hfront (by simp) (c.text.val ++ f.trail.val)
    have hstrip : Text.strip (f.write s) = s ++ ((gap ++ [a]) ++ c.marker.text ++ kept) := by
      have hline : f.write s = f.lead.val ++
          (s ++ (gap ++ [a]) ++ c.marker.text ++ (c.text.val ++ f.trail.val)) := by
        simp [LineFrame.write, LineFrame.behind, hcomment, hgap]
      rw [hline, strip_eq_trim, trim_append_left f.lead.isSpace, htrim]
      simp
    have hcut := stripComments_comment hs hspace c.marker.mem hsep kept
    rw [normalizeDomainPattern_solid lower hs hstrip]
    have hline : s ++ ((gap ++ [a]) ++ c.marker.text ++ kept) =
        s ++ (gap ++ [a]) ++ c.marker.text ++ kept := by simp
    rw [hline, hcut]

/-- **Any other comment** is read as a part of the rule, with its marker. -/
theorem normalize_notBegun (lower : LowerCase) (f : LineFrame) {s : Str} (hs : Solid s) {c : Comment}
    (hcomment : f.comment = some c) (hnot : ¬ c.Begun) :
    ∃ rest, normalizeDomainPattern lower (f.write s) =
      normalizeRule lower (s ++ c.gap.val ++ c.marker.text ++ rest) := by
  have hsolid := hs.comment c.gap.isSpace c.marker.mem 
    (fun a ha hsep => hnot (c.begun_iff.mpr ⟨a, ha, hsep⟩))
  obtain ⟨rest, heq, -⟩ :=
    normalize_line lower f.lead.isSpace hsolid (c.text.val ++ f.trail.val)
  refine ⟨rest, ?_⟩
  rw [← heq]
  simp [LineFrame.write, LineFrame.behind, hcomment]

/-- The head of a rule and what it says: no comment begins in them when the head has none of the
letters of a comment and the rest no blanks. -/
theorem solid_append {s t : Str} (hs : ∀ c ∈ s, isCommentLetter c = false)
    (hhead : ∀ c ∈ s.head?, Text.isSpace c = false) (ht : ∀ c ∈ t, Text.isSpace c = false) (hne : t ≠ [])
    (hfirst : ∀ c ∈ t.head?, isCommentLetter c = false) : Solid (s ++ t) := by
  have hclosed : t.IsChain (fun x y => opens x y = false) :=
    (List.pairwise_of_forall_mem_list fun x hx _ _ => opens_of_not_space (ht x hx)).isChain
  have hclosed' : s.IsChain (fun x y => opens x y = false) :=
    (List.pairwise_of_forall_mem_list fun _ _ y hy => opens_of_not_letter (hs y hy)).isChain
  refine ⟨by simp [hne], ⟨fun c hc => ?_, fun c hc => ?_⟩, fun c hc => ?_, ?_⟩
  · cases s with
    | nil => exact ht c (List.mem_of_head? hc)
    | cons d s => exact hhead c hc
  · rw [List.getLast?_append_of_ne_nil s hne] at hc
    exact ht c (List.mem_of_getLast? hc)
  · cases s with
    | nil => exact hfirst c hc
    | cons d s =>
      obtain rfl : d = c := Option.some.inj hc
      exact hs d List.mem_cons_self
  · rw [List.isChain_append]
    exact ⟨hclosed', hclosed, fun x _ y hy => opens_of_not_letter (hfirst y hy)⟩

/-- No comment begins in a Clash rule as long as no blank follows its value. -/
theorem solid_clash (dash : Option LineBlank) (quote : Quote) {t : Str} (ht : t ∈ clashTypes)
    (gap blanks : LineBlank) (inner : Quote) {v : Str} (hv : ∀ c ∈ v, Text.isSpace c = false) (hne : v ≠ [])
    (hfirst : ∀ c ∈ v.head?, isCommentLetter c = false) :
    Solid (clashFront dash quote t gap blanks inner ++ v) := by
  refine solid_append (clashFront_not_commentLetter dash quote ht gap blanks inner)
    (fun c hc => ?_) hv hne hfirst
  have hhead := clashFront_head dash quote ht gap blanks inner [] c
  rw [List.append_nil] at hhead
  exact (hhead hc).1

/-- No comment begins in a value. -/
theorem solid_value {v : Str} (hv : ∀ c ∈ v, isValueChar c = true) (hne : v ≠ [])
    (hfirst : ∀ c ∈ v.head?, isCommentLetter c = false) : Solid v :=
  solid_append (s := []) nofun nofun (fun c hc => (isValueChar_plain (hv c hc)).1) hne hfirst

end HuntProxy.Routing
