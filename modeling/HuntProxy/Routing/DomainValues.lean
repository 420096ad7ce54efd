import HuntProxy.Routing.DomainParser

/-!
# What a domain rule says

A line without comments is read as a Clash rule, a v2fly rule or a plain value, and the value
loses its scheme and its port. The *marks* of a text, its punctuation, pass through all of
this: the head of a Clash rule takes one comma away, that of a v2fly rule at most a colon, the
scheme takes `://`. So a pattern without a comma and without a slash, as every pattern is that
can match a name, tells what the marks of its line were.

## Main definitions

- `marks` — the punctuation of a text
- `Unmarred` — texts without the punctuation that no name has

## Main results

- `cleanPlainDomain_isSome` — a value with a dot becomes a pattern
- `marks_of_clean` — the marks of the value of an unmarred pattern
- `normalizeRule_cases` — the value of a rule
- `normalizeRule_clash`, `normalizeRule_v2fly` — rules that are read as they are written
-/

namespace HuntProxy.Routing

open Text Pattern

/-! ### Marks -/

/-- Punctuation that stays what it is and where it is. -/
def isMark (c : Char) : Bool :=
  c == '.' || c == ':' || c == '/' || c == ',' || c == '#' || c == ';'

/-- The punctuation of a text. -/
def marks (s : Str) : Str := s.filter isMark

/-- A text without the punctuation that no name and no port has. -/
def Unmarred (s : Str) : Prop := ∀ c ∈ s, isMark c = true → c = '.' ∨ c = ':'

theorem isMark_cases {c : Char} (h : isMark c = true) :
    c = '.' ∨ c = ':' ∨ c = '/' ∨ c = ',' ∨ c = '#' ∨ c = ';' := by
  simpa [isMark, or_assoc] using h

theorem uncased_of_isMark (c : Char) (h : isMark c = true) : LowerCase.Uncased c := by
  rcases isMark_cases h with rfl | rfl | rfl | rfl | rfl | rfl <;> decide

theorem not_space_of_isMark (c : Char) (h : isMark c = true) : Text.isSpace c = false := by
  rcases isMark_cases h with rfl | rfl | rfl | rfl | rfl | rfl <;> decide

theorem not_quote_of_isMark (c : Char) (h : isMark c = true) : isQuote c = false := by
  rcases isMark_cases h with rfl | rfl | rfl | rfl | rfl | rfl <;> decide

@[simp] theorem marks_append (s t : Str) : marks (s ++ t) = marks s ++ marks t :=
  List.filter_append ..

@[simp] theorem marks_cons (c : Char) (s : Str) :
    marks (c :: s) = if isMark c then c :: marks s else marks s := List.filter_cons

@[simp] theorem marks_nil : marks [] = [] := rfl

theorem mem_marks {s : Str} {c : Char} : c ∈ marks s ↔ c ∈ s ∧ isMark c = true := List.mem_filter

theorem marks_eq_nil {s : Str} (h : ∀ c ∈ s, isMark c = false) : marks s = [] :=
  List.filter_eq_nil_iff.mpr (fun c hc => by rw [h c hc]; exact Bool.false_ne_true)

theorem marks_of_blank {s : Str} (h : ∀ c ∈ s, Text.isSpace c = true) : marks s = [] := by
  refine marks_eq_nil fun c hc => ?_
  rw [← Bool.not_eq_true]
  intro hmark
  cases (h c hc).symm.trans (not_space_of_isMark c hmark)

theorem marks_of_quotes {s : Str} (h : ∀ c ∈ s, isQuote c = true) : marks s = [] := by
  refine marks_eq_nil fun c hc => ?_
  rw [← Bool.not_eq_true]
  intro hmark
  cases (h c hc).symm.trans (not_quote_of_isMark c hmark)

@[simp] theorem marks_strip (s : Str) : marks (Text.strip s) = marks s :=
  filter_trim not_space_of_isMark s

@[simp] theorem marks_trim_quotes (s : Str) : marks (trim isQuote s) = marks s :=
  filter_trim not_quote_of_isMark s

@[simp] theorem marks_lower (lower : LowerCase) (s : Str) : marks (lower.apply s) = marks s :=
  lower.filter_apply uncased_of_isMark s

/-! ### Values -/

/-- The schemes that are taken away. -/
def knownSchemes : List Str :=
  ["http".toList, "https".toList, "ws".toList, "wss".toList, "socks".toList, "socks5".toList]

theorem mem_wordOpt {w : Str} {c : Char} {u : Unit} {s t : Str} :
    (u, t) ∈ (wordOpt w c).run s ↔ s = w ++ t ∨ s = w ++ [c] ++ t := by
  simp only [wordOpt, mem_bind, mem_word, mem_opt, mem_item, mem_pure, beq_iff_eq]
  constructor
  · rintro ⟨v', t', ⟨rfl, rfl⟩, o, t'', ⟨d, rfl, rfl, rfl⟩ | ⟨rfl, rfl⟩, -, rfl⟩
    · exact .inr (by simp)
    · exact .inl rfl
  · rintro (rfl | rfl)
    · exact ⟨w, t, ⟨rfl, rfl⟩, none, t, .inr ⟨rfl, rfl⟩, trivial, rfl⟩
    · exact ⟨w, c :: t, ⟨rfl, by simp⟩, some c, t, .inl ⟨c, rfl, rfl, rfl⟩, trivial, rfl⟩

theorem mem_schemeRule {u : Unit} {v rest : Str} :
    (u, rest) ∈ schemeRule.run v ↔ ∃ sch ∈ knownSchemes, v = sch ++ ("://".toList ++ rest) := by
  simp only [schemeRule, mem_bind, mem_alt, List.mem_cons, List.not_mem_nil, or_false,
    exists_eq_or_imp, exists_eq_left, mem_wordOpt, mem_word, mem_pure, knownSchemes]
  constructor
  · rintro ⟨-, t, hscheme, w, t', ⟨-, rfl⟩, -, rfl⟩
    obtain (rfl | rfl) | (rfl | rfl) | rfl | rfl := hscheme <;> simp
  · intro hscheme
    refine ⟨(), "://".toList ++ rest, ?_, "://".toList, rest, ⟨rfl, rfl⟩, trivial, rfl⟩
    obtain rfl | rfl | rfl | rfl | rfl | rfl := hscheme <;> simp

theorem colon_not_mem_knownSchemes : ∀ sch ∈ knownSchemes, ∀ c ∈ sch, (c != ':') = true := by
  simp [knownSchemes]

theorem dot_not_mem_knownSchemes : ∀ sch ∈ knownSchemes, '.' ∉ sch := by decide

theorem marks_knownSchemes : ∀ sch ∈ knownSchemes, marks sch = [] := by decide

/-- What is in front of the first colon, and what is behind it. -/
theorem colon_unique {s s' t t' : Str} (hs : ∀ c ∈ s, (c != ':') = true)
    (hs' : ∀ c ∈ s', (c != ':') = true) (h : s ++ ':' :: t = s' ++ ':' :: t') : s = s' ∧ t = t' := by
  obtain ⟨heq, htail⟩ := stretch_unique hs hs' (by simp) (by simp) h
  exact ⟨heq, (List.cons.inj htail).2⟩

/-- A scheme that is known is taken away. -/
theorem dropScheme_known {sch : Str} (hsch : sch ∈ knownSchemes) (rest : Str) :
    dropScheme (sch ++ ("://".toList ++ rest)) = rest := by
  obtain ⟨u, t, hfirst, hmem⟩ := exists_first (mem_schemeRule (u := ()).mpr ⟨sch, hsch, rfl⟩)
  obtain ⟨sch', hsch', heq⟩ := mem_schemeRule.mp hmem
  obtain ⟨-, hrest⟩ := colon_unique (colon_not_mem_knownSchemes sch hsch)
    (colon_not_mem_knownSchemes sch' hsch') heq
  rw [dropScheme, hfirst, Option.elim_some]
  exact (List.cons.inj (List.cons.inj hrest).2).2.symm

theorem dropScheme_cases (v : Str) :
    dropScheme v = v ∨ ∃ sch ∈ knownSchemes, v = sch ++ ("://".toList ++ dropScheme v) := by
  rw [dropScheme]
  cases hfirst : schemeRule.first v with
  | none => exact .inl rfl
  | some r => exact .inr (mem_schemeRule.mp (mem_of_first hfirst))

/-- A name, and a port if one is read. -/
theorem mem_portRule {name v rest : Str} {port : Option Str} :
    ((name, port), rest) ∈ portRule.run v ↔ name ≠ [] ∧ (∀ c ∈ name, domainChar c = true) ∧
      (rest = [] ∨ rest = ['\n']) ∧ (port = none ∧ v = name ++ rest ∨
        ∃ w, port = some w ∧ w ≠ [] ∧ (∀ c ∈ w, Decimal.isDecimal c = true) ∧
          v = name ++ ':' :: (w ++ rest)) := by
  simp only [portRule, mem_bind, mem_many1, mem_opt, mem_item, mem_atEnd, mem_pure, beq_iff_eq,
    Prod.mk.injEq]
  constructor
  · rintro ⟨name', t, ⟨rfl, hne, hname⟩, o, t', hport, -, t'', ⟨rfl, hend⟩, ⟨rfl, rfl⟩, rfl⟩
    rcases hport with ⟨w, rfl, c, s, ⟨rfl, rfl⟩, rfl, hw, hdigits⟩ | ⟨rfl, rfl⟩
    · exact ⟨hne, hname, hend, .inr ⟨w, rfl, hw, hdigits, rfl⟩⟩
    · exact ⟨hne, hname, hend, .inl ⟨rfl, rfl⟩⟩
  · rintro ⟨hne, hname, hend, ⟨rfl, rfl⟩ | ⟨w, rfl, hw, hdigits, rfl⟩⟩
    · exact ⟨name, rest, ⟨rfl, hne, hname⟩, none, rest, .inr ⟨rfl, rfl⟩, (), rest, ⟨rfl, hend⟩,
        ⟨rfl, rfl⟩, rfl⟩
    · exact ⟨name, ':' :: (w ++ rest), ⟨rfl, hne, hname⟩, some w, rest,
        .inl ⟨w, rfl, ':', w ++ rest, ⟨rfl, rfl⟩, rfl, hw, hdigits⟩, (), rest, ⟨rfl, hend⟩,
        ⟨rfl, rfl⟩, rfl⟩

/-- A value stays, or has a port behind it that is taken away. -/
theorem dropPort_cases (v : Str) : dropPort v = v ∨ ∃ w rest,
    v = dropPort v ++ ':' :: (w ++ rest) ∧ (∀ c ∈ dropPort v, domainChar c = true) ∧
      (∀ c ∈ w, Decimal.isDecimal c = true) ∧ (rest = [] ∨ rest = ['\n']) := by
  rw [dropPort]
  cases hfirst : portRule.first v with
  | none => exact .inl rfl
  | some r =>
    obtain ⟨⟨name, port⟩, rest⟩ := r
    obtain ⟨-, hname, hend, ⟨rfl, -⟩ | ⟨w, rfl, -, hdigits, hv⟩⟩ :=
      mem_portRule.mp (mem_of_first hfirst)
    · exact .inl rfl
    · exact .inr ⟨w, rest, hv, hname, hdigits, hend⟩

theorem dropPort_name {name : Str} (hname : ∀ c ∈ name, domainChar c = true) :
    dropPort name = name := by
  rcases dropPort_cases name with h | ⟨w, rest, hv, -⟩
  · exact h
  · have hcolon : ':' ∈ name := by
      rw [hv]
      exact List.mem_append_right _ List.mem_cons_self
    cases hname ':' hcolon

theorem dropPort_port {name w : Str} (hne : name ≠ []) (hname : ∀ c ∈ name, domainChar c = true)
    (hw : w ≠ []) (hdigits : ∀ c ∈ w, c.isDigit = true) : dropPort (name ++ ':' :: w) = name := by
  have hmem : ((name, some w), []) ∈ portRule.run (name ++ ':' :: w) :=
    mem_portRule.mpr ⟨hne, hname, .inl rfl,
      .inr ⟨w, rfl, hw, fun c hc => Decimal.isDecimal_of_isDigit (hdigits c hc), by simp⟩⟩
  obtain ⟨⟨name', port⟩, rest, hfirst, hmem'⟩ := exists_first hmem
  obtain ⟨-, hname', hend, ⟨rfl, hv⟩ | ⟨w', rfl, -, -, hv⟩⟩ := mem_portRule.mp hmem'
  · -- a name has no colon
    have hcolon : ':' ∈ name' ++ rest := by
      rw [← hv]
      exact List.mem_append_right _ List.mem_cons_self
    rcases List.mem_append.mp hcolon with hcolon | hcolon
    · cases hname' ':' hcolon
    · rcases hend with rfl | rfl
      · cases hcolon
      · cases List.mem_singleton.mp hcolon
  · obtain ⟨rfl, -⟩ := stretch_unique hname hname' (by simp [domainChar]) (by simp [domainChar]) hv
    rw [dropPort, hfirst]
    rfl

/-- The pattern of a value, once it is known that the value is not blank. -/
theorem cleanPlainDomain_eq_some {lower : LowerCase} {v front p : Str}
    (h : cleanPlainDomain lower v front = some p) :
    p = front ++ dropPort (dropScheme (lower.apply (Text.strip v))) := by
  rw [cleanPlainDomain] at h
  dsimp only at h
  split at h
  · cases h
  · split at h
    · exact (Option.some.inj h).symm
    · cases h

theorem cleanPlainDomain_of_dot {lower : LowerCase} {v : Str} (front : Str)
    (h : '.' ∈ dropPort (dropScheme (lower.apply (Text.strip v)))) :
    cleanPlainDomain lower v front =
      some (front ++ dropPort (dropScheme (lower.apply (Text.strip v)))) := by
  have hne : lower.apply (Text.strip v) ≠ [] := by
    intro hnil
    rw [hnil] at h
    exact absurd h (by decide)
  rw [cleanPlainDomain]
  dsimp only
  rw [if_neg hne, if_pos (.inl (List.mem_append_right front h))]

theorem mem_dropPort {v : Str} {c : Char} (hc : isMark c = true) (hcolon : c ≠ ':') (h : c ∈ v) :
    c ∈ dropPort v := by
  rcases dropPort_cases v with heq | ⟨w, rest, hv, -, hdigits, hend⟩
  · rwa [heq]
  · rw [hv] at h
    rcases List.mem_append.mp h with h | h
    · exact h
    · exfalso
      rcases List.mem_cons.mp h with h | h
      · exact hcolon h
      · rcases List.mem_append.mp h with h | h
        · have hdecimal := hdigits c h
          rcases isMark_cases hc with rfl | rfl | rfl | rfl | rfl | rfl <;> cases hdecimal
        · rcases hend with rfl | rfl
          · cases h
          · rw [List.mem_singleton.mp h] at hc
            cases hc

/-- **A value with a dot becomes a pattern**, whatever it is. -/
theorem cleanPlainDomain_isSome (lower : LowerCase) {v : Str} (front : Str) (h : '.' ∈ v) :
    ∃ p, cleanPlainDomain lower v front = some p := by
  have hlower : '.' ∈ lower.apply (Text.strip v) :=
    (lower.mem_apply (by decide)).mpr (mem_trim h (by decide))
  have hscheme : '.' ∈ dropScheme (lower.apply (Text.strip v)) := by
    rcases dropScheme_cases (lower.apply (Text.strip v)) with heq | ⟨sch, hsch, heq⟩
    · rwa [heq]
    · rw [heq] at hlower
      rcases List.mem_append.mp hlower with hdot | hdot
      · exact absurd hdot (dot_not_mem_knownSchemes sch hsch)
      · rcases List.mem_append.mp hdot with hdot | hdot
        · exact absurd hdot (by decide)
        · exact hdot
  exact ⟨_, cleanPlainDomain_of_dot front (mem_dropPort rfl (by decide) hscheme)⟩

theorem marks_of_unmarred {s : Str} (h : Unmarred s) : ∀ c ∈ marks s, c = '.' ∨ c = ':' :=
  fun c hc => h c (mem_marks.mp hc).1 (mem_marks.mp hc).2

/-- **The value of an unmarred pattern** has no marks but dots and colons, behind those of the
scheme that is taken away. -/
theorem marks_of_clean {lower : LowerCase} {v front p : Str}
    (h : cleanPlainDomain lower v front = some p) (hp : Unmarred p) :
    ∃ m : Str, (∀ c ∈ m, c = '.' ∨ c = ':') ∧ (marks v = m ∨ marks v = "://".toList ++ m ∧
      ∃ sch ∈ knownSchemes, ∃ rest, lower.apply (Text.strip v) = sch ++ ("://".toList ++ rest)) := by
  obtain rfl := cleanPlainDomain_eq_some h
  have hdropped : Unmarred (dropScheme (lower.apply (Text.strip v))) := by
    intro c hc hmark
    by_cases hcolon : c = ':'
    · exact .inr hcolon
    · exact hp c (List.mem_append_right front (mem_dropPort hmark hcolon hc)) hmark
  have hv : marks v = marks (lower.apply (Text.strip v)) := by simp
  refine ⟨marks (dropScheme (lower.apply (Text.strip v))), marks_of_unmarred hdropped, ?_⟩
  rcases dropScheme_cases (lower.apply (Text.strip v)) with heq | ⟨sch, hsch, heq⟩
  · left
    rw [hv, heq]
  · right
    refine ⟨?_, sch, hsch, _, heq⟩
    rw [hv]
    conv_lhs => rw [heq]
    rw [marks_append, marks_append, marks_knownSchemes sch hsch]
    rfl

/-! ### Rules -/

/-- The head of a Clash rule of a type: a dash, perhaps a quote, and the type. -/
def ClashHead (front t : Str) : Prop :=
  ∃ blanks gap quote more, (∀ c ∈ blanks, Text.isSpace c = true) ∧ (∀ c ∈ gap, Text.isSpace c = true) ∧
    (∀ c ∈ quote, isQuote c = true) ∧ (∀ c ∈ more, Text.isSpace c = true) ∧ t ∈ clashTypes ∧
    front = blanks ++ '-' :: (gap ++ (quote ++ (t ++ more)))

/-- The value of a rule, perhaps with a quote behind it, between blanks. -/
def RuleValue (behind v : Str) : Prop :=
  ∃ blanks quote more, (∀ c ∈ blanks, Text.isSpace c = true) ∧ (∀ c ∈ quote, isQuote c = true) ∧
    (∀ c ∈ more, Text.isSpace c = true) ∧ v ≠ [] ∧ behind = blanks ++ (v ++ (quote ++ more))

/-- What the end of a line may have are blanks. -/
theorem blank_atEnd {w rest : Str} (hw : ∀ c ∈ w, Text.isSpace c = true) (hend : rest = [] ∨ rest = ['\n']) :
    ∀ c ∈ w ++ rest, Text.isSpace c = true := by
  intro c hc
  rcases List.mem_append.mp hc with hc | hc
  · exact hw c hc
  · rcases hend with rfl | rfl
    · cases hc
    · rw [List.mem_singleton.mp hc]
      decide

/-- A Clash rule is a head and a value with a comma between them. -/
theorem clashRule_parts {t v line rest : Str} (h : ((t, v), rest) ∈ clashRule.run line) :
    ∃ front behind, line = front ++ ',' :: behind ∧ ClashHead front t ∧ RuleValue behind v := by
  simp only [clashRule, mem_bind, mem_many, mem_item, mem_alt_words, mem_someLazy, mem_atEnd,
    mem_pure, beq_iff_eq, Prod.mk.injEq] at h
  obtain ⟨w₁, s₁, ⟨rfl, hw₁⟩, c₁, s₂, ⟨rfl, rfl⟩, w₂, s₃, ⟨rfl, hw₂⟩, o, s₄, hq, t', s₅, ⟨ht, rfl⟩,
    w₃, s₆, ⟨rfl, hw₃⟩, c₂, s₇, ⟨rfl, rfl⟩, w₄, s₈, ⟨rfl, hw₄⟩, v', s₉, ⟨rfl, hv, -⟩, o', s₁₀, hq',
    w₅, s₁₁, ⟨rfl, hw₅⟩, -, s₁₂, ⟨rfl, hend⟩, ⟨rfl, rfl⟩, rfl⟩ := h
  obtain ⟨q, rfl, hquote⟩ := opt_item_parts hq
  obtain ⟨q', rfl, hquote'⟩ := opt_item_parts hq'
  exact ⟨w₁ ++ '-' :: (w₂ ++ (q ++ (t ++ w₃))), w₄ ++ (v ++ (q' ++ (w₅ ++ rest))), by simp,
    ⟨w₁, w₂, q, w₃, hw₁, hw₂, hquote, hw₃, ht, rfl⟩,
    ⟨w₄, q', w₅ ++ rest, hw₄, hquote', blank_atEnd hw₅ hend, hv, rfl⟩⟩

/-- A v2fly rule is a type and a value with a separator between them. -/
theorem v2flyRule_parts {t v line rest : Str} (h : ((t, v), rest) ∈ v2flyRule.run line) :
    ∃ gap sep behind, line = t ++ gap ++ sep :: behind ∧ t ∈ v2flyTypes ∧
      (∀ c ∈ gap, Text.isSpace c = true) ∧ (sep = ':' ∨ sep = '=') ∧ RuleValue behind v := by
  simp only [v2flyRule, mem_bind, mem_many, mem_item, mem_alt_words, mem_someLazy, mem_atEnd,
    mem_pure, Bool.or_eq_true, beq_iff_eq, Prod.mk.injEq] at h
  obtain ⟨t', s₁, ⟨ht, rfl⟩, w₁, s₂, ⟨rfl, hw₁⟩, sep, s₃, ⟨rfl, hsep⟩, w₂, s₄, ⟨rfl, hw₂⟩, v', s₅,
    ⟨rfl, hv, -⟩, w₃, s₆, ⟨rfl, hw₃⟩, -, s₇, ⟨rfl, hend⟩, ⟨rfl, rfl⟩, rfl⟩ := h
  exact ⟨w₁, sep, w₂ ++ (v ++ (w₃ ++ rest)), by simp, ht, hw₁, hsep,
    ⟨w₂, [], w₃ ++ rest, hw₂, List.forall_mem_nil _, blank_atEnd hw₃ hend, hv, rfl⟩⟩

theorem RuleValue.marks_eq {behind v : Str} (h : RuleValue behind v) : marks behind = marks v := by
  obtain ⟨blanks, quote, more, hblanks, hquote, hmore, -, rfl⟩ := h
  simp [marks_of_blank hblanks, marks_of_quotes hquote, marks_of_blank hmore]

theorem marks_clashTypes : ∀ t ∈ clashTypes, marks t = [] := by decide

theorem marks_v2flyTypes : ∀ t ∈ v2flyTypes, marks t = [] := by decide

theorem ClashHead.marks_eq {front t : Str} (h : ClashHead front t) : marks front = [] := by
  obtain ⟨blanks, gap, quote, more, hblanks, hgap, hquote, hmore, ht, rfl⟩ := h
  have hdash : isMark '-' = false := rfl
  simp [marks_of_blank hblanks, marks_of_blank hgap, marks_of_quotes hquote, marks_of_blank hmore,
    marks_clashTypes t ht, hdash]

/-- The dash of a Clash rule is the first letter that is not blank. -/
theorem ClashHead.head_eq {front t rest : Str} (h : ClashHead front t)
    (hhead : ∀ c ∈ (front ++ rest).head?, Text.isSpace c = false) : (front ++ rest).head? = some '-' := by
  obtain ⟨blanks, gap, quote, more, hblanks, -, -, -, -, rfl⟩ := h
  cases blanks with
  | nil => rfl
  | cons c blanks => cases (hblanks c List.mem_cons_self).symm.trans (hhead c rfl)

/-- **The value of a rule**: a Clash rule begins with a dash and takes one comma away, a v2fly
rule begins with its type and takes at most a colon away, and any other line is a value. -/
theorem normalizeRule_cases {lower : LowerCase} {line p : Str}
    (hstart : ∀ c ∈ line.head?, Text.isSpace c = false)
    (h : normalizeRule lower line = some p) :
    ∃ v front, cleanPlainDomain lower v front = some p ∧
      ((line.head? = some '-' ∧ marks line = ',' :: marks v) ∨
        ((line.head? = some 'd' ∨ line.head? = some 'f') ∧
          (marks line = ':' :: marks v ∨ '=' ∈ line ∧ marks line = marks v)) ∨ v = line) := by
  rw [normalizeRule] at h
  cases hclash : clashRule.first line with
  | some r =>
    obtain ⟨⟨t, v⟩, rest⟩ := r
    rw [hclash] at h
    obtain ⟨front, behind, rfl, hhead, hvalue⟩ := clashRule_parts (mem_of_first hclash)
    have hmarks : marks (front ++ ',' :: behind) = ',' :: marks (trim isQuote (Text.strip v)) := by
      have hcomma : isMark ',' = true := rfl
      simp [hhead.marks_eq, hvalue.marks_eq, hcomma]
    have hvalue : ∃ front', cleanPlainDomain lower (trim isQuote (Text.strip v)) front' = some p := by
      rw [Option.elim_some, clashPattern] at h
      dsimp only at h
      split at h
      · cases h
      · split at h
        · exact ⟨_, h⟩
        · exact ⟨_, h⟩
    obtain ⟨front', hvalue⟩ := hvalue
    exact ⟨_, front', hvalue, .inl ⟨hhead.head_eq hstart, hmarks⟩⟩
  | none =>
    rw [hclash, Option.elim_none] at h
    cases hv2fly : v2flyRule.first line with
    | some r =>
      obtain ⟨⟨t, v⟩, rest⟩ := r
      rw [hv2fly] at h
      obtain ⟨gap, sep, behind, rfl, ht, hgap, hsep, hvalue⟩ := v2flyRule_parts (mem_of_first hv2fly)
      -- the five types begin with a `d` or an `f`
      have hhead : (t ++ gap ++ sep :: behind).head? = some 'd' ∨
          (t ++ gap ++ sep :: behind).head? = some 'f' := by
        simp only [v2flyTypes, List.mem_cons, List.not_mem_nil, or_false] at ht
        rcases ht with rfl | rfl | rfl | rfl | rfl <;> simp
      have hmarks : marks (t ++ gap ++ sep :: behind) = ':' :: marks (Text.strip v) ∨
          '=' ∈ t ++ gap ++ sep :: behind ∧
            marks (t ++ gap ++ sep :: behind) = marks (Text.strip v) := by
        rcases hsep with rfl | rfl
        · have hcolon : isMark ':' = true := rfl
          left
          simp [marks_v2flyTypes t ht, marks_of_blank hgap, hvalue.marks_eq, hcolon]
        · have hequals : isMark '=' = false := rfl
          refine .inr ⟨List.mem_append_right _ List.mem_cons_self, ?_⟩
          simp [marks_v2flyTypes t ht, marks_of_blank hgap, hvalue.marks_eq, hequals]
      have hvalue : ∃ front', cleanPlainDomain lower (Text.strip v) front' = some p := by
        rw [Option.elim_some, v2flyPattern] at h
        dsimp only at h
        split at h
        · exact ⟨_, h⟩
        · exact ⟨_, h⟩
      obtain ⟨front', hvalue⟩ := hvalue
      exact ⟨_, front', hvalue, .inr (.inl ⟨hhead, hmarks⟩)⟩
    | none =>
      rw [hv2fly, Option.elim_none] at h
      exact ⟨line, [], h, .inr (.inr rfl)⟩

/-- Behind a dot of a value, an unmarred pattern leaves dots and colons only. -/
theorem dot_tail_of_clean {lower : LowerCase} {v front p : Str}
    (h : cleanPlainDomain lower v front = some p) (hp : Unmarred p) {u w : Str}
    (hv : marks v = u ++ '.' :: w) : ∀ c ∈ w, c = '.' ∨ c = ':' := by
  intro c hc
  obtain ⟨m, hm, heq | ⟨heq, -⟩⟩ := marks_of_clean h hp
  · refine hm c ?_
    rw [← heq, hv]
    exact List.mem_append_right u (List.mem_cons_of_mem '.' hc)
  · -- the dot is none of the three letters behind the scheme
    rw [hv] at heq
    match u with
    | [] => cases heq
    | [_] => cases heq
    | [_, _] => cases heq
    | _ :: _ :: _ :: u =>
      have hrest : u ++ '.' :: w = m :=
        (List.cons.inj (List.cons.inj (List.cons.inj heq).2).2).2
      exact hm c (hrest ▸ List.mem_append_right u (List.mem_cons_of_mem '.' hc))

/-- **Behind a dot of a line**, an unmarred pattern leaves dots and colons only. -/
theorem dot_tail_of_rule {lower : LowerCase} {line p : Str}
    (hstart : ∀ c ∈ line.head?, Text.isSpace c = false) (h : normalizeRule lower line = some p)
    (hp : Unmarred p) {u w : Str} (hline : marks line = u ++ '.' :: w) :
    ∀ c ∈ w, c = '.' ∨ c = ':' := by
  obtain ⟨v, front, hclean, hcases⟩ := normalizeRule_cases hstart h
  -- the head of a rule has one mark at most, and not a dot
  have hmarks : marks line = marks v ∨ ∃ a, a ≠ '.' ∧ marks line = a :: marks v := by
    obtain ⟨-, heq⟩ | ⟨-, heq | ⟨-, heq⟩⟩ | rfl := hcases
    · exact .inr ⟨',', by decide, heq⟩
    · exact .inr ⟨':', by decide, heq⟩
    · exact .inl heq
    · exact .inl rfl
  rcases hmarks with heq | ⟨a, ha, heq⟩
  · exact dot_tail_of_clean hclean hp (heq.symm.trans hline)
  · rw [hline] at heq
    cases u with
    | nil => exact absurd (List.cons.inj heq).1.symm ha
    | cons b u => exact dot_tail_of_clean hclean hp (List.cons.inj heq).2.symm

/-! ### Rules as they are written -/

/-- A head has one type. -/
theorem ClashHead.unique {front t t' : Str} (h : ClashHead front t) (h' : ClashHead front t') :
    t = t' := by
  have hletters : ∀ t ∈ clashTypes, (∀ c ∈ t, (!Text.isSpace c) = true) ∧
      (∀ c ∈ t.head?, Text.isSpace c = false) ∧ (∀ c ∈ t.head?, isQuote c = false) := by
    simp [clashTypes, Text.isSpace, isQuote]
  obtain ⟨blanks, gap, quote, more, hblanks, hgap, hquote, hmore, ht, rfl⟩ := h
  obtain ⟨blanks', gap', quote', more', hblanks', hgap', hquote', hmore', ht', heq⟩ := h'
  obtain ⟨hfull, hspace, hnoquote⟩ := hletters t ht
  obtain ⟨hfull', hspace', hnoquote'⟩ := hletters t' ht'
  have hne : ∀ t ∈ clashTypes, t ≠ [] := by decide
  have hstart (q u more : Str) (hq : ∀ c ∈ q, isQuote c = true) (hu : u ≠ [])
      (hhead : ∀ c ∈ u.head?, Text.isSpace c = false) : ∀ c ∈ (q ++ (u ++ more)).head?, Text.isSpace c = false := by
    intro c hc
    cases q with
    | nil =>
      rw [List.nil_append, List.head?_append_of_ne_nil u hu] at hc
      exact hhead c hc
    | cons d q =>
      obtain rfl : d = c := Option.some.inj hc
      have hd := hq d List.mem_cons_self
      simp only [isQuote, Bool.or_eq_true, beq_iff_eq] at hd
      rcases hd with rfl | rfl <;> decide
  have hback (q : Str) (hq : ∀ c ∈ q, Text.isSpace c = true) : ∀ c ∈ q.head?, (!Text.isSpace c) = false :=
    fun c hc => by rw [hq c (List.mem_of_head? hc)]; rfl
  obtain ⟨-, heq⟩ := stretch_unique hblanks hblanks' (by rintro c ⟨⟩; rfl)
    (by rintro c ⟨⟩; rfl) heq
  obtain ⟨-, heq⟩ := stretch_unique hgap hgap' (hstart quote t more hquote (hne t ht) hspace)
    (hstart quote' t' more' hquote' (hne t' ht') hspace') (List.cons.inj heq).2
  obtain ⟨-, heq⟩ := stretch_unique hquote hquote'
    (by rwa [List.head?_append_of_ne_nil t (hne t ht)])
    (by rwa [List.head?_append_of_ne_nil t' (hne t' ht')]) heq
  exact (stretch_unique hfull hfull' (hback more hmore) (hback more' hmore') heq).1

/-- The first comma of a line ends the head of a Clash rule. -/
theorem comma_unique {front front' t t' behind behind' : Str} (h : ClashHead front t)
    (h' : ClashHead front' t') (heq : front ++ ',' :: behind = front' ++ ',' :: behind') :
    front = front' ∧ behind = behind' := by
  have hfree {f u : Str} (hf : ClashHead f u) : ∀ c ∈ f, (c != ',') = true := by
    intro c hc
    rw [bne_iff_ne]
    rintro rfl
    have hmem : ',' ∈ marks f := mem_marks.mpr ⟨hc, rfl⟩
    rw [hf.marks_eq] at hmem
    cases hmem
  obtain ⟨hfront, hbehind⟩ := stretch_unique (hfree h) (hfree h') (by simp) (by simp) heq
  exact ⟨hfront, (List.cons.inj hbehind).2⟩

/-- **A Clash rule is read** with its type, when it is written with at most one quote. -/
theorem clashRule_first {gap quote t more blanks v : Str} (hgap : ∀ c ∈ gap, Text.isSpace c = true)
    (hquote : ∀ c ∈ quote, isQuote c = true) (hone : quote.length ≤ 1) (ht : t ∈ clashTypes)
    (hmore : ∀ c ∈ more, Text.isSpace c = true) (hblanks : ∀ c ∈ blanks, Text.isSpace c = true)
    (hv : v ≠ []) (hline : ∀ c ∈ v, notNewline c = true) :
    ∃ v' rest, clashRule.first ('-' :: (gap ++ (quote ++ (t ++ more))) ++ ',' :: (blanks ++ v)) =
      some ((t, v'), rest) ∧ RuleValue (blanks ++ v) v' := by
  have hhead : ClashHead ('-' :: (gap ++ (quote ++ (t ++ more)))) t :=
    ⟨[], gap, quote, more, List.forall_mem_nil _, hgap, hquote, hmore, ht, rfl⟩
  have hopt : ∀ s : Str, ∃ o, (o, s) ∈ (opt (item isQuote)).run (quote ++ s) := by
    intro s
    match quote, hquote, hone with
    | [], _, _ => exact ⟨none, mem_opt.mpr (.inr ⟨rfl, rfl⟩)⟩
    | [c], hc, _ =>
      exact ⟨some c, mem_opt.mpr (.inl ⟨c, rfl, mem_item.mpr ⟨rfl, hc c List.mem_cons_self⟩⟩)⟩
  have hway : ((t, v), []) ∈ clashRule.run
      ('-' :: (gap ++ (quote ++ (t ++ more))) ++ ',' :: (blanks ++ v)) := by
    simp only [clashRule, mem_bind, mem_many, mem_item, mem_alt_words, mem_someLazy, mem_atEnd,
      mem_pure, beq_iff_eq, Prod.mk.injEq]
    obtain ⟨o, ho⟩ := hopt (t ++ (more ++ ',' :: (blanks ++ v)))
    exact ⟨[], _, ⟨rfl, List.forall_mem_nil _⟩, '-', _, ⟨rfl, rfl⟩, gap, _, ⟨by simp, hgap⟩, o, _, ho, t, _, ⟨ht, rfl⟩,
      more, _, ⟨rfl, hmore⟩, ',', _, ⟨rfl, rfl⟩, blanks, v, ⟨rfl, hblanks⟩, v, [], ⟨by simp, hv, hline⟩,
      none, [], mem_opt.mpr (.inr ⟨rfl, rfl⟩), [], [], ⟨rfl, List.forall_mem_nil _⟩, (), [], ⟨rfl, .inl rfl⟩,
      ⟨rfl, rfl⟩, rfl⟩
  obtain ⟨⟨t', v'⟩, rest, hfirst, hmem⟩ := exists_first hway
  obtain ⟨front', behind', heq, hhead', hvalue⟩ := clashRule_parts hmem
  obtain ⟨rfl, rfl⟩ := comma_unique hhead hhead' heq
  obtain rfl := hhead.unique hhead'
  exact ⟨v', rest, hfirst, hvalue⟩

theorem not_space_of_quote {c : Char} (hc : isQuote c = true) : Text.isSpace c = false := by
  simp only [isQuote, Bool.or_eq_true, beq_iff_eq] at hc
  rcases hc with rfl | rfl <;> decide

/-- A value between quotes has no blanks at its ends. -/
theorem bare_quoted {q₁ v q₂ : Str} (hq₁ : ∀ c ∈ q₁, isQuote c = true)
    (hq₂ : ∀ c ∈ q₂, isQuote c = true) (hne : v ≠ []) (hspace : Bare Text.isSpace v) :
    Bare Text.isSpace (q₁ ++ (v ++ q₂)) := by
  refine ⟨fun c hc => ?_, fun c hc => ?_⟩
  · cases q₁ with
    | nil =>
      rw [List.nil_append, List.head?_append_of_ne_nil v hne] at hc
      exact hspace.head c hc
    | cons d q₁ =>
      obtain rfl : d = c := Option.some.inj hc
      exact not_space_of_quote (hq₁ d List.mem_cons_self)
  · rw [← List.append_assoc, List.getLast?_append] at hc
    cases hlast : q₂.getLast? with
    | some d =>
      rw [hlast] at hc
      obtain rfl : d = c := Option.some.inj hc
      exact not_space_of_quote (hq₂ d (List.mem_of_getLast? hlast))
    | none =>
      rw [hlast, Option.none_or, List.getLast?_append_of_ne_nil q₁ hne] at hc
      exact hspace.last c hc

/-- What is read of a value between quotes: the value, with the blanks in front that the pattern
has left there and some of the quotes behind. -/
theorem RuleValue.parts {blanks q₁ v q₂ v' : Str} (h : RuleValue (blanks ++ (q₁ ++ (v ++ q₂))) v')
    (hq₁ : ∀ c ∈ q₁, isQuote c = true) (hq₂ : ∀ c ∈ q₂, isQuote c = true) (hne : v ≠ [])
    (hspace : Bare Text.isSpace v) (hquote : Bare isQuote v) :
    ∃ b u, v' = b ++ (q₁ ++ (v ++ u)) ∧ (∀ c ∈ b, c ∈ blanks) ∧ u <+: q₂ := by
  obtain ⟨blanks', quote, more, hblanks', hquote', hmore, -, heq⟩ := h
  have hbare := bare_quoted hq₁ hq₂ hne hspace
  have hvne : q₁ ++ (v ++ q₂) ≠ [] := by simp [hne]
  -- nothing blank at the end of the line
  have hline : blanks' ++ (v' ++ quote) ++ more = blanks ++ (q₁ ++ (v ++ q₂)) ++ [] := by
    rw [List.append_nil, heq]
    simp
  obtain ⟨more', hmore', hline⟩ := stretch_part_end hmore
    (fun c hc => hbare.last c (by rwa [List.getLast?_append_of_ne_nil blanks hvne] at hc))
    (by simp [hne]) hline
  obtain ⟨rfl, -⟩ := List.append_eq_nil_iff.mp hmore'.symm
  -- the blanks and the quotes that the pattern has taken
  obtain ⟨b, rfl, hvalue⟩ := stretch_part hblanks' hbare.head hvne (by rw [hline, List.append_nil])
  have hvalue' : v' ++ quote = b ++ (q₁ ++ v) ++ q₂ := by
    rw [hvalue]
    simp
  obtain ⟨u, rfl, hv'⟩ := stretch_part_end hquote'
    (fun c hc => hquote.last c (by
      rwa [← List.append_assoc, List.getLast?_append_of_ne_nil _ hne] at hc))
    (by simp [hne]) hvalue'
  exact ⟨b, u, by rw [hv']; simp, fun c hc => List.mem_append_right blanks' hc,
    List.prefix_append u quote⟩

/-- A value between quotes is read without its quotes. -/
theorem RuleValue.trim_eq {blanks q₁ v q₂ v' : Str}
    (h : RuleValue (blanks ++ (q₁ ++ (v ++ q₂))) v') (hblanks : ∀ c ∈ blanks, Text.isSpace c = true)
    (hq₁ : ∀ c ∈ q₁, isQuote c = true) (hq₂ : ∀ c ∈ q₂, isQuote c = true) (hne : v ≠ [])
    (hspace : Bare Text.isSpace v) (hquote : Bare isQuote v) : trim isQuote (Text.strip v') = v := by
  obtain ⟨b, u, rfl, hb, hu⟩ := h.parts hq₁ hq₂ hne hspace hquote
  have hquotes : ∀ c ∈ u, isQuote c = true := fun c hc => hq₂ c (hu.subset hc)
  have hstrip : Text.strip (b ++ (q₁ ++ (v ++ u))) = q₁ ++ (v ++ u) := by
    rw [strip_eq_trim, trim_append_left (fun c hc => hblanks c (hb c hc))]
    exact trim_of_bare (bare_quoted hq₁ hquotes hne hspace)
  rw [hstrip, ← List.append_assoc]
  exact trim_append hq₁ hquote hquotes

/-- **A Clash rule of a domain** is the pattern of its value. -/
theorem normalizeRule_clash (lower : LowerCase) {gap quote t more blanks q₁ v q₂ : Str}
    (hgap : ∀ c ∈ gap, Text.isSpace c = true) (hquote : ∀ c ∈ quote, isQuote c = true)
    (hone : quote.length ≤ 1) (ht : t ∈ clashTypes) (hmore : ∀ c ∈ more, Text.isSpace c = true)
    (hblanks : ∀ c ∈ blanks, Text.isSpace c = true) (hq₁ : ∀ c ∈ q₁, isQuote c = true)
    (hq₂ : ∀ c ∈ q₂, isQuote c = true) (hne : v ≠ []) (hspace : Bare Text.isSpace v)
    (hbare : Bare isQuote v) (hline : ∀ c ∈ v, notNewline c = true) :
    normalizeRule lower ('-' :: (gap ++ (quote ++ (t ++ more))) ++ ',' :: (blanks ++ (q₁ ++ (v ++ q₂)))) =
      clashPattern lower t v := by
  have hquoteline {q : Str} (hq : ∀ c ∈ q, isQuote c = true) : ∀ c ∈ q, notNewline c = true := by
    intro c hc
    have hcq := hq c hc
    simp only [isQuote, Bool.or_eq_true, beq_iff_eq] at hcq
    rcases hcq with rfl | rfl <;> decide
  have hvline : ∀ c ∈ q₁ ++ (v ++ q₂), notNewline c = true := by
    simp only [List.forall_mem_append]
    exact ⟨hquoteline hq₁, hline, hquoteline hq₂⟩
  obtain ⟨v', rest, hfirst, hvalue⟩ := clashRule_first hgap hquote hone ht hmore hblanks
    (by simp [hne]) hvline
  have htrim := hvalue.trim_eq hblanks hq₁ hq₂ hne hspace hbare
  have hself : trim isQuote (Text.strip v) = v := by
    rw [strip_eq_trim, trim_of_bare hspace, trim_of_bare hbare]
  rw [normalizeRule, hfirst, Option.elim_some, clashPattern, clashPattern, htrim, hself]

/-- **A Clash rule of addresses** has no pattern. -/
theorem normalizeRule_ipCidr (lower : LowerCase) {gap quote t more blanks v : Str}
    (hgap : ∀ c ∈ gap, Text.isSpace c = true) (hquote : ∀ c ∈ quote, isQuote c = true)
    (hone : quote.length ≤ 1) (ht : t = "IP-CIDR".toList ∨ t = "IP6-CIDR".toList)
    (hmore : ∀ c ∈ more, Text.isSpace c = true) (hblanks : ∀ c ∈ blanks, Text.isSpace c = true)
    (hv : v ≠ []) (hline : ∀ c ∈ v, notNewline c = true) :
    normalizeRule lower ('-' :: (gap ++ (quote ++ (t ++ more))) ++ ',' :: (blanks ++ v)) = none := by
  have hmem : t ∈ clashTypes := by rcases ht with rfl | rfl <;> decide
  obtain ⟨v', rest, hfirst, -⟩ := clashRule_first hgap hquote hone hmem hmore hblanks hv hline
  rw [normalizeRule, hfirst, Option.elim_some, clashPattern]
  dsimp only
  rw [if_pos ht]

/-- A line that does not begin with a dash is no Clash rule. -/
theorem clashRule_none {line : Str} (hstart : ∀ c ∈ line.head?, Text.isSpace c = false)
    (hdash : line.head? ≠ some '-') : clashRule.first line = none := by
  refine first_eq_none_iff.mpr fun r rest hmem => hdash ?_
  obtain ⟨front, behind, rfl, hhead, -⟩ := clashRule_parts hmem
  exact hhead.head_eq hstart

/-- **A line with a dot that is no Clash rule** has a pattern. -/
theorem normalizeRule_isSome (lower : LowerCase) {line : Str}
    (hstart : ∀ c ∈ line.head?, Text.isSpace c = false) (hdash : line.head? ≠ some '-') (hdot : '.' ∈ line) :
    ∃ p, normalizeRule lower line = some p := by
  rw [normalizeRule, clashRule_none hstart hdash, Option.elim_none]
  cases hv2fly : v2flyRule.first line with
  | none => exact cleanPlainDomain_isSome lower [] hdot
  | some r =>
    obtain ⟨⟨t, v⟩, rest⟩ := r
    obtain ⟨gap, sep, behind, rfl, ht, hgap, hsep, hvalue⟩ := v2flyRule_parts (mem_of_first hv2fly)
    have hbehind : '.' ∈ behind := by
      have hhead : ∀ t ∈ v2flyTypes, '.' ∉ t := by decide
      rcases List.mem_append.mp hdot with hdot | hdot
      · rcases List.mem_append.mp hdot with hdot | hdot
        · exact absurd hdot (hhead t ht)
        · cases hgap '.' hdot
      · rcases List.mem_cons.mp hdot with rfl | hdot
        · rcases hsep with h | h <;> cases h
        · exact hdot
    have hmark : '.' ∈ marks (Text.strip v) := by
      rw [marks_strip, ← hvalue.marks_eq]
      exact mem_marks.mpr ⟨hbehind, rfl⟩
    rw [Option.elim_some, v2flyPattern]
    dsimp only
    split
    · exact cleanPlainDomain_isSome lower _ (mem_marks.mp hmark).1
    · exact cleanPlainDomain_isSome lower _ (mem_marks.mp hmark).1

/-- The first separator of a line ends the type of a v2fly rule. -/
theorem v2fly_unique {t t' gap gap' behind behind' : Str} {sep sep' : Char} (ht : t ∈ v2flyTypes)
    (ht' : t' ∈ v2flyTypes) (hgap : ∀ c ∈ gap, Text.isSpace c = true)
    (hgap' : ∀ c ∈ gap', Text.isSpace c = true) (hsep : sep = ':' ∨ sep = '=')
    (hsep' : sep' = ':' ∨ sep' = '=') (heq : t ++ gap ++ sep :: behind = t' ++ gap' ++ sep' :: behind') :
    t = t' ∧ behind = behind' := by
  have hletters : ∀ t ∈ v2flyTypes, (∀ c ∈ t, (!Text.isSpace c) = true) ∧
      ∀ c ∈ t, (c != ':' && c != '=') = true := by
    simp [v2flyTypes, Text.isSpace]
  have hfree {t gap : Str} (ht : t ∈ v2flyTypes) (hgap : ∀ c ∈ gap, Text.isSpace c = true) :
      ∀ c ∈ t ++ gap, (c != ':' && c != '=') = true := by
    intro c hc
    rcases List.mem_append.mp hc with hc | hc
    · exact (hletters t ht).2 c hc
    · rw [Bool.and_eq_true, bne_iff_ne, bne_iff_ne]
      constructor <;> rintro rfl <;> cases hgap _ hc
  have hstop {sep : Char} (hsep : sep = ':' ∨ sep = '=') (behind : Str) :
      ∀ c ∈ (sep :: behind).head?, (c != ':' && c != '=') = false := by
    rintro c ⟨⟩
    rcases hsep with rfl | rfl <;> rfl
  have hback {gap : Str} (hgap : ∀ c ∈ gap, Text.isSpace c = true) :
      ∀ c ∈ gap.head?, (!Text.isSpace c) = false :=
    fun c hc => by rw [hgap c (List.mem_of_head? hc)]; rfl
  obtain ⟨hhead, hbehind⟩ := stretch_unique (hfree ht hgap) (hfree ht' hgap') (hstop hsep behind)
    (hstop hsep' behind') heq
  exact ⟨(stretch_unique (hletters t ht).1 (hletters t' ht').1 (hback hgap) (hback hgap') hhead).1,
    (List.cons.inj hbehind).2⟩

/-- **A v2fly rule** is the pattern of its value. -/
theorem normalizeRule_v2fly (lower : LowerCase) {t gap blanks v : Str} {sep : Char}
    (ht : t ∈ v2flyTypes) (hgap : ∀ c ∈ gap, Text.isSpace c = true) (hsep : sep = ':' ∨ sep = '=')
    (hblanks : ∀ c ∈ blanks, Text.isSpace c = true) (hne : v ≠ []) (hspace : Bare Text.isSpace v)
    (hbare : Bare isQuote v) (hline : ∀ c ∈ v, notNewline c = true) :
    normalizeRule lower (t ++ gap ++ sep :: (blanks ++ v)) = v2flyPattern lower t v := by
  have htype : ∀ t ∈ v2flyTypes, t ≠ [] ∧ Bare Text.isSpace t ∧ t.head? ≠ some '-' := by
    intro t ht
    have hall : ∀ t ∈ v2flyTypes, t ≠ [] ∧ (∀ c ∈ t, Text.isSpace c = false) ∧ t.head? ≠ some '-' := by
      simp [v2flyTypes, Text.isSpace]
    exact ⟨(hall t ht).1, Bare.of_all (hall t ht).2.1, (hall t ht).2.2⟩
  obtain ⟨htne, htbare, hdash⟩ := htype t ht
  have hclash : clashRule.first (t ++ gap ++ sep :: (blanks ++ v)) = none := by
    refine clashRule_none (fun c hc => htbare.head c ?_) ?_
    · rwa [List.append_assoc, List.head?_append_of_ne_nil t htne] at hc
    · rwa [List.append_assoc, List.head?_append_of_ne_nil t htne]
  have hway : ((t, v), []) ∈ v2flyRule.run (t ++ gap ++ sep :: (blanks ++ v)) := by
    simp only [v2flyRule, mem_bind, mem_many, mem_item, mem_alt_words, mem_someLazy, mem_atEnd,
      mem_pure, Bool.or_eq_true, beq_iff_eq, Prod.mk.injEq]
    exact ⟨t, _, ⟨ht, List.append_assoc ..⟩, gap, _, ⟨rfl, hgap⟩, sep, _, ⟨rfl, hsep⟩, blanks, v,
      ⟨rfl, hblanks⟩, v, [], ⟨by simp, hne, hline⟩, [], [], ⟨rfl, List.forall_mem_nil _⟩, (), [], ⟨rfl, .inl rfl⟩,
      ⟨rfl, rfl⟩, rfl⟩
  obtain ⟨⟨t', v'⟩, rest, hfirst, hmem⟩ := exists_first hway
  obtain ⟨gap', sep', behind', heq, ht', hgap', hsep', hvalue⟩ := v2flyRule_parts hmem
  obtain ⟨rfl, rfl⟩ := v2fly_unique ht ht' hgap hgap' hsep hsep' heq
  have hvalue' : RuleValue (blanks ++ ([] ++ (v ++ []))) v' := by simpa using hvalue
  obtain ⟨b, u, rfl, hb, hu⟩ := hvalue'.parts (List.forall_mem_nil _) (List.forall_mem_nil _) hne hspace hbare
  have hstrip : Text.strip (b ++ ([] ++ (v ++ u))) = v := by
    rw [List.prefix_nil.mp hu, strip_eq_trim, trim_append_left (fun c hc => hblanks c (hb c hc)),
      List.nil_append, List.append_nil, trim_of_bare hspace]
  have hself : Text.strip v = v := trim_of_bare hspace
  rw [normalizeRule, hclash, Option.elim_none, hfirst, Option.elim_some, v2flyPattern, v2flyPattern,
    hstrip, hself]

end HuntProxy.Routing
