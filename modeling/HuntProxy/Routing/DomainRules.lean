import HuntProxy.Routing.DomainLines

/-!
# Domain rules in a domain list

A rule for a domain may be written plainly, as a Clash rule or as a v2fly rule, with a scheme
and a port, and a comment may stand behind it. The pattern that is made of it matches the domain
when the parser knows all of this: the scheme is one of those that are taken away, a separator
begins the comment, and a Clash rule has the dash of a list item and no options. What the parser
does not know stays in the pattern with its punctuation, and no name has that.

## Main definitions

- `DomainRule` — the rules, as they may be written
- `Matched` — the pattern of a line matches a domain, and all below it for a rule of suffixes

## Main results

- `matched_iff` — the rules that are not lost
-/

namespace HuntProxy.Routing

open Text Url

/-- A name of letters, digits, hyphens and dots, with a dot. -/
abbrev DomainName :=
  { d : Str // '.' ∈ d ∧ ∀ c ∈ d, c.isAlphanum = true ∨ c = '-' ∨ c = '.' }

/-- The types of v2fly rules for domains. -/
inductive V2flyType
  | domain
  | domainSuffix
  | full
  deriving DecidableEq, Repr

def V2flyType.text : V2flyType → Str
  | .domain => "domain".toList
  | .domainSuffix => "domain-suffix".toList
  | .full => "full".toList

/-- How a domain is written down in a list. -/
inductive DomainForm
  | plain
  | clash (dash : Option LineBlank) (quote : Quote) (suffix : Bool) (gap blanks : LineBlank) (inner : Quote)
    (options : Option LineText)
  | v2fly (type : V2flyType) (gap blanks : LineBlank)

/-- A rule for a domain. -/
structure DomainRule where
  form : DomainForm
  scheme : Option Scheme
  name : DomainName
  port : Option Port

/-- The domain with its scheme and its port. -/
def DomainRule.value (r : DomainRule) : Str :=
  schemeText r.scheme ++ (r.name.val ++ portText r.port)

/-- The type of a Clash rule for a domain. -/
def clashType (suffix : Bool) : Str := if suffix then "DOMAIN-SUFFIX".toList else "DOMAIN".toList

/-- The text of a form around a value. -/
def DomainForm.text (value : Str) : DomainForm → Str
  | .plain => value
  | .clash dash quote suffix gap blanks inner options =>
    clashFront dash quote (clashType suffix) gap blanks inner ++
      (value ++ (inner.text ++ (optionsText options ++ quote.text)))
  | .v2fly type gap blanks => type.text ++ gap.val ++ ':' :: (blanks.val ++ value)

def DomainRule.text (r : DomainRule) : Str := r.form.text r.value

/-- The forms that stand for all names below the domain. -/
def DomainForm.isSuffix : DomainForm → Bool
  | .plain => false
  | .clash _ _ suffix _ _ _ _ => suffix
  | .v2fly type _ _ => type = .domainSuffix

/-- The forms that the parser reads: a Clash rule needs a dash and may have no options. -/
def DomainForm.isRead : DomainForm → Bool
  | .plain => true
  | .clash dash _ _ _ _ _ options => dash.isSome && options.isNone
  | .v2fly .. => true

/-- The scheme is one of those that are taken away. -/
def KnownScheme (s : Scheme) : Prop := s.text.map Char.toLower ∈ knownSchemes

instance (s : Scheme) : Decidable (KnownScheme s) := inferInstanceAs (Decidable (_ ∈ _))

/-- The parser knows all that the line is written with. -/
structure Readable (f : LineFrame) (r : DomainRule) : Prop where
  comment : ∀ c ∈ f.comment, c.Begun
  form : r.form.isRead = true
  scheme : ∀ s ∈ r.scheme, KnownScheme s

/-- A stored pattern, compiled into the route cache, matches a host. -/
def patternHits (lower : LowerCase) (p host : Str) : Prop :=
  (compileList lower.apply Text.strip [] [p]).matchesHost (lower.apply host) = true

/-- The line has a pattern that matches the domain; that of a rule of suffixes matches the names
below the domain, and no others. -/
def Matched (lower : LowerCase) (line d : Str) (suffix : Bool) : Prop :=
  ∃ p, normalizeDomainPattern lower line = some p ∧ patternHits lower p d ∧
    (suffix = true → ∀ host, patternHits lower p host ↔
      lower.apply host = lower.apply d ∨ ('.' :: lower.apply d) <:+ lower.apply host)

/-! ### The letters of a rule -/

theorem isValueChar_of_name {c : Char} (h : c.isAlphanum = true ∨ c = '-' ∨ c = '.') :
    isValueChar c = true := by
  rcases h with h | rfl | rfl
  · simp [isValueChar, h]
  · rfl
  · rfl

theorem DomainRule.value_chars (r : DomainRule) : ∀ c ∈ r.value, isValueChar c = true := by
  simp only [DomainRule.value, List.forall_mem_append]
  exact ⟨schemeText_chars r.scheme, fun c hc => isValueChar_of_name (r.name.property.2 c hc),
    portText_chars r.port⟩

theorem DomainRule.value_noSpace (r : DomainRule) : ∀ c ∈ r.value, Text.isSpace c = false :=
  fun c hc => (isValueChar_plain (r.value_chars c hc)).1

theorem DomainRule.name_ne_nil (r : DomainRule) : r.name.val ≠ [] :=
  List.ne_nil_of_mem r.name.property.1

theorem DomainRule.value_ne_nil (r : DomainRule) : r.value ≠ [] := by
  simp [DomainRule.value, r.name_ne_nil]

/-- A letter of a name, in lower case, is one of those that a port may stand behind. -/
theorem domainChar_toLower {c : Char} (h : c.isAlphanum = true ∨ c = '-' ∨ c = '.') :
    domainChar c.toLower = true ∧ c.toLower ≠ '*' := by
  have hascii : c.toNat < 128 := ascii_of_isValueChar (isValueChar_of_name h)
  exact LowerCase.of_ascii
    (P := fun c => c.isAlphanum = true ∨ c = '-' ∨ c = '.' →
      domainChar c.toLower = true ∧ c.toLower ≠ '*') (by decide) hascii h

/-- A value begins with a letter, a digit, a hyphen or a dot. -/
theorem DomainRule.head_value (r : DomainRule) :
    ∀ c ∈ r.value.head?, Text.isSpace c = false ∧ isCommentLetter c = false := by
  intro c hc
  have hname : c.isAlphanum = true ∨ c = '-' ∨ c = '.' := by
    rw [DomainRule.value] at hc
    cases hscheme : r.scheme with
    | none =>
      rw [hscheme, schemeText, Option.elim_none, List.nil_append,
        List.head?_append_of_ne_nil _ r.name_ne_nil] at hc
      exact r.name.property.2 c (List.mem_of_head? hc)
    | some s =>
      rw [hscheme] at hc
      obtain rfl : s.first = c := Option.some.inj hc
      left
      rw [Char.isAlphanum, s.isAlpha, Bool.true_or]
  have hascii : c.toNat < 128 := ascii_of_isValueChar (isValueChar_of_name hname)
  exact LowerCase.of_ascii
    (P := fun c => c.isAlphanum = true ∨ c = '-' ∨ c = '.' →
      Text.isSpace c = false ∧ isCommentLetter c = false) (by decide) hascii hname

/-! ### Values that are cleaned -/

/-- The name in lower case. -/
def DomainRule.lowered (r : DomainRule) : Str := r.name.val.map Char.toLower

theorem DomainRule.lower_value (lower : LowerCase) (r : DomainRule) :
    lower.apply (Text.strip r.value) = r.value.map Char.toLower := by
  rw [strip_of_noSpace r.value_noSpace,
    lower.apply_of_ascii (fun c hc => ascii_of_isValueChar (r.value_chars c hc))]

theorem DomainRule.lowered_chars (r : DomainRule) :
    ∀ c ∈ r.lowered, domainChar c = true ∧ c ≠ '*' := by
  intro c hc
  obtain ⟨d, hd, rfl⟩ := List.mem_map.mp hc
  exact domainChar_toLower (r.name.property.2 d hd)

theorem DomainRule.dot_mem_lowered (r : DomainRule) : '.' ∈ r.lowered :=
  List.mem_map.mpr ⟨'.', r.name.property.1, rfl⟩

theorem toLower_digit {c : Char} (h : c.isDigit = true) : c.toLower = c := by
  have hascii : c.toNat < 128 := by
    refine LowerCase.ascii_of_isAlphanum ?_
    rw [Char.isAlphanum, h, Bool.or_true]
  exact LowerCase.of_ascii (P := fun c => c.isDigit = true → c.toLower = c) (by decide) hascii h

theorem lower_portText (port : Option Port) :
    (portText port).map Char.toLower = portText port := by
  cases port with
  | none => rfl
  | some p =>
    have hdigits : p.val.map Char.toLower = p.val :=
      calc p.val.map Char.toLower = p.val.map id :=
            List.map_congr_left (fun c hc => toLower_digit (p.property.2 c hc))
        _ = p.val := List.map_id p.val
    rw [portText, Option.elim_some, List.map_cons, hdigits]
    rfl

theorem slash_not_mem_lowered (r : DomainRule) : '/' ∉ r.lowered ++ portText r.port := by
  intro h
  rcases List.mem_append.mp h with h | h
  · cases (r.lowered_chars '/' h).1
  · cases hport : r.port with
    | none =>
      rw [hport] at h
      cases h
    | some p =>
      rw [hport] at h
      rcases List.mem_cons.mp h with h | h
      · cases h
      · cases p.property.2 '/' h

/-- **A value with a scheme that is known, or none,** is cleaned to its name. -/
theorem DomainRule.clean_known (lower : LowerCase) (r : DomainRule) (hknown : ∀ s ∈ r.scheme, KnownScheme s)
    (front : Str) : cleanPlainDomain lower r.value front = some (front ++ r.lowered) := by
  have hscheme : dropScheme (r.value.map Char.toLower) = r.lowered ++ portText r.port := by
    rw [DomainRule.value, List.map_append, List.map_append, lower_portText]
    cases hs : r.scheme with
    | none =>
      rcases dropScheme_cases (r.lowered ++ portText r.port) with heq | ⟨sch, -, heq⟩
      · exact heq
      · refine absurd ?_ (slash_not_mem_lowered r)
        rw [heq]
        exact List.mem_append_right _ (List.mem_append_left _ (by decide))
    | some s =>
      have hdrop := dropScheme_known (hknown s hs) (r.lowered ++ portText r.port)
      rw [schemeText, Option.elim_some, List.map_append, List.append_assoc]
      exact hdrop
  have hport : dropPort (r.lowered ++ portText r.port) = r.lowered := by
    have hchars : ∀ c ∈ r.lowered, domainChar c = true := fun c hc => (r.lowered_chars c hc).1
    cases hp : r.port with
    | none => exact (List.append_nil r.lowered).symm ▸ dropPort_name hchars
    | some p =>
      exact dropPort_port (List.ne_nil_of_mem r.dot_mem_lowered) hchars p.property.1 p.property.2
  have hdropped : dropPort (dropScheme (lower.apply (Text.strip r.value))) = r.lowered := by
    rw [r.lower_value, hscheme, hport]
  rw [cleanPlainDomain_of_dot front (hdropped ▸ r.dot_mem_lowered), hdropped]

/-- **A value whose scheme is not known** becomes no pattern without a slash. -/
theorem DomainRule.known_of_clean {lower : LowerCase} {r : DomainRule} {front p : Str}
    (h : cleanPlainDomain lower r.value front = some p) (hp : Unmarred p) :
    ∀ s ∈ r.scheme, KnownScheme s := by
  intro s hs
  have hslash : '/' ∈ marks r.value := by
    refine mem_marks.mpr ⟨?_, rfl⟩
    rw [DomainRule.value, Option.mem_def.mp hs]
    exact List.mem_append_left _ (List.mem_append_right _ (by decide))
  obtain ⟨m, hm, heq | ⟨-, sch, hsch, rest, heq⟩⟩ := marks_of_clean h hp
  · rw [heq] at hslash
    rcases hm '/' hslash with h | h <;> cases h
  · have hvalue : r.value.map Char.toLower = s.text.map Char.toLower ++
        ':' :: (['/', '/'] ++ (r.name.val ++ portText r.port).map Char.toLower) := by
      rw [DomainRule.value, Option.mem_def.mp hs, schemeText, Option.elim_some, List.map_append,
        List.map_append, List.append_assoc]
      rfl
    have hcolon : ∀ c ∈ s.text.map Char.toLower, (c != ':') = true := by
      intro c hc
      obtain ⟨d, hd, rfl⟩ := List.mem_map.mp hc
      have hascii : d.toNat < 128 :=
        ascii_of_isValueChar (schemeText_chars (some s) d (List.mem_append_left _ hd))
      exact LowerCase.of_ascii (P := fun d => (d != ':') = true → (d.toLower != ':') = true)
        (by decide) hascii (s.noColon d hd)
    rw [r.lower_value, hvalue] at heq
    obtain ⟨hsame, -⟩ := colon_unique hcolon (colon_not_mem_knownSchemes sch hsch) heq
    rw [KnownScheme, hsame]
    exact hsch

/-! ### Patterns that match -/

theorem patternHits_iff {lower : LowerCase} {p host : Str} : patternHits lower p host ↔
    Hits (compilePattern (Text.strip (lower.apply p))).1 (compilePattern (Text.strip (lower.apply p))).2
      (lower.apply host) := by
  rw [patternHits, hits_compileList]
  simp

theorem DomainRule.lower_name (lower : LowerCase) (r : DomainRule) :
    lower.apply r.name.val = r.lowered :=
  lower.apply_of_ascii
    (fun c hc => ascii_of_isValueChar (isValueChar_of_name (r.name.property.2 c hc)))

theorem mem_of_drop {pre q : Str} {c : Char} (hpre : pre.isPrefixOf q = true) (hc : c ∈ q)
    (hnot : c ∉ pre) : c ∈ q.drop pre.length := by
  rw [drop_of_isPrefixOf hpre] at hc
  exact (List.mem_append.mp hc).resolve_left hnot

/-- **A pattern that matches a name** has no punctuation that no name has. -/
theorem DomainRule.unmarred_of_hits {lower : LowerCase} {r : DomainRule} {p : Str}
    (h : patternHits lower p r.name.val) : Unmarred p := by
  intro c hc hmark
  by_contra hnot
  obtain ⟨hdot, hcolon⟩ := not_or.mp hnot
  have hq : c ∈ Text.strip (lower.apply p) :=
    mem_trim ((lower.mem_apply (uncased_of_isMark c hmark)).mpr hc) (not_space_of_isMark c hmark)
  have hhost : c ∈ r.lowered := by
    have hmatch := (compilePattern_hits lower.apply Text.strip (lower.apply r.name.val) p
      (List.ne_nil_of_mem hq)).mp (patternHits_iff.mp h)
    rw [r.lower_name] at hmatch
    have hexact : c ∉ exactPrefix := by
      rcases isMark_cases hmark with rfl | rfl | rfl | rfl | rfl | rfl <;>
        first | decide | exact absurd rfl hcolon
    have hstar : c ∉ "*.".toList := by
      rcases isMark_cases hmark with rfl | rfl | rfl | rfl | rfl | rfl <;>
        first | decide | exact absurd rfl hdot
    have hfull : c ∉ ".".toList := by simpa using hdot
    rw [patternMatches] at hmatch
    split at hmatch
    · next hpre =>
      rw [beq_iff_eq.mp hmatch]
      exact mem_of_drop hpre hq hexact
    · split at hmatch
      · next hpre =>
        have hdrop : c ∈ (Text.strip (lower.apply p)).drop 2 := mem_of_drop hpre hq hstar
        rcases Bool.or_eq_true_iff.mp hmatch with hmatch | hmatch
        · refine (List.isSuffixOf_iff_suffix.mp hmatch).subset ?_
          rw [← List.drop_drop (i := 1)] at hdrop
          exact List.mem_of_mem_drop hdrop
        · rwa [beq_iff_eq.mp hmatch]
      · split at hmatch
        · next hpre =>
          rcases Bool.or_eq_true_iff.mp hmatch with hmatch | hmatch
          · exact (List.isSuffixOf_iff_suffix.mp hmatch).subset hq
          · rw [beq_iff_eq.mp hmatch]
            exact mem_of_drop hpre hq hfull
        · rcases Bool.or_eq_true_iff.mp hmatch with hmatch | hmatch
          · rwa [beq_iff_eq.mp hmatch]
          · exact (List.isSuffixOf_iff_suffix.mp hmatch).subset (List.mem_cons_of_mem '.' hq)
  have hchar := (r.lowered_chars c hhost).1
  rcases isMark_cases hmark with rfl | rfl | rfl | rfl | rfl | rfl <;>
    first | exact hdot rfl | exact hcolon rfl | cases hchar

/-- The name of a rule as a stored pattern, behind the star of a suffix or without one. -/
theorem DomainRule.compile_lowered (lower : LowerCase) (r : DomainRule) {front : Str}
    (hfront : front = [] ∨ front = "*.".toList) :
    Text.strip (lower.apply (front ++ r.lowered)) = front ++ r.lowered := by
  have hchar {c : Char} (hc : domainChar c = true) :
      c.toNat < 128 ∧ Text.isSpace c = false ∧ c.toLower = c := by
    have hascii : c.toNat < 128 := by
      simp only [domainChar, Bool.or_eq_true, beq_iff_eq] at hc
      obtain (((hc | hc) | rfl) | rfl) | rfl := hc
      · refine LowerCase.ascii_of_isAlphanum ?_
        show (c.isUpper || c.isLower || c.isDigit) = true
        rw [hc, Bool.or_true, Bool.true_or]
      · refine LowerCase.ascii_of_isAlphanum ?_
        rw [Char.isAlphanum, hc, Bool.or_true]
      all_goals decide
    exact ⟨hascii, LowerCase.of_ascii
      (P := fun c => domainChar c = true → Text.isSpace c = false ∧ c.toLower = c) (by decide) hascii hc⟩
  have hall : ∀ c ∈ front ++ r.lowered, domainChar c = true := by
    simp only [List.forall_mem_append]
    refine ⟨?_, fun c hc => (r.lowered_chars c hc).1⟩
    rcases hfront with rfl | rfl
    · exact List.forall_mem_nil _
    · simp [domainChar]
  have hlower : lower.apply (front ++ r.lowered) = front ++ r.lowered :=
    calc lower.apply (front ++ r.lowered) = (front ++ r.lowered).map Char.toLower :=
          lower.apply_of_ascii (fun c hc => (hchar (hall c hc)).1)
      _ = (front ++ r.lowered).map id :=
          List.map_congr_left (fun c hc => (hchar (hall c hc)).2.2)
      _ = front ++ r.lowered := List.map_id _
  rw [hlower, strip_of_noSpace (fun c hc => (hchar (hall c hc)).2.1)]

/-- **The pattern of a suffix** matches the name and the names below it. -/
theorem DomainRule.suffix_hits_iff (lower : LowerCase) (r : DomainRule) (host : Str) :
    patternHits lower ("*.".toList ++ r.lowered) host ↔
      lower.apply host = r.lowered ∨ ('.' :: r.lowered) <:+ lower.apply host := by
  have hcompile : compilePattern ("*.".toList ++ r.lowered) = ([r.lowered], ['.' :: r.lowered]) := by
    rw [compilePattern, if_neg (by simp), if_neg (by simp [exactPrefix]), if_pos (by simp)]
    rfl
  rw [patternHits_iff, r.compile_lowered lower (.inr rfl), hcompile, hits_name, or_comm]

/-- **The pattern of a plain name** matches the name. -/
theorem DomainRule.plain_hits (lower : LowerCase) (r : DomainRule) :
    patternHits lower r.lowered r.name.val := by
  have hexact : ¬ exactPrefix.isPrefixOf r.lowered = true := by
    intro h
    have hcolon : ':' ∈ r.lowered := by
      rw [drop_of_isPrefixOf h]
      exact List.mem_append_left _ (by decide)
    cases (r.lowered_chars ':' hcolon).1
  have hstar : ¬ "*.".toList.isPrefixOf r.lowered = true := by
    intro h
    have hstar : '*' ∈ r.lowered := by
      rw [drop_of_isPrefixOf h]
      exact List.mem_append_left _ (by decide)
    exact (r.lowered_chars '*' hstar).2 rfl
  have hself : Text.strip (lower.apply r.lowered) = r.lowered :=
    r.compile_lowered lower (.inl rfl)
  rw [patternHits_iff, hself, r.lower_name, compilePattern,
    if_neg (List.ne_nil_of_mem r.dot_mem_lowered), if_neg hexact, if_neg hstar]
  split
  · next hdot =>
    rw [hits_name]
    left
    conv_rhs => rw [drop_of_isPrefixOf hdot]
    exact List.suffix_refl _
  · rw [hits_name]
    exact .inr rfl

/-! ### Rules that are read, and rules that are lost -/

/-- What the pattern of a rule has in front of its name. -/
def DomainForm.front (form : DomainForm) : Str := if form.isSuffix then "*.".toList else []

theorem clashType_mem (suffix : Bool) : clashType suffix ∈ clashTypes := by
  cases suffix <;> decide

theorem V2flyType.mem (t : V2flyType) : t.text ∈ v2flyTypes := by cases t <;> decide

/-- The value of a rule in its form, cleaned as the form says. -/
def DomainRule.cleaned (lower : LowerCase) (r : DomainRule) : Option Str :=
  cleanPlainDomain lower r.value r.form.front

theorem notMem_value {r : DomainRule} {c : Char} (h : isValueChar c = false) : c ∉ r.value :=
  fun hc => by cases h.symm.trans (r.value_chars c hc)

theorem DomainRule.bare_value (r : DomainRule) : Bare isQuote r.value :=
  Bare.of_all (fun c hc => (isValueChar_plain (r.value_chars c hc)).2.1)

/-- No comment begins in a rule that is read. -/
theorem DomainRule.solid {r : DomainRule} (h : r.form.isRead = true) : Solid r.text := by
  rw [DomainRule.text]
  cases hform : r.form with
  | plain => exact solid_value r.value_chars r.value_ne_nil (fun c hc => (r.head_value c hc).2)
  | clash dash quote suffix gap blanks inner options =>
    refine solid_clash dash quote (clashType_mem suffix) gap blanks inner ?_
      (by simp [r.value_ne_nil]) (fun c hc => ?_)
    · have hoptions : options = none := by
        rw [hform] at h
        simpa using (Bool.and_eq_true_iff.mp h).2
      rw [hoptions]
      simp only [List.forall_mem_append]
      exact ⟨r.value_noSpace, fun c hc => not_space_of_quote (inner.isQuote c hc), nofun,
        fun c hc => not_space_of_quote (quote.isQuote c hc)⟩
    · rw [List.head?_append_of_ne_nil _ r.value_ne_nil] at hc
      exact (r.head_value c hc).2
  | v2fly type gap blanks =>
    have htext : DomainForm.text r.value (.v2fly type gap blanks) =
        type.text ++ gap.val ++ ':' :: blanks.val ++ r.value := by
      simp [DomainForm.text]
    have htype : ∀ c ∈ type.text, isCommentLetter c = false ∧ Text.isSpace c = false := by
      have hall : type.text.all (fun c => !isCommentLetter c && !Text.isSpace c) = true := by
        cases type <;> decide
      intro c hc
      simpa using List.all_eq_true.mp hall c hc
    rw [htext]
    refine solid_append ?_ (fun c hc => ?_) r.value_noSpace r.value_ne_nil
      (fun c hc => (r.head_value c hc).2)
    · simp only [List.forall_mem_append, List.forall_mem_cons]
      exact ⟨⟨fun c hc => (htype c hc).1, gap.not_commentLetter⟩, rfl, blanks.not_commentLetter⟩
    · have hne : type.text ≠ [] := by cases type <;> decide
      rw [List.append_assoc, List.head?_append_of_ne_nil _ hne] at hc
      exact (htype c (List.mem_of_head? hc)).2

/-- A value whose scheme is known, or that has none, is no v2fly rule. -/
theorem DomainRule.v2flyRule_none {r : DomainRule} (hknown : ∀ s ∈ r.scheme, KnownScheme s) :
    v2flyRule.first r.value = none := by
  refine Pattern.first_eq_none_iff.mpr ?_
  rintro ⟨t, v⟩ rest hmem
  obtain ⟨gap, sep, behind, hvalue, ht, hgap, hsep, -⟩ := v2flyRule_parts hmem
  have htypes : ∀ t ∈ v2flyTypes, (∀ c ∈ t, (c != ':') = true) ∧ '.' ∉ t ∧
      t.map Char.toLower ∉ knownSchemes := by
    simp [v2flyTypes, knownSchemes]
  obtain ⟨hcolon, hdot, hscheme⟩ := htypes t ht
  have hfree : ∀ c ∈ t ++ gap, (c != ':') = true := by
    intro c hc
    rcases List.mem_append.mp hc with hc | hc
    · exact hcolon c hc
    · rw [bne_iff_ne]
      rintro rfl
      cases hgap _ hc
  rcases hsep with rfl | rfl
  · rw [DomainRule.value] at hvalue
    cases hs : r.scheme with
    | some s =>
      have hsplit : s.text ++ ':' :: ("//".toList ++ (r.name.val ++ portText r.port)) =
          (t ++ gap) ++ ':' :: behind := by
        rw [← hvalue, hs, schemeText, Option.elim_some, List.append_assoc]
        rfl
      obtain ⟨heq, -⟩ := colon_unique s.noColon hfree hsplit
      have hnospace : gap = [] := by
        refine List.eq_nil_iff_forall_not_mem.mpr fun c hc => ?_
        have hvaluechar := schemeText_chars (some s) c
          (List.mem_append_left _ (heq ▸ List.mem_append_right t hc))
        cases (hgap c hc).symm.trans (isValueChar_plain hvaluechar).1
      rw [hnospace, List.append_nil] at heq
      have hk := hknown s hs
      rw [KnownScheme, heq] at hk
      exact hscheme hk
    | none =>
      have hname : ∀ c ∈ r.name.val, (c != ':') = true := by
        intro c hc
        rw [bne_iff_ne]
        rintro rfl
        rcases r.name.property.2 _ hc with h | h | h <;> cases h
      have hdot' : '.' ∉ t ++ gap := by
        intro h
        rcases List.mem_append.mp h with h | h
        · exact hdot h
        · cases hgap _ h
      rw [hs, schemeText, Option.elim_none, List.nil_append] at hvalue
      cases hp : r.port with
      | none =>
        rw [hp, portText, Option.elim_none, List.append_nil] at hvalue
        have hmem : ':' ∈ r.name.val := hvalue ▸ List.mem_append_right _ List.mem_cons_self
        cases hname ':' hmem
      | some p =>
        rw [hp] at hvalue
        obtain ⟨heq, -⟩ := colon_unique hname hfree hvalue
        exact hdot' (heq ▸ r.name.property.1)
  · exact notMem_value (r := r) (c := '=') rfl
      (hvalue ▸ List.mem_append_right _ List.mem_cons_self)

theorem DomainRule.clashRule_none (r : DomainRule) : clashRule.first r.value = none := by
  refine Pattern.first_eq_none_iff.mpr ?_
  rintro ⟨t, v⟩ rest hmem
  obtain ⟨front, behind, hvalue, -, -⟩ := clashRule_parts hmem
  exact notMem_value (r := r) (c := ',') rfl
    (hvalue ▸ List.mem_append_right _ List.mem_cons_self)

/-- **A rule in a form that is read** is its value, cleaned. -/
theorem DomainRule.normalizeRule_text (lower : LowerCase) {r : DomainRule}
    (hform : r.form.isRead = true) (hplain : r.form = .plain → ∀ s ∈ r.scheme, KnownScheme s) :
    normalizeRule lower r.text = r.cleaned lower := by
  have hstrip : Text.strip r.value = r.value := strip_of_noSpace r.value_noSpace
  have htrim : trim isQuote r.value = r.value := trim_of_bare r.bare_value
  have hline : ∀ c ∈ r.value, notNewline c = true :=
    fun c hc => (isValueChar_plain (r.value_chars c hc)).2.2
  rw [DomainRule.text, DomainRule.cleaned, DomainForm.front]
  cases h : r.form with
  | plain =>
    have hnone := DomainRule.v2flyRule_none (hplain h)
    rw [DomainForm.text, normalizeRule, r.clashRule_none, Option.elim_none, hnone, Option.elim_none]
    rfl
  | clash dash quote suffix gap blanks inner options =>
    rw [h] at hform
    obtain ⟨hdash, hoptions⟩ := Bool.and_eq_true_iff.mp hform
    obtain ⟨b, rfl⟩ := Option.isSome_iff_exists.mp hdash
    obtain rfl : options = none := by simpa using hoptions
    have hquotes : ∀ c ∈ inner.text ++ quote.text, isQuote c = true := by
      simp only [List.forall_mem_append]
      exact ⟨inner.isQuote, quote.isQuote⟩
    have hread := normalizeRule_clash lower b.isSpace quote.isQuote quote.length_le
      (clashType_mem suffix) gap.isSpace blanks.isSpace inner.isQuote hquotes r.value_ne_nil
      (Bare.of_all r.value_noSpace) r.bare_value hline
    have htext : DomainForm.text r.value (.clash (some b) quote suffix gap blanks inner none) =
        '-' :: (b.val ++ (quote.text ++ (clashType suffix ++ gap.val))) ++
          ',' :: (blanks.val ++ (inner.text ++ (r.value ++ (inner.text ++ quote.text)))) := by
      simp [DomainForm.text, clashFront, dashText, optionsText]
    rw [htext, hread, clashPattern, hstrip, htrim]
    cases suffix <;> rfl
  | v2fly type gap blanks =>
    have hread := normalizeRule_v2fly lower type.mem gap.isSpace (.inl rfl) blanks.isSpace
      r.value_ne_nil (Bare.of_all r.value_noSpace) r.bare_value hline
    rw [DomainForm.text, hread, v2flyPattern, hstrip]
    cases type <;> rfl

/-- A rule that the parser knows is not lost. -/
theorem matched_of_readable (lower : LowerCase) {f : LineFrame} {r : DomainRule} (h : Readable f r) :
    Matched lower (f.write r.text) r.name.val r.form.isSuffix := by
  have hpattern : normalizeDomainPattern lower (f.write r.text) =
      some (r.form.front ++ r.lowered) := by
    rw [normalize_begun lower f (DomainRule.solid h.form) h.comment,
      DomainRule.normalizeRule_text lower h.form (fun _ => h.scheme), DomainRule.cleaned,
      r.clean_known lower h.scheme]
  refine ⟨_, hpattern, ?_⟩
  rw [DomainForm.front]
  cases hsuffix : r.form.isSuffix with
  | false =>
    rw [if_neg Bool.false_ne_true, List.nil_append]
    exact ⟨r.plain_hits lower, nofun⟩
  | true =>
    rw [if_pos rfl]
    refine ⟨(r.suffix_hits_iff lower r.name.val).mpr (.inl (r.lower_name lower)), fun _ host => ?_⟩
    rw [r.suffix_hits_iff, r.lower_name]

/-- The dot of the name among the marks of the value. -/
theorem DomainRule.marks_value (r : DomainRule) : ∃ u w, marks r.value = u ++ '.' :: w := by
  have hdot : '.' ∈ marks r.value :=
    mem_marks.mpr ⟨List.mem_append_right _ (List.mem_append_left _ r.name.property.1), rfl⟩
  exact List.append_of_mem hdot

theorem Marker.marks_cons (m : Marker) : ∃ c more, marks m.text = c :: more ∧ c ≠ '.' ∧ c ≠ ':' := by
  cases m
  · exact ⟨'#', [], rfl, by decide, by decide⟩
  · exact ⟨'/', ['/'], rfl, by decide, by decide⟩
  · exact ⟨';', [], rfl, by decide, by decide⟩

/-- A Clash rule without its dash, or with options, has a comma in its pattern. -/
theorem form_of_unmarred {lower : LowerCase} {f : LineFrame} {r : DomainRule} {p : Str}
    (h : normalizeDomainPattern lower (f.write r.text) = some p) (hp : Unmarred p) :
    r.form.isRead = true := by
  cases hform : r.form with
  | plain => rfl
  | v2fly => rfl
  | clash dash quote suffix gap blanks inner options =>
    have hfirst {v : Str} : ∀ c ∈ (r.value ++ v).head?, isCommentLetter c = false := by
      intro c hc
      rw [List.head?_append_of_ne_nil _ r.value_ne_nil] at hc
      exact (r.head_value c hc).2
    have htext : r.text = clashFront dash quote (clashType suffix) gap blanks inner ++
        (r.value ++ (inner.text ++ (optionsText options ++ quote.text))) := by
      rw [DomainRule.text, hform, DomainForm.text]
    cases dash with
    | none =>
      -- without its dash the line is no Clash rule, and the comma of the rule stays
      have hsolid := solid_clash none quote (clashType_mem suffix) gap blanks inner
        r.value_noSpace r.value_ne_nil (fun c hc => (r.head_value c hc).2)
      obtain ⟨rest, hread, -⟩ := normalize_write lower f hsolid
        (inner.text ++ (optionsText options ++ quote.text))
      rw [htext, ← List.append_assoc, hread] at h
      have hhead := clashFront_head none quote (clashType_mem suffix) gap blanks inner (r.value ++ rest)
      rw [← List.append_assoc] at hhead
      obtain ⟨v, front, hclean, hcases⟩ := normalizeRule_cases (fun c hc => (hhead c hc).1) h
      obtain ⟨hdash, -⟩ | ⟨hletter | hletter, -⟩ | rfl := hcases
      · cases (hhead '-' hdash).2.2.2.2.mp rfl
      · exact absurd rfl (hhead 'd' hletter).2.2.1
      · exact absurd rfl (hhead 'f' hletter).2.2.2.1
      · -- the comma of the rule is in front of the name
        have hcomma : ',' ∈ marks (clashFront none quote (clashType suffix) gap blanks inner ++
            r.value ++ rest) := by
          refine mem_marks.mpr ⟨List.mem_append_left _ (List.mem_append_left _ ?_), rfl⟩
          exact List.mem_append_right _ List.mem_cons_self
        obtain ⟨m, hm, heq | ⟨heq, -⟩⟩ := marks_of_clean hclean hp
        · rw [heq] at hcomma
          rcases hm ',' hcomma with h | h <;> cases h
        · rw [heq] at hcomma
          rcases List.mem_append.mp hcomma with hcomma | hcomma
          · exact absurd hcomma (by decide)
          · rcases hm ',' hcomma with h | h <;> cases h
    | some b =>
      cases options with
      | none => rfl
      | some o =>
        -- with options the second comma stays, behind the dot of the name
        have hsolid := solid_clash (some b) quote (clashType_mem suffix) gap blanks inner
          (v := r.value ++ (inner.text ++ [','])) (by
            simp only [List.forall_mem_append]
            exact ⟨r.value_noSpace, fun c hc => not_space_of_quote (inner.isQuote c hc), by simp; rfl⟩)
          (by simp) hfirst
        obtain ⟨rest, hread, -⟩ := normalize_write lower f hsolid (o.val ++ quote.text)
        have hsplit : r.text = clashFront (some b) quote (clashType suffix) gap blanks inner ++
            (r.value ++ (inner.text ++ [','])) ++ (o.val ++ quote.text) := by
          rw [htext]
          simp [optionsText]
        rw [hsplit, hread] at h
        obtain ⟨u, w, hvalue⟩ := r.marks_value
        have hcomma : isMark ',' = true := rfl
        have hmarks : marks (clashFront (some b) quote (clashType suffix) gap blanks inner ++
            (r.value ++ (inner.text ++ [','])) ++ rest) =
            marks (clashFront (some b) quote (clashType suffix) gap blanks inner) ++ u ++
              '.' :: (w ++ ',' :: marks rest) := by
          simp [hvalue, marks_of_quotes inner.isQuote, hcomma]
        have hstart := clashFront_head (some b) quote (clashType_mem suffix) gap blanks inner
          (r.value ++ (inner.text ++ [',']) ++ rest)
        rw [← List.append_assoc] at hstart
        rcases dot_tail_of_rule (fun c hc => (hstart c hc).1) h hp hmarks ','
          (List.mem_append_right w List.mem_cons_self) with h | h <;> cases h

/-- A comment that no separator begins leaves its marker in the pattern. -/
theorem comment_of_unmarred {lower : LowerCase} {f : LineFrame} {r : DomainRule} {p : Str}
    (h : normalizeDomainPattern lower (f.write r.text) = some p) (hp : Unmarred p)
    (hform : r.form.isRead = true) : ∀ c ∈ f.comment, c.Begun := by
  intro c hc
  by_contra hnot
  have hsolid := DomainRule.solid hform
  obtain ⟨rest, hread⟩ := normalize_notBegun lower f hsolid hc hnot
  rw [hread] at h
  obtain ⟨x, more, hmarker, hx, hx'⟩ := c.marker.marks_cons
  have htext : ∃ u' w', marks r.text = u' ++ '.' :: w' := by
    refine List.append_of_mem (mem_marks.mpr ⟨?_, rfl⟩)
    have hdot : '.' ∈ r.value :=
      List.mem_append_right _ (List.mem_append_left _ r.name.property.1)
    rw [DomainRule.text]
    cases r.form with
    | plain => exact hdot
    | clash => exact List.mem_append_right _ (List.mem_append_left _ hdot)
    | v2fly =>
      exact List.mem_append_right _ (List.mem_cons_of_mem _ (List.mem_append_right _ hdot))
  obtain ⟨u', w', htext⟩ := htext
  have hmarks : marks (r.text ++ c.gap.val ++ c.marker.text ++ rest) =
      u' ++ '.' :: (w' ++ x :: (more ++ marks rest)) := by
    simp [htext, marks_of_blank c.gap.isSpace, hmarker]
  have hstart : ∀ d ∈ (r.text ++ c.gap.val ++ c.marker.text ++ rest).head?, Text.isSpace d = false := by
    intro d hd
    rw [List.append_assoc, List.append_assoc, List.head?_append_of_ne_nil _ hsolid.ne] at hd
    exact hsolid.bare.head d hd
  rcases dot_tail_of_rule hstart h hp hmarks x (List.mem_append_right w' List.mem_cons_self) with h | h
  · exact hx h
  · exact hx' h

/-- A scheme that is not known stays in the pattern with its slashes. -/
theorem scheme_of_unmarred {lower : LowerCase} {f : LineFrame} {r : DomainRule} {p : Str}
    (h : normalizeDomainPattern lower (f.write r.text) = some p) (hp : Unmarred p)
    (hform : r.form.isRead = true) (hcomment : ∀ c ∈ f.comment, c.Begun) :
    ∀ s ∈ r.scheme, KnownScheme s := by
  rw [normalize_begun lower f (DomainRule.solid hform) hcomment] at h
  by_cases hplain : r.form = .plain
  · intro s hs
    have htext : r.text = r.value := by rw [DomainRule.text, hplain, DomainForm.text]
    rw [htext] at h
    have hstart : ∀ c ∈ r.value.head?, Text.isSpace c = false := fun c hc => (r.head_value c hc).1
    obtain ⟨v, front, hclean, hcases⟩ := normalizeRule_cases hstart h
    obtain ⟨hdash, -⟩ | ⟨-, heq | ⟨hequals, -⟩⟩ | rfl := hcases
    · rw [DomainRule.value, Option.mem_def.mp hs] at hdash
      have halpha := s.isAlpha
      rw [Option.some.inj hdash] at halpha
      cases halpha
    · -- the first mark of the value is that of the scheme, and two slashes follow it
      obtain ⟨m, hm, hv⟩ := marks_of_clean hclean hp
      have hslashes : marks v = '/' :: '/' :: marks (r.name.val ++ portText r.port) := by
        have hmarks : marks r.value = marks s.text ++
            ':' :: '/' :: '/' :: marks (r.name.val ++ portText r.port) := by
          rw [DomainRule.value, Option.mem_def.mp hs, schemeText, Option.elim_some, marks_append,
            marks_append, List.append_assoc]
          rfl
        rw [hmarks] at heq
        cases hscheme : marks s.text with
        | nil =>
          rw [hscheme] at heq
          exact (List.cons.inj heq).2.symm
        | cons c more =>
          rw [hscheme] at heq
          obtain rfl : c = ':' := (List.cons.inj heq).1
          have hmem : ':' ∈ marks s.text := hscheme ▸ List.mem_cons_self
          cases s.noColon ':' (mem_marks.mp hmem).1
      rw [hslashes] at hv
      rcases hv with hv | ⟨hv, -⟩
      · rcases hm '/' (hv ▸ List.mem_cons_self) with h | h <;> cases h
      · cases (List.cons.inj hv).1
    · exact absurd hequals (notMem_value rfl)
    · exact DomainRule.known_of_clean hclean hp s hs
  · rw [DomainRule.normalizeRule_text lower hform (fun heq => absurd heq hplain)] at h
    exact DomainRule.known_of_clean h hp

theorem example_name : '.' ∈ "vk.com".toList ∧
    ∀ c ∈ "vk.com".toList, c.isAlphanum = true ∨ c = '-' ∨ c = '.' := by
  simp

/-- `DOMAIN-SUFFIX,vk.com`, the example of a Clash rule. -/
def exampleRule : DomainRule where
  form := .clash none none true ⟨[], List.forall_mem_nil _⟩ ⟨[], List.forall_mem_nil _⟩ none none
  scheme := none
  name := ⟨"vk.com".toList, example_name⟩
  port := none

/-- **The example of a Clash rule is lost**: its pattern has the type and the comma. -/
theorem example_rule_lost :
    ¬ Matched asciiLowerCase (bareFrame.write exampleRule.text) exampleRule.name.val
      exampleRule.form.isSuffix ∧
    bareFrame.write exampleRule.text = "DOMAIN-SUFFIX,vk.com".toList := by
  have hline : bareFrame.write exampleRule.text = "DOMAIN-SUFFIX,vk.com".toList := by decide +kernel
  refine ⟨?_, hline⟩
  rintro ⟨p, hp, hhits, -⟩
  have hpattern : normalizeDomainPattern asciiLowerCase "DOMAIN-SUFFIX,vk.com".toList =
      some "domain-suffix,vk.com".toList := by decide +kernel
  rw [hline, hpattern] at hp
  obtain rfl := Option.some.inj hp
  revert hhits
  rw [patternHits]
  decide +kernel

/-- **The domain rules that are not lost** are those that the parser knows all of. -/
theorem matched_iff (lower : LowerCase) (f : LineFrame) (r : DomainRule) :
    Matched lower (f.write r.text) r.name.val r.form.isSuffix ↔ Readable f r := by
  constructor
  · rintro ⟨p, hp, hhits, -⟩
    have hunmarred := DomainRule.unmarred_of_hits hhits
    have hform := form_of_unmarred hp hunmarred
    have hcomment := comment_of_unmarred hp hunmarred hform
    exact ⟨hcomment, hform, scheme_of_unmarred hp hunmarred hform hcomment⟩
  · exact matched_of_readable lower

end HuntProxy.Routing
