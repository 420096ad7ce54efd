import HuntProxy.Lib.Casing
import HuntProxy.Lib.Decimal
import HuntProxy.Lib.Pattern
import HuntProxy.Routing.Resolve
import HuntProxy.Lib.Text
import Mathlib.Data.List.Chain

/-!
# The lines of a domain list

`normalize_domain_pattern` makes a routing pattern of a line of a domain list: comments are
cut off, then the line is read as a Clash rule, as a v2fly rule or as a plain domain, and what
it names is cleaned of its scheme and its port.

The comments are cut one separator after the other, each time at the first place where it
stands. A text in which no two letters begin a separator is left alone by all of them, whatever
stands behind it; a comment is cut off when one of the separators begins it, and stays with
its marker otherwise.

## Main definitions

- `normalizeDomainPattern`, `cleanPlainDomain` — the parser
- `Solid` — texts in which no comment begins

## Main results

- `stripComments_solid`, `stripComments_comment` — what is left of a line
- `normalizeDomainPattern_solid` — the rule that is read
-/

namespace HuntProxy.Routing

open Text Pattern

/-! ### The parser -/

/-- The text before the first occurrence of a word. -/
def cutBefore (sep : Str) : Str → Option Str
  | [] => if sep = [] then some [] else none
  | c :: s => if sep.isPrefixOf (c :: s) then some [] else (cutBefore sep s).map (c :: ·)

/-- The separators of inline comments. -/
def commentSeps : List Str := [" #".toList, "\t#".toList, " //".toList, " ;".toList]

/-- `line[:line.find(sep)].strip()`, when the separator occurs. -/
def stripComment (line sep : Str) : Str := (cutBefore sep line).elim line Text.strip

/-- The loop over the separators. -/
def stripComments (line : Str) : Str := commentSeps.foldl stripComment line

/-- A quote of either kind. -/
def isQuote (c : Char) : Bool := c == '\'' || c == '"'

/-- The letters that the dot of a pattern stands for. -/
def notNewline (c : Char) : Bool := c != '\n'

/-- The types of Clash rules that are read. -/
def clashTypes : List Str :=
  ["DOMAIN".toList, "DOMAIN-SUFFIX".toList, "DOMAIN-KEYWORD".toList, "DOMAIN-REGEXP".toList,
    "IP-CIDR".toList, "IP6-CIDR".toList]

/-- `_CLASH_RULE_RE`. -/
def clashRule : Pattern Char (Str × Str) := do
  let _ ← many Text.isSpace
  let _ ← item (· == '-')
  let _ ← many Text.isSpace
  let _ ← opt (item isQuote)
  let t ← alt (clashTypes.map word)
  let _ ← many Text.isSpace
  let _ ← item (· == ',')
  let _ ← many Text.isSpace
  let v ← someLazy notNewline
  let _ ← opt (item isQuote)
  let _ ← many Text.isSpace
  let _ ← atEnd '\n'
  pure (t, v)

/-- The types of v2fly rules. -/
def v2flyTypes : List Str :=
  ["domain".toList, "domain-suffix".toList, "domain-keyword".toList, "domain-regexp".toList,
    "full".toList]

/-- `_V2FLY_RULE_RE`. -/
def v2flyRule : Pattern Char (Str × Str) := do
  let t ← alt (v2flyTypes.map word)
  let _ ← many Text.isSpace
  let _ ← item (fun c => c == ':' || c == '=')
  let _ ← many Text.isSpace
  let v ← someLazy notNewline
  let _ ← many Text.isSpace
  let _ ← atEnd '\n'
  pure (t, v)

/-- A word with a last letter that may be missing. -/
def wordOpt (w : Str) (c : Char) : Pattern Char Unit := do
  let _ ← word w
  let _ ← opt (item (· == c))
  pure ()

/-- A scheme that is taken away: `(https?|wss?|socks5?)://`. -/
def schemeRule : Pattern Char Unit := do
  let _ ← alt [wordOpt "http".toList 's', wordOpt "ws".toList 's', wordOpt "socks".toList '5']
  let _ ← word "://".toList
  pure ()

/-- The letters `[a-z0-9.*-]`. -/
def domainChar (c : Char) : Bool :=
  c.isLower || c.isDigit || c == '.' || c == '*' || c == '-'

/-- A name that may have a port: `([a-z0-9.*-]+)(:\d+)?$`. -/
def portRule : Pattern Char (Str × Option Str) := do
  let name ← many1 domainChar
  let port ← opt (do let _ ← item (· == ':'); many1 Decimal.isDecimal)
  let _ ← atEnd '\n'
  pure (name, port)

/-- The value without its scheme. -/
def dropScheme (v : Str) : Str := (schemeRule.first v).elim v Prod.snd

/-- The value without its port. -/
def dropPort (v : Str) : Str :=
  (portRule.first v).elim v (fun r => if r.1.2.isSome then r.1.1 else v)

section

variable (lower : LowerCase)

/-- `_clean_plain_domain`. -/
def cleanPlainDomain (v front : Str) : Option Str :=
  let v := lower.apply (Text.strip v)
  if v = [] then none
  else
    let v := front ++ dropPort (dropScheme v)
    if '.' ∈ v ∨ "*.".toList.isPrefixOf v then some v else none

/-- The pattern of a Clash rule. -/
def clashPattern (t v : Str) : Option Str :=
  let v := trim isQuote (Text.strip v)
  if t = "IP-CIDR".toList ∨ t = "IP6-CIDR".toList then none
  else if t = "DOMAIN-SUFFIX".toList then cleanPlainDomain lower v "*.".toList
  else cleanPlainDomain lower v []

/-- The pattern of a v2fly rule. -/
def v2flyPattern (t v : Str) : Option Str :=
  let v := Text.strip v
  if t = "domain-suffix".toList then cleanPlainDomain lower v "*.".toList
  else cleanPlainDomain lower v []

/-- The pattern of a line without comments. -/
def normalizeRule (line : Str) : Option Str :=
  (clashRule.first line).elim
    ((v2flyRule.first line).elim (cleanPlainDomain lower line [])
      (fun r => v2flyPattern lower r.1.1 r.1.2))
    (fun r => clashPattern lower r.1.1 r.1.2)

/-- `normalize_domain_pattern`. -/
def normalizeDomainPattern (raw : Str) : Option Str :=
  let line := Text.strip raw
  if line = [] then none
  else if "#".toList.isPrefixOf line ∨ ";".toList.isPrefixOf line ∨ "//".toList.isPrefixOf line then
    none
  else
    let line := stripComments line
    if line = [] then none else normalizeRule lower line

end

/-! ### Comments -/

/-- Two letters that a separator begins with. -/
def opens (a b : Char) : Bool := commentSeps.any (fun sep => [a, b].isPrefixOf sep)

/-- A letter that a comment begins with. -/
def isCommentLetter (c : Char) : Bool := c == '#' || c == '/' || c == ';'

/-- A text that is not blank at its ends and in which no comment begins. -/
structure Solid (s : Str) : Prop where
  ne : s ≠ []
  bare : Bare Text.isSpace s
  head : ∀ c ∈ s.head?, isCommentLetter c = false
  closed : s.IsChain (fun a b => opens a b = false)

theorem commentSeps_cons : ∀ sep ∈ commentSeps, ∃ a b more, sep = a :: b :: more ∧
    Text.isSpace a = true ∧ isCommentLetter b = true := by
  intro sep hsep
  simp only [commentSeps, List.mem_cons, List.not_mem_nil, or_false] at hsep
  rcases hsep with rfl | rfl | rfl | rfl
  · exact ⟨' ', '#', [], rfl, by decide, by decide⟩
  · exact ⟨'\t', '#', [], rfl, by decide, by decide⟩
  · exact ⟨' ', '/', ['/'], rfl, by decide, by decide⟩
  · exact ⟨' ', ';', [], rfl, by decide, by decide⟩

theorem opens_eq_true_iff {a b : Char} :
    opens a b = true ↔ ∃ sep ∈ commentSeps, [a, b] <+: sep := by
  simp [opens, List.isPrefixOf_iff_prefix]

/-- A comment begins with a blank and a letter of its marker. -/
theorem opens_eq_true {a b : Char} (h : opens a b = true) :
    Text.isSpace a = true ∧ isCommentLetter b = true := by
  obtain ⟨sep, hsep, rest, heq⟩ := opens_eq_true_iff.mp h
  obtain ⟨a', b', more, rfl, ha, hb⟩ := commentSeps_cons sep hsep
  obtain ⟨rfl, hrest⟩ := List.cons.inj heq
  obtain ⟨rfl, -⟩ := List.cons.inj hrest
  exact ⟨ha, hb⟩

theorem opens_of_not_space {a b : Char} (h : Text.isSpace a = false) : opens a b = false := by
  by_contra hopens
  rw [(opens_eq_true (Bool.not_eq_false _ ▸ hopens)).1] at h
  cases h

theorem opens_of_not_letter {a b : Char} (h : isCommentLetter b = false) : opens a b = false := by
  by_contra hopens
  rw [(opens_eq_true (Bool.not_eq_false _ ▸ hopens)).2] at h
  cases h

theorem not_commentLetter_of_isSpace {c : Char} (h : Text.isSpace c = true) :
    isCommentLetter c = false := by
  by_contra hletter
  simp only [isCommentLetter, Bool.not_eq_false, Bool.or_eq_true, beq_iff_eq] at hletter
  obtain (rfl | rfl) | rfl := hletter <;> cases h

/-- A separator is not found in front of a text when no two letters up to there begin one. -/
theorem cutBefore_append {a b : Char} {more s rest : Str}
    (h : (s ++ rest.take 1).IsChain (fun x y => ¬ [x, y] <+: a :: b :: more)) :
    cutBefore (a :: b :: more) (s ++ rest) = (cutBefore (a :: b :: more) rest).map (s ++ ·) := by
  induction s with
  | nil => simp
  | cons c s ih =>
    have hnot : ¬ (a :: b :: more).isPrefixOf (c :: (s ++ rest)) = true := by
      intro hprefix
      obtain ⟨more', heq⟩ := List.isPrefixOf_iff_prefix.mp hprefix
      obtain ⟨rfl, htail⟩ := List.cons.inj heq
      have hnext : ∃ more'', s ++ rest.take 1 = b :: more'' := by
        cases s with
        | nil =>
          cases rest with
          | nil => cases htail
          | cons d rest =>
            obtain ⟨rfl, -⟩ := List.cons.inj htail
            exact ⟨[], rfl⟩
        | cons d s =>
          obtain ⟨rfl, -⟩ := List.cons.inj htail
          exact ⟨s ++ rest.take 1, rfl⟩
      obtain ⟨more'', hnext⟩ := hnext
      rw [List.cons_append, hnext, List.isChain_cons_cons] at h
      exact h.1 ⟨more, rfl⟩
    rw [List.cons_append, cutBefore, if_neg hnot, ih h.tail, Option.map_map]
    rfl

theorem Solid.cutBefore_append {s sep : Str} (hs : Solid s) (hsep : sep ∈ commentSeps) (rest : Str) :
    cutBefore sep (s ++ rest) = (cutBefore sep rest).map (s ++ ·) := by
  obtain ⟨a, b, more, rfl, -, -⟩ := commentSeps_cons sep hsep
  refine Routing.cutBefore_append ?_
  rw [List.isChain_append]
  refine ⟨hs.closed.imp fun x y hxy hprefix => ?_, ?_, fun x hx y _ hprefix => ?_⟩
  · rw [opens_eq_true_iff.mpr ⟨_, hsep, hprefix⟩] at hxy
    cases hxy
  · cases rest with
    | nil => exact List.isChain_nil
    | cons c rest => exact List.isChain_singleton c
  · have hopens := opens_of_not_space (b := y) (hs.bare.last x hx)
    rw [opens_eq_true_iff.mpr ⟨_, hsep, hprefix⟩] at hopens
    cases hopens

theorem cutBefore_subset {sep s front : Str} (h : cutBefore sep s = some front) : front ⊆ s := by
  induction s generalizing front with
  | nil =>
    rw [cutBefore] at h
    split at h
    · cases h
      exact List.nil_subset []
    · cases h
  | cons c s ih =>
    rw [cutBefore] at h
    split at h
    · cases h
      exact List.nil_subset _
    · obtain ⟨front', hfront, rfl⟩ := Option.map_eq_some_iff.mp h
      exact List.cons_subset_cons c (ih hfront)

/-- One separator: a solid text stays, and what is left behind it was there before. -/
theorem stripComment_solid {sep s : Str} (hs : Solid s) (hsep : sep ∈ commentSeps) (rest : Str) :
    ∃ rest', stripComment (s ++ rest) sep = s ++ rest' ∧ rest' ⊆ rest := by
  rw [stripComment, hs.cutBefore_append hsep]
  cases hcut : cutBefore sep rest with
  | none => exact ⟨rest, rfl, List.Subset.refl rest⟩
  | some front =>
    obtain ⟨front', blanks, rfl, -, htrim⟩ := trim_bare_append hs.bare hs.ne front
    exact ⟨front', htrim, fun c hc => cutBefore_subset hcut (List.mem_append_left blanks hc)⟩

theorem foldl_stripComment_solid {s : Str} (hs : Solid s) {seps : List Str}
    (hseps : ∀ sep ∈ seps, sep ∈ commentSeps) (rest : Str) :
    ∃ rest', seps.foldl stripComment (s ++ rest) = s ++ rest' ∧ rest' ⊆ rest := by
  induction seps generalizing rest with
  | nil => exact ⟨rest, rfl, List.Subset.refl rest⟩
  | cons sep seps ih =>
    obtain ⟨rest₁, hfirst, hsub₁⟩ := stripComment_solid hs (hseps sep List.mem_cons_self) rest
    obtain ⟨rest₂, hrest, hsub₂⟩ := ih (fun sep' h => hseps sep' (List.mem_cons_of_mem sep h)) rest₁
    exact ⟨rest₂, by rw [List.foldl_cons, hfirst, hrest], List.Subset.trans hsub₂ hsub₁⟩

theorem foldl_stripComment_self {s : Str} (hs : Solid s) {seps : List Str}
    (hseps : ∀ sep ∈ seps, sep ∈ commentSeps) : seps.foldl stripComment s = s := by
  obtain ⟨rest, heq, hsub⟩ := foldl_stripComment_solid hs hseps []
  rwa [List.append_nil, List.subset_nil.mp hsub, List.append_nil] at heq

/-- **A solid text survives the comments**, whatever stands behind it. -/
theorem stripComments_solid {s : Str} (hs : Solid s) (rest : Str) :
    ∃ rest', stripComments (s ++ rest) = s ++ rest' ∧ rest' ⊆ rest :=
  foldl_stripComment_solid hs (fun _ h => h) rest

/-- The markers of comments. -/
def commentMarkers : List Str := ["#".toList, "//".toList, ";".toList]

/-- A marker that ends a separator is the only one that the separator can run into. -/
theorem marker_of_sep {a b : Char} {more marker : Str} (hmarker : marker ∈ commentMarkers)
    (hsep : a :: b :: more ∈ commentSeps) (hhead : marker.head? = some b) : marker = b :: more := by
  simp only [commentMarkers, List.mem_cons, List.not_mem_nil, or_false] at hmarker
  simp only [commentSeps, List.mem_cons, List.not_mem_nil, or_false] at hsep
  rcases hmarker with rfl | rfl | rfl <;> rcases hsep with h | h | h | h <;> cases h <;>
    first | rfl | cases hhead

/-- Blanks behind a solid text begin no comment with each other or with it. -/
theorem Solid.blanks_closed {s gap : Str} (hs : Solid s) (hgap : ∀ c ∈ gap, Text.isSpace c = true) :
    (s ++ gap).IsChain (fun x y => opens x y = false) := by
  rw [List.isChain_append]
  refine ⟨hs.closed, ?_, fun x hx y _ => opens_of_not_space (hs.bare.last x hx)⟩
  refine (List.pairwise_of_forall_mem_list fun x _ y hy => ?_).isChain
  exact opens_of_not_letter (not_commentLetter_of_isSpace (hgap y hy))

theorem marker_closed {marker : Str} (h : marker ∈ commentMarkers) :
    marker ≠ [] ∧ Bare Text.isSpace marker ∧ marker.IsChain (fun x y => opens x y = false) := by
  simp only [commentMarkers, List.mem_cons, List.not_mem_nil, or_false] at h
  rcases h with rfl | rfl | rfl
  all_goals exact ⟨by decide, Bare.of_all (by simp [Text.isSpace]), by decide⟩

/-- The marker of a comment, with the blanks in front of it, is solid behind a solid text, unless
it completes a separator. -/
theorem Solid.comment {s gap marker : Str} (hs : Solid s) (hgap : ∀ c ∈ gap, Text.isSpace c = true)
    (hmarker : marker ∈ commentMarkers)
    (hnot : ∀ a ∈ gap.getLast?, a :: marker ∉ commentSeps) : Solid (s ++ gap ++ marker) := by
  obtain ⟨hmne, hmbare, hmclosed⟩ := marker_closed hmarker
  refine ⟨by simp [hmne], hs.bare.around gap hmbare hs.ne hmne, fun c hc => hs.head c ?_, ?_⟩
  · rwa [List.append_assoc, List.head?_append_of_ne_nil s hs.ne] at hc
  · rw [List.isChain_append]
    refine ⟨hs.blanks_closed hgap, hmclosed, fun a ha b hb => ?_⟩
    rw [← Bool.not_eq_true]
    intro hopens
    obtain ⟨sep, hsep, more, rfl⟩ := opens_eq_true_iff.mp hopens
    have heq := marker_of_sep hmarker hsep hb
    rw [List.getLast?_append] at ha
    cases hlast : gap.getLast? with
    | none =>
      rw [hlast] at ha
      cases (opens_eq_true hopens).1.symm.trans (hs.bare.last a ha)
    | some a' =>
      rw [hlast] at ha
      obtain rfl : a' = a := Option.some.inj ha
      rw [heq] at hnot
      exact hnot a' hlast hsep

/-- The comment of a line that a separator begins, while the separators are gone through: it is
cut off by its own one, and keeps its marker before. -/
theorem stripComment_comment {s gap marker : Str} {a : Char} (hs : Solid s)
    (hgap : ∀ c ∈ gap ++ [a], Text.isSpace c = true) (hmarker : marker ∈ commentMarkers)
    (hown : a :: marker ∈ commentSeps) {sep : Str} (hsep : sep ∈ commentSeps) (text : Str) :
    (sep = a :: marker ∧ stripComment (s ++ (gap ++ [a]) ++ marker ++ text) sep = s) ∨
      sep ≠ a :: marker ∧ ∃ text', stripComment (s ++ (gap ++ [a]) ++ marker ++ text) sep =
        s ++ (gap ++ [a]) ++ marker ++ text' := by
  obtain ⟨hmne, hmbare, hmclosed⟩ := marker_closed hmarker
  have hblanks := hs.blanks_closed hgap
  have hclosed {l : Str} {sep : Str} (hsep : sep ∈ commentSeps)
      (hl : l.IsChain (fun x y => opens x y = false)) : l.IsChain (fun x y => ¬ [x, y] <+: sep) := by
    refine hl.imp fun x y hxy hprefix => ?_
    rw [opens_eq_true_iff.mpr ⟨sep, hsep, hprefix⟩] at hxy
    cases hxy
  by_cases heq : sep = a :: marker
  · subst heq
    -- the own separator is found, since nothing in front begins one
    obtain ⟨m, more, rfl⟩ := List.exists_cons_of_ne_nil hmne
    refine .inl ⟨rfl, ?_⟩
    have htext : s ++ (gap ++ [a]) ++ (m :: more) ++ text = s ++ gap ++ (a :: m :: (more ++ text)) := by
      simp
    have hchain : (s ++ gap ++ (a :: m :: (more ++ text)).take 1).IsChain
        (fun x y => ¬ [x, y] <+: a :: m :: more) := by
      have hfront : s ++ gap ++ (a :: m :: (more ++ text)).take 1 = s ++ (gap ++ [a]) := by simp
      rw [hfront]
      exact hclosed hsep hblanks
    have hhit : cutBefore (a :: m :: more) (a :: m :: (more ++ text)) = some [] :=
      if_pos (List.isPrefixOf_iff_prefix.mpr ⟨text, by simp⟩)
    have hstrip : Text.strip (s ++ gap) = s := by
      rw [strip_eq_trim]
      exact trim_append_right hs.bare (fun c hc => hgap c (List.mem_append_left [a] hc))
    rw [stripComment, htext, cutBefore_append hchain, hhit]
    simp [hstrip]
  · obtain ⟨x, y, more, rfl, -, -⟩ := commentSeps_cons sep hsep
    have hbare : Bare Text.isSpace (s ++ (gap ++ [a]) ++ marker) := hs.bare.around _ hmbare hs.ne hmne
    have hchain : (s ++ (gap ++ [a]) ++ marker ++ text.take 1).IsChain
        (fun u v => ¬ [u, v] <+: x :: y :: more) := by
      rw [List.isChain_append, List.isChain_append]
      refine ⟨⟨hclosed hsep hblanks, hclosed hsep hmclosed, fun u hu v hv hprefix => ?_⟩, ?_, ?_⟩
      · -- the own separator is another one
        rw [← List.append_assoc, List.getLast?_concat] at hu
        obtain rfl : a = u := Option.some.inj hu
        obtain ⟨more', hmore⟩ := hprefix
        obtain ⟨rfl, htail⟩ := List.cons.inj hmore
        obtain ⟨rfl, -⟩ := List.cons.inj htail
        exact heq (by rw [marker_of_sep hmarker hsep hv])
      · cases text with
        | nil => exact List.isChain_nil
        | cons c text => exact List.isChain_singleton c
      · intro u hu v _ hprefix
        have hopens := opens_of_not_space (b := v) (hbare.last u hu)
        rw [opens_eq_true_iff.mpr ⟨_, hsep, hprefix⟩] at hopens
        cases hopens
    refine .inr ⟨heq, ?_⟩
    rw [stripComment, cutBefore_append hchain]
    cases cutBefore (x :: y :: more) text with
    | none => exact ⟨text, rfl⟩
    | some front =>
      obtain ⟨front', -, -, -, htrim⟩ := trim_bare_append hbare (by simp) front
      exact ⟨front', htrim⟩

theorem stripComments_self {s : Str} (hs : Solid s) : stripComments s = s :=
  foldl_stripComment_self hs (fun _ h => h)

/-- **A comment is cut off** when one of the separators begins it. -/
theorem stripComments_comment {s gap marker : Str} {a : Char} (hs : Solid s)
    (hgap : ∀ c ∈ gap ++ [a], Text.isSpace c = true) (hmarker : marker ∈ commentMarkers)
    (hown : a :: marker ∈ commentSeps) (text : Str) :
    stripComments (s ++ (gap ++ [a]) ++ marker ++ text) = s := by
  have hfold : ∀ seps : List Str, (∀ sep ∈ seps, sep ∈ commentSeps) → a :: marker ∈ seps →
      ∀ text : Str, seps.foldl stripComment (s ++ (gap ++ [a]) ++ marker ++ text) = s := by
    intro seps
    induction seps with
    | nil => nofun
    | cons sep seps ih =>
      intro hseps hmem text
      have hseps' : ∀ sep' ∈ seps, sep' ∈ commentSeps :=
        fun sep' h => hseps sep' (List.mem_cons_of_mem sep h)
      rw [List.foldl_cons]
      obtain ⟨-, hcut⟩ | ⟨hne, text', hkept⟩ :=
        stripComment_comment hs hgap hmarker hown (hseps sep List.mem_cons_self) text
      · -- the text alone is left, and it stays
        rw [hcut, foldl_stripComment_self hs hseps']
      · rw [hkept]
        refine ih hseps' ?_ text'
        rcases List.mem_cons.mp hmem with heq | hmem
        · exact absurd heq.symm hne
        · exact hmem
  exact hfold commentSeps (fun _ h => h) hown text

/-- A line that begins with a solid text is read as a rule once its comments are cut. -/
theorem normalizeDomainPattern_solid (lower : LowerCase) {raw s rest : Str} (hs : Solid s)
    (hraw : Text.strip raw = s ++ rest) :
    normalizeDomainPattern lower raw = normalizeRule lower (stripComments (s ++ rest)) := by
  obtain ⟨c, s', rfl⟩ := List.exists_cons_of_ne_nil hs.ne
  have hc := hs.head c rfl
  have hhead (d : Char) (hd : isCommentLetter d = true) (more : Str) :
      ¬ (d :: more).isPrefixOf (c :: s' ++ rest) = true := by
    intro hprefix
    obtain ⟨more', heq⟩ := List.isPrefixOf_iff_prefix.mp hprefix
    obtain ⟨rfl, -⟩ := List.cons.inj heq
    cases hc.symm.trans hd
  have hmarks : ¬ ("#".toList.isPrefixOf (c :: s' ++ rest) ∨ ";".toList.isPrefixOf (c :: s' ++ rest) ∨
      "//".toList.isPrefixOf (c :: s' ++ rest)) := by
    rintro (h | h | h)
    · exact hhead '#' (by decide) [] h
    · exact hhead ';' (by decide) [] h
    · exact hhead '/' (by decide) ['/'] h
  obtain ⟨rest', hcut, -⟩ := stripComments_solid hs rest
  have hne : ¬ stripComments (c :: s' ++ rest) = [] := by
    rw [hcut]
    exact List.cons_ne_nil c (s' ++ rest')
  rw [normalizeDomainPattern, hraw]
  dsimp only
  rw [if_neg (by simp), if_neg hmarks, if_neg hne]

end HuntProxy.Routing
