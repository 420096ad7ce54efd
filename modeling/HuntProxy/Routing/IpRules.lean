import HuntProxy.Lib.Inet
import HuntProxy.Routing.Cache
import HuntProxy.Routing.DomainLines

/-!
# Address rules in a domain list

A rule for an IPv4 address or a block of addresses may stand in a list as it is, with a scheme
or a port, or as a Clash rule. Only a Clash rule with the dash of a list item in front is
recognised as one: any other is taken for a domain name, since its address has dots, and
becomes a pattern.

## Main results

- `skipped_iff` — the rules that are skipped
-/

namespace HuntProxy.Routing

open Text Url

/-- How an address is written down in a list. -/
inductive IpForm
  | plain (scheme : Option Scheme) (port : Option Port)
  | clash (dash : Option LineBlank) (quote : Quote) (gap blanks : LineBlank) (inner : Quote)
    (options : Option LineText)

/-- A rule for an IPv4 address, or for a block of addresses. -/
structure IpRule where
  form : IpForm
  address : ℕ
  inRange : address < 2 ^ 32
  length : Option (Fin 33)

/-- The address of a rule, with the length of its block. -/
def IpRule.block (r : IpRule) : Str :=
  Ip.text4 r.address ++ r.length.elim [] (fun n => '/' :: Nat.toDigits 10 n)

/-- The text of a form around an address. -/
def IpForm.text (block : Str) : IpForm → Str
  | .plain scheme port => schemeText scheme ++ (block ++ portText port)
  | .clash dash quote gap blanks inner options =>
    clashFront dash quote "IP-CIDR".toList gap blanks inner ++
      (block ++ (inner.text ++ (optionsText options ++ quote.text)))

def IpRule.text (r : IpRule) : Str := r.form.text r.block

/-- A Clash rule that is a list item. -/
def IpForm.dashed : IpForm → Bool
  | .plain .. => false
  | .clash dash .. => dash.isSome

/-- The line has no pattern, and a list with the line is parsed as the list without it. -/
structure Skipped (lower : LowerCase) (line : Str) : Prop where
  none : normalizeDomainPattern lower line = none
  parse : ∀ (s : RoutingState) (before after : List Str) (id name route : Str),
    s.parseDomainBlocklist (normalizeDomainPattern lower) (before ++ line :: after) id name route =
      s.parseDomainBlocklist (normalizeDomainPattern lower) (before ++ after) id name route

theorem skipped_of_none {lower : LowerCase} {line : Str}
    (h : normalizeDomainPattern lower line = none) : Skipped lower line := by
  refine ⟨h, fun s before after id name route => ?_⟩
  have hlines : (before ++ line :: after).filterMap (normalizeDomainPattern lower) =
      (before ++ after).filterMap (normalizeDomainPattern lower) := by
    rw [List.filterMap_append, List.filterMap_append, List.filterMap_cons_none h]
  rw [RoutingState.parseDomainBlocklist, RoutingState.parseDomainBlocklist, hlines]

/-! ### The letters of a rule -/

theorem IpRule.mem_block {r : IpRule} {c : Char} (h : c ∈ r.block) :
    c = '.' ∨ c = '/' ∨ c.isDigit = true := by
  rcases List.mem_append.mp h with h | h
  · exact (Ip.mem_text4 h).imp_right .inr
  · cases hlength : r.length with
    | none =>
      rw [hlength] at h
      cases h
    | some n =>
      rw [hlength] at h
      rcases List.mem_cons.mp h with rfl | h
      · exact .inr (.inl rfl)
      · exact .inr (.inr (Nat.isDigit_of_mem_toDigits (by decide) (by decide) h))

theorem IpRule.block_chars (r : IpRule) : ∀ c ∈ r.block, isValueChar c = true := by
  intro c hc
  rcases IpRule.mem_block hc with rfl | rfl | h
  · rfl
  · rfl
  · simp [isValueChar, Char.isAlphanum, h]

theorem IpRule.block_noSpace (r : IpRule) : ∀ c ∈ r.block, Text.isSpace c = false :=
  fun c hc => (isValueChar_plain (r.block_chars c hc)).1

theorem IpRule.dot_mem_block (r : IpRule) : '.' ∈ r.block :=
  List.mem_append_left _ (Ip.dot_mem_text4 r.address)

theorem IpRule.block_ne_nil (r : IpRule) : r.block ≠ [] := List.ne_nil_of_mem r.dot_mem_block

/-- A block begins with its address. -/
theorem IpRule.head_block (r : IpRule) :
    ∀ c ∈ r.block.head?, Text.isSpace c = false ∧ isCommentLetter c = false ∧ c ≠ '-' := by
  intro c hc
  have hne : Ip.text4 r.address ≠ [] := List.ne_nil_of_mem (Ip.dot_mem_text4 r.address)
  rw [IpRule.block, List.head?_append_of_ne_nil _ hne] at hc
  rcases Ip.mem_text4 (List.mem_of_head? hc) with rfl | hdigit
  · decide
  · refine LowerCase.of_ascii (P := fun c => c.isDigit = true → Text.isSpace c = false ∧
      isCommentLetter c = false ∧ c ≠ '-') (by decide) (LowerCase.ascii_of_isAlphanum ?_) hdigit
    rw [Char.isAlphanum, hdigit, Bool.or_true]

/-- The value of a plain rule. -/
theorem plainText_facts (r : IpRule) (scheme : Option Scheme) (port : Option Port) :
    (∀ c ∈ schemeText scheme ++ (r.block ++ portText port), isValueChar c = true) ∧
      ∀ c ∈ (schemeText scheme ++ (r.block ++ portText port)).head?,
        Text.isSpace c = false ∧ isCommentLetter c = false ∧ c ≠ '-' := by
  refine ⟨?_, fun c hc => ?_⟩
  · simp only [List.forall_mem_append]
    exact ⟨schemeText_chars scheme, r.block_chars, portText_chars port⟩
  · cases scheme with
    | none =>
      rw [schemeText, Option.elim_none, List.nil_append,
        List.head?_append_of_ne_nil _ r.block_ne_nil] at hc
      exact r.head_block c hc
    | some s =>
      obtain rfl : s.first = c := Option.some.inj hc
      have halphanum : s.first.isAlphanum = true := by
        rw [Char.isAlphanum, s.isAlpha, Bool.true_or]
      exact LowerCase.of_ascii (P := fun c => c.isAlpha = true → Text.isSpace c = false ∧
        isCommentLetter c = false ∧ c ≠ '-') (by decide) (LowerCase.ascii_of_isAlphanum halphanum)
        s.isAlpha

/-! ### What is skipped -/

theorem dashed_skipped (lower : LowerCase) (f : LineFrame) (r : IpRule)
    (h : r.form.dashed = true) : normalizeDomainPattern lower (f.write r.text) = none := by
  cases hform : r.form with
  | plain =>
    rw [hform] at h
    cases h
  | clash dash quote gap blanks inner options =>
    rw [hform] at h
    obtain ⟨b, rfl⟩ := Option.isSome_iff_exists.mp h
    have hsolid := solid_clash (some b) quote (t := "IP-CIDR".toList) (by decide) gap blanks inner
      r.block_noSpace r.block_ne_nil (fun c hc => (r.head_block c hc).2.1)
    obtain ⟨rest, hread, hsub⟩ := normalize_write lower f hsolid
      (inner.text ++ (optionsText options ++ quote.text))
    have hquote (q : Quote) : ∀ c ∈ q.text, notNewline c = true := by
      intro c hc
      have hq := q.isQuote c hc
      simp only [isQuote, Bool.or_eq_true, beq_iff_eq] at hq
      rcases hq with rfl | rfl <;> decide
    have hoptions : ∀ c ∈ optionsText options, notNewline c = true := by
      intro c hc
      cases options with
      | none => cases hc
      | some o =>
        rcases List.mem_cons.mp hc with rfl | hc
        · rfl
        · exact notNewline_of_not_isBreak (o.property c hc)
    have hrest : ∀ c ∈ rest, notNewline c = true := by
      intro c hc
      rcases List.mem_append.mp (hsub hc) with hc | hc
      · simp only [List.mem_append] at hc
        rcases hc with hc | hc | hc
        · exact hquote inner c hc
        · exact hoptions c hc
        · exact hquote quote c hc
      · exact f.notNewline c hc
    have hvalue : ∀ c ∈ inner.text ++ (r.block ++ rest), notNewline c = true := by
      simp only [List.forall_mem_append]
      exact ⟨hquote inner, fun c hc => (isValueChar_plain (r.block_chars c hc)).2.2, hrest⟩
    have hnone := normalizeRule_ipCidr lower b.isSpace quote.isQuote quote.length_le (.inl rfl)
      gap.isSpace blanks.isSpace (v := inner.text ++ (r.block ++ rest)) (by simp [r.block_ne_nil]) hvalue
    have htext : r.text = clashFront (some b) quote "IP-CIDR".toList gap blanks inner ++ r.block ++
        (inner.text ++ (optionsText options ++ quote.text)) := by
      rw [IpRule.text, hform, IpForm.text, List.append_assoc]
    rw [htext, hread, ← hnone]
    simp [clashFront, dashText]

theorem undashed_pattern (lower : LowerCase) (f : LineFrame) (r : IpRule)
    (h : r.form.dashed = false) : ∃ p, normalizeDomainPattern lower (f.write r.text) = some p := by
  -- a solid beginning that has the address is read, and it is no Clash rule
  have hsome {s rest : Str} (hs : Solid s) (hhead : ∀ c ∈ s.head?, Text.isSpace c = false ∧ c ≠ '-')
      (hdot : '.' ∈ s) (htext : r.text = s ++ rest) :
      ∃ p, normalizeDomainPattern lower (f.write r.text) = some p := by
    obtain ⟨rest', hread, -⟩ := normalize_write lower f hs rest
    have hstart : (s ++ rest').head? = s.head? := List.head?_append_of_ne_nil s hs.ne
    rw [htext, hread]
    refine normalizeRule_isSome lower ?_ ?_ (List.mem_append_left _ hdot)
    · rw [hstart]
      exact fun c hc => (hhead c hc).1
    · rw [hstart]
      exact fun heq => (hhead '-' heq).2 rfl
  cases hform : r.form with
  | plain scheme port =>
    obtain ⟨hchars, hhead⟩ := plainText_facts r scheme port
    refine @hsome _ [] (solid_value hchars (by simp [r.block_ne_nil])
      (fun c hc => (hhead c hc).2.1)) (fun c hc => ⟨(hhead c hc).1, (hhead c hc).2.2⟩) ?_ ?_
    · exact List.mem_append_right _ (List.mem_append_left _ r.dot_mem_block)
    · rw [IpRule.text, hform, List.append_nil]
      rfl
  | clash dash quote gap blanks inner options =>
    rw [hform] at h
    obtain rfl : dash = none := Option.not_isSome_iff_eq_none.mp (Bool.eq_false_iff.mp h)
    refine @hsome _ (inner.text ++ (optionsText options ++ quote.text))
      (solid_clash none quote (t := "IP-CIDR".toList) (by decide) gap blanks inner
        r.block_noSpace r.block_ne_nil (fun c hc => (r.head_block c hc).2.1)) (fun c hc => ?_)
      (List.mem_append_right _ r.dot_mem_block) ?_
    · obtain ⟨hspace, -, -, -, hdash⟩ :=
        clashFront_head none quote (t := "IP-CIDR".toList) (by decide) gap blanks inner r.block c hc
      exact ⟨hspace, fun heq => by cases hdash.mp heq⟩
    · rw [IpRule.text, hform, IpForm.text, List.append_assoc]

/-- **The address rules that are skipped** are the Clash rules with the dash of a list item. -/
theorem skipped_iff (lower : LowerCase) (f : LineFrame) (r : IpRule) :
    Skipped lower (f.write r.text) ↔ r.form.dashed = true := by
  constructor
  · intro h
    by_contra hdash
    obtain ⟨p, hp⟩ := undashed_pattern lower f r (Bool.eq_false_iff.mpr hdash)
    cases h.none.symm.trans hp
  · exact fun h => skipped_of_none (dashed_skipped lower f r h)

/-- `10.0.0.0/8`, as a block list of addresses has it. -/
def plainBlock : IpRule := ⟨.plain none none, 167772160, by decide, some 8⟩

/-- No lists and no sources. -/
def emptyRouting : RoutingState where
  db := ⟨[], [], Dict.empty⟩
  sources := []
  cache := none
  cacheTs := 0

/-- **A plain block of addresses becomes a domain pattern**, and an entry of the list. -/
theorem plain_block_kept : ¬ Skipped asciiLowerCase (bareFrame.write plainBlock.text) ∧
    bareFrame.write plainBlock.text = "10.0.0.0/8".toList ∧
    (emptyRouting.parseDomainBlocklist (normalizeDomainPattern asciiLowerCase)
      ["10.0.0.0/8".toList] "mixed".toList "Mixed".toList "direct".toList).db.entries =
      [⟨"mixed".toList, "10.0.0.0/8".toList⟩] := by
  have hline : bareFrame.write plainBlock.text = "10.0.0.0/8".toList := by decide +kernel
  refine ⟨fun h => ?_, hline, by decide +kernel⟩
  have hkept : normalizeDomainPattern asciiLowerCase "10.0.0.0/8".toList =
      some "10.0.0.0/8".toList := by decide +kernel
  have hnone := h.none
  rw [hline, hkept] at hnone
  cases hnone

end HuntProxy.Routing
