import HuntProxy.Lib.Decimal
import HuntProxy.Lib.Pattern
import HuntProxy.Lib.Split
import HuntProxy.Lib.Trim
import Mathlib.Data.Finset.Image

/-!
# Addresses in the texts of proxy sources

`_parse_source_text` looks for four groups of up to three digits, a colon and up to five digits
in a text, from the left and without overlaps, and keeps what has a port in range. Between two
colons of a text stands one part; the address in front of a colon is at the end of a part, the
port behind it at the beginning of the next one. So a text is read part by part, and the reading
of one hands to the next no more than the number of digits it has taken from it as a port.

## Main definitions

- `parseSourceText` — the addresses that are found
- `IsToken` — the addresses that the text contains
- `joints` — the parts around each colon, and the digits that are taken
- `Faithful` — the texts that have no stray and no missed addresses

## Main results

- `scan_joints` — the matches of a text are those at its colons
- `parsed_iff` — the texts of which exactly the addresses are found
-/

namespace HuntProxy.Sources

open Pattern

abbrev Str := List Char

/-! ### The parser -/

/-- `\d{1,3}`. -/
def octetPattern : Pattern Char Str := upTo 2 Decimal.isDecimal

/-- `\.\d{1,3}`. -/
def dotOctetPattern : Pattern Char Str := do
  let c ← item (· == '.')
  let o ← octetPattern
  pure (c :: o)

/-- `(\d{1,3}(?:\.\d{1,3}){3}):`. -/
def addressPattern : Pattern Char Str := do
  let o₁ ← octetPattern
  let o₂ ← dotOctetPattern
  let o₃ ← dotOctetPattern
  let o₄ ← dotOctetPattern
  let _ ← item (· == ':')
  pure (o₁ ++ (o₂ ++ (o₃ ++ o₄)))

/-- The address, the colon and `(\d{1,5})`. -/
def sourcePattern : Pattern Char (Str × Str) := do
  let ip ← addressPattern
  let port ← upTo 4 Decimal.isDecimal
  pure (ip, port)

/-- The address that is added for a match, if its port is in range. -/
def foundText (m : Str × Str) : Option Str :=
  let port := Decimal.value m.2
  if 1 ≤ port ∧ port ≤ 65535 then some (m.1 ++ ':' :: Nat.toDigits 10 port) else none

/-- `_parse_source_text`. -/
def parseSourceText (text : Str) : Finset Str :=
  ((sourcePattern.scan 0 text).filterMap foundText).toFinset

/-! ### What is stored and checked -/

/-- The rows of `proxy_source_entries`: the sources and their addresses. -/
abbrev Rows := Finset (Str × Str)

/-- `_replace_proxy_source_entries`. -/
def replaceEntries (rows : Rows) (source : Str) (addresses : Finset Str) : Rows :=
  rows.filter (fun row => row.1 ≠ source) ∪ addresses.image (fun address => (source, address))

/-- A run of `_fetch_one_source`: the text that has been downloaded, if any, and whether the
database takes the rows. -/
structure Fetch where
  source : Str
  text : Option Str
  committed : Bool

/-- `_fetch_one_source`. -/
def fetchOneSource (rows : Rows) (f : Fetch) : Rows :=
  match f.text with
  | none => rows
  | some text =>
    let found := parseSourceText text
    if f.committed then replaceEntries rows f.source found else rows

/-- The addresses that `_download_sources` hands over to be checked and rated. -/
def handedOver (rows : Rows) : Finset Str := rows.image Prod.snd

/-! ### Addresses of a text -/

/-- An octet as the pattern has it. -/
def isLooseOctet (o : Str) : Bool := o != [] && (o.length ≤ 3 && o.all Decimal.isDecimal)

/-- An octet: up to three digits of ASCII for a number up to 255. -/
def isOctet (o : Str) : Bool :=
  o != [] && (o.length ≤ 3 && (o.all Char.isDigit && Decimal.value o ≤ 255))

/-- Four octets between dots. -/
def isAddress (octet : Str → Bool) (a : Str) : Bool :=
  (a.splitOn '.').length == 4 && (a.splitOn '.').all octet

/-- No address goes on to the left: the text ends neither with a digit nor with a digit and a dot. -/
def FreeFront (front : Str) : Prop :=
  ∀ d, Decimal.isDecimal d = true → ¬ [d] <:+ front ∧ ¬ [d, '.'] <:+ front

/-- An address and a port with what stands around them: `front`, the address, a colon, the digits
of the port, `rest`. -/
structure TokenParts (front address port rest x : Str) : Prop where
  octets : isAddress isOctet address = true
  free : FreeFront front
  ne : port ≠ []
  digits : ∀ c ∈ port, c.isDigit = true
  ends : ∀ c ∈ rest.head?, Decimal.isDecimal c = false
  range : 1 ≤ Decimal.value port ∧ Decimal.value port ≤ 65535
  text : x = address ++ ':' :: Nat.toDigits 10 (Decimal.value port)

/-- The text contains the address with the port. -/
def IsToken (text x : Str) : Prop :=
  ∃ front address port rest, text = front ++ address ++ ':' :: (port ++ rest) ∧
    TokenParts front address port rest x

/-! ### The parts around the colons -/

/-- The longest address of loose octets at the end of a part. -/
def tailAddress : Str → Option Str
  | [] => none
  | c :: w => if isAddress isLooseOctet (c :: w) then some (c :: w) else tailAddress w

/-- The digits at the beginning of a part that are a port. -/
def portDigits (w : Str) : Str := (w.takeWhile Decimal.isDecimal).take 5

/-- What stands around a colon: the parts in front of it and behind it, and the number of digits
in front that have been taken already. -/
structure Joint where
  taken : ℕ
  before : Str
  behind : Str
  deriving DecidableEq

/-- The loose address at a colon: four groups of digits at the end of what is left in front of it,
and up to five digits behind it. -/
def Joint.loose (j : Joint) : Option (Str × Str) :=
  if portDigits j.behind = [] then none
  else (tailAddress (j.before.drop j.taken)).map (fun a => (a, portDigits j.behind))

/-- The colons behind a part, with the parts around them. -/
def joints : ℕ → Str → List Str → List Joint
  | _, _, [] => []
  | taken, w, w' :: parts =>
    let j : Joint := ⟨taken, w, w'⟩
    j :: joints (if j.loose.isSome then (portDigits w').length else 0) w' parts

/-- The colons of a text. -/
def jointsOf (text : Str) : List Joint :=
  match text.splitOn ':' with
  | [] => []
  | w :: parts => joints 0 w parts

/-- The loose address at the colon, with its port in range. -/
def Joint.Yields (j : Joint) (x : Str) : Prop := ∃ m, j.loose = some m ∧ foundText m = some x

/-- An address stands at the colon. -/
def Joint.Holds (j : Joint) (x : Str) : Prop :=
  ∃ front address port rest, j.before = front ++ address ∧ j.behind = port ++ rest ∧
    TokenParts front address port rest x

/-- The loose address is none: its octets are too large, its digits are not those of ASCII, an
address goes on in front of it or its port goes on behind it. -/
def Joint.Stray (j : Joint) (x : Str) : Prop :=
  ∃ front address, j.before = front ++ address ∧ j.loose = some (address, portDigits j.behind) ∧
    foundText (address, portDigits j.behind) = some x ∧
    (isAddress isOctet address = false ∨ ¬ FreeFront front ∨
      ¬ (∀ c ∈ portDigits j.behind, c.isDigit = true) ∨
      5 < (j.behind.takeWhile Decimal.isDecimal).length)

/-- An address is missed: its port has more than five digits, or its digits in front have been
taken as the port of the address before. -/
def Joint.Missed (j : Joint) (x : Str) : Prop :=
  ∃ front address port rest, j.before = front ++ address ∧ j.behind = port ++ rest ∧
    TokenParts front address port rest x ∧ (5 < port.length ∨ front.length < j.taken)

/-- Exactly the addresses of the text are found. -/
def Exact (text : Str) : Prop := ∀ x, x ∈ parseSourceText text ↔ IsToken text x

/-- No loose address is stray and no address is missed, or else it stands at another colon, and is
the loose one at another colon. -/
def Faithful (text : Str) : Prop :=
  ∀ j ∈ jointsOf text, ∀ x,
    (j.Stray x → ∃ k ∈ jointsOf text, k.Holds x) ∧ (j.Missed x → ∃ k ∈ jointsOf text, k.Yields x)

/-! ### Octets and addresses -/

theorem dot_notDecimal : ¬ Decimal.isDecimal '.' = true :=
  Bool.eq_false_iff.mp (Decimal.not_isDecimal_of_ascii (by decide) (by decide))

theorem colon_notDecimal : ¬ Decimal.isDecimal ':' = true :=
  Bool.eq_false_iff.mp (Decimal.not_isDecimal_of_ascii (by decide) (by decide))

theorem dot_notMem {o : Str} (h : ∀ c ∈ o, Decimal.isDecimal c = true) : '.' ∉ o :=
  fun hc => dot_notDecimal (h '.' hc)

theorem isLooseOctet_iff {o : Str} : isLooseOctet o = true ↔
    o ≠ [] ∧ o.length ≤ 3 ∧ ∀ c ∈ o, Decimal.isDecimal c = true := by
  simp [isLooseOctet]

theorem isLooseOctet_of_isOctet {o : Str} (h : isOctet o = true) : isLooseOctet o = true := by
  simp only [isOctet, Bool.and_eq_true, bne_iff_ne, decide_eq_true_eq, List.all_eq_true] at h
  obtain ⟨hne, hlen, hdigits, -⟩ := h
  exact isLooseOctet_iff.mpr ⟨hne, hlen, fun c hc => Decimal.isDecimal_of_isDigit (hdigits c hc)⟩

/-- The text of four octets. -/
def dotted (o₁ o₂ o₃ o₄ : Str) : Str := o₁ ++ '.' :: (o₂ ++ '.' :: (o₃ ++ '.' :: o₄))

theorem isAddress_iff {octet : Str → Bool} (hoctet : ∀ o, octet o = true → '.' ∉ o) {a : Str} :
    isAddress octet a = true ↔ ∃ o₁ o₂ o₃ o₄, (octet o₁ = true ∧ octet o₂ = true ∧
      octet o₃ = true ∧ octet o₄ = true) ∧ a = dotted o₁ o₂ o₃ o₄ := by
  constructor
  · intro h
    have hself : ['.'].intercalate (a.splitOn '.') = a := List.intercalate_splitOn '.'
    rw [isAddress, Bool.and_eq_true, beq_iff_eq, List.all_eq_true] at h
    obtain ⟨hlen, hall⟩ := h
    obtain ⟨o₁, o₂, o₃, o₄, hos⟩ := List.length_eq_four.mp hlen
    rw [hos] at hself hall
    refine ⟨o₁, o₂, o₃, o₄, by simpa using hall, ?_⟩
    rw [← hself]
    simp [List.intercalate, List.intersperse, dotted]
  · rintro ⟨o₁, o₂, o₃, o₄, ⟨h₁, h₂, h₃, h₄⟩, rfl⟩
    have hsplit : (['.'].intercalate [o₁, o₂, o₃, o₄]).splitOn '.' = [o₁, o₂, o₃, o₄] := by
      refine List.splitOn_intercalate '.' ?_ (by simp)
      simp only [List.mem_cons, List.not_mem_nil, or_false]
      rintro o (rfl | rfl | rfl | rfl)
      · exact hoctet _ h₁
      · exact hoctet _ h₂
      · exact hoctet _ h₃
      · exact hoctet _ h₄
    have htext : ['.'].intercalate [o₁, o₂, o₃, o₄] = dotted o₁ o₂ o₃ o₄ := by
      simp [List.intercalate, List.intersperse, dotted]
    rw [htext] at hsplit
    simp [isAddress, hsplit, h₁, h₂, h₃, h₄]

theorem isAddress_loose {a : Str} : isAddress isLooseOctet a = true ↔ ∃ o₁ o₂ o₃ o₄,
    (isLooseOctet o₁ = true ∧ isLooseOctet o₂ = true ∧ isLooseOctet o₃ = true ∧
      isLooseOctet o₄ = true) ∧ a = dotted o₁ o₂ o₃ o₄ :=
  isAddress_iff (fun _ h => dot_notMem (isLooseOctet_iff.mp h).2.2)

/-- An address of octets is one of loose octets. -/
theorem loose_of_isAddress {a : Str} (h : isAddress isOctet a = true) :
    isAddress isLooseOctet a = true := by
  rw [isAddress, Bool.and_eq_true, List.all_eq_true] at h ⊢
  exact ⟨h.1, fun o ho => isLooseOctet_of_isOctet (h.2 o ho)⟩

theorem address_chars {a : Str} (h : isAddress isLooseOctet a = true) :
    ∀ c ∈ a, c = '.' ∨ Decimal.isDecimal c = true := by
  obtain ⟨o₁, o₂, o₃, o₄, ⟨h₁, h₂, h₃, h₄⟩, rfl⟩ := isAddress_loose.mp h
  have hdecimal {o : Str} (ho : isLooseOctet o = true) : ∀ c ∈ o, c = '.' ∨ Decimal.isDecimal c = true :=
    fun c hc => .inr ((isLooseOctet_iff.mp ho).2.2 c hc)
  simp only [dotted, List.forall_mem_append, List.forall_mem_cons, true_or, true_and]
  exact ⟨hdecimal h₁, hdecimal h₂, hdecimal h₃, hdecimal h₄⟩

theorem address_noColon {a : Str} (h : isAddress isLooseOctet a = true) : ':' ∉ a := by
  intro hc
  rcases address_chars h ':' hc with heq | hdecimal
  · exact absurd heq (by decide)
  · exact colon_notDecimal hdecimal

theorem address_ne_nil {a : Str} (h : isAddress isLooseOctet a = true) : a ≠ [] := by
  rintro rfl
  simp [isAddress] at h

/-! ### The match at the beginning of a text -/

theorem mem_octetPattern {o s t : Str} :
    (o, t) ∈ octetPattern.run s ↔ s = o ++ t ∧ isLooseOctet o = true := by
  rw [octetPattern, mem_upTo, isLooseOctet_iff]

theorem mem_dotOctetPattern {v s t : Str} : (v, t) ∈ dotOctetPattern.run s ↔
    ∃ o, v = '.' :: o ∧ s = '.' :: (o ++ t) ∧ isLooseOctet o = true := by
  simp only [dotOctetPattern, mem_bind, mem_item, mem_octetPattern, mem_pure, beq_iff_eq]
  constructor
  · rintro ⟨_, _, ⟨rfl, rfl⟩, o, _, ⟨rfl, ho⟩, rfl, rfl⟩
    exact ⟨o, rfl, rfl, ho⟩
  · rintro ⟨o, rfl, rfl, ho⟩
    exact ⟨'.', o ++ t, ⟨rfl, rfl⟩, o, t, ⟨rfl, ho⟩, rfl, rfl⟩

theorem mem_addressPattern {a s t : Str} : (a, t) ∈ addressPattern.run s ↔
    isAddress isLooseOctet a = true ∧ s = a ++ ':' :: t := by
  simp only [addressPattern, mem_bind, mem_item, mem_octetPattern, mem_dotOctetPattern, mem_pure,
    beq_iff_eq, isAddress_loose]
  constructor
  · rintro ⟨o₁, _, ⟨rfl, h₁⟩, _, _, ⟨o₂, rfl, rfl, h₂⟩, _, _, ⟨o₃, rfl, rfl, h₃⟩, _, _,
      ⟨o₄, rfl, rfl, h₄⟩, _, _, ⟨rfl, rfl⟩, rfl, rfl⟩
    exact ⟨⟨o₁, o₂, o₃, o₄, ⟨h₁, h₂, h₃, h₄⟩, by simp [dotted]⟩, by simp⟩
  · rintro ⟨⟨o₁, o₂, o₃, o₄, ⟨h₁, h₂, h₃, h₄⟩, rfl⟩, rfl⟩
    refine ⟨o₁, _, ⟨?_, h₁⟩, _, _, ⟨o₂, rfl, rfl, h₂⟩, _, _, ⟨o₃, rfl, rfl, h₃⟩, _, _,
      ⟨o₄, rfl, rfl, h₄⟩, _, t, ⟨rfl, rfl⟩, ?_, rfl⟩
    · simp [dotted]
    · simp [dotted]

theorem first_address {a r : Str} (ha : isAddress isLooseOctet a = true) (hr : portDigits r ≠ []) :
    sourcePattern.first (a ++ ':' :: r) =
      some ((a, portDigits r), r.drop (portDigits r).length) := by
  have hmem : (a, r) ∈ addressPattern.run (a ++ ':' :: r) := mem_addressPattern.mpr ⟨ha, rfl⟩
  have hunique : ∀ q ∈ addressPattern.run (a ++ ':' :: r), q = (a, r) := by
    rintro ⟨a', r'⟩ hq
    obtain ⟨ha', heq⟩ := mem_addressPattern.mp hq
    obtain ⟨rfl, rfl⟩ := sep_unique (address_noColon ha) (address_noColon ha') heq
    rfl
  have hdigits : r.takeWhile Decimal.isDecimal ≠ [] := by
    intro hnil
    rw [portDigits, hnil] at hr
    exact hr rfl
  rw [sourcePattern, first_bind_of_unique hmem hunique, first_map, first_upTo 4 hdigits]
  rfl

theorem first_none {s : Str} (h : ∀ a r, isAddress isLooseOctet a = true → s = a ++ ':' :: r →
    portDigits r = []) : sourcePattern.first s = none := by
  rw [first_eq_none_iff]
  rintro m t hm
  simp only [sourcePattern, mem_bind, mem_addressPattern, mem_upTo, mem_pure] at hm
  obtain ⟨a, r, ⟨ha, rfl⟩, p, _, ⟨rfl, hne, -, hp⟩, -, -⟩ := hm
  have hport := h a _ ha rfl
  obtain ⟨c, p, rfl⟩ := List.exists_cons_of_ne_nil hne
  rw [portDigits, List.cons_append, List.takeWhile_cons, if_pos (hp c List.mem_cons_self)] at hport
  cases hport

/-! ### The matches of a text -/

/-- Without a colon, nothing is found. -/
theorem scan_noColon {w : Str} (hw : ':' ∉ w) : sourcePattern.scan 0 w = [] := by
  induction w with
  | nil => rfl
  | cons c w ih =>
    have hnone : sourcePattern.first (c :: w) = none := by
      refine first_none fun a r _ heq => ?_
      rw [heq] at hw
      exact absurd (List.mem_append_right a List.mem_cons_self) hw
    rw [scan_of_none hnone]
    exact ih (fun hc => hw (List.mem_cons_of_mem c hc))

/-- **At the first colon**, the address at the end of the part is found, if a port follows. -/
theorem scan_colon {w : Str} (hw : ':' ∉ w) (r : Str) : sourcePattern.scan 0 (w ++ ':' :: r) =
    if portDigits r = [] then sourcePattern.scan 0 r
    else (tailAddress w).elim (sourcePattern.scan 0 r)
      (fun a => (a, portDigits r) :: sourcePattern.scan 0 (r.drop (portDigits r).length)) := by
  induction w with
  | nil =>
    have hnone : sourcePattern.first (':' :: r) = none := by
      refine first_none fun a r' ha heq => ?_
      cases a with
      | nil => exact absurd rfl (address_ne_nil ha)
      | cons c a =>
        obtain ⟨rfl, -⟩ := List.cons.inj heq
        exact absurd List.mem_cons_self (address_noColon ha)
    rw [List.nil_append, scan_of_none hnone, tailAddress, Option.elim_none, ite_self]
  | cons c w ih =>
    have hw' : ':' ∉ w := fun hc => hw (List.mem_cons_of_mem c hc)
    by_cases hmatch : isAddress isLooseOctet (c :: w) = true ∧ portDigits r ≠ []
    · obtain ⟨ha, hport⟩ := hmatch
      have htake : portDigits r ++ r.drop (portDigits r).length = r := by
        refine List.prefix_iff_eq_append.mp ?_
        exact (List.take_prefix 5 _).trans (List.takeWhile_prefix Decimal.isDecimal)
      have hsplit : c :: w ++ ':' :: r =
          c :: w ++ ':' :: portDigits r ++ r.drop (portDigits r).length := by
        have hcolon : ':' :: r = ':' :: portDigits r ++ r.drop (portDigits r).length :=
          congrArg (':' :: ·) htake.symm
        rw [List.append_assoc, ← hcolon]
      have hfirst := first_address ha hport
      rw [if_neg hport, tailAddress, if_pos ha, Option.elim_some]
      rw [hsplit] at hfirst ⊢
      exact scan_of_match (by simp) hfirst
    · -- the address begins at a later letter
      have hnone : sourcePattern.first (c :: (w ++ ':' :: r)) = none := by
        refine first_none fun a r' ha heq => ?_
        obtain ⟨rfl, rfl⟩ := sep_unique hw (address_noColon ha) heq
        by_contra hport
        exact hmatch ⟨ha, hport⟩
      rw [List.cons_append, scan_of_none hnone, ih hw']
      by_cases hport : portDigits r = []
      · rw [if_pos hport, if_pos hport]
      · have ha : ¬ isAddress isLooseOctet (c :: w) = true := fun ha => hmatch ⟨ha, hport⟩
        rw [if_neg hport, if_neg hport, tailAddress, if_neg ha]

/-! ### The parts of a text -/

/-- A part and the parts behind it, with their colons. -/
def glue (w : Str) (parts : List Str) : Str := w ++ parts.flatMap (fun p => ':' :: p)

theorem glue_cons (w w' : Str) (parts : List Str) :
    glue w (w' :: parts) = w ++ ':' :: glue w' parts := by simp [glue]

theorem intercalate_eq_glue (w : Str) (parts : List Str) :
    [':'].intercalate (w :: parts) = glue w parts := by
  induction parts generalizing w with
  | nil => simp [glue]
  | cons w' parts ih =>
    rw [glue_cons, ← ih]
    simp [List.intercalate, List.intersperse]

/-- A text is glued of its parts. -/
theorem exists_parts (text : Str) : ∃ w parts, text = glue w parts ∧ ':' ∉ w ∧ (∀ p ∈ parts, ':' ∉ p) ∧
    jointsOf text = joints 0 w parts := by
  have hself : [':'].intercalate (text.splitOn ':') = text := List.intercalate_splitOn ':'
  have hfree := notMem_of_mem_splitOn ':' text
  cases hsplit : text.splitOn ':' with
  | nil => exact absurd hsplit (List.splitOn_ne_nil _ _)
  | cons w parts =>
    rw [hsplit] at hfree
    obtain ⟨hw, hparts⟩ := List.forall_mem_cons.mp hfree
    rw [hsplit, intercalate_eq_glue] at hself
    exact ⟨w, parts, hself.symm, hw, hparts, by rw [jointsOf, hsplit]⟩

/-- A port ends with its part. -/
theorem takeWhile_glue (w : Str) (parts : List Str) :
    (glue w parts).takeWhile Decimal.isDecimal = w.takeWhile Decimal.isDecimal := by
  have hstop : (parts.flatMap (fun p => ':' :: p)).takeWhile Decimal.isDecimal = [] := by
    cases parts with
    | nil => rfl
    | cons p parts =>
      rw [List.flatMap_cons, List.cons_append, List.takeWhile_cons, if_neg colon_notDecimal]
  rw [glue, List.takeWhile_append]
  split
  · next h =>
    rw [hstop, List.append_nil]
    exact ((List.takeWhile_prefix _).eq_of_length h).symm
  · rfl

theorem portDigits_glue (w : Str) (parts : List Str) : portDigits (glue w parts) = portDigits w := by
  rw [portDigits, takeWhile_glue, portDigits]

theorem length_portDigits_le (w : Str) : (portDigits w).length ≤ w.length :=
  ((List.take_prefix 5 _).trans (List.takeWhile_prefix Decimal.isDecimal)).length_le

theorem drop_glue {n : ℕ} {w : Str} (h : n ≤ w.length) (parts : List Str) :
    (glue w parts).drop n = glue (w.drop n) parts := List.drop_append_of_le_length h

/-- **The matches of a text** are those at its colons, one after the other: a match takes the
digits of its port from the next part. -/
theorem scan_glue (parts : List Str) : ∀ (taken : ℕ) (w : Str), ':' ∉ w → (∀ p ∈ parts, ':' ∉ p) →
    sourcePattern.scan 0 (glue (w.drop taken) parts) =
      (joints taken w parts).filterMap Joint.loose := by
  induction parts with
  | nil =>
    intro taken w hw _
    rw [glue, List.flatMap_nil, List.append_nil, joints, List.filterMap_nil]
    exact scan_noColon (fun hc => hw (List.mem_of_mem_drop hc))
  | cons w' parts ih =>
    intro taken w hw hparts
    obtain ⟨hw', hparts⟩ := List.forall_mem_cons.mp hparts
    have hdrop : ':' ∉ w.drop taken := fun hc => hw (List.mem_of_mem_drop hc)
    have hnext := ih 0 w' hw' hparts
    rw [List.drop_zero] at hnext
    rw [glue_cons, scan_colon hdrop, portDigits_glue, joints]
    by_cases hport : portDigits w' = []
    · have hloose : Joint.loose ⟨taken, w, w'⟩ = none := if_pos hport
      rw [if_pos hport, hnext, List.filterMap_cons, hloose]
      rfl
    · cases haddress : tailAddress (w.drop taken) with
      | none =>
        have hloose : Joint.loose ⟨taken, w, w'⟩ = none := by
          rw [Joint.loose, if_neg hport, haddress, Option.map_none]
        rw [if_neg hport, Option.elim_none, hnext, List.filterMap_cons, hloose]
        rfl
      | some a =>
        have hloose : Joint.loose ⟨taken, w, w'⟩ = some (a, portDigits w') := by
          rw [Joint.loose, if_neg hport, haddress, Option.map_some]
        rw [if_neg hport, Option.elim_some, drop_glue (length_portDigits_le w'),
          ih _ w' hw' hparts, List.filterMap_cons, hloose]
        rfl

theorem scan_joints (text : Str) :
    sourcePattern.scan 0 text = (jointsOf text).filterMap Joint.loose := by
  obtain ⟨w, parts, htext, hw, hparts, hjoints⟩ := exists_parts text
  rw [hjoints, ← scan_glue parts 0 w hw hparts, htext, List.drop_zero]

/-- **What is found** is found at a colon. -/
theorem mem_parseSourceText {text x : Str} :
    x ∈ parseSourceText text ↔ ∃ j ∈ jointsOf text, j.Yields x := by
  simp only [parseSourceText, List.mem_toFinset, List.mem_filterMap, scan_joints, Joint.Yields]
  constructor
  · rintro ⟨m, ⟨j, hj, hm⟩, hx⟩
    exact ⟨j, hj, m, hm, hx⟩
  · rintro ⟨j, hj, m, hm, hx⟩
    exact ⟨m, ⟨j, hj, hm⟩, hx⟩

/-! ### The addresses of a text -/

/-- The text is empty or ends with a colon. -/
def EndsColon (s : Str) : Prop := s = [] ∨ ∃ s', s = s' ++ [':']

/-- The text is empty or begins with a colon. -/
def StartsColon (s : Str) : Prop := s = [] ∨ ∃ s', s = ':' :: s'

/-- Each colon of a text is one between two parts. -/
theorem exists_joint (parts : List Str) : ∀ (taken : ℕ) (w b r : Str), ':' ∉ w →
    (∀ p ∈ parts, ':' ∉ p) → glue w parts = b ++ ':' :: r → ∃ j ∈ joints taken w parts, ∃ b' r',
      b = b' ++ j.before ∧ EndsColon b' ∧ r = j.behind ++ r' ∧ StartsColon r' := by
  induction parts with
  | nil =>
    intro taken w b r hw _ h
    rw [glue, List.flatMap_nil, List.append_nil] at h
    rw [h] at hw
    exact absurd (List.mem_append_right b List.mem_cons_self) hw
  | cons w' parts ih =>
    intro taken w b r hw hparts h
    obtain ⟨hw', hparts'⟩ := List.forall_mem_cons.mp hparts
    rw [glue_cons] at h
    by_cases hb : ':' ∈ b
    · obtain ⟨v, b, rfl, hv⟩ := List.eq_append_cons_of_mem hb
      rw [List.append_assoc, List.cons_append] at h
      obtain ⟨rfl, hrest⟩ := sep_unique hw hv h
      obtain ⟨j, hj, b', r', rfl, hb', hr⟩ := ih _ w' b r hw' hparts' hrest
      refine ⟨j, List.mem_cons_of_mem _ hj, w ++ ':' :: b', r', by simp, .inr ?_, hr⟩
      rcases hb' with rfl | ⟨b'', rfl⟩
      · exact ⟨w, rfl⟩
      · exact ⟨w ++ ':' :: b'', by simp⟩
    · obtain ⟨rfl, rfl⟩ := sep_unique hw hb h
      refine ⟨⟨taken, w, w'⟩, List.mem_cons_self, [], parts.flatMap (fun p => ':' :: p), rfl, .inl rfl,
        rfl, ?_⟩
      cases parts with
      | nil => exact .inl rfl
      | cons p parts => exact .inr ⟨_, rfl⟩

/-- Between two parts there is a colon. -/
theorem joint_split (parts : List Str) : ∀ (taken : ℕ) (w : Str), taken ≤ w.length →
    ∀ j ∈ joints taken w parts, j.taken ≤ j.before.length ∧ ∃ b' r',
      glue w parts = b' ++ j.before ++ ':' :: (j.behind ++ r') ∧ EndsColon b' ∧ StartsColon r' := by
  induction parts with
  | nil => nofun
  | cons w' parts ih =>
    intro taken w htaken j hj
    rw [glue_cons]
    rcases List.mem_cons.mp hj with rfl | hj
    · refine ⟨htaken, [], parts.flatMap (fun p => ':' :: p), rfl, .inl rfl, ?_⟩
      cases parts with
      | nil => exact .inl rfl
      | cons p parts => exact .inr ⟨_, rfl⟩
    · have htaken' : (if (Joint.loose ⟨taken, w, w'⟩).isSome then (portDigits w').length else 0) ≤
          w'.length := by
        split
        · exact length_portDigits_le w'
        · exact Nat.zero_le _
      obtain ⟨hj', b', r', hglue, hb', hr'⟩ := ih _ w' htaken' j hj
      refine ⟨hj', w ++ ':' :: b', r', by simp [hglue], .inr ?_, hr'⟩
      rcases hb' with rfl | ⟨b'', rfl⟩
      · exact ⟨w, rfl⟩
      · exact ⟨w ++ ':' :: b'', by simp⟩

/-- A text without a colon ends in the part in which the whole ends. -/
theorem suffix_part {b front v : Str} (hb : EndsColon b) (hv : ':' ∉ v) :
    v <:+ b ++ front ↔ v <:+ front := by
  refine ⟨?_, fun h => h.trans (List.suffix_append b front)⟩
  rintro ⟨y, h⟩
  rcases List.append_eq_append_iff.mp h with ⟨u, rfl, rfl⟩ | ⟨u, rfl, rfl⟩
  · cases u with
    | nil => exact List.suffix_refl front
    | cons c u =>
      rcases hb with hnil | ⟨s', heq⟩
      · simp at hnil
      · have hlast := congrArg List.getLast? heq
        rw [List.getLast?_append_of_ne_nil _ (List.cons_ne_nil c u), List.getLast?_concat] at hlast
        exact absurd (List.mem_append_left front (List.mem_of_getLast? hlast)) hv
  · exact List.suffix_append u v

/-- A text without a colon begins in the part in which the whole begins. -/
theorem prefix_part {behind r v : Str} (hr : StartsColon r) (hv : ':' ∉ v) (h : v <+: behind ++ r) :
    v <+: behind := by
  obtain ⟨y, h⟩ := h
  rcases List.append_eq_append_iff.mp h with ⟨u, rfl, rfl⟩ | ⟨u, rfl, rfl⟩
  · exact List.prefix_append v u
  · cases u with
    | nil =>
      rw [List.append_nil]
    | cons c u =>
      rcases hr with hnil | ⟨s', heq⟩
      · cases hnil
      · obtain ⟨rfl, -⟩ := List.cons.inj heq
        exact absurd (List.mem_append_right behind List.mem_cons_self) hv

theorem freeFront_append {b front : Str} (hb : EndsColon b) :
    FreeFront (b ++ front) ↔ FreeFront front := by
  refine forall_congr' fun d => forall_congr' fun hd => ?_
  have hcolon : ':' ≠ d := by
    rintro rfl
    exact colon_notDecimal hd
  rw [suffix_part hb (by simpa using hcolon), suffix_part hb (by simpa using hcolon)]

/-- The address of a token is at the end of its part, and its port at the beginning of the next. -/
theorem isToken_iff {text x : Str} : IsToken text x ↔ ∃ j ∈ jointsOf text, j.Holds x := by
  obtain ⟨w, parts, rfl, hw, hparts, hjoints⟩ := exists_parts text
  rw [hjoints]
  constructor
  · rintro ⟨front, address, port, rest, htext, htoken⟩
    obtain ⟨j, hj, b, r, hbefore, hb, hbehind, hr⟩ := exists_joint parts 0 w _ _ hw hparts htext
    have haddress : ':' ∉ address := address_noColon (loose_of_isAddress htoken.octets)
    have hport : ':' ∉ port := fun hc => absurd (htoken.digits ':' hc) (by decide)
    obtain ⟨u, hu⟩ := (suffix_part hb haddress).mp (hbefore ▸ List.suffix_append front address)
    obtain ⟨t, ht⟩ := prefix_part hr hport (hbehind ▸ List.prefix_append port rest)
    have hfront : front = b ++ u := by
      rw [← hu, ← List.append_assoc] at hbefore
      exact List.append_cancel_right hbefore
    have hrest : rest = t ++ r := by
      rw [← ht, List.append_assoc] at hbehind
      exact List.append_cancel_left hbehind
    subst hfront hrest
    refine ⟨j, hj, u, address, port, t, hu.symm, ht.symm, ?_⟩
    refine { htoken with free := (freeFront_append hb).mp htoken.free, ends := fun c hc => ?_ }
    cases t with
    | nil => cases hc
    | cons d t => exact htoken.ends c hc
  · rintro ⟨j, hj, front, address, port, rest, hbefore, hbehind, htoken⟩
    obtain ⟨-, b, r, htext, hb, hr⟩ := joint_split parts 0 w (Nat.zero_le _) j hj
    refine ⟨b ++ front, address, port, rest ++ r, by rw [htext, hbefore, hbehind]; simp, ?_⟩
    refine { htoken with free := (freeFront_append hb).mpr htoken.free, ends := fun c hc => ?_ }
    cases rest with
    | cons d rest => exact htoken.ends c hc
    | nil =>
      rcases hr with rfl | ⟨s', rfl⟩
      · cases hc
      · obtain rfl : ':' = c := Option.some.inj hc
        exact Bool.eq_false_iff.mpr colon_notDecimal

/-! ### The address at the end of a part -/

theorem count_dot {a : Str} (h : isAddress isLooseOctet a = true) : a.count '.' = 3 := by
  obtain ⟨o₁, o₂, o₃, o₄, ⟨h₁, h₂, h₃, h₄⟩, rfl⟩ := isAddress_loose.mp h
  have hnone {o : Str} (ho : isLooseOctet o = true) : o.count '.' = 0 :=
    List.count_eq_zero.mpr (dot_notMem (isLooseOctet_iff.mp ho).2.2)
  simp [dotted, List.count_append, hnone h₁, hnone h₂, hnone h₃, hnone h₄]

/-- An address goes on to the left with digits only. -/
theorem not_address_append {v a : Str} (ha : isAddress isLooseOctet a = true) (hv : v ≠ [])
    (hend : ∀ d, Decimal.isDecimal d = true → ¬ [d] <:+ v) : ¬ isAddress isLooseOctet (v ++ a) = true := by
  intro h
  obtain ⟨v', d, rfl⟩ := (List.eq_nil_or_concat' v).resolve_left hv
  have hcount := count_dot h
  rw [List.count_append, count_dot ha] at hcount
  have hdot : '.' ∉ v' ++ [d] := List.count_eq_zero.mp (by omega)
  rcases address_chars h d (by simp) with rfl | hd
  · exact hdot (by simp)
  · exact hend d hd (List.suffix_append v' [d])

theorem tailAddress_append {u a : Str} (ha : isAddress isLooseOctet a = true)
    (hu : ∀ d, Decimal.isDecimal d = true → ¬ [d] <:+ u) : tailAddress (u ++ a) = some a := by
  induction u with
  | nil =>
    obtain ⟨c, w, rfl⟩ := List.exists_cons_of_ne_nil (address_ne_nil ha)
    rw [List.nil_append, tailAddress, if_pos ha]
  | cons c u ih =>
    have hnot := not_address_append ha (List.cons_ne_nil c u) hu
    rw [List.cons_append] at hnot ⊢
    rw [tailAddress, if_neg hnot]
    exact ih (fun d hd h => hu d hd (h.trans (List.suffix_cons c u)))

theorem tailAddress_suffix {w a : Str} (h : tailAddress w = some a) : a <:+ w := by
  induction w with
  | nil => cases h
  | cons c w ih =>
    rw [tailAddress] at h
    split at h
    · obtain rfl := Option.some.inj h
      exact List.suffix_refl _
    · exact (ih h).trans (List.suffix_cons c w)

/-! ### What is found and what stands there -/

theorem foundText_eq_some {a p x : Str} : foundText (a, p) = some x ↔
    (1 ≤ Decimal.value p ∧ Decimal.value p ≤ 65535) ∧
      x = a ++ ':' :: Nat.toDigits 10 (Decimal.value p) := by
  rw [foundText]
  split
  · next h => exact ⟨fun heq => ⟨h, (Option.some.inj heq).symm⟩, fun heq => congrArg some heq.2.symm⟩
  · next h => exact ⟨nofun, fun heq => absurd heq.1 h⟩

/-- What is found at a colon is stray, or stands there. -/
theorem Joint.Yields.cases {j : Joint} {x : Str} (h : j.Yields x) : j.Stray x ∨ j.Holds x := by
  obtain ⟨m, hloose, hx⟩ := h
  have hport : portDigits j.behind ≠ [] := by
    intro hnil
    rw [Joint.loose, if_pos hnil] at hloose
    cases hloose
  have hsplit := hloose
  rw [Joint.loose, if_neg hport] at hsplit
  obtain ⟨address, haddress, rfl⟩ := Option.map_eq_some_iff.mp hsplit
  obtain ⟨front, hfront⟩ := (tailAddress_suffix haddress).trans (List.drop_suffix j.taken j.before)
  by_cases hgood : isAddress isOctet address = true ∧ FreeFront front ∧
      (∀ c ∈ portDigits j.behind, c.isDigit = true) ∧
      (j.behind.takeWhile Decimal.isDecimal).length ≤ 5
  · obtain ⟨hoctets, hfree, hdigits, hlen⟩ := hgood
    have hrun : portDigits j.behind = j.behind.takeWhile Decimal.isDecimal := List.take_of_length_le hlen
    obtain ⟨hrange, htext⟩ := foundText_eq_some.mp hx
    refine .inr ⟨front, address, portDigits j.behind, j.behind.dropWhile Decimal.isDecimal, hfront.symm,
      ?_, hoctets, hfree, hport, hdigits, head_dropWhile j.behind, hrange, htext⟩
    rw [hrun, List.takeWhile_append_dropWhile]
  · refine .inl ⟨front, address, hfront.symm, hloose, hx, ?_⟩
    by_contra hnot
    simp only [not_or, Bool.not_eq_false, not_not, Nat.not_lt] at hnot
    exact hgood hnot

/-- What stands at a colon is missed, or found there. -/
theorem Joint.Holds.cases {j : Joint} {x : Str} (h : j.Holds x) : j.Missed x ∨ j.Yields x := by
  obtain ⟨front, address, port, rest, hbefore, hbehind, htoken⟩ := h
  by_cases hmissed : 5 < port.length ∨ front.length < j.taken
  · exact .inl ⟨front, address, port, rest, hbefore, hbehind, htoken, hmissed⟩
  rw [not_or, Nat.not_lt, Nat.not_lt] at hmissed
  obtain ⟨hlen, htaken⟩ := hmissed
  have hdecimal : ∀ c ∈ port, Decimal.isDecimal c = true :=
    fun c hc => Decimal.isDecimal_of_isDigit (htoken.digits c hc)
  have hport : portDigits j.behind = port := by
    have hstop : rest.takeWhile Decimal.isDecimal = [] := by
      cases rest with
      | nil => rfl
      | cons c rest => rw [List.takeWhile_cons, if_neg (by simp [htoken.ends c rfl])]
    rw [portDigits, hbehind, List.takeWhile_append_of_pos hdecimal, hstop, List.append_nil,
      List.take_of_length_le hlen]
  have haddress : tailAddress (j.before.drop j.taken) = some address := by
    rw [hbefore, List.drop_append_of_le_length htaken]
    refine tailAddress_append (loose_of_isAddress htoken.octets) fun d hd hsuffix => ?_
    exact (htoken.free d hd).1 (hsuffix.trans (List.drop_suffix j.taken front))
  refine .inr ⟨(address, port), ?_, foundText_eq_some.mpr ⟨htoken.range, htoken.text⟩⟩
  rw [Joint.loose, hport, if_neg htoken.ne, haddress, Option.map_some]

theorem Joint.Stray.yields {j : Joint} {x : Str} (h : j.Stray x) : j.Yields x := by
  obtain ⟨front, address, -, hloose, hx, -⟩ := h
  exact ⟨_, hloose, hx⟩

theorem Joint.Missed.holds {j : Joint} {x : Str} (h : j.Missed x) : j.Holds x := by
  obtain ⟨front, address, port, rest, hbefore, hbehind, htoken, -⟩ := h
  exact ⟨front, address, port, rest, hbefore, hbehind, htoken⟩

theorem exact_iff (text : Str) : Exact text ↔ Faithful text := by
  constructor
  · intro h j hj x
    constructor
    · intro hstray
      exact isToken_iff.mp ((h x).mp (mem_parseSourceText.mpr ⟨j, hj, hstray.yields⟩))
    · intro hmissed
      exact mem_parseSourceText.mp ((h x).mpr (isToken_iff.mpr ⟨j, hj, hmissed.holds⟩))
  · intro h x
    rw [mem_parseSourceText, isToken_iff]
    constructor
    · rintro ⟨j, hj, hyields⟩
      rcases hyields.cases with hstray | hholds
      · exact (h j hj x).1 hstray
      · exact ⟨j, hj, hholds⟩
    · rintro ⟨j, hj, hholds⟩
      rcases hholds.cases with hmissed | hyields
      · exact (h j hj x).2 hmissed
      · exact ⟨j, hj, hyields⟩

/-! ### The addresses that are stored -/

/-- A fetch stores the addresses that it finds, and leaves the other rows. -/
theorem mem_fetchOneSource {rows : Rows} {f : Fetch} {row : Str × Str}
    (h : row ∈ fetchOneSource rows f) :
    row ∈ rows ∨ ∃ text ∈ f.text, row.2 ∈ parseSourceText text := by
  unfold fetchOneSource at h
  split at h
  · exact .inl h
  · next text htext =>
    split at h
    · simp only [replaceEntries, Finset.mem_union, Finset.mem_filter, Finset.mem_image] at h
      rcases h with ⟨hrow, -⟩ | ⟨address, haddress, rfl⟩
      · exact .inl hrow
      · exact .inr ⟨text, htext, haddress⟩
    · exact .inl h

/-- A run of fetches stores what one of them has found. -/
theorem mem_foldl_fetch (fs : List Fetch) : ∀ (rows : Rows) (row : Str × Str),
    row ∈ fs.foldl fetchOneSource rows →
      row ∈ rows ∨ ∃ f ∈ fs, ∃ text ∈ f.text, row.2 ∈ parseSourceText text := by
  induction fs with
  | nil => exact fun _ _ h => .inl h
  | cons f fs ih =>
    intro rows row h
    rcases ih _ row h with hrow | ⟨g, hg, hloose⟩
    · rcases mem_fetchOneSource hrow with hrow | hloose
      · exact .inl hrow
      · exact .inr ⟨f, List.mem_cons_self, hloose⟩
    · exact .inr ⟨g, List.mem_cons_of_mem f hg, hloose⟩

/-- **The addresses of a text** are those that are found, when at each of its colons nothing is
found that does not stand there or elsewhere, and nothing missed that is not found elsewhere.
After any run of fetches of such texts, only addresses of these texts are stored, and handed over
to be checked. -/
theorem parsed_iff (text : Str) (fs : List Fetch) : (Exact text ↔ Faithful text) ∧
    ((∀ f ∈ fs, ∀ t ∈ f.text, Faithful t) →
      ∀ x ∈ handedOver (fs.foldl fetchOneSource ∅), ∃ f ∈ fs, ∃ t ∈ f.text, IsToken t x) := by
  refine ⟨exact_iff text, fun hfs x hx => ?_⟩
  obtain ⟨row, hrow, rfl⟩ := Finset.mem_image.mp hx
  rcases mem_foldl_fetch fs ∅ row hrow with hempty | ⟨f, hf, t, ht, hfound⟩
  · exact absurd hempty (Finset.notMem_empty row)
  · exact ⟨f, hf, t, ht, ((exact_iff t).mpr (hfs f hf t ht) row.2).mp hfound⟩

/-- Behind what is neither a digit nor a dot no address goes on. -/
theorem freeFront_concat {front : Str} {c : Char} (hdigit : Decimal.isDecimal c = false)
    (hdot : c ≠ '.') : FreeFront (front ++ [c]) := by
  intro d hd
  constructor
  · rintro ⟨t, ht⟩
    obtain ⟨-, heq⟩ := List.append_inj' ht rfl
    rw [List.singleton_inj.mp heq, hdigit] at hd
    cases hd
  · rintro ⟨t, ht⟩
    have ht : (t ++ [d]) ++ ['.'] = front ++ [c] := by rw [← ht, List.append_assoc]; rfl
    obtain ⟨-, heq⟩ := List.append_inj' ht rfl
    exact hdot (List.singleton_inj.mp heq).symm

/-- A proper address at a colon, with a port of at most five digits, is neither stray nor missed,
if none begins in the digits that have been taken. -/
theorem Joint.clean {j : Joint} (front : Str) {address : Str} (hbefore : j.before = front ++ address)
    (hloose : j.loose = some (address, portDigits j.behind))
    (hgood : isAddress isOctet address = true) (hfree : FreeFront front)
    (hascii : (portDigits j.behind).all Char.isDigit = true)
    (hshort : (j.behind.takeWhile Decimal.isDecimal).length ≤ 5)
    (htaken : ∀ n < j.taken, isAddress isOctet (j.before.drop n) = false) (x : Str) :
    ¬ j.Stray x ∧ ¬ j.Missed x := by
  constructor
  · rintro ⟨front', address', hbefore', hloose', -, hstray⟩
    obtain rfl : address = address' := congrArg Prod.fst (Option.some.inj (hloose.symm.trans hloose'))
    obtain rfl : front = front' := List.append_cancel_right (hbefore.symm.trans hbefore')
    rcases hstray with hoctets | hfront | hdigits | hlen
    · rw [hgood] at hoctets
      cases hoctets
    · exact hfront hfree
    · exact hdigits (List.all_eq_true.mp hascii)
    · omega
  · rintro ⟨front', address', port, rest, hbefore', hbehind, htoken, hlen | hfront⟩
    · have hport : port <+: j.behind.takeWhile Decimal.isDecimal := by
        rw [hbehind, List.takeWhile_append_of_pos
          (fun c hc => Decimal.isDecimal_of_isDigit (htoken.digits c hc))]
        exact List.prefix_append _ _
      have hle := hport.length_le
      omega
    · have hnone := htaken front'.length hfront
      rw [hbefore', List.drop_left, htoken.octets] at hnone
      cases hnone

/-- A text of two lines. -/
def twoLines : Str := "1.2.3.4:8080\n5.6.7.8:9090".toList

theorem faithful_twoLines : Faithful twoLines := by
  have hjoints : jointsOf twoLines =
      [⟨0, "1.2.3.4".toList, "8080\n5.6.7.8".toList⟩, ⟨4, "8080\n5.6.7.8".toList, "9090".toList⟩] := by
    decide +kernel
  have hclean : ∀ j ∈ jointsOf twoLines, ∀ x, ¬ j.Stray x ∧ ¬ j.Missed x := by
    intro j hj
    rw [hjoints] at hj
    rcases List.mem_pair.mp hj with rfl | rfl
    · exact Joint.clean [] rfl (by decide +kernel) (by decide +kernel)
        (fun d _ => by simp) (by decide +kernel) (by decide +kernel) nofun
    · exact Joint.clean ("8080".toList ++ ['\n']) rfl (by decide +kernel) (by decide +kernel)
        (freeFront_concat (by decide +kernel) (by decide)) (by decide +kernel) (by decide +kernel)
        (by decide +kernel)
  exact fun j hj x =>
    ⟨fun h => absurd h (hclean j hj x).1, fun h => absurd h (hclean j hj x).2⟩

/-- The run of one fetch of this text stores its addresses. -/
theorem parsed_line : Exact twoLines ∧
    handedOver ([⟨"list".toList, some twoLines, true⟩].foldl fetchOneSource ∅) =
      {"1.2.3.4:8080".toList, "5.6.7.8:9090".toList} ∧
    ∃ f : Fetch, ∃ t ∈ f.text, IsToken t "5.6.7.8:9090".toList := by
  have hline : ∀ f ∈ [(⟨"list".toList, some twoLines, true⟩ : Fetch)], ∀ t ∈ f.text, Faithful t := by
    intro f hf t ht
    rw [List.mem_singleton.mp hf] at ht
    rw [← Option.some.inj ht]
    exact faithful_twoLines
  obtain ⟨hexact, hstored⟩ := parsed_iff twoLines [⟨"list".toList, some twoLines, true⟩]
  obtain ⟨f, -, h⟩ := hstored hline "5.6.7.8:9090".toList (by decide +kernel)
  exact ⟨hexact.mpr faithful_twoLines, by decide +kernel, f, h⟩

/-- A port out of range of which the first digits are in range: another port is stored. -/
theorem long_port_cut : ¬ Exact "1.2.3.4:100000".toList ∧
    parseSourceText "1.2.3.4:100000".toList = {"1.2.3.4:10000".toList} := by
  obtain ⟨hparse, hjoints, hall, hvalue⟩ :
      parseSourceText "1.2.3.4:100000".toList = {"1.2.3.4:10000".toList} ∧
      jointsOf "1.2.3.4:100000".toList = [⟨0, "1.2.3.4".toList, "100000".toList⟩] ∧
      "100000".toList.all Decimal.isDecimal = true ∧ ¬ Decimal.value "100000".toList ≤ 65535 := by
    decide +kernel
  refine ⟨fun h => ?_, hparse⟩
  have htoken := (h "1.2.3.4:10000".toList).mp (hparse ▸ Finset.mem_singleton_self _)
  obtain ⟨j, hj, front, address, port, rest, -, hbehind, htoken⟩ := isToken_iff.mp htoken
  rw [hjoints, List.mem_singleton] at hj
  subst hj
  -- the port is the whole number
  obtain ⟨rfl, -⟩ := stretch_unique (t := []) (List.all_eq_true.mp hall)
    (fun c hc => Decimal.isDecimal_of_isDigit (htoken.digits c hc)) nofun htoken.ends
    ((List.append_nil _).trans hbehind)
  exact hvalue htoken.range.2

end HuntProxy.Sources
