import HuntProxy.Lib.Cut
import HuntProxy.Lib.IpText
import HuntProxy.Lib.Text
import HuntProxy.Lib.Url
import Mathlib.Data.Char
import Mathlib.Data.List.Lex

/-!
# Addresses of selective interception

`normalize_address` takes the scheme, the user, the path and the query away from an address that
has been entered, then the port and the dots around it; an address behind `*.` keeps this mark,
and its port. The scheme is taken away as a word wherever it stands, and any other one stops the
reading at its colon. A colon ends an address unless a bracket begins it; so an IPv6 address
needs its brackets.

## Main definitions

- `normalizeAddress`, `resolveSync`, `saveEntries` — the operations
- `Written` — a name or an IPv6 address, as it may be written down
- `Normalised` — what is to become of it

## Main results

- `normalised_iff` — the ways of writing that are understood
-/

namespace HuntProxy.Interception

open Text Url

abbrev Str := List Char

/-! ### The operations -/

/-- The host of an entered address, with its port: no scheme, path, query and user. -/
def authority (a : Str) : Str :=
  let a := removeAll "https://".toList (removeAll "http://".toList a)
  let a := beforeFirst '?' (beforeFirst '/' a)
  if '@' ∈ a then behindLast '@' a else a

/-- The host without its port and the dots around it. -/
def hostOf (a : Str) : Str :=
  if "*.".toList.isPrefixOf a then "*.".toList ++ trim (· == '.') (a.drop 2)
  else
    let a := if ".".toList.isPrefixOf a then a.drop 1 else a
    let a := if ':' ∈ a ∧ ¬ "[".toList.isPrefixOf a then beforeFirst ':' a else a
    trim (· == '.') a

/-- `normalize_address` of a text. -/
def normalizeAddress (lower : LowerCase) (raw : Str) : Str :=
  let a := lower.apply (Text.strip raw)
  if a = [] then [] else hostOf (authority a)

/-- Why a host is not looked up: the resolver refuses it, or it cannot be encoded. -/
inductive LookupError
  | gaierror (text : Str)
  | unicode (text : Str)

/-- The resolver of the system: the addresses of a host, or an error. A bracket is in no name and
in no address that it takes. -/
structure Resolver where
  getaddrinfo : Str → Except LookupError (List Str)
  bracket : ∀ host, '[' ∈ host → ∃ e, getaddrinfo host = .error e

/-- `_iter_v4`. -/
def iterV4 (addresses : List Str) : List Str :=
  addresses.filterMap (fun raw =>
    (Ip.ipAddress raw).bind (fun ip => if ip.family = .v4 then some ip.text else none))

/-- `resolve_sync`: the addresses, the status and the error. -/
def resolveSync (resolver : Resolver) (address : Str) : Except Str (List Str × Str × Str) :=
  let host := if "*.".toList.isPrefixOf address then address.drop 2 else address
  if host = [] then .ok ([], "error".toList, "empty address".toList)
  else
    match Ip.ipAddress host with
    | some ip =>
      if ip.family ≠ .v4 then
        .ok ([], "error".toList, "IPv6 is not supported by iptables".toList)
      else .ok ([ip.text], "ok".toList, [])
    | none =>
      match resolver.getaddrinfo host with
      | .error (.gaierror e) => .ok ([], "error".toList, e)
      | .error (.unicode e) => .error e -- not caught
      | .ok infos =>
        let ips := iterV4 (infos.dedup.mergeSort (fun a b => decide (a ≤ b)))
        if ips = [] then .ok ([], "error".toList, "no IPv4 records".toList)
        else .ok (ips, "ok".toList, [])

/-- The entries that `_save_entries` stores for a resource, in their order. -/
def saveEntries (lower : LowerCase) (addresses : List Str) : List Str :=
  ((addresses.map (normalizeAddress lower)).filter (fun a => a != [])).eraseDups

/-! ### Addresses as they are written down -/

/-- White space. -/
abbrev Blanks := { s : Str // ∀ c ∈ s, Text.isSpace c = true }

/-- The user, perhaps with a password, in front of a host. -/
abbrev User := { s : Str // ∀ c ∈ s, Text.isSpace c = false ∧ c ≠ '/' ∧ c ≠ '?' }

/-- A letter of a domain name or of an IPv4 address. -/
def isHostChar (c : Char) : Bool := c.isAlphanum || c == '-' || c == '_' || c == '.'

/-- A domain name or an IPv4 address. -/
abbrev HostName :=
  { h : Str // h ≠ [] ∧ Bare (· == '.') h ∧ ∀ c ∈ h, isHostChar c = true }

/-- The text of an IPv6 address. -/
structure Ipv6Literal where
  text : Str
  valid : (Ip.read6 text).isSome = true

/-- What may stand behind a host: white space, a path or a query. -/
inductive Tail
  | blanks (b : Blanks)
  | path (text : Str)
  | query (text : Str)

def Tail.text : Tail → Str
  | .blanks b => b.val
  | .path text => '/' :: text
  | .query text => '?' :: text

/-- What an address is about: a name between dots, perhaps with a star, or an IPv6 address. -/
inductive Destination
  | name (before : ℕ) (wildcard : Bool) (inner : ℕ) (host : HostName) (after : ℕ)
    (port : Option Port)
  | ipv6 (literal : Ipv6Literal)
  | bracketed (literal : Ipv6Literal) (port : Option Port)

def dots (n : ℕ) : Str := List.replicate n '.'

/-- The mark of a wildcard. -/
def starText (wildcard : Bool) : Str := if wildcard then "*.".toList else []

def Destination.text : Destination → Str
  | .name before wildcard inner host after port =>
    dots before ++ (starText wildcard ++ (dots inner ++ (host.val ++ (dots after ++ portText port))))
  | .ipv6 literal => literal.text
  | .bracketed literal port => '[' :: (literal.text ++ ']' :: portText port)

def userText (user : Option User) : Str := user.elim [] (fun u => u.val ++ "@".toList)

/-- An address with all that may stand around it. -/
structure Written where
  lead : Blanks
  scheme : Option Scheme
  user : Option User
  destination : Destination
  tail : Tail

def Written.text (w : Written) : Str :=
  w.lead.val ++ (schemeText w.scheme ++ (userText w.user ++ w.destination.text) ++ w.tail.text)

/-- A text in lower case, of letters of ASCII. -/
def lowered (s : Str) : Str := s.map Char.toLower

/-- The address inside brackets, or the text itself. -/
def literalOf (a : Str) : Str := if "[".toList.isPrefixOf a then beforeFirst ']' (a.drop 1) else a

/-- The address becomes what is expected, which stays and is stored. -/
structure KeptName (lower : LowerCase) (raw expected : Str) : Prop where
  result : normalizeAddress lower raw = expected
  again : normalizeAddress lower expected = expected
  stored : saveEntries lower [raw] = [expected]

/-- The address still denotes the IPv6 address, which is not resolved, and stays. -/
structure KeptLiteral (lower : LowerCase) (resolver : Resolver) (raw : Str) (literal : Ipv6Literal) :
    Prop where
  denotes : literalOf (normalizeAddress lower raw) = lowered literal.text
  rejected : ∀ r, resolveSync resolver (normalizeAddress lower raw) = .ok r →
    r.1 = [] ∧ r.2.1 = "error".toList
  again : normalizeAddress lower (normalizeAddress lower raw) = normalizeAddress lower raw

/-- What is to become of an address. -/
def Normalised (lower : LowerCase) (resolver : Resolver) (w : Written) : Prop :=
  match w.destination with
  | .name _ wildcard _ host _ _ => KeptName lower w.text (starText wildcard ++ lowered host.val)
  | .ipv6 literal => KeptLiteral lower resolver w.text literal
  | .bracketed literal _ => KeptLiteral lower resolver w.text literal

/-- The words for `http` and `https` at the end of a scheme. -/
def endsHttp (s : Scheme) : Prop :=
  "http".toList <:+ lowered s.text ∨ "https".toList <:+ lowered s.text

/-- The scheme is taken away: it is `http` or `https`, or ends with one of them in front of a
user, with whom the rest of it goes. -/
def Written.SchemeTaken (w : Written) : Prop :=
  ∀ s ∈ w.scheme, lowered s.text = "http".toList ∨ lowered s.text = "https".toList ∨
    w.user.isSome = true ∧ endsHttp s

/-- The ways of writing that are understood. -/
def Written.Understood (w : Written) : Prop :=
  match w.destination with
  | .name before wildcard inner host _ port =>
    w.SchemeTaken ∧ (wildcard = true → before = 0 ∧ port = none ∨ 0 < before ∧ inner = 0) ∨
      -- another scheme is left over, and is the name
      ∃ s ∈ w.scheme, ¬ endsHttp s ∧ wildcard = false ∧
        trim (· == '.') (lowered s.text) = lowered host.val
  | .ipv6 _ => False
  | .bracketed _ _ => w.SchemeTaken

/-! ### What is in front of the path -/

/-- The empty text, or one that begins with a path or a query. -/
def IsTail (t : Str) : Prop := t = [] ∨ (∃ more, t = '/' :: more) ∨ ∃ more, t = '?' :: more

/-- A text without a path or a query. -/
def PathFree (s : Str) : Prop := ∀ c ∈ s, c ≠ '/' ∧ c ≠ '?'

/-- No word that is removed has its head at the end of the text, whatever is in front of it. -/
def Closed (s : Str) : Prop :=
  ∀ front, ¬ "http:".toList <:+ front ++ s ∧ ¬ "https:".toList <:+ front ++ s

/-- The heads of the words that are removed. -/
def heads : List Str := ["http:".toList, "https:".toList]

theorem PathFree.slash {s : Str} (h : PathFree s) : '/' ∉ s := fun hc => (h '/' hc).1 rfl

theorem PathFree.query {s : Str} (h : PathFree s) : '?' ∉ s := fun hc => (h '?' hc).2 rfl

theorem PathFree.append {s t : Str} (hs : PathFree s) (ht : PathFree t) : PathFree (s ++ t) := by
  intro c hc
  rcases List.mem_append.mp hc with hc | hc
  · exact hs c hc
  · exact ht c hc

theorem Closed.append {s : Str} (h : Closed s) (front : Str) : Closed (front ++ s) := by
  intro front'
  rw [← List.append_assoc]
  exact h (front' ++ front)

theorem heads_facts : ∀ head ∈ heads, '/' ∉ head ∧ head ≠ [] ∧ '?' ∉ head ++ "//".toList := by decide

/-- A text that is closed and has no path stays in front of a path. -/
theorem removeAll_tail (head : Str) {front t : Str} (hhead : head ∈ heads) (hfree : PathFree front)
    (hclosed : ¬ head <:+ front) (ht : IsTail t) :
    ∃ t', IsTail t' ∧ removeAll (head ++ "//".toList) (front ++ t) = front ++ t' := by
  obtain ⟨hslash, hne, hquery⟩ := heads_facts head hhead
  rcases ht with rfl | ⟨more, rfl⟩ | ⟨more, rfl⟩
  · exact ⟨[], .inl rfl, by rw [List.append_nil]; exact removeAll_noStop hfree.slash⟩
  · exact ⟨_, .inr (.inl ⟨_, rfl⟩), removeAll_stop hslash hfree.slash hne hclosed⟩
  · exact ⟨_, .inr (.inr ⟨_, rfl⟩), removeAll_sep hquery hfree.slash⟩

/-- A word is removed behind a text without a slash. -/
theorem removeAll_hit (head : Str) {front : Str} (hhead : head ∈ heads) (hfree : '/' ∉ front) (rest : Str) :
    removeAll (head ++ "//".toList) (front ++ (head ++ "//".toList ++ rest)) =
      front ++ removeAll (head ++ "//".toList) rest := by
  obtain ⟨hslash, hne, -⟩ := heads_facts head hhead
  have hword : head ++ "//".toList ≠ [] := by simp [hne]
  rw [removeAll_front, removeAll_word hword]
  rintro pre suf rfl hsuf h
  have hassoc : suf ++ (head ++ "//".toList ++ rest) = (suf ++ head) ++ '/' :: ('/' :: rest) := by simp
  rw [hassoc] at h
  have hsuf' : '/' ∉ suf ++ head := by
    rw [List.mem_append, not_or]
    exact ⟨fun hmem => hfree (List.mem_append_right pre hmem), hslash⟩
  have heq := @head_eq_front _ _ _ ['/'] _ _ _ hslash hsuf' h
  exact hsuf (List.append_left_eq_self.mp heq.symm)

/-- The slashes behind another scheme stay. -/
theorem removeAll_miss (head : Str) {front : Str} (hhead : head ∈ heads) (hfree : '/' ∉ front)
    (hnot : ¬ head <:+ front) (rest : Str) :
    removeAll (head ++ "//".toList) (front ++ ("//".toList ++ rest)) =
      front ++ ("//".toList ++ removeAll (head ++ "//".toList) rest) := by
  obtain ⟨hslash, hne, -⟩ := heads_facts head hhead
  have hsecond : ¬ head ++ "//".toList <+: '/' :: rest := by
    intro h
    exact hne (@head_eq_front _ _ _ ['/'] [] _ _ hslash List.not_mem_nil h)
  have hfirst := @removeAll_stop _ _ _ ['/'] _ ('/' :: rest) _ hslash hfree hne hnot
  calc removeAll (head ++ "//".toList) (front ++ ("//".toList ++ rest)) =
        front ++ '/' :: removeAll (head ++ "//".toList) ('/' :: rest) := hfirst
    _ = front ++ ("//".toList ++ removeAll (head ++ "//".toList) rest) := by
      rw [removeAll_cons hsecond]
      rfl

/-- The text behind the user. -/
def behindUser (a : Str) : Str := if '@' ∈ a then behindLast '@' a else a

theorem cut_tail {front t : Str} (hfree : PathFree front) (ht : IsTail t) :
    beforeFirst '?' (beforeFirst '/' (front ++ t)) = front := by
  rcases ht with rfl | ⟨more, rfl⟩ | ⟨more, rfl⟩
  · rw [List.append_nil, beforeFirst_of_notMem hfree.slash, beforeFirst_of_notMem hfree.query]
  · rw [beforeFirst_append hfree.slash, beforeFirst_of_notMem hfree.query]
  · have hall : ∀ c ∈ front ++ ['?'], decide (c ≠ '/') = true := by
      intro c hc
      rcases List.mem_append.mp hc with hc | hc
      · exact decide_eq_true (hfree c hc).1
      · rw [List.mem_singleton.mp hc]
        decide
    have hcut : beforeFirst '/' (front ++ '?' :: more) = front ++ '?' :: more.takeWhile (· ≠ '/') := by
      have hassoc : front ++ '?' :: more = front ++ ['?'] ++ more := by simp
      rw [hassoc, beforeFirst, List.takeWhile_append_of_pos hall]
      simp
    rw [hcut, beforeFirst_append hfree.query]

/-- **Without a scheme**, the path is cut off. -/
theorem authority_plain {front t : Str} (hfree : PathFree front) (hclosed : Closed front)
    (ht : IsTail t) : authority (front ++ t) = behindUser front := by
  obtain ⟨t₁, ht₁, heq₁⟩ := removeAll_tail "http:".toList (by decide) hfree (hclosed []).1 ht
  obtain ⟨t₂, ht₂, heq₂⟩ := removeAll_tail "https:".toList (by decide) hfree (hclosed []).2 ht₁
  have hwords : removeAll "https://".toList (removeAll "http://".toList (front ++ t)) = front ++ t₂ := by
    rw [← heq₂, ← heq₁]
    rfl
  rw [authority, hwords]
  rw [cut_tail hfree ht₂]
  rfl

/-- **A scheme that ends with `http` or `https`** is taken away, but for what is in front. -/
theorem authority_taken {head x front t : Str} (hhead : head ∈ heads) (hx : PathFree x)
    (hfree : PathFree front) (hclosed : Closed front) (ht : IsTail t) :
    authority (x ++ (head ++ "//".toList ++ (front ++ t))) = behindUser (x ++ front) := by
  have hxfront := hx.append hfree
  have hwords : ∃ t', IsTail t' ∧ removeAll "https://".toList (removeAll "http://".toList
      (x ++ (head ++ "//".toList ++ (front ++ t)))) = x ++ front ++ t' := by
    simp only [heads, List.mem_cons, List.not_mem_nil, or_false] at hhead
    rcases hhead with rfl | rfl
    · -- `http://` goes in the first pass
      obtain ⟨t₁, ht₁, heq₁⟩ :=
        removeAll_tail "http:".toList (by decide) hfree (hclosed []).1 ht
      obtain ⟨t₂, ht₂, heq₂⟩ :=
        removeAll_tail "https:".toList (by decide) hxfront ((hclosed x).2) ht₁
      refine ⟨t₂, ht₂, ?_⟩
      have hfirst := removeAll_hit "http:".toList (by decide) hx.slash (front ++ t)
      rw [heq₁] at hfirst
      rw [← heq₂, List.append_assoc x front, ← hfirst]
      rfl
    · -- `https://` stays in the first pass
      have hnot : ¬ "http:".toList <:+ x ++ "https:".toList := by
        rintro ⟨y, heq⟩
        have hrev := congrArg List.reverse heq
        simp at hrev
      have hslash : '/' ∉ x ++ "https:".toList := by
        rw [List.mem_append, not_or]
        exact ⟨hx.slash, by decide⟩
      obtain ⟨t₁, ht₁, heq₁⟩ :=
        removeAll_tail "http:".toList (by decide) hfree (hclosed []).1 ht
      obtain ⟨t₂, ht₂, heq₂⟩ :=
        removeAll_tail "https:".toList (by decide) hfree (hclosed []).2 ht₁
      refine ⟨t₂, ht₂, ?_⟩
      have hfirst := removeAll_miss "http:".toList (by decide) hslash hnot (front ++ t)
      have hsecond := removeAll_hit "https:".toList (by decide) hx.slash (front ++ t₁)
      rw [heq₁] at hfirst
      rw [heq₂] at hsecond
      have hassoc : x ++ ("https:".toList ++ "//".toList ++ (front ++ t)) =
          x ++ "https:".toList ++ ("//".toList ++ (front ++ t)) := by simp
      have hassoc' : x ++ "https:".toList ++ ("//".toList ++ (front ++ t₁)) =
          x ++ ("https:".toList ++ "//".toList ++ (front ++ t₁)) := by simp
      rw [hassoc'] at hfirst
      rw [hassoc, List.append_assoc x front, ← hsecond, ← hfirst]
      rfl
  obtain ⟨t', ht', hwords⟩ := hwords
  rw [authority, hwords]
  rw [cut_tail hxfront ht']
  rfl

/-- **Any other scheme** ends the reading. -/
theorem authority_other {scheme : Str} (rest : Str) (hfree : PathFree scheme)
    (hhttp : ¬ "http:".toList <:+ scheme) (hhttps : ¬ "https:".toList <:+ scheme) :
    authority (scheme ++ ("//".toList ++ rest)) = behindUser scheme := by
  have hfirst := removeAll_miss "http:".toList (by decide) hfree.slash hhttp rest
  have hsecond := removeAll_miss "https:".toList (by decide) hfree.slash hhttps
    (removeAll ("http:".toList ++ "//".toList) rest)
  have hwords : removeAll "https://".toList (removeAll "http://".toList
      (scheme ++ ("//".toList ++ rest))) = scheme ++ '/' :: '/' ::
        removeAll ("https:".toList ++ "//".toList) (removeAll ("http:".toList ++ "//".toList) rest) := by
    have hsecond' := hsecond
    rw [← hfirst] at hsecond'
    exact hsecond'
  rw [authority, hwords]
  rw [cut_tail hfree (.inr (.inl ⟨_, rfl⟩))]
  rfl

/-! ### The letters of an address -/

/-- A letter of a destination. -/
def isDestinationChar (c : Char) : Bool := c.isAlphanum || "-_.*:[]".toList.contains c

theorem ascii_of_isDestinationChar {c : Char} (h : isDestinationChar c = true) : c.toNat < 128 := by
  rcases Bool.or_eq_true_iff.mp h with h | h
  · exact LowerCase.ascii_of_isAlphanum h
  · revert h
    simp only [List.contains_iff_mem]
    simp
    rintro (rfl | rfl | rfl | rfl | rfl | rfl | rfl) <;> decide

/-- The letters of a destination are no blanks, and none of those at which it is cut. -/
theorem isDestinationChar_facts {c : Char} (h : isDestinationChar c = true) :
    Text.isSpace c = false ∧ c ≠ '/' ∧ c ≠ '?' ∧ c ≠ '@' ∧ c ≠ '%' ∧
      isDestinationChar c.toLower = true ∧ c.toLower.toLower = c.toLower :=
  LowerCase.of_ascii
    (P := fun c => isDestinationChar c = true → Text.isSpace c = false ∧ c ≠ '/' ∧ c ≠ '?' ∧ c ≠ '@' ∧
      c ≠ '%' ∧ isDestinationChar c.toLower = true ∧ c.toLower.toLower = c.toLower)
    (by decide) (ascii_of_isDestinationChar h) h

theorem isDestinationChar_of_isHostChar {c : Char} (h : isHostChar c = true) :
    isDestinationChar c = true := by
  simp only [isHostChar, Bool.or_eq_true, beq_iff_eq] at h
  obtain ((h | rfl) | rfl) | rfl := h
  · simp [isDestinationChar, h]
  all_goals decide

/-- A letter of an IPv6 address. -/
theorem Ipv6Literal.mem (l : Ipv6Literal) {c : Char} (hc : c ∈ l.text) :
    c = ':' ∨ c = '.' ∨ (Numeral.digit? c).isSome = true := by
  obtain ⟨n, hn⟩ := Option.isSome_iff_exists.mp l.valid
  exact Ip.mem_read6 hn hc

theorem ascii_of_digit {c : Char} (h : (Numeral.digit? c).isSome = true) : c.toNat < 128 := by
  unfold Numeral.digit? at h
  split at h
  · omega
  · split at h
    · omega
    · split at h
      · omega
      · cases h

theorem Ipv6Literal.ascii (l : Ipv6Literal) {c : Char} (hc : c ∈ l.text) : c.toNat < 128 := by
  rcases l.mem hc with rfl | rfl | h
  · decide
  · decide
  · exact ascii_of_digit h

/-- The letters of an IPv6 address are those of a destination, but for the brackets and the
last ones of the words that are removed. -/
theorem Ipv6Literal.facts (l : Ipv6Literal) {c : Char} (hc : c ∈ l.text) :
    isDestinationChar c = true ∧ c ≠ '[' ∧ c ≠ ']' ∧ c.toLower ≠ '[' ∧ c.toLower ≠ ']' ∧
      c.toLower ≠ '*' ∧ c.toLower ≠ 'p' ∧ c.toLower ≠ 's' :=
  LowerCase.of_ascii
    (P := fun c => c = ':' ∨ c = '.' ∨ (Numeral.digit? c).isSome = true →
      isDestinationChar c = true ∧ c ≠ '[' ∧ c ≠ ']' ∧ c.toLower ≠ '[' ∧ c.toLower ≠ ']' ∧
        c.toLower ≠ '*' ∧ c.toLower ≠ 'p' ∧ c.toLower ≠ 's')
    (by decide) (l.ascii hc) (l.mem hc)

theorem Ipv6Literal.colon_mem (l : Ipv6Literal) : ':' ∈ lowered l.text := by
  obtain ⟨n, hn⟩ := Option.isSome_iff_exists.mp l.valid
  exact List.mem_map.mpr ⟨':', Ip.colon_mem_of_read6 hn, rfl⟩

theorem portText_destination (port : Option Port) :
    ∀ c ∈ portText port, isDestinationChar c = true := by
  intro c hc
  cases port with
  | none => cases hc
  | some p =>
    rcases List.mem_cons.mp hc with rfl | hc
    · decide
    · simp [isDestinationChar, Char.isAlphanum, p.property.2 c hc]

theorem dots_destination (n : ℕ) : ∀ c ∈ dots n, isDestinationChar c = true := by
  intro c hc
  rw [List.eq_of_mem_replicate hc]
  decide

theorem starText_destination (wildcard : Bool) :
    ∀ c ∈ starText wildcard, isDestinationChar c = true := by
  cases wildcard with
  | false => nofun
  | true =>
    rw [starText, if_pos rfl]
    simp [isDestinationChar]

theorem Destination.chars (d : Destination) : ∀ c ∈ d.text, isDestinationChar c = true := by
  cases d with
  | name before wildcard inner host after port =>
    simp only [Destination.text, List.forall_mem_append]
    exact ⟨dots_destination before, starText_destination wildcard, dots_destination inner,
      fun c hc => isDestinationChar_of_isHostChar (host.property.2.2 c hc), dots_destination after,
      portText_destination port⟩
  | ipv6 literal => exact fun c hc => (literal.facts hc).1
  | bracketed literal port =>
    simp only [Destination.text, List.forall_mem_cons, List.forall_mem_append]
    exact ⟨by decide, fun c hc => (literal.facts hc).1, by decide, portText_destination port⟩

theorem Destination.text_ne_nil (d : Destination) : d.text ≠ [] := by
  cases d with
  | name before wildcard inner host after port => simp [Destination.text, host.property.1]
  | ipv6 literal =>
    intro h
    have hcolon := literal.colon_mem
    rw [Destination.text] at h
    rw [h] at hcolon
    cases hcolon
  | bracketed literal port => exact List.cons_ne_nil _ _

theorem lowered_destination {s : Str} (h : ∀ c ∈ s, isDestinationChar c = true) :
    ∀ c ∈ lowered s, isDestinationChar c = true := by
  intro c hc
  obtain ⟨d, hd, rfl⟩ := List.mem_map.mp hc
  exact (isDestinationChar_facts (h d hd)).2.2.2.2.2.1

theorem pathFree_destination {s : Str} (h : ∀ c ∈ s, isDestinationChar c = true) : PathFree s :=
  fun c hc => ⟨(isDestinationChar_facts (h c hc)).2.1, (isDestinationChar_facts (h c hc)).2.2.1⟩

/-! ### The text that is cut -/

/-- The user in lower case. -/
structure IsUser (user : Option User) (u : Str) : Prop where
  pathFree : PathFree u
  none : user = none → u = []
  some : user.isSome = true → ∃ front, u = front ++ "@".toList

/-- White space around an address is stripped. -/
theorem strip_text (w : Written) : ∃ t, IsTail t ∧
    Text.strip w.text = schemeText w.scheme ++ (userText w.user ++ w.destination.text) ++ t := by
  have hbare : Bare Text.isSpace (schemeText w.scheme ++ (userText w.user ++ w.destination.text)) := by
    refine Bare.of_all fun c hc => ?_
    simp only [List.mem_append] at hc
    rcases hc with hc | hc | hc
    · exact not_space_of_isValueChar (schemeText_chars w.scheme c hc)
    · cases hu : w.user with
      | none =>
        rw [hu] at hc
        cases hc
      | some u =>
        rw [hu] at hc
        rcases List.mem_append.mp hc with hc | hc
        · exact (u.property c hc).1
        · rw [List.mem_singleton.mp hc]
          decide
    · exact (isDestinationChar_facts (w.destination.chars c hc)).1
  have hne : schemeText w.scheme ++ (userText w.user ++ w.destination.text) ≠ [] := by
    simp [w.destination.text_ne_nil]
  -- behind a separator the rest of the text may lose blanks at its end
  have hpath (c : Char) (hc : Text.isSpace c = false) (more : Str) : ∃ more',
      Text.strip (w.lead.val ++ (schemeText w.scheme ++ (userText w.user ++ w.destination.text) ++ c :: more)) =
        schemeText w.scheme ++ (userText w.user ++ w.destination.text) ++ c :: more' := by
    have hbare' : Bare Text.isSpace
        (schemeText w.scheme ++ (userText w.user ++ w.destination.text) ++ [c]) :=
      hbare.append (Bare.of_all (by simpa using hc)) hne (by simp)
    obtain ⟨more', -, -, -, htrim⟩ := trim_bare_append hbare' (by simp) more
    refine ⟨more', ?_⟩
    have hassoc (l : Str) : schemeText w.scheme ++ (userText w.user ++ w.destination.text) ++ c :: l =
        schemeText w.scheme ++ (userText w.user ++ w.destination.text) ++ [c] ++ l := by simp
    rw [hassoc more, hassoc more', strip_eq_trim, trim_append_left w.lead.property, htrim]
  rw [Written.text]
  cases w.tail with
  | blanks b =>
    refine ⟨[], .inl rfl, ?_⟩
    rw [Tail.text, ← List.append_assoc, strip_eq_trim, List.append_nil]
    exact trim_append w.lead.property hbare b.property
  | path text =>
    obtain ⟨more, hmore⟩ := hpath '/' (by decide) text
    exact ⟨'/' :: more, .inr (.inl ⟨more, rfl⟩), hmore⟩
  | query text =>
    obtain ⟨more, hmore⟩ := hpath '?' (by decide) text
    exact ⟨'?' :: more, .inr (.inr ⟨more, rfl⟩), hmore⟩

theorem between_tail (lower : LowerCase) (l : Str) {t : Str} (ht : IsTail t) :
    IsTail (lower.between l t []) := by
  rcases ht with rfl | ⟨more, rfl⟩ | ⟨more, rfl⟩
  · exact .inl rfl
  · refine .inr (.inl ⟨lower.between (l ++ ['/']) more [], ?_⟩)
    rw [LowerCase.between, lower.ascii _ _ _ (by decide)]
    rfl
  · refine .inr (.inr ⟨lower.between (l ++ ['?']) more [], ?_⟩)
    rw [LowerCase.between, lower.ascii _ _ _ (by decide)]
    rfl

theorem between_user (lower : LowerCase) (l : Str) (user : Option User) (r : Str) :
    IsUser user (lower.between l (userText user) r) := by
  cases user with
  | none => exact ⟨nofun, fun _ => rfl, nofun⟩
  | some u =>
    refine ⟨fun c hc => ?_, nofun, fun _ => ?_⟩
    · have hmem {d : Char} (hd : LowerCase.Uncased d) (h : d ∈ userText (some u)) (hne : d ≠ '@') :
          d ∈ u.val := by
        rcases List.mem_append.mp h with h | h
        · exact h
        · exact absurd (List.mem_singleton.mp h) hne
      constructor
      · rintro rfl
        have h := hmem (by decide) ((lower.mem_between (by decide)).mp hc) (by decide)
        exact (u.property _ h).2.1 rfl
      · rintro rfl
        have h := hmem (by decide) ((lower.mem_between (by decide)).mp hc) (by decide)
        exact (u.property _ h).2.2 rfl
    · have hat : lower.between (l ++ u.val) "@".toList r = "@".toList :=
        lower.between_of_ascii (by simp) _ _
      refine ⟨lower.between l u.val ("@".toList ++ r), ?_⟩
      rw [userText, Option.elim_some, lower.between_append, hat]

/-- **What is cut**: the parts of the address in lower case. -/
theorem lower_text (lower : LowerCase) (w : Written) : ∃ u t, IsUser w.user u ∧ IsTail t ∧
    lower.apply (Text.strip w.text) =
      lowered (schemeText w.scheme) ++ (u ++ (lowered w.destination.text ++ t)) := by
  obtain ⟨t, ht, hstrip⟩ := strip_text w
  have hscheme : ∀ c ∈ schemeText w.scheme, c.toNat < 128 :=
    fun c hc => ascii_of_isValueChar (schemeText_chars w.scheme c hc)
  have hdestination : ∀ c ∈ w.destination.text, c.toNat < 128 :=
    fun c hc => ascii_of_isDestinationChar (w.destination.chars c hc)
  refine ⟨lower.between (schemeText w.scheme) (userText w.user) (w.destination.text ++ t),
    lower.between (schemeText w.scheme ++ (userText w.user ++ w.destination.text)) t [],
    between_user lower _ w.user _, between_tail lower _ ht, ?_⟩
  rw [hstrip, LowerCase.apply, lower.between_append, lower.between_append, lower.between_append,
    lower.between_of_ascii hscheme, lower.between_of_ascii hdestination]
  simp [lowered]

/-! ### No word ends inside a destination -/

theorem Closed.of_noColon {s : Str} (hne : s ≠ []) (h : ':' ∉ s) : Closed s := by
  have hnot (front head : Str) : ¬ head ++ ":".toList <:+ front ++ s := by
    intro hsuffix
    have hcolon : ":".toList <:+ front ++ s := (List.suffix_append head _).trans hsuffix
    have hs := List.suffix_of_suffix_length_le hcolon (List.suffix_append front s)
      (List.length_pos_of_ne_nil hne)
    exact h (hs.subset (by decide))
  exact fun front => ⟨hnot front "http".toList, hnot front "https".toList⟩

theorem Closed.of_long {s : Str} (hlen : 2 ≤ s.length) (hp : 'p' ∉ s) (hs : 's' ∉ s) : Closed s := by
  have hnot (front head : Str) (c : Char) (hc : c ∉ s) : ¬ head ++ [c, ':'] <:+ front ++ s := by
    intro hsuffix
    have hcolon : [c, ':'] <:+ front ++ s := (List.suffix_append head _).trans hsuffix
    have hsub := List.suffix_of_suffix_length_le hcolon (List.suffix_append front s) hlen
    exact hc (hsub.subset List.mem_cons_self)
  exact fun front => ⟨hnot front "htt".toList 'p' hp, hnot front "http".toList 's' hs⟩

@[simp] theorem lowered_append (s t : Str) : lowered (s ++ t) = lowered s ++ lowered t :=
  List.map_append

theorem lowered_of_uncased {s : Str} (h : ∀ c ∈ s, LowerCase.Uncased c) : lowered s = s :=
  (List.map_congr_left (fun c hc => LowerCase.toLower_of_uncased (h c hc))).trans (List.map_id' s)

theorem lowered_dots (n : ℕ) : lowered (dots n) = dots n := by
  refine lowered_of_uncased fun c hc => ?_
  rw [List.eq_of_mem_replicate hc]
  decide

theorem lowered_starText (wildcard : Bool) : lowered (starText wildcard) = starText wildcard := by
  cases wildcard <;> rfl

theorem uncased_of_isDigit {c : Char} (h : c.isDigit = true) : LowerCase.Uncased c :=
  LowerCase.of_ascii (P := fun c => c.isDigit = true → LowerCase.Uncased c) (by decide)
    (LowerCase.ascii_of_isAlphanum (by simp [Char.isAlphanum, h])) h

theorem lowered_portText (port : Option Port) : lowered (portText port) = portText port := by
  cases port with
  | none => rfl
  | some p =>
    refine lowered_of_uncased (List.forall_mem_cons.mpr ⟨by decide, fun c hc => ?_⟩)
    exact uncased_of_isDigit (p.property.2 c hc)

/-- The letters of a name, in either case. -/
theorem isHostChar_facts {c : Char} (h : isHostChar c = true) :
    isHostChar c.toLower = true ∧ (c.toLower = '.' → c = '.') ∧ c ≠ ':' ∧ c ≠ '*' ∧ c ≠ '[' :=
  LowerCase.of_ascii
    (P := fun c => isHostChar c = true → isHostChar c.toLower = true ∧ (c.toLower = '.' → c = '.') ∧
      c ≠ ':' ∧ c ≠ '*' ∧ c ≠ '[')
    (by decide) (ascii_of_isDestinationChar (isDestinationChar_of_isHostChar h)) h

/-- A name in lower case. -/
def lowerHost (host : HostName) : HostName where
  val := lowered host.val
  property := by
    obtain ⟨hne, hbare, hchars⟩ := host.property
    have hdot (c : Char) (hc : c ∈ host.val) (h : (c == '.') = false) : (c.toLower == '.') = false := by
      rw [beq_eq_false_iff_ne] at h ⊢
      exact fun heq => h ((isHostChar_facts (hchars c hc)).2.1 heq)
    refine ⟨by simpa [lowered] using hne, ⟨fun c hc => ?_, fun c hc => ?_⟩, fun c hc => ?_⟩
    · rw [lowered, List.head?_map] at hc
      obtain ⟨d, hd, rfl⟩ := Option.map_eq_some_iff.mp hc
      exact hdot d (List.mem_of_head? hd) (hbare.head d hd)
    · rw [lowered, List.getLast?_map] at hc
      obtain ⟨d, hd, rfl⟩ := Option.map_eq_some_iff.mp hc
      exact hdot d (List.mem_of_getLast? hd) (hbare.last d hd)
    · obtain ⟨d, hd, rfl⟩ := List.mem_map.mp hc
      exact (isHostChar_facts (hchars d hd)).1

theorem lowered_name (before inner after : ℕ) (wildcard : Bool) (host : HostName)
    (port : Option Port) : lowered (Destination.name before wildcard inner host after port).text =
      (Destination.name before wildcard inner (lowerHost host) after port).text := by
  simp only [Destination.text, lowered_append, lowered_dots, lowered_starText, lowered_portText]
  rfl

theorem lowered_bracketed (literal : Ipv6Literal) (port : Option Port) :
    lowered (Destination.bracketed literal port).text =
      '[' :: (lowered literal.text ++ ']' :: portText port) := by
  rw [← lowered_portText port]
  simp [Destination.text, lowered]

theorem dots_noColon (n : ℕ) : ':' ∉ dots n := fun h => absurd (List.eq_of_mem_replicate h) (by decide)

theorem HostName.noColon (host : HostName) : ':' ∉ host.val :=
  fun h => (isHostChar_facts (host.property.2.2 _ h)).2.2.1 rfl

theorem closed_name (before inner after : ℕ) (wildcard : Bool) (host : HostName)
    (port : Option Port) : Closed (Destination.name before wildcard inner host after port).text := by
  simp only [Destination.text]
  refine ((Closed.append ?_ _).append _).append _
  cases port with
  | none =>
    refine Closed.of_noColon (by simp [host.property.1]) ?_
    rw [portText, Option.elim_none, List.append_nil, List.mem_append, not_or]
    exact ⟨HostName.noColon host, dots_noColon after⟩
  | some p =>
    have hport : portText (some p) = ":".toList ++ p.val := rfl
    rw [hport]
    refine ((Closed.append (Closed.of_noColon p.property.1 fun h => ?_) _).append _).append _
    exact absurd (p.property.2 _ h) (by decide)

theorem closed_bracketed (s : Str) (port : Option Port) :
    Closed ('[' :: (s ++ ']' :: portText port)) := by
  cases port with
  | none =>
    have h := (Closed.of_noColon (s := "]".toList) (by decide) (by decide)).append ('[' :: s)
    simpa [portText] using h
  | some p =>
    have hdigits : Closed p.val :=
      Closed.of_noColon p.property.1 (fun h => absurd (p.property.2 _ h) (by decide))
    simpa [portText] using hdigits.append ('[' :: (s ++ "]:".toList))

theorem Ipv6Literal.two_le (l : Ipv6Literal) : 2 ≤ l.text.length := by
  obtain ⟨n, hn⟩ := Option.isSome_iff_exists.mp l.valid
  have hcolon := Ip.colon_mem_of_read6 hn
  rcases htext : l.text with _ | ⟨c, _ | ⟨d, s⟩⟩
  · rw [htext] at hcolon
    cases hcolon
  · rw [htext] at hcolon hn
    obtain rfl := List.mem_singleton.mp hcolon
    cases hn
  · exact Nat.le_add_left 2 s.length

theorem closed_ipv6 (l : Ipv6Literal) : Closed (lowered l.text) := by
  refine Closed.of_long (by simpa [lowered] using l.two_le) ?_ ?_
  · intro h
    obtain ⟨c, hc, heq⟩ := List.mem_map.mp h
    exact (l.facts hc).2.2.2.2.2.2.1 heq
  · intro h
    obtain ⟨c, hc, heq⟩ := List.mem_map.mp h
    exact (l.facts hc).2.2.2.2.2.2.2 heq

theorem closed_destination (d : Destination) : Closed (lowered d.text) := by
  cases d with
  | name before wildcard inner host after port =>
    rw [lowered_name]
    exact closed_name before inner after wildcard (lowerHost host) port
  | ipv6 literal => exact closed_ipv6 literal
  | bracketed literal port =>
    rw [lowered_bracketed]
    exact closed_bracketed _ port

/-! ### What is left of an address -/

theorem destination_noAt {s : Str} (h : ∀ c ∈ s, isDestinationChar c = true) : '@' ∉ s :=
  fun hc => (isDestinationChar_facts (h _ hc)).2.2.2.1 rfl

/-- The letters of a scheme in lower case. -/
theorem scheme_facts (s : Scheme) {c : Char} (hc : c ∈ lowered s.text) :
    c ≠ '/' ∧ c ≠ '?' ∧ c ≠ '@' ∧ c ≠ ':' ∧ c ≠ '*' := by
  obtain ⟨d, hd, rfl⟩ := List.mem_map.mp hc
  have hletter : d.isAlphanum = true ∨ d ∈ "+-.".toList := by
    rcases List.mem_cons.mp hd with rfl | hd
    · exact .inl (by simp [Char.isAlphanum, s.isAlpha])
    · exact s.letters d hd
  have hascii : d.toNat < 128 := by
    rcases hletter with h | h
    · exact LowerCase.ascii_of_isAlphanum h
    · revert h
      simp
      rintro (rfl | rfl | rfl) <;> decide
  exact LowerCase.of_ascii
    (P := fun d => d.isAlphanum = true ∨ d ∈ "+-.".toList → d.toLower ≠ '/' ∧ d.toLower ≠ '?' ∧
      d.toLower ≠ '@' ∧ d.toLower ≠ ':' ∧ d.toLower ≠ '*')
    (by decide) hascii hletter

/-- A letter that begins neither a mark, a dot nor a bracket. -/
def Plain (c : Char) : Prop := c ≠ '*' ∧ c ≠ '.' ∧ c ≠ '['

theorem plain_scheme (s : Scheme) : Plain s.first.toLower :=
  LowerCase.of_ascii (P := fun c => c.isAlpha = true → c.toLower ≠ '*' ∧ c.toLower ≠ '.' ∧ c.toLower ≠ '[')
    (by decide) (LowerCase.ascii_of_isAlphanum (by simp [Char.isAlphanum, s.isAlpha])) s.isAlpha

theorem lowered_schemeText (s : Scheme) :
    lowered (schemeText (some s)) = lowered s.text ++ "://".toList := by
  rw [schemeText, Option.elim_some, lowered_append]
  rfl

/-- The user goes, and all in front of it. -/
theorem behindUser_user {user : Option User} {u : Str} (hu : IsUser user u)
    (hsome : user.isSome = true) (x : Str) {a : Str} (ha : '@' ∉ a) : behindUser (x ++ (u ++ a)) = a := by
  obtain ⟨front, rfl⟩ := hu.some hsome
  have hassoc : x ++ (front ++ "@".toList ++ a) = x ++ front ++ '@' :: a := by simp
  rw [hassoc, behindUser, if_pos (by simp), behindLast_append _ ha]

theorem behindUser_noAt {a : Str} (ha : '@' ∉ a) : behindUser a = a := if_neg ha

theorem behindUser_any {user : Option User} {u : Str} (hu : IsUser user u) {a : Str} (ha : '@' ∉ a) :
    behindUser (u ++ a) = a := by
  cases hcase : user with
  | none => rw [hu.none hcase, List.nil_append, behindUser_noAt ha]
  | some v => exact behindUser_user hu (by rw [hcase]; rfl) [] ha

theorem normalizeAddress_eq (lower : LowerCase) {raw : Str} (h : lower.apply (Text.strip raw) ≠ []) :
    normalizeAddress lower raw = hostOf (authority (lower.apply (Text.strip raw))) := if_neg h

/-- **Where the scheme is taken away**, the destination is left. -/
theorem normalize_taken (lower : LowerCase) {w : Written} (h : w.SchemeTaken) :
    normalizeAddress lower w.text = hostOf (lowered w.destination.text) := by
  obtain ⟨u, t, hu, ht, htext⟩ := lower_text lower w
  have hchars := lowered_destination w.destination.chars
  have hat := destination_noAt hchars
  have hfree : PathFree (u ++ lowered w.destination.text) :=
    hu.pathFree.append (pathFree_destination hchars)
  have hclosed : Closed (u ++ lowered w.destination.text) := (closed_destination _).append u
  rw [normalizeAddress_eq lower (by simp [htext, lowered, w.destination.text_ne_nil]), htext]
  rw [← List.append_assoc u]
  cases hs : w.scheme with
  | none => exact congrArg hostOf ((authority_plain hfree hclosed ht).trans (behindUser_any hu hat))
  | some s =>
    have hword (x head : Str) (hx : lowered s.text = x ++ head) (hfree' : PathFree x)
        (hhead : head ++ ":".toList ∈ heads) :
        authority (lowered (schemeText (some s)) ++ (u ++ lowered w.destination.text ++ t)) =
          behindUser (x ++ (u ++ lowered w.destination.text)) := by
      rw [lowered_schemeText, hx, ← authority_taken hhead hfree' hfree hclosed ht]
      simp
    have hempty : PathFree [] := nofun
    rcases h s hs with hhttp | hhttps | ⟨huser, hends⟩
    · rw [hword [] "http".toList hhttp hempty (by decide), List.nil_append, behindUser_any hu hat]
    · rw [hword [] "https".toList hhttps hempty (by decide), List.nil_append, behindUser_any hu hat]
    · have hx (x head : Str) (hx : x ++ head = lowered s.text) : PathFree x := fun c hc =>
        have hmem : c ∈ lowered s.text := hx ▸ List.mem_append_left head hc
        ⟨(scheme_facts s hmem).1, (scheme_facts s hmem).2.1⟩
      rcases hends with ⟨x, hend⟩ | ⟨x, hend⟩
      · rw [hword x "http".toList hend.symm (hx x _ hend) (by decide), behindUser_user hu huser x hat]
      · rw [hword x "https".toList hend.symm (hx x _ hend) (by decide), behindUser_user hu huser x hat]

/-- **A scheme that ends with `http` or `https`** leaves its beginning in front of the destination. -/
theorem normalize_partly (lower : LowerCase) {w : Written} {s : Scheme} (hs : w.scheme = some s)
    (hends : endsHttp s) (h : ¬ w.SchemeTaken) : ∃ c x, Plain c ∧ ':' ∉ c :: x ∧ '*' ∉ c :: x ∧
      normalizeAddress lower w.text = hostOf (c :: x ++ lowered w.destination.text) := by
  obtain ⟨u, t, hu, ht, htext⟩ := lower_text lower w
  have hchars := lowered_destination w.destination.chars
  have hnot : ¬ (lowered s.text = "http".toList ∨ lowered s.text = "https".toList ∨
      w.user.isSome = true ∧ endsHttp s) := by
    intro hall
    refine h fun s' hs' => ?_
    obtain rfl : s = s' := Option.some.inj (hs.symm.trans hs')
    exact hall
  have huser : w.user = none := by
    rw [← Option.not_isSome_iff_eq_none]
    exact fun hsome => hnot (.inr (.inr ⟨hsome, hends⟩))
  obtain rfl := hu.none huser
  obtain ⟨x, head, hhead, hend⟩ : ∃ x head, head ++ ":".toList ∈ heads ∧ x ++ head = lowered s.text := by
    rcases hends with ⟨x, hend⟩ | ⟨x, hend⟩
    · exact ⟨x, "http".toList, by decide, hend⟩
    · exact ⟨x, "https".toList, by decide, hend⟩
  have hfacts (c : Char) (hc : c ∈ x) := scheme_facts s (hend ▸ List.mem_append_left head hc)
  have hfree : PathFree x := fun c hc => ⟨(hfacts c hc).1, (hfacts c hc).2.1⟩
  have hatx : '@' ∉ x ++ lowered w.destination.text := by
    rw [List.mem_append, not_or]
    exact ⟨fun hc => (hfacts _ hc).2.2.1 rfl, destination_noAt hchars⟩
  have hnormal : normalizeAddress lower w.text = hostOf (x ++ lowered w.destination.text) := by
    have hauthority := authority_taken hhead hfree (pathFree_destination hchars)
      (closed_destination _) ht
    rw [behindUser_noAt hatx] at hauthority
    rw [normalizeAddress_eq lower (by simp [htext, lowered, w.destination.text_ne_nil]), htext, hs,
      lowered_schemeText, ← hend, ← hauthority]
    simp
  -- with nothing in front the scheme would be one of the two that are taken away
  cases x with
  | nil =>
    rw [List.nil_append] at hend
    simp only [heads, List.mem_cons, List.not_mem_nil, or_false] at hhead
    have hcancel {word : Str} (heq : head ++ ":".toList = word ++ ":".toList) :
        lowered s.text = word := hend.symm.trans (List.append_cancel_right heq)
    rcases hhead with hhead | hhead
    · exact absurd (.inl (hcancel hhead)) hnot
    · exact absurd (.inr (.inl (hcancel hhead))) hnot
  | cons c x =>
    obtain rfl : c = s.first.toLower := (List.cons.inj hend).1
    exact ⟨_, x, plain_scheme s, fun hc => (hfacts _ hc).2.2.2.1 rfl,
      fun hc => (hfacts _ hc).2.2.2.2 rfl, hnormal⟩

/-! ### The host that is left -/

theorem notMem_hostless {c : Char} {s : Str} (h : c ∉ s) : c ∉ trim (· == '.') s :=
  fun hc => h (mem_of_mem_trim hc)

theorem isPrefixOf_ne {c d : Char} (h : c ≠ d) (more s : Str) :
    (d :: more).isPrefixOf (c :: s) = false := by
  simp [List.isPrefixOf, Ne.symm h]

/-- A text that begins with a letter is cut at its colon. -/
theorem hostOf_letter {c : Char} (hc : Plain c) (s : Str) :
    hostOf (c :: s) = trim (· == '.') (beforeFirst ':' (c :: s)) := by
  obtain ⟨hstar, hdot, hbracket⟩ := hc
  have hmark : "*.".toList.isPrefixOf (c :: s) = false := isPrefixOf_ne hstar _ s
  have hfirst : ".".toList.isPrefixOf (c :: s) = false := isPrefixOf_ne hdot _ s
  have hopen : "[".toList.isPrefixOf (c :: s) = false := isPrefixOf_ne hbracket _ s
  simp only [hostOf, hmark, hfirst, hopen, Bool.false_eq_true, if_false, not_false_eq_true, and_true]
  by_cases hcolon : ':' ∈ c :: s
  · rw [if_pos hcolon]
  · rw [if_neg hcolon, beforeFirst_of_notMem hcolon]

/-- A dot in front is dropped. -/
theorem hostOf_dot {s : Str} (hs : ∀ c ∈ s.head?, c ≠ '[') :
    hostOf ('.' :: s) = trim (· == '.') (beforeFirst ':' s) := by
  have hopen : "[".toList.isPrefixOf s = false := by
    cases s with
    | nil => rfl
    | cons c s => exact isPrefixOf_ne (hs c rfl) _ s
  have hmark : "*.".toList.isPrefixOf ('.' :: s) = false := rfl
  have hfirst : ".".toList.isPrefixOf ('.' :: s) = true := rfl
  simp only [hostOf, hmark, hfirst, Bool.false_eq_true, if_false, if_true, List.drop_one,
    List.tail_cons, hopen, not_false_eq_true, and_true]
  by_cases hcolon : ':' ∈ s
  · rw [if_pos hcolon]
  · rw [if_neg hcolon, beforeFirst_of_notMem hcolon]

theorem hostOf_star (s : Str) : hostOf ("*.".toList ++ s) = "*.".toList ++ trim (· == '.') s := rfl

theorem hostOf_bracket (s : Str) : hostOf ('[' :: s) = trim (· == '.') ('[' :: s) := by
  simp [hostOf]

/-- Without a mark and a bracket, no colon is left. -/
theorem hostOf_noColon {a : Str} (hstar : '*' ∉ a) (hbracket : '[' ∉ a) : ':' ∉ hostOf a := by
  cases a with
  | nil => exact List.not_mem_nil
  | cons c s =>
    by_cases hdot : c = '.'
    · subst hdot
      rw [hostOf_dot (fun d hd heq =>
        hbracket (List.mem_cons_of_mem _ (heq ▸ List.mem_of_head? hd)))]
      exact notMem_hostless (notMem_beforeFirst ':' s)
    · rw [hostOf_letter ⟨fun h => hstar (h ▸ List.mem_cons_self), hdot,
        fun h => hbracket (h ▸ List.mem_cons_self)⟩]
      exact notMem_hostless (notMem_beforeFirst ':' _)

theorem beforeFirst_portText {s : Str} (hs : ':' ∉ s) (port : Option Port) :
    beforeFirst ':' (s ++ portText port) = s := by
  cases port with
  | none => rw [portText, Option.elim_none, List.append_nil, beforeFirst_of_notMem hs]
  | some p => exact beforeFirst_append hs p.val

theorem dots_trimmed (n : ℕ) : ∀ c ∈ dots n, (c == '.') = true := by
  intro c hc
  rw [List.eq_of_mem_replicate hc]
  rfl

theorem trim_dots (n after : ℕ) (host : HostName) :
    trim (· == '.') (dots n ++ (host.val ++ dots after)) = host.val := by
  rw [← List.append_assoc]
  exact trim_append (dots_trimmed n) host.property.2.1 (dots_trimmed after)

/-- A host begins with a letter. -/
theorem HostName.head (host : HostName) : ∃ c s, host.val = c :: s ∧ Plain c := by
  obtain ⟨c, s, h⟩ := List.exists_cons_of_ne_nil host.property.1
  have hc : isHostChar c = true := host.property.2.2 c (h ▸ List.mem_cons_self)
  obtain ⟨-, -, -, hstar, hbracket⟩ := isHostChar_facts hc
  refine ⟨c, s, h, hstar, ?_, hbracket⟩
  have hdot := host.property.2.1.head c (by rw [h]; rfl)
  exact beq_eq_false_iff_ne.mp hdot

/-- **A name** loses its port and the dots around it. -/
theorem hostOf_name (before inner after : ℕ) (host : HostName) (port : Option Port) :
    hostOf (Destination.name before false inner host after port).text = host.val := by
  have htext : (Destination.name before false inner host after port).text =
      dots (before + inner) ++ (host.val ++ dots after) ++ portText port := by
    simp [Destination.text, starText, dots, ← List.replicate_append_replicate]
  have hcolon (n : ℕ) : ':' ∉ dots n ++ (host.val ++ dots after) := by
    rw [List.mem_append, List.mem_append, not_or, not_or]
    exact ⟨dots_noColon n, HostName.noColon host, dots_noColon after⟩
  obtain ⟨c, s, hhost, hplain⟩ := HostName.head host
  rw [htext]
  cases before + inner with
  | zero =>
    have hfirst : dots 0 ++ (host.val ++ dots after) ++ portText port =
        c :: (s ++ dots after ++ portText port) := by
      rw [hhost]
      rfl
    rw [hfirst, hostOf_letter hplain, ← hfirst, beforeFirst_portText (hcolon 0), trim_dots]
  | succ n =>
    have hhead : ∀ d ∈ (dots n ++ (host.val ++ dots after) ++ portText port).head?, d ≠ '[' := by
      rintro d hd rfl
      rw [List.append_assoc] at hd
      cases n with
      | zero =>
        rw [hhost] at hd
        exact hplain.2.2 (Option.some.inj hd)
      | succ n => exact absurd (Option.some.inj hd) (by decide)
    have hfirst : dots (n + 1) ++ (host.val ++ dots after) ++ portText port =
        '.' :: (dots n ++ (host.val ++ dots after) ++ portText port) := rfl
    rw [hfirst, hostOf_dot hhead, beforeFirst_portText (hcolon n), trim_dots]

/-- **A name behind its mark** keeps its port. -/
theorem hostOf_marked (inner after : ℕ) (host : HostName) (port : Option Port) :
    hostOf (Destination.name 0 true inner host after port).text = "*.".toList ++ host.val ↔
      port = none := by
  have htext : (Destination.name 0 true inner host after port).text =
      "*.".toList ++ (dots inner ++ (host.val ++ (dots after ++ portText port))) := rfl
  rw [htext, hostOf_star, List.append_cancel_left_eq]
  cases port with
  | none =>
    rw [portText, Option.elim_none, List.append_nil]
    exact iff_of_true (trim_dots inner after host) rfl
  | some p =>
    have hcolon : ':' ∈ trim (· == '.')
        (dots inner ++ (host.val ++ (dots after ++ portText (some p)))) :=
      mem_trim (by simp [portText]) (by decide)
    refine iff_of_false (fun h => ?_) (Option.some_ne_none p)
    rw [h] at hcolon
    exact HostName.noColon host hcolon

/-- Behind a dot, a mark stays with the dots behind it. -/
theorem hostOf_dotMarked (n inner after : ℕ) (host : HostName) (port : Option Port) :
    hostOf (Destination.name (n + 1) true inner host after port).text = "*.".toList ++ host.val ↔
      inner = 0 := by
  have htext : (Destination.name (n + 1) true inner host after port).text =
      '.' :: (dots n ++ ("*.".toList ++ (dots inner ++ (host.val ++ dots after))) ++ portText port) := by
    simp [Destination.text, starText, dots, List.replicate_succ]
  have hcolon : ':' ∉ dots n ++ ("*.".toList ++ (dots inner ++ (host.val ++ dots after))) := by
    simp only [List.mem_append, not_or]
    exact ⟨dots_noColon n, by decide, dots_noColon inner, HostName.noColon host, dots_noColon after⟩
  have hhead : ∀ d ∈ (dots n ++ ("*.".toList ++ (dots inner ++ (host.val ++ dots after))) ++
      portText port).head?, d ≠ '[' := by
    rintro d hd rfl
    cases n with
    | zero => exact absurd (Option.some.inj hd) (by decide)
    | succ n => exact absurd (Option.some.inj hd) (by decide)
  have hbare : Bare (· == '.') ("*.".toList ++ dots inner ++ host.val) :=
    Bare.around (s := "*".toList) ('.' :: dots inner) (Bare.of_all (by simp)) host.property.2.1
      (by decide) host.property.1
  rw [htext, hostOf_dot hhead, beforeFirst_portText hcolon]
  have htrim := trim_append (dots_trimmed n) hbare (dots_trimmed after)
  have hassoc : dots n ++ ("*.".toList ++ (dots inner ++ (host.val ++ dots after))) =
      dots n ++ ("*.".toList ++ dots inner ++ host.val) ++ dots after := by simp
  rw [hassoc, htrim, List.append_assoc, List.append_cancel_left_eq, List.append_left_eq_self]
  exact List.replicate_eq_nil_iff '.'

/-! ### Normalising what is normal -/

theorem normalize_lowered (lower : LowerCase) {a : Str} (hne : a ≠ [])
    (hchars : ∀ c ∈ a, isDestinationChar c = true) (hlow : lowered a = a) (hclosed : Closed a) :
    normalizeAddress lower a = hostOf a := by
  have hstrip : Text.strip a = a := by
    rw [strip_eq_trim]
    exact trim_of_bare (Bare.of_all (fun c hc => (isDestinationChar_facts (hchars c hc)).1))
  have hlower : lower.apply (Text.strip a) = a := by
    rw [hstrip, lower.apply_of_ascii (fun c hc => ascii_of_isDestinationChar (hchars c hc))]
    exact hlow
  have hauthority := authority_plain (pathFree_destination hchars) hclosed (.inl rfl)
  rw [List.append_nil, behindUser_noAt (destination_noAt hchars)] at hauthority
  rw [normalizeAddress_eq lower (by rwa [hlower]), hlower, hauthority]

theorem lowered_lowered {s : Str} (h : ∀ c ∈ s, isDestinationChar c = true) :
    lowered (lowered s) = lowered s := by
  rw [lowered, lowered, List.map_map]
  exact List.map_congr_left (fun c hc => (isDestinationChar_facts (h c hc)).2.2.2.2.2.2)

theorem HostName.chars (host : HostName) : ∀ c ∈ host.val, isDestinationChar c = true :=
  fun c hc => isDestinationChar_of_isHostChar (host.property.2.2 c hc)

/-- **The normal form of a name** stays. -/
theorem normalize_name (lower : LowerCase) (wildcard : Bool) (host : HostName) :
    normalizeAddress lower (starText wildcard ++ lowered host.val) =
      starText wildcard ++ lowered host.val := by
  have hplain (wildcard : Bool) : (Destination.name 0 wildcard 0 (lowerHost host) 0 none).text =
      starText wildcard ++ lowered host.val := by
    simp [Destination.text, dots, portText, lowerHost]
  have hlow : lowered (starText wildcard ++ lowered host.val) = starText wildcard ++ lowered host.val := by
    rw [lowered_append, lowered_starText, lowered_lowered (HostName.chars host)]
  have hchars := Destination.chars (.name 0 wildcard 0 (lowerHost host) 0 none)
  have hclosed := closed_name 0 0 0 wildcard (lowerHost host) none
  rw [hplain] at hchars hclosed
  rw [normalize_lowered lower (by simp [lowered, host.property.1]) hchars hlow hclosed]
  cases wildcard with
  | false =>
    exact (congrArg hostOf (hplain false)).symm.trans (hostOf_name 0 0 0 (lowerHost host) none)
  | true =>
    exact (congrArg hostOf (hplain true)).symm.trans ((hostOf_marked 0 0 (lowerHost host) none).mpr rfl)

/-- A name is kept when it is the result. -/
theorem keptName_iff (lower : LowerCase) (raw : Str) (wildcard : Bool) (host : HostName) :
    KeptName lower raw (starText wildcard ++ lowered host.val) ↔
      normalizeAddress lower raw = starText wildcard ++ lowered host.val := by
  refine ⟨KeptName.result, fun h => ⟨h, normalize_name lower wildcard host, ?_⟩⟩
  have hne : starText wildcard ++ lowered host.val ≠ [] := by simp [lowered, host.property.1]
  rw [saveEntries, List.map_singleton, h, List.filter_cons, if_pos (by simpa using hne), List.filter_nil]
  rfl

/-! ### Names -/

section Name

variable (lower : LowerCase) {w : Written} {before inner after : ℕ} {wildcard : Bool}
  {host : HostName} {port : Option Port} {s : Scheme}

theorem name_taken (hw : w.destination = .name before wildcard inner host after port)
    (h : w.SchemeTaken) : normalizeAddress lower w.text = starText wildcard ++ lowered host.val ↔
      (wildcard = true → before = 0 ∧ port = none ∨ 0 < before ∧ inner = 0) := by
  rw [normalize_taken lower h, hw, lowered_name]
  cases wildcard with
  | false =>
    exact iff_of_true (hostOf_name before inner after (lowerHost host) port)
      (fun h => absurd h Bool.false_ne_true)
  | true =>
    cases before with
    | zero =>
      refine (hostOf_marked inner after (lowerHost host) port).trans ?_
      simp
    | succ n =>
      refine (hostOf_dotMarked n inner after (lowerHost host) port).trans ?_
      simp

/-- The rest of a scheme is part of the result. -/
theorem name_partly (hw : w.destination = .name before wildcard inner host after port)
    (hs : w.scheme = some s) (hends : endsHttp s) (h : ¬ w.SchemeTaken) :
    normalizeAddress lower w.text ≠ starText wildcard ++ lowered host.val := by
  obtain ⟨c, x, hplain, hcolon, -, hnormal⟩ := normalize_partly lower hs hends h
  have htext : c :: x ++ lowered w.destination.text =
      c :: (x ++ dots before ++ starText wildcard ++ dots inner) ++ (lowerHost host).val ++ dots after ++
        portText port := by
    rw [hw, lowered_name]
    simp [Destination.text]
  have hstar : ':' ∉ starText wildcard := by cases wildcard <;> decide
  have hfront : ':' ∉ c :: (x ++ dots before ++ starText wildcard ++ dots inner) ++
      (lowerHost host).val ++ dots after := by
    simp only [List.cons_append, List.mem_cons, List.mem_append, not_or] at hcolon ⊢
    exact ⟨hcolon.1, ⟨⟨⟨⟨hcolon.2, dots_noColon before⟩, hstar⟩, dots_noColon inner⟩,
      HostName.noColon (lowerHost host)⟩, dots_noColon after⟩
  have hbare : Bare (· == '.') ([c] ++ (x ++ dots before ++ starText wildcard ++ dots inner) ++
      (lowerHost host).val) := by
    have hc : (c == '.') = false := beq_eq_false_iff_ne.mpr hplain.2.1
    exact Bare.around _ (Bare.of_all (by simpa using hc)) (lowerHost host).property.2.1
      (List.cons_ne_nil c []) (lowerHost host).property.1
  have htrim := trim_append_right hbare (dots_trimmed after)
  rw [hnormal, htext, List.cons_append, List.cons_append, List.cons_append, hostOf_letter hplain]
  intro heq
  have hcut := beforeFirst_portText hfront port
  rw [List.cons_append, List.cons_append, List.cons_append] at hcut
  rw [hcut] at heq
  have hresult := htrim.symm.trans heq
  have hmark := List.append_cancel_right hresult
  cases wildcard with
  | false => cases hmark
  | true => exact hplain.1 (List.cons.inj hmark).1

/-- Another scheme is the result. -/
theorem normalize_other (hs : w.scheme = some s) (hends : ¬ endsHttp s) :
    normalizeAddress lower w.text = trim (· == '.') (lowered s.text) := by
  obtain ⟨u, t, -, -, htext⟩ := lower_text lower w
  have hscheme : lowered s.text ++ "://".toList = lowered s.text ++ ":".toList ++ "//".toList := by simp
  have hfree : PathFree (lowered s.text ++ ":".toList) := by
    refine PathFree.append (fun c hc => ⟨(scheme_facts s hc).1, (scheme_facts s hc).2.1⟩) ?_
    simp [PathFree]
  have hnot (head : Str) (hhead : ¬ head <:+ lowered s.text) :
      ¬ head ++ ":".toList <:+ lowered s.text ++ ":".toList := by
    rintro ⟨y, heq⟩
    rw [← List.append_assoc] at heq
    exact hhead ⟨y, List.append_cancel_right heq⟩
  have hat : '@' ∉ lowered s.text ++ ":".toList := by
    rw [List.mem_append, not_or]
    exact ⟨fun hc => (scheme_facts s hc).2.2.1 rfl, by decide⟩
  have hcolon : ':' ∉ lowered s.text := fun hc => (scheme_facts s hc).2.2.2.1 rfl
  have hcut : beforeFirst ':' (lowered s.text ++ ":".toList) = lowered s.text :=
    beforeFirst_append hcolon []
  have hauthority := authority_other (u ++ (lowered w.destination.text ++ t)) hfree
    (hnot "http".toList (fun h => hends (.inl h))) (hnot "https".toList (fun h => hends (.inr h)))
  rw [behindUser_noAt hat] at hauthority
  rw [normalizeAddress_eq lower (by simp [htext, lowered, w.destination.text_ne_nil]), htext, hs,
    lowered_schemeText, hscheme, List.append_assoc _ "//".toList, hauthority]
  have hfirst : lowered s.text ++ ":".toList = s.first.toLower :: (lowered s.more ++ ":".toList) := rfl
  rw [hfirst, hostOf_letter (plain_scheme s), ← hfirst, hcut]

theorem name_other (hs : w.scheme = some s) (hends : ¬ endsHttp s) :
    normalizeAddress lower w.text = starText wildcard ++ lowered host.val ↔
      wildcard = false ∧ trim (· == '.') (lowered s.text) = lowered host.val := by
  rw [normalize_other lower hs hends]
  cases wildcard with
  | false => exact ⟨fun h => ⟨rfl, h⟩, fun h => h.2⟩
  | true =>
    refine iff_of_false (fun h => ?_) (fun h => Bool.noConfusion h.1)
    have hstar : '*' ∈ trim (· == '.') (lowered s.text) := by
      rw [h]
      exact List.mem_cons_self
    exact (scheme_facts s (mem_of_mem_trim hstar)).2.2.2.2 rfl

end Name

theorem Written.SchemeTaken.endsHttp {w : Written} (h : w.SchemeTaken) {s : Scheme}
    (hs : w.scheme = some s) : endsHttp s := by
  rcases h s hs with h | h | h
  · exact .inl (h ▸ List.suffix_refl _)
  · exact .inr (h ▸ List.suffix_refl _)
  · exact h.2

theorem exists_scheme {w : Written} (h : ¬ w.SchemeTaken) : ∃ s, w.scheme = some s := by
  rw [← Option.isSome_iff_exists, Option.isSome_iff_ne_none]
  intro hnone
  exact h (by simp [Written.SchemeTaken, hnone])

/-! ### IPv6 addresses -/

section Ipv6

variable (lower : LowerCase) (resolver : Resolver)

/-- A result without a colon denotes no IPv6 address. -/
theorem not_keptLiteral {raw : Str} {literal : Ipv6Literal} (h : ':' ∉ normalizeAddress lower raw) :
    ¬ KeptLiteral lower resolver raw literal := by
  intro hkept
  have hcolon : ':' ∈ literalOf (normalizeAddress lower raw) := by
    rw [hkept.denotes]
    exact literal.colon_mem
  unfold literalOf at hcolon
  split at hcolon
  · exact h (List.mem_of_mem_drop ((List.takeWhile_sublist _).mem hcolon))
  · exact h hcolon

/-- A text with a bracket is not resolved. -/
theorem resolveSync_bracket {s : Str} (hs : '%' ∉ s) :
    ∀ r, resolveSync resolver ('[' :: s) = .ok r → r.1 = [] ∧ r.2.1 = "error".toList := by
  have hmem : '[' ∈ '[' :: s := List.mem_cons_self
  have hzone : '%' ∉ '[' :: s := by simpa using hs
  have hnone : Ip.ipAddress ('[' :: s) = none :=
    Ip.ipAddress_none hmem (by decide) (by decide) (by decide) hzone
  obtain ⟨e, he⟩ := resolver.bracket _ hmem
  intro r hr
  cases e with
  | gaierror text =>
    have hanswer : resolveSync resolver ('[' :: s) = .ok ([], "error".toList, text) := by
      simp [resolveSync, hnone, he]
    rw [hanswer] at hr
    cases hr
    exact ⟨rfl, rfl⟩
  | unicode text =>
    have hanswer : resolveSync resolver ('[' :: s) = .error text := by
      simp [resolveSync, hnone, he]
    rw [hanswer] at hr
    cases hr

/-- **In brackets**, an address keeps its brackets and its port. -/
theorem keptLiteral_bracketed {w : Written} {literal : Ipv6Literal} {port : Option Port}
    (hw : w.destination = .bracketed literal port) (h : w.SchemeTaken) :
    KeptLiteral lower resolver w.text literal := by
  have hchars := lowered_destination (Destination.chars (.bracketed literal port))
  have hlow := lowered_lowered (Destination.chars (.bracketed literal port))
  have hclosed := closed_destination (.bracketed literal port)
  have hbare : Bare (· == '.') (lowered (Destination.bracketed literal port).text) := by
    rw [lowered_bracketed]
    cases port with
    | none =>
      exact Bare.around (s := "[".toList) (lowered literal.text) (t := "]".toList)
        (Bare.of_all (by simp)) (Bare.of_all (by simp)) (by decide) (by decide)
    | some p =>
      have hdigits : ∀ c ∈ p.val, (c == '.') = false := by
        intro c hc
        rw [beq_eq_false_iff_ne]
        rintro rfl
        exact absurd (p.property.2 _ hc) (by decide)
      have := Bare.around (s := "[".toList) (lowered literal.text ++ "]:".toList)
        (Bare.of_all (by simp)) (Bare.of_all hdigits) (by decide) p.property.1
      simpa [portText] using this
  have hhost : hostOf (lowered (Destination.bracketed literal port).text) =
      lowered (Destination.bracketed literal port).text := by
    rw [lowered_bracketed, hostOf_bracket, ← lowered_bracketed]
    exact trim_of_bare hbare
  have hresult : normalizeAddress lower w.text = lowered (Destination.bracketed literal port).text := by
    rw [normalize_taken lower h, hw, hhost]
  have hbracket : ']' ∉ lowered literal.text := by
    intro hc
    obtain ⟨c, hc, heq⟩ := List.mem_map.mp hc
    exact (literal.facts hc).2.2.2.2.1 heq
  refine ⟨?_, ?_, ?_⟩
  · rw [hresult, lowered_bracketed]
    exact beforeFirst_append hbracket _
  · have hzone : '%' ∉ lowered (Destination.bracketed literal port).text :=
      fun hc => (isDestinationChar_facts (hchars _ hc)).2.2.2.2.1 rfl
    rw [hresult, lowered_bracketed]
    rw [lowered_bracketed] at hzone
    exact resolveSync_bracket resolver (fun hc => hzone (List.mem_cons_of_mem _ hc))
  · rw [hresult, normalize_lowered lower (by simp [lowered_bracketed]) hchars hlow hclosed, hhost]

/-- Behind another scheme, or the rest of one, nothing denotes the address. -/
theorem notKept_scheme {w : Written} (h : ¬ w.SchemeTaken) (literal : Ipv6Literal) :
    ¬ KeptLiteral lower resolver w.text literal := by
  refine not_keptLiteral lower resolver fun hcolon => ?_
  obtain ⟨s, hs⟩ := exists_scheme h
  by_cases hends : endsHttp s
  · obtain ⟨c, x, hplain, -, -, hnormal⟩ := normalize_partly lower hs hends h
    rw [hnormal, List.cons_append, hostOf_letter hplain] at hcolon
    exact notMem_hostless (notMem_beforeFirst ':' _) hcolon
  · rw [normalize_other lower hs hends] at hcolon
    exact (scheme_facts s (mem_of_mem_trim hcolon)).2.2.2.1 rfl

/-- **Without brackets**, an address is cut at its first colon. -/
theorem notKept_ipv6 {w : Written} {literal : Ipv6Literal} (hw : w.destination = .ipv6 literal) :
    ¬ KeptLiteral lower resolver w.text literal := by
  by_cases h : w.SchemeTaken
  · have hletters {c : Char} (hc : c ∈ lowered literal.text) : c ≠ '[' ∧ c ≠ '*' := by
      obtain ⟨d, hd, rfl⟩ := List.mem_map.mp hc
      exact ⟨(literal.facts hd).2.2.2.1, (literal.facts hd).2.2.2.2.2.1⟩
    refine not_keptLiteral lower resolver ?_
    rw [normalize_taken lower h, hw]
    exact hostOf_noColon (fun hc => (hletters hc).2 rfl) (fun hc => (hletters hc).1 rfl)
  · exact notKept_scheme lower resolver h literal

end Ipv6

/-! ### The ways of writing that are understood -/

/-- **An address is normalised** when its scheme is taken away, when a mark stands in front of a
name without a port, or behind a dot and directly in front of the name, and when an IPv6 address
has its brackets; or when another scheme happens to be the name itself. -/
theorem normalised_iff (lower : LowerCase) (resolver : Resolver) (w : Written) :
    Normalised lower resolver w ↔ w.Understood := by
  unfold Normalised Written.Understood
  cases hw : w.destination with
  | name before wildcard inner host after port =>
    refine (keptName_iff lower w.text wildcard host).trans ?_
    by_cases h : w.SchemeTaken
    · refine (name_taken lower hw h).trans ?_
      have hother : ¬ ∃ s ∈ w.scheme, ¬ endsHttp s ∧ wildcard = false ∧
          trim (· == '.') (lowered s.text) = lowered host.val := by
        rintro ⟨s, hs, hends, -⟩
        exact hends (h.endsHttp hs)
      simp only [h, true_and]
      exact (or_iff_left hother).symm
    · obtain ⟨s, hs⟩ := exists_scheme h
      by_cases hends : endsHttp s
      · refine iff_of_false (name_partly lower hw hs hends h) ?_
        simp [h, hs, hends]
      · refine (name_other lower hs hends).trans ?_
        simp [h, hs, hends]
  | ipv6 literal => exact iff_of_false (notKept_ipv6 lower resolver hw) id
  | bracketed literal port =>
    exact ⟨fun hkept => by_contra fun h => notKept_scheme lower resolver h literal hkept,
      keptLiteral_bracketed lower resolver hw⟩

/-- A resolver that knows no name. -/
def emptyResolver : Resolver where
  getaddrinfo _ := .error (.gaierror "Name or service not known".toList)
  bracket _ _ := ⟨_, rfl⟩

/-- An IPv6 address without brackets. -/
def plainIpv6 : Written where
  lead := ⟨[], nofun⟩
  scheme := none
  user := none
  destination := .ipv6 ⟨"2001:db8::1".toList, by decide +kernel⟩
  tail := .blanks ⟨[], nofun⟩

/-- Of an IPv6 address without brackets its first group is stored, a number that is resolved as
another host. A name behind its mark is stored with its port. -/
theorem plainIpv6_cut : ¬ Normalised asciiLowerCase emptyResolver plainIpv6 ∧
    normalizeAddress asciiLowerCase "2001:db8::1".toList = "2001".toList ∧
    saveEntries asciiLowerCase ["2001:db8::1".toList] = ["2001".toList] ∧
    saveEntries asciiLowerCase ["*.Example.com:8443".toList] = ["*.example.com:8443".toList] := by
  refine ⟨fun h => ?_, by decide +kernel⟩
  have hdenotes : literalOf (normalizeAddress asciiLowerCase plainIpv6.text) =
      lowered "2001:db8::1".toList := KeptLiteral.denotes h
  revert hdenotes
  decide +kernel

end HuntProxy.Interception
