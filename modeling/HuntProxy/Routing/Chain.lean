import HuntProxy.Lib.Like
import HuntProxy.Lib.Split
import HuntProxy.Lib.Text
import HuntProxy.Routing.Connect

/-!
# The readers of the upstream chain

The connectors leave a chain of what they have done, whose last entry names the proxy that
carried the traffic. `effective_from_chain` parses this entry. The query of the switch history
looks for the address at the end of the joined chain that is stored in a traffic row.

The connector of a pinned address notes a retry behind the address. The parser drops the note,
and the query does not.

## Main definitions

- `effectiveFromChain`, `Matches` — the two readers
- `IpPort` — the addresses of proxies
- `ReadersAgree` — what is promised about a chain
- `Trailing` — what the parser drops behind an address
- `EndsWithAddress` — the chains with nothing behind the address

## Main results

- `last_noted` — the last entries that the connectors produce
- `readers_agree_iff` — the chains of which the promise is kept
- `endsWithAddress_retry` — the chains of a pinned address
-/

namespace HuntProxy.Routing

/-! ### The readers -/

/-- The kind of an upstream. -/
inductive ServedKind
  | unknown
  | select
  | pool
  | fallback
  | direct
  deriving DecidableEq, Repr

/-- `rest.split(" (", 1)[0].strip()`. -/
def servedAddr (rest : Str) : Str :=
  Text.strip
    (match readThrough " (".toList rest with
    | some (piece, _) => piece.take (piece.length - 2)
    | none => rest)

/-- `effective_from_chain`. -/
def effectiveFromChain (chain : List Str) : Str × ServedKind :=
  match chain.getLast? with
  | none => ([], .unknown)
  | some tok =>
    if "pool:".toList.isPrefixOf tok then
      (servedAddr (tok.drop 5),
        if chain.any (fun c => decide ("fallback".toList <:+: c)) then .fallback else .pool)
    else if "proxy:".toList.isPrefixOf tok then (servedAddr (tok.drop 6), .select)
    else if "direct".toList.isPrefixOf tok then ([], .direct)
    else ([], .unknown)

/-- `" → ".join(chain)`. -/
def joined (chain : List Str) : Str := " → ".toList.intercalate chain

/-- `upstream = addr OR upstream LIKE '%:' || addr`. -/
def Matches (upstream addr : Str) : Prop :=
  upstream = addr ∨ Like.like ('%' :: ':' :: addr) upstream = true

/-- An address of a proxy: digits and dots, a colon, and digits. -/
def IpPort (addr : Str) : Prop :=
  ∃ host port, addr = host ++ ':' :: port ∧ host ≠ [] ∧ port ≠ [] ∧
    (∀ c ∈ host, c.isDigit = true ∨ c = '.') ∧ ∀ c ∈ port, c.isDigit = true

/-- What is promised about a chain: the address that the parser finds, if it is one of a
proxy, is the only one that the query finds. -/
def ReadersAgree (chain : List Str) : Prop :=
  ∀ addr, IpPort addr → (effectiveFromChain chain).1 = addr →
    Matches (joined chain) addr ∧ ∀ other, IpPort other → Matches (joined chain) other → other = addr

/-- The labels in front of the address of a proxy. -/
def labels : List Str := ["pool:".toList, "proxy:".toList]

/-- White space. -/
def Blank (s : Str) : Prop := ∀ c ∈ s, Text.isSpace c = true

/-- White space, and perhaps a note in brackets. -/
def Trailing (tail : Str) : Prop :=
  ∃ blanks note, tail = blanks ++ note ∧ Blank blanks ∧ (note = [] ∨ " (".toList <+: note)

/-- Nothing stands behind the address in the last entry: a label and an address, with white space
around it and perhaps a note, are an entry that ends with the address. -/
def EndsWithAddress (chain : List Str) : Prop :=
  ∀ label ∈ labels, ∀ left addr tail, chain.getLast? = some (label ++ (left ++ addr ++ tail)) →
    Blank left → IpPort addr → Trailing tail → ':' :: addr <:+ ':' :: (left ++ addr ++ tail)

/-! ### Addresses -/

section

variable {addr other : Str}

theorem IpPort.mem (h : IpPort addr) {c : Char} (hc : c ∈ addr) :
    c.isDigit = true ∨ c = '.' ∨ c = ':' := by
  obtain ⟨host, port, rfl, -, -, hhost, hport⟩ := h
  rcases List.mem_append.mp hc with hc | hc
  · exact (hhost c hc).imp_right .inl
  · rcases List.mem_cons.mp hc with rfl | hc
    · exact .inr (.inr rfl)
    · exact .inl (hport c hc)

theorem toNat_of_isDigit {c : Char} (h : c.isDigit = true) : 48 ≤ c.toNat ∧ c.toNat ≤ 57 := by
  simp only [Char.isDigit, Bool.and_eq_true, decide_eq_true_eq] at h
  exact ⟨UInt32.le_iff_toNat_le.mp h.1, UInt32.le_iff_toNat_le.mp h.2⟩

theorem IpPort.toNat (h : IpPort addr) {c : Char} (hc : c ∈ addr) :
    46 ≤ c.toNat ∧ c.toNat ≤ 58 := by
  rcases h.mem hc with hdigit | rfl | rfl
  · have := toNat_of_isDigit hdigit
    omega
  · decide
  · decide

/-- An address has one colon. -/
theorem IpPort.count (h : IpPort addr) : addr.count ':' = 1 := by
  obtain ⟨host, port, rfl, -, -, hhost, hport⟩ := h
  have hfront : host.count ':' = 0 := by
    rw [List.count_eq_zero]
    intro hmem
    rcases hhost _ hmem with hdigit | hdot
    · revert hdigit
      decide
    · revert hdot
      decide
  have hback : port.count ':' = 0 := by
    rw [List.count_eq_zero]
    intro hmem
    have hdigit := hport _ hmem
    revert hdigit
    decide
  rw [List.count_append, List.count_cons_self, hfront, hback]

theorem IpPort.ne_nil (h : IpPort addr) : addr ≠ [] := by
  rintro rfl
  have := h.count
  simp at this

/-- The pattern of an address matches the texts that end with it. -/
theorem IpPort.matches_iff (h : IpPort addr) (upstream : Str) :
    Matches upstream addr ↔ upstream = addr ∨ ':' :: addr <:+ upstream := by
  have hplain : ∀ c ∈ ':' :: addr, Like.Plain c := by
    intro c hc
    have hrange : 46 ≤ c.toNat ∧ c.toNat ≤ 58 := by
      rcases List.mem_cons.mp hc with rfl | hc
      · decide
      · exact h.toNat hc
    refine Like.plain_of_lt (by omega) ?_
    rintro rfl
    revert hrange
    decide
  unfold Matches
  rw [Like.suffix_iff hplain]

/-- A text has one address behind a colon at its end. -/
theorem IpPort.eq_of_suffix (h : IpPort addr) (hother : IpPort other) {text : Str}
    (haddr : ':' :: addr <:+ text) (hsuffix : ':' :: other <:+ text) : other = addr := by
  have hcount := h.count
  have hcount' := hother.count
  rcases List.suffix_or_suffix_of_suffix haddr hsuffix with hle | hle
  · rcases List.suffix_cons_iff.mp hle with heq | hle
    · exact (List.cons.inj heq).2.symm
    · have := hle.sublist.count_le ':'
      rw [List.count_cons_self] at this
      omega
  · rcases List.suffix_cons_iff.mp hle with heq | hle
    · exact (List.cons.inj heq).2
    · have := hle.sublist.count_le ':'
      rw [List.count_cons_self] at this
      omega

/-- An address does not end with another one behind a colon. -/
theorem IpPort.not_suffix (h : IpPort addr) (hother : IpPort other) : ¬ ':' :: other <:+ addr := by
  intro hsuffix
  have := hsuffix.sublist.count_le ':'
  rw [List.count_cons_self, h.count, hother.count] at this
  omega

theorem IpPort.noSpace (h : IpPort addr) {c : Char} (hc : c ∈ addr) : Text.isSpace c = false := by
  have hrange := h.toNat hc
  unfold Text.isSpace
  simp only [Bool.or_eq_false_iff, Bool.and_eq_false_iff, decide_eq_false_iff_not]
  omega

/-- There is no bracket in white space. -/
theorem Blank.notMem {s : Str} (h : Blank s) : '(' ∉ s := by
  intro hmem
  have hspace := h _ hmem
  revert hspace
  decide

theorem IpPort.notMem (h : IpPort addr) : '(' ∉ addr := by
  intro hmem
  have hrange := h.toNat hmem
  revert hrange
  decide

/-! ### The served address -/

/-- The first occurrence of two letters, of which the second is new. -/
theorem readThrough_pair {a b : Char} (hab : a ≠ b) {text : Str} (h : b ∉ text) (more : Str) :
    readThrough [a, b] (text ++ ([a, b] ++ more)) = some (text ++ [a, b], more) := by
  induction text with
  | nil => simp [readThrough]
  | cons c text ih =>
    rw [List.mem_cons, not_or] at h
    have hnot : ¬ [a, b].isPrefixOf (c :: (text ++ ([a, b] ++ more))) = true := by
      -- the letter behind `c` is one of the text, or `a`
      cases text with
      | nil => simp [List.isPrefixOf, Ne.symm hab]
      | cons d text =>
        have hne : b ≠ d := fun heq => h.2 (heq ▸ List.mem_cons_self)
        simp [List.isPrefixOf, hne]
    rw [List.cons_append, readThrough, if_neg hnot, ih h.2]
    rfl

/-- An entry is cut into white space, the address, and what stands behind it. -/
theorem servedAddr_split (rest : Str) :
    ∃ left tail, rest = left ++ servedAddr rest ++ tail ∧ Blank left ∧ Trailing tail := by
  unfold servedAddr
  split
  · next piece after hread =>
    obtain ⟨hsplit, before, rfl⟩ := readThrough_eq_some hread
    have hcut : (before ++ " (".toList).take ((before ++ " (".toList).length - 2) = before := by simp
    obtain ⟨left, right, hstrip, hleft, hright⟩ := Text.strip_split before
    rw [hcut]
    refine ⟨left, right ++ (" (".toList ++ after), ?_, hleft, right, _, rfl, hright, .inr ⟨after, rfl⟩⟩
    rw [hsplit]
    nth_rewrite 1 [hstrip]
    simp only [List.append_assoc]
  · obtain ⟨left, right, hstrip, hleft, hright⟩ := Text.strip_split rest
    exact ⟨left, right, hstrip, hleft, right, [], (List.append_nil right).symm, hright, .inl rfl⟩

/-- An address is found between white space and a note. -/
theorem servedAddr_append (h : IpPort addr) {left tail : Str} (hleft : Blank left)
    (htail : Trailing tail) : servedAddr (left ++ addr ++ tail) = addr := by
  obtain ⟨blanks, note, rfl, hblanks, hnote⟩ := htail
  have hstrip : Text.strip (left ++ addr ++ blanks) = addr :=
    Text.strip_append hleft (fun _ hc => h.noSpace hc) hblanks
  have hbracket : '(' ∉ left ++ addr ++ blanks := by
    simp only [List.mem_append, not_or]
    exact ⟨⟨hleft.notMem, h.notMem⟩, hblanks.notMem⟩
  rcases hnote with rfl | ⟨more, rfl⟩
  · have hnone : readThrough " (".toList (left ++ addr ++ blanks) = none := by
      cases hread : readThrough " (".toList (left ++ addr ++ blanks) with
      | none => rfl
      | some parts =>
        obtain ⟨heq, before, hpiece⟩ := readThrough_eq_some hread
        rw [hpiece] at heq
        exact absurd (by rw [heq]; simp) hbracket
    rw [List.append_nil, servedAddr, hnone]
    exact hstrip
  · have hread : readThrough " (".toList (left ++ addr ++ blanks ++ (" (".toList ++ more)) =
        some (left ++ addr ++ blanks ++ " (".toList, more) :=
      readThrough_pair (by decide) hbracket more
    have hlen : (left ++ addr ++ blanks ++ " (".toList).length - 2 =
        (left ++ addr ++ blanks).length := by
      rw [List.length_append]
      rfl
    rw [← List.append_assoc, servedAddr, hread]
    dsimp only
    rw [hlen, List.take_left]
    exact hstrip

end

/-! ### Agreement -/

section

variable {addr : Str} {chain : List Str} {label rest : Str}

/-- The parser finds the address behind a label. -/
theorem effectiveFromChain_label (hlabel : label ∈ labels)
    (hlast : chain.getLast? = some (label ++ rest)) :
    (effectiveFromChain chain).1 = servedAddr rest := by
  unfold effectiveFromChain
  rw [hlast]
  simp only [labels, List.mem_cons, List.not_mem_nil, or_false] at hlabel
  rcases hlabel with rfl | rfl
  · rfl
  · rfl

/-- An address that the parser finds stands behind a label. -/
theorem label_of_effectiveFromChain (h : (effectiveFromChain chain).1 ≠ []) :
    ∃ label ∈ labels, ∃ rest, chain.getLast? = some (label ++ rest) := by
  unfold effectiveFromChain at h
  cases hlast : chain.getLast? with
  | none =>
    rw [hlast] at h
    exact absurd rfl h
  | some tok =>
    rw [hlast] at h
    dsimp only at h
    split at h
    · next hpool =>
      obtain ⟨rest, rfl⟩ := List.isPrefixOf_iff_prefix.mp hpool
      exact ⟨_, List.mem_cons_self, rest, rfl⟩
    · split at h
      · next hproxy =>
        obtain ⟨rest, rfl⟩ := List.isPrefixOf_iff_prefix.mp hproxy
        exact ⟨_, List.mem_cons_of_mem _ List.mem_cons_self, rest, rfl⟩
      · split at h <;> exact absurd rfl h

/-- The joined chain ends with its last entry, and the label of this with a colon. -/
theorem joined_label (hlabel : label ∈ labels) (hlast : chain.getLast? = some (label ++ rest)) :
    ∃ before, joined chain = before ++ ':' :: rest ∧ 'o' ∈ before := by
  obtain ⟨front, rfl⟩ := List.getLast?_eq_some_iff.mp hlast
  obtain ⟨before, hjoined⟩ := intercalate_concat " → ".toList front (label ++ rest)
  unfold joined
  rw [hjoined]
  simp only [labels, List.mem_cons, List.not_mem_nil, or_false] at hlabel
  rcases hlabel with rfl | rfl
  · exact ⟨before ++ "pool".toList, by simp, List.mem_append_right _ (by decide)⟩
  · exact ⟨before ++ "proxy".toList, by simp, List.mem_append_right _ (by decide)⟩

/-- **The readers agree** about a chain if and only if nothing stands behind the address in its
last entry. -/
theorem readers_agree_iff (chain : List Str) : ReadersAgree chain ↔ EndsWithAddress chain := by
  constructor
  · intro h label hlabel left addr tail hlast hleft hip htail
    have hserved := (effectiveFromChain_label hlabel hlast).trans (servedAddr_append hip hleft htail)
    obtain ⟨before, hjoined, hletter⟩ := joined_label hlabel hlast
    obtain ⟨hmatch, -⟩ := h addr hip hserved
    rw [hip.matches_iff, hjoined] at hmatch
    rcases hmatch with heq | hsuffix
    · -- there is no letter in an address
      have hrange := hip.toNat (heq ▸ List.mem_append_left _ hletter)
      exact absurd hrange (by decide)
    · rcases List.suffix_or_suffix_of_suffix hsuffix
        (List.suffix_append before (':' :: (left ++ addr ++ tail))) with hle | hle
      · exact hle
      · -- the address is no longer than the text that it stands in
        have heq := hle.eq_of_length (by
          have := hle.length_le
          simp only [List.length_cons, List.length_append] at this ⊢
          omega)
        rw [heq]
  · intro h addr hip haddr
    obtain ⟨label, hlabel, rest, hlast⟩ :=
      label_of_effectiveFromChain (by rw [haddr]; exact hip.ne_nil)
    rw [effectiveFromChain_label hlabel hlast] at haddr
    obtain ⟨before, hjoined, -⟩ := joined_label hlabel hlast
    obtain ⟨left, tail, hrest, hleft, htail⟩ := servedAddr_split rest
    rw [haddr] at hrest
    subst hrest
    have hend := h label hlabel left addr tail hlast hleft hip htail
    have hsuffix : ':' :: addr <:+ joined chain :=
      hend.trans (hjoined ▸ List.suffix_append before _)
    refine ⟨(hip.matches_iff _).mpr (.inr hsuffix), fun other hother hmatch => ?_⟩
    rcases (hother.matches_iff _).mp hmatch with heq | hsuffix'
    · rw [heq] at hsuffix
      exact absurd hsuffix (hother.not_suffix hip)
    · exact hip.eq_of_suffix hother hsuffix hsuffix'

/-! ### The chains of the connectors -/

/-- A note of a retry begins with a blank and ends with a bracket. -/
theorem retryTag_of_ne {attempt : ℕ} (h : attempt ≠ 0) :
    (∃ more, retryTag attempt = ' ' :: "(".toList ++ more) ∧
      ∃ front, retryTag attempt = front ++ [')'] := by
  unfold retryTag
  rw [if_neg h]
  exact ⟨⟨"retry:".toList ++ (toString attempt).toList ++ ")".toList, by simp⟩, _, rfl⟩

theorem trailing_retryTag (attempt : ℕ) : Trailing (retryTag attempt) := by
  refine ⟨[], retryTag attempt, rfl, fun c hc => (by cases hc), ?_⟩
  by_cases hattempt : attempt = 0
  · rw [hattempt]
    exact .inl rfl
  · obtain ⟨⟨more, htag⟩, -⟩ := retryTag_of_ne hattempt
    exact .inr ⟨more, htag.symm⟩

/-- **The chains of a pinned address**: the readers agree if and only if the first attempt has
succeeded. -/
theorem endsWithAddress_retry (front : List Str) (h : IpPort addr) (attempt : ℕ) :
    EndsWithAddress (front ++ ["proxy:".toList ++ addr ++ retryTag attempt]) ↔ attempt = 0 := by
  have hblank : Blank [] := fun c hc => (by cases hc)
  constructor
  · intro hends
    obtain ⟨before, hbefore⟩ := hends _ (List.mem_cons_of_mem _ List.mem_cons_self) [] addr
      (retryTag attempt) (by simp) hblank h (trailing_retryTag attempt)
    by_contra hne
    obtain ⟨-, tag, htag⟩ := retryTag_of_ne hne
    obtain ⟨init, c, rfl⟩ := (List.eq_nil_or_concat addr).resolve_left h.ne_nil
    -- the address would end with a bracket
    have hlast : (before ++ ':' :: init) ++ [c] = (':' :: (init ++ [c] ++ tag)) ++ [')'] := by
      rw [htag] at hbefore
      simpa using hbefore
    obtain ⟨-, hc⟩ := List.append_inj' hlast rfl
    cases hc
    have hrange := h.toNat (c := ')') (by simp)
    exact absurd hrange (by decide)
  · rintro rfl label hlabel left addr' tail hlast hleft hip htail
    rw [List.getLast?_append_cons, List.getLast?_singleton, Option.some.injEq] at hlast
    have hrest : left ++ addr' ++ tail = addr ++ retryTag 0 := by
      simp only [labels, List.mem_cons, List.not_mem_nil, or_false] at hlabel
      rcases hlabel with rfl | rfl
      · exact absurd (congrArg (List.take 2) hlast) (by simp)
      · rw [List.append_assoc "proxy:".toList] at hlast
        exact (List.append_cancel_left hlast).symm
    -- the address behind the label is the pinned one
    have haddr : addr' = addr := by
      have hserved := servedAddr_append h hblank (trailing_retryTag 0)
      rw [List.nil_append, ← hrest, servedAddr_append hip hleft htail] at hserved
      exact hserved
    rw [hrest, haddr]
    exact ⟨[], congrArg (':' :: ·) (List.append_nil addr).symm⟩

end

/-- The entries with which a connector notes a connection. -/
inductive Noted : Str → Prop
  | direct : Noted "direct".toList
  | channel : Noted "direct via channel".toList
  | custom (id : Str) (attempt : ℕ) : Noted ("custom:".toList ++ id ++ retryTag attempt)
  | proxy (addr : Str) (attempt : ℕ) : Noted ("proxy:".toList ++ addr ++ retryTag attempt)
  | pool (addr : Str) : Noted ("pool:".toList ++ addr)

/-- A connection that is returned has been noted last. -/
def LastNoted (reply : Reply) : Prop :=
  ∀ conn, reply.1 = .ok (some conn) → ∃ tok, reply.2.chain.getLast? = some tok ∧ Noted tok

section

variable {int : Str → Option ℤ} {upper : Str → Str} {cfg : Settings} {net : Network}
  {target : Target}

theorem lastNoted_note {result : Except Exc (Option Conn)} {tok : Str} (h : Noted tok) (log : Log) :
    LastNoted (result, log.note tok) :=
  fun _ _ => ⟨tok, by simp [Log.note], h⟩

theorem lastNoted_none (log : Log) : LastNoted (.ok none, log) := fun _ h => (by cases h)

theorem lastNoted_error (e : Exc) (log : Log) : LastNoted (.error e, log) := fun _ h => (by cases h)

theorem attempts_lastNoted {k : Connector} (htag : ∀ attempt, Noted (k.tag attempt))
    (left attempt : ℕ) (log : Log) : LastNoted (k.attempts net left attempt log) := by
  induction left generalizing attempt log with
  | zero => exact lastNoted_none log
  | succ left ih =>
    unfold Connector.attempts
    split
    · exact lastNoted_error _ _
    · exact ih _ _
    · split
      · exact ih _ _
      · split
        · exact ih _ _
        · exact lastNoted_none _
        · exact lastNoted_note (htag attempt) _

theorem connectDirect_lastNoted (log : Log) : LastNoted (connectDirect cfg net target log) := by
  unfold connectDirect
  dsimp only
  split
  · exact lastNoted_none _
  · refine lastNoted_note ?_ _
    split
    · exact .channel
    · exact .direct

theorem connectViaAddr_lastNoted (addr : Str) (log : Log) :
    LastNoted (connectViaAddr int cfg net target addr log) := by
  unfold connectViaAddr
  split
  · exact lastNoted_none _
  · split
    · exact lastNoted_none _
    · next r _ _ => exact attempts_lastNoted (fun attempt => .proxy r.address attempt) _ _ _

theorem connectViaPool_lastNoted (log : Log) :
    LastNoted (connectViaPool int upper cfg net target log) := by
  unfold connectViaPool
  generalize (buildPool upper cfg target).take 8 = ps
  induction ps generalizing log with
  | nil => exact lastNoted_none _
  | cons p rest ih =>
    unfold poolAttempts
    split
    · exact lastNoted_error _ _
    · exact ih _
    · split
      · exact ih _
      · split
        · exact lastNoted_note (.pool p.address) _
        · exact ih _

theorem connectPinned_lastNoted (addr : Str) (log : Log) :
    LastNoted (connectPinned int upper cfg net target addr log) := by
  unfold connectPinned
  split
  · dsimp only
    split
    · exact connectViaPool_lastNoted _
    · exact lastNoted_none _
  · exact connectViaAddr_lastNoted addr log

theorem connectViaCustom_lastNoted {next : Log → Reply} (hnext : ∀ log, LastNoted (next log))
    (id : Str) (log : Log) : LastNoted (connectViaCustom cfg net target next id log) := by
  unfold connectViaCustom
  split
  · exact hnext _
  · refine attempts_lastNoted (fun attempt => ?_) _ _ _
    dsimp only
    split
    · exact .custom id attempt
    · exact .custom id 0

theorem connectFallback_lastNoted (log : Log) :
    LastNoted (connectFallback int upper cfg net target log) := by
  unfold connectFallback
  split
  · exact connectDirect_lastNoted log
  · split
    · exact connectPinned_lastNoted _ log
    · exact connectViaPool_lastNoted log

theorem dispatch_lastNoted {next : Log → Reply} (hnext : ∀ log, LastNoted (next log)) (route : Str)
    (log : Log) : LastNoted (dispatch int upper cfg net target next route log) := by
  unfold dispatch
  split
  · exact connectDirect_lastNoted log
  · split
    · exact connectViaCustom_lastNoted hnext _ log
    · split
      · exact connectPinned_lastNoted _ log
      · split
        · split
          · exact connectPinned_lastNoted _ log
          · exact connectViaPool_lastNoted log
        · split
          · exact connectViaPool_lastNoted log
          · exact connectFallback_lastNoted log

/-- **The last entries that the connectors produce.** -/
theorem last_noted (depth : ℕ) (route : Str) (log : Log) :
    LastNoted (connectByRoute int upper cfg net target depth route log) := by
  induction depth generalizing route log with
  | zero => exact dispatch_lastNoted (fun log => lastNoted_error _ log) route log
  | succ depth ih => exact dispatch_lastNoted (ih cfg.db.defaultRoute) route log

end

/-- The proxy is down at the first attempt, and answers at the second one: the query does not
find what has been carried. -/
theorem retry_not_found :
    ¬ ∀ (cfg : Settings) (net : Network) (target : Target) (route : Str) (depth : ℕ),
      (∃ conn, (connectByRoute digitsInt id cfg net target depth route (.start [])).1 =
        .ok (some conn)) →
        ReadersAgree (connectByRoute digitsInt id cfg net target depth route (.start [])).2.chain := by
  intro hall
  have hagree := hall (sampleSettings "10.0.0.7:3128".toList)
    (fun n => if n = 0 then .refused else .opened .accepted) ⟨"example.org".toList, 443, true⟩
    "pool_selected".toList 0 ⟨⟨1, .proxy "10.0.0.7".toList 3128 false, false⟩, by decide⟩
  have hchain : (connectByRoute digitsInt id (sampleSettings "10.0.0.7:3128".toList)
      (fun n => if n = 0 then .refused else .opened .accepted) ⟨"example.org".toList, 443, true⟩
      0 "pool_selected".toList (.start [])).2.chain =
        ["proxy:10.0.0.7:3128 (retry:1)".toList] := by decide
  rw [hchain] at hagree
  have hip : IpPort "10.0.0.7:3128".toList :=
    ⟨"10.0.0.7".toList, "3128".toList, rfl, by decide, by decide, by simp [Char.isDigit],
      by simp [Char.isDigit]⟩
  have hmatch := (hagree _ hip (by decide)).1
  rcases hmatch with heq | hlike
  · revert heq
    decide
  · revert hlike
    decide

end HuntProxy.Routing
