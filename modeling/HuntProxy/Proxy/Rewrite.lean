import HuntProxy.Lib.Split
import HuntProxy.Proxy.Relay

/-!
# Rewriting intercepted requests

`TransparentRunner._handle` reads the beginning of an intercepted connection, classifies it by
its first line, writes it to the upstream, and relays the rest. For a plain request to an HTTP
proxy the beginning goes through `_to_absolute_uri` first, which takes it for a whole head: it
appends a header and an empty line to what it gets. So the upstream receives the rewritten head
only when all of it is in the beginning, and `_peek_request` stops reading at the first line.

The first byte arrives in time, the upstream is connected, and it accepts what is written.

## Main definitions

- `toAbsoluteUri`, `peekRequest`, `handle` — the functions of `transparent_runner.py`
- `intended` — what the upstream is to receive
- `HeadArrives` — no part of a head is left for the relay

## Main results

- `peekRequest_stops` — what `_peek_request` has read when it stops
- `toAbsoluteUri_append_iff` — when the beginning can be rewritten by itself
- `handle_rewrites_iff` — when the upstream receives what is intended
- `split_head_garbled` — a head of which the first line arrives by itself
-/

namespace HuntProxy.Transparent

/-! ### The source -/

/-- `bytes.upper`. -/
def upper (l : Bytes) : Bytes := l.map (fun b => if 97 ≤ b ∧ b ≤ 122 then b - 32 else b)

/-- `_HTTP_METHODS`. -/
def httpMethods : List Bytes :=
  ["GET", "POST", "HEAD", "PUT", "DELETE", "OPTIONS", "PATCH", "TRACE"].map ascii

/-- `text.split(b"\r\n")`. -/
def lines (text : Bytes) : List Bytes := splitPair 13 10 text

/-- The words of the first line. -/
def requestWords (text : Bytes) : List Bytes := (firstPiece 13 10 text).splitOn 32

/-- What a stream is taken for: TLS, a plain request, something else, or nothing. -/
inductive Kind
  | tls
  | http
  | opaqueData
  | empty
  deriving DecidableEq, Repr

/-- The classification of a stream that is neither empty nor TLS. -/
def requestKind (text : Bytes) : Kind :=
  if 3 ≤ (requestWords text).length ∧ upper ((requestWords text).headD []) ∈ httpMethods then .http
  else .opaqueData

/-- The classification, by what is there. -/
def kindOf : Bytes → Kind
  | [] => .empty
  | b :: rest => if b = 0x16 then .tls else requestKind (b :: rest)

/-- The loop of `_peek_request`. Every number is a read, and the most that it can get: a read that
gets nothing has found the end of the stream, or has timed out. -/
def peekLoop : List ℕ → Bytes → Bytes → Bytes × Bytes
  | [], buf, rest => (buf, rest)
  | n :: reads, buf, rest =>
    if crlf <:+: buf ∨ 1024 ≤ buf.length then (buf, rest)
    else if rest.take (min n 256) = [] then (buf, rest)
    else peekLoop reads (buf ++ rest.take (min n 256)) (rest.drop (min n 256))

/-- The result of `_peek_request`, and the rest of the stream. -/
structure Peeked where
  kind : Kind
  buffered : Bytes
  rest : Bytes
  deriving DecidableEq

/-- `_peek_request`. -/
def peekRequest (reads : List ℕ) : Bytes → Peeked
  | [] => ⟨.empty, [], []⟩
  | b :: rest =>
    -- the first byte of a TLS handshake; nothing more is read
    if b = 0x16 then ⟨.tls, [b], rest⟩
    else
      let p := peekLoop reads [b] rest
      ⟨requestKind p.1, p.1, p.2⟩

/-- `data.partition(b"\r\n\r\n")`, without the mark. -/
def partitionHead (data : Bytes) : Bytes × Bytes :=
  match readThrough headEnd data with
  | some (piece, body) => (piece.take (piece.length - headEnd.length), body)
  -- all of the data counts as the header
  | none => (data, [])

/-- The target of the rewritten request line. -/
def absoluteUrl (path host : Bytes) (port : ℕ) : Bytes :=
  if (ascii "http://").isPrefixOf path || (ascii "https://").isPrefixOf path then path
  else
    let hostport := if port = 80 then host else host ++ ascii ":" ++ ascii (toString port)
    let path := if (ascii "/").isPrefixOf path then path else ascii "/" ++ path
    ascii "http://" ++ hostport ++ path

/-- A header that is left out. -/
def isConnection (ln : Bytes) : Bool := (ascii "connection:").isPrefixOf (lower ln)

/-- The rewritten head, without the empty line; `none` without three words in the first line. -/
def rewriteHead (header host : Bytes) (port : ℕ) : Option Bytes :=
  match requestWords header with
  | method :: path :: v :: vs =>
    let version := (ascii " ").intercalate (v :: vs)
    some (crlf.intercalate
      ((method ++ ascii " " ++ absoluteUrl path host port ++ ascii " " ++ version) ::
        ((lines header).tail.filter (fun ln => !isConnection ln) ++ [ascii "Connection: close"])))
  | _ => none

/-- `_to_absolute_uri`. -/
def toAbsoluteUri (data host : Bytes) (port : ℕ) : Bytes :=
  let p := partitionHead data
  match rewriteHead p.1 host port with
  -- the mark is appended also when there is none in the data
  | some head => head ++ headEnd ++ p.2
  | none => data

/-- A connection that is handed to the relay: whether the upstream is a raw proxy, what has been
written to it, and what the client's side still has. -/
structure Handled where
  isRaw : Bool
  written : Bytes
  rest : Bytes
  deriving DecidableEq

/-- `_handle`, up to the relay, for a destination of an auto-detected resource; `httpProxy` says
what kind of upstream is connected. `none` says that the connection is closed. -/
def handle (host : Bytes) (port : ℕ) (httpProxy : Bool) (reads : List ℕ) (stream : Bytes) :
    Option Handled :=
  let p := peekRequest reads stream
  if p.kind = .empty then none
  else
    let needConnect := !decide (p.kind = .http)
    let isRaw := !needConnect && httpProxy
    some ⟨isRaw,
      if p.kind = .http ∧ isRaw = true then toAbsoluteUri p.buffered host port else p.buffered,
      p.rest⟩

/-! ### The purpose -/

/-- What an upstream is to receive of a stream. -/
def intended (host : Bytes) (port : ℕ) (isRaw : Bool) (stream : Bytes) : Bytes :=
  if kindOf stream = .http ∧ isRaw = true then toAbsoluteUri stream host port else stream

/-- The part of a stream that has arrived with its first byte and some reads. -/
def arrived (reads : List ℕ) (stream : Bytes) (k : ℕ) : Bytes :=
  stream.take (1 + ((reads.take k).map (min · 256)).sum)

/-- More than some reads is waited for, and arrives. -/
def Goes (reads : List ℕ) (stream : Bytes) (k : ℕ) : Prop :=
  ¬ crlf <:+: arrived reads stream k ∧ (arrived reads stream k).length < 1024 ∧
    arrived reads stream (k + 1) ≠ arrived reads stream k

/-- The number of reads after which there is a line, or 1024 bytes, or nothing more arrives. -/
def Stops (reads : List ℕ) (stream : Bytes) (k : ℕ) : Prop :=
  (∀ i < k, Goes reads stream i) ∧ ¬ Goes reads stream k

/-- When the beginning of the stream looks like a request, and the upstream is an HTTP proxy, the
whole head is in the beginning, or the whole stream. -/
def HeadArrives (httpProxy : Bool) (reads : List ℕ) (stream : Bytes) : Prop :=
  ∀ k, Stops reads stream k → kindOf (arrived reads stream k) = .http → httpProxy = true →
    headEnd <:+: arrived reads stream k ∨ arrived reads stream k = stream

/-! ### What is peeked -/

section

variable {reads : List ℕ} {stream : Bytes}

theorem Stops.unique {k k' : ℕ} (h : Stops reads stream k) (h' : Stops reads stream k') :
    k = k' := by
  rcases lt_trichotomy k k' with hlt | rfl | hlt
  · exact absurd (h'.1 k hlt) h.2
  · rfl
  · exact absurd (h.1 k' hlt) h'.2

/-- The first byte arrives. -/
theorem arrived_cons (reads : List ℕ) (b : UInt8) (rest : Bytes) (k : ℕ) :
    ∃ l, arrived reads (b :: rest) k = b :: l := by
  rw [arrived, Nat.add_comm, List.take_succ_cons]
  exact ⟨_, rfl⟩

/-- One more read. -/
theorem sum_take_succ {k n : ℕ} (h : reads[k]? = some n) :
    ((reads.take (k + 1)).map (min · 256)).sum = ((reads.take k).map (min · 256)).sum + min n 256 := by
  rw [List.take_add_one, h, List.map_append, List.sum_append]
  rfl

/-- The loop stops where the reading stops. -/
theorem peekLoop_stops (rs : List ℕ) {k t : ℕ} (hrs : reads.drop k = rs)
    (ht : t = 1 + ((reads.take k).map (min · 256)).sum) (hgo : ∀ i < k, Goes reads stream i) :
    ∃ j, Stops reads stream j ∧ (peekLoop rs (stream.take t) (stream.drop t)).1 =
      arrived reads stream j ∧
      (peekLoop rs (stream.take t) (stream.drop t)).1 ++
        (peekLoop rs (stream.take t) (stream.drop t)).2 = stream := by
  have hk : arrived reads stream k = stream.take t := by rw [arrived, ← ht]
  -- by induction on the reads that are left
  induction rs generalizing k t with
  | nil =>
    refine ⟨k, ⟨hgo, fun hg => hg.2.2 ?_⟩, hk.symm, List.take_append_drop _ _⟩
    have hlen := List.drop_eq_nil_iff.mp hrs
    have hsame : reads.take (k + 1) = reads.take k := by
      rw [List.take_of_length_le hlen, List.take_of_length_le (Nat.le_succ_of_le hlen)]
    rw [arrived, arrived, hsame]
  | cons n rs ih =>
    have hn : reads[k]? = some n := by
      have hhead := congrArg List.head? hrs
      rwa [List.head?_drop] at hhead
    have ht' : t + min n 256 = 1 + ((reads.take (k + 1)).map (min · 256)).sum := by
      rw [sum_take_succ hn, ht, Nat.add_assoc]
    have hnext : arrived reads stream (k + 1) =
        stream.take t ++ (stream.drop t).take (min n 256) := by
      rw [arrived, ← ht', List.take_add]
    rw [peekLoop]
    split
    · next hstop =>
      refine ⟨k, ⟨hgo, fun hg => ?_⟩, hk.symm, List.take_append_drop _ _⟩
      rcases hstop with hline | hlong
      · exact hg.1 (hk ▸ hline)
      · exact absurd (hk ▸ hg.2.1) (not_lt.mpr hlong)
    · next hwait =>
      rw [not_or, not_le] at hwait
      split
      · next hchunk =>
        refine ⟨k, ⟨hgo, fun hg => hg.2.2 ?_⟩, hk.symm, List.take_append_drop _ _⟩
        rw [hnext, hchunk, List.append_nil, hk]
      · next hchunk =>
        have hgoes : Goes reads stream k := by
          refine ⟨hk ▸ hwait.1, hk ▸ hwait.2, ?_⟩
          rw [hnext, hk]
          exact fun heq => hchunk (List.append_right_eq_self.mp heq)
        rw [← List.take_add, List.drop_drop]
        refine ih ?_ ht' (fun i hi => ?_) (by rw [arrived, ← ht'])
        · rw [← List.drop_drop, hrs]
          rfl
        · rcases Nat.lt_succ_iff_lt_or_eq.mp hi with hlt | rfl
          · exact hgo i hlt
          · exact hgoes

/-- **What has been read**: the beginning of the stream up to where the reading stops, or the first
byte, when it is that of a handshake. -/
theorem peekRequest_stops (reads : List ℕ) (b : UInt8) (rest : Bytes) :
    (peekRequest reads (b :: rest)).buffered ++ (peekRequest reads (b :: rest)).rest = b :: rest ∧
      ((b = 0x16 ∧ (peekRequest reads (b :: rest)).kind = .tls) ∨
        ∃ k, Stops reads (b :: rest) k ∧
          (peekRequest reads (b :: rest)).buffered = arrived reads (b :: rest) k ∧
          (peekRequest reads (b :: rest)).kind = kindOf (arrived reads (b :: rest) k)) := by
  rw [peekRequest]
  split
  · next hb => exact ⟨rfl, .inl ⟨hb, rfl⟩⟩
  · next hb =>
    have hzero : ∀ i < 0, Goes reads (b :: rest) i := fun i hi => absurd hi (Nat.not_lt_zero i)
    obtain ⟨k, hstops, hbuf, hall⟩ := peekLoop_stops reads rfl rfl hzero
    refine ⟨hall, .inr ⟨k, hstops, hbuf, ?_⟩⟩
    obtain ⟨l, hl⟩ := arrived_cons reads b rest k
    rw [hl, kindOf, if_neg hb, ← hl]
    exact congrArg requestKind hbuf

end

/-! ### Beginnings of a request -/

section

variable {x y : Bytes} {m p q : Bytes} {qs : List Bytes}

/-- The first words stay when more of the stream arrives. -/
theorem requestWords_append (h : requestWords x = m :: p :: q :: qs) (y : Bytes) :
    ∃ q' qs', requestWords (x ++ y) = m :: p :: q' :: qs' := by
  rcases firstPiece_append (a := 13) (b := 10) (by decide) x y with hsame | ⟨hone, hmore | hcut⟩
  · exact ⟨q, qs, by rw [requestWords, hsame]; exact h⟩
  · -- the first line goes on
    obtain ⟨more, hmore⟩ := hmore
    rw [requestWords, firstPiece, hone] at h
    rw [requestWords, hmore]
    exact splitOn_append_of_three h more
  · -- the last byte was the first one of the line end
    rw [requestWords, firstPiece, hone, List.headD_cons, hcut] at h
    exact splitOn_of_concat_of_three (by decide) h

/-- Three words. -/
theorem requestWords_of_http (h : kindOf x = .http) :
    ∃ m p q qs, requestWords x = m :: p :: q :: qs ∧ upper m ∈ httpMethods := by
  cases x with
  | nil => cases h
  | cons b x =>
    rw [kindOf] at h
    split at h
    · cases h
    · rw [requestKind] at h
      split at h
      · next hcond =>
        obtain ⟨hlen, hmethod⟩ := hcond
        match hwords : requestWords (b :: x) with
        | [] | [_] | [_, _] =>
          rw [hwords] at hlen
          simp at hlen
        | m :: p :: q :: qs =>
          rw [hwords] at hmethod
          exact ⟨m, p, q, qs, rfl, hmethod⟩
      · cases h

/-- What looks like a request is one. -/
theorem kindOf_append (h : kindOf x = .http) (y : Bytes) : kindOf (x ++ y) = .http := by
  obtain ⟨m, p, q, qs, hwords, hmethod⟩ := requestWords_of_http h
  obtain ⟨q', qs', hmore⟩ := requestWords_append hwords y
  cases x with
  | nil => cases h
  | cons b x =>
    rw [kindOf] at h
    split at h
    · cases h
    · next hb =>
      rw [List.cons_append, kindOf, if_neg hb, requestKind, ← List.cons_append, hmore, if_pos]
      exact ⟨by simp, hmethod⟩

end

/-- The words are those of the head. -/
theorem requestWords_headEnd (w : Bytes) : requestWords (w ++ headEnd) = requestWords w := by
  have hlines : splitPair 13 10 (w ++ headEnd) = splitPair 13 10 w ++ [[], []] :=
    splitPair_append (by decide) w crlf
  rw [requestWords, requestWords, firstPiece, firstPiece, hlines]
  cases h : splitPair (13 : UInt8) 10 w with
  | nil => exact absurd h (splitPair_ne_nil _)
  | cons v vs => rfl

/-! ### The length of a rewritten head -/

/-- A line with its line end. -/
def lineLength (ln : Bytes) : ℕ := ln.length + 2

/-- What leaving out a line saves, with its line end. -/
def connectionLength (ln : Bytes) : ℕ := if isConnection ln then ln.length + 2 else 0

/-- What the lines save that are left out. -/
def removed (text : Bytes) : ℕ := ((lines text).tail.map connectionLength).sum

theorem lines_eq_cons (text : Bytes) :
    lines text = firstPiece 13 10 text :: (lines text).tail := by
  rw [lines, firstPiece]
  cases h : splitPair 13 10 text with
  | nil => exact absurd h (splitPair_ne_nil _)
  | cons w ws => rfl

theorem sum_kept (ls : List Bytes) :
    ((ls.filter (fun ln => !isConnection ln)).map lineLength).sum + (ls.map connectionLength).sum =
      (ls.map lineLength).sum := by
  induction ls with
  | nil => rfl
  | cons ln ls ih =>
    rw [List.filter_cons, List.map_cons, List.map_cons, List.sum_cons, List.sum_cons, ← ih,
      connectionLength]
    cases isConnection ln with
    | true => exact Nat.add_left_comm _ _ _
    | false =>
      simp only [Bool.not_false, if_true, Bool.false_eq_true, if_false, List.map_cons,
        List.sum_cons]
      omega

section

variable {header host r : Bytes} {port : ℕ} {m p q : Bytes} {qs : List Bytes}

/-- A head that is rewritten has three words in its first line. -/
theorem rewriteHead_eq_some (h : rewriteHead header host port = some r) :
    ∃ m p q qs, requestWords header = m :: p :: q :: qs := by
  unfold rewriteHead at h
  split at h
  · next m p q qs hwords => exact ⟨m, p, q, qs, hwords⟩
  · cases h

/-- A head with three words in its first line is rewritten. -/
theorem rewriteHead_isSome (hwords : requestWords header = m :: p :: q :: qs) (host : Bytes)
    (port : ℕ) : ∃ r, rewriteHead header host port = some r := by
  unfold rewriteHead
  rw [hwords]
  exact ⟨_, rfl⟩

/-- **The length of a rewritten head** differs by the target, the lines that are left out and the
line that is appended. -/
theorem length_rewriteHead (hwords : requestWords header = m :: p :: q :: qs)
    (h : rewriteHead header host port = some r) :
    r.length + p.length + removed header =
      header.length + (absoluteUrl p host port).length + 19 := by
  have hfirst : (firstPiece 13 10 header).length =
      m.length + p.length + ((ascii " ").intercalate (q :: qs)).length + 2 := by
    have hline : (ascii " ").intercalate (m :: p :: q :: qs) = firstPiece 13 10 header := by
      rw [← hwords]
      exact List.intercalate_splitOn 32
    have hspace : (ascii " ").length = 1 := rfl
    rw [← hline, List.intercalate_cons_cons, List.intercalate_cons_cons]
    simp only [List.length_append, hspace]
    omega
  have hall : ((lines header).map lineLength).sum = header.length + 2 := sum_splitPair header
  rw [lines_eq_cons, List.map_cons, List.sum_cons, lineLength, hfirst, ← sum_kept] at hall
  rw [rewriteHead, hwords] at h
  have hjoin : r.length + 2 = ((((m ++ ascii " " ++ absoluteUrl p host port ++ ascii " " ++
      (ascii " ").intercalate (q :: qs)) ::
        ((lines header).tail.filter (fun ln => !isConnection ln) ++
          [ascii "Connection: close"])).map lineLength).sum) := by
    rw [← Option.some.inj h]
    exact length_intercalate_pair (List.cons_ne_nil _ _)
  have hspace : (ascii " ").length = 1 := rfl
  have hclose : (([ascii "Connection: close"]).map lineLength).sum = 19 := by decide
  rw [List.map_cons, List.sum_cons, List.map_append, List.sum_append, hclose, lineLength] at hjoin
  simp only [List.length_append, hspace] at hjoin
  rw [removed]
  omega

/-- A rewritten head ends with the line that is appended. -/
theorem rewriteHead_concat (h : rewriteHead header host port = some r) :
    ∃ r', r = r' ++ [101] := by
  obtain ⟨m, p, q, qs, hwords⟩ := rewriteHead_eq_some h
  rw [rewriteHead, hwords] at h
  obtain ⟨before, hbefore⟩ := intercalate_concat crlf
    ((m ++ ascii " " ++ absoluteUrl p host port ++ ascii " " ++
      (ascii " ").intercalate (q :: qs)) ::
      (lines header).tail.filter (fun ln => !isConnection ln)) (ascii "Connection: close")
  refine ⟨before ++ ascii "Connection: clos", ?_⟩
  rw [← Option.some.inj h, ← List.cons_append, hbefore, List.append_assoc]
  rfl

end

/-! ### What a beginning saves -/

theorem isConnection_append {ln : Bytes} (h : isConnection ln = true) (more : Bytes) :
    isConnection (ln ++ more) = true := by
  rw [isConnection, lower, List.map_append]
  exact List.isPrefixOf_iff_prefix.mpr
    ((List.isPrefixOf_iff_prefix.mp h).trans (List.prefix_append _ _))

/-- The mark does not end with a carriage return. -/
theorem isConnection_of_concat {ln : Bytes} (h : isConnection (ln ++ [13]) = true) :
    isConnection ln = true := by
  rw [isConnection, lower, List.map_append] at h
  rcases List.prefix_concat_iff.mp (List.isPrefixOf_iff_prefix.mp h) with heq | hprefix
  · have hlast : (ascii "connection:").getLast? = some 13 := by
      rw [heq]
      exact List.getLast?_concat
    exact absurd hlast (by decide)
  · exact List.isPrefixOf_iff_prefix.mpr hprefix

theorem connectionLength_append (ln more : Bytes) :
    connectionLength ln ≤ connectionLength (ln ++ more) := by
  unfold connectionLength
  cases h : isConnection ln with
  | false => exact Nat.zero_le _
  | true =>
    rw [isConnection_append h, if_pos rfl, if_pos rfl, List.length_append]
    omega

theorem connectionLength_concat (ln : Bytes) :
    connectionLength (ln ++ [13]) ≤ connectionLength ln + 1 := by
  unfold connectionLength
  split
  · next h =>
    rw [isConnection_of_concat h, if_pos rfl, List.length_append, List.length_singleton]
  · exact Nat.zero_le _

/-- The beginning of a text saves no more than the text, but for the line end that it may have
begun. -/
theorem removed_append (x y : Bytes) : removed x ≤ removed (x ++ y) + 1 := by
  unfold removed lines
  rcases splitPair_cases (a := 13) (b := 10) x with hone | ⟨w, rest, rfl, hone, hx⟩
  · rw [hone]
    exact Nat.zero_le _
  · rw [hx, List.append_assoc, List.cons_append, List.cons_append, splitPair_append (by decide),
      hone, List.singleton_append, List.tail_cons, List.tail_cons]
    exact pieceSum_le_append (by decide) connectionLength_append connectionLength_concat rest y

/-- An empty line saves nothing. -/
theorem removed_headEnd (h : Bytes) : removed (h ++ headEnd) = removed h := by
  have hlines : lines (h ++ headEnd) = lines h ++ [[], []] := splitPair_append (by decide) h crlf
  unfold removed
  rw [hlines, lines_eq_cons, List.cons_append, List.tail_cons, List.tail_cons, List.map_append,
    List.sum_append]
  rfl

/-! ### Rewriting a beginning -/

theorem partitionHead_of_some {data w body : Bytes}
    (h : readThrough headEnd data = some (w ++ headEnd, body)) : partitionHead data = (w, body) := by
  rw [partitionHead, h]
  dsimp only
  rw [List.length_append, Nat.add_sub_cancel, List.take_left]

theorem partitionHead_of_none {data : Bytes} (h : readThrough headEnd data = none) :
    partitionHead data = (data, []) := by
  rw [partitionHead, h]

/-- A text without the end of a head is not followed by one. -/
theorem headEnd_append_ne {x y r r' : Bytes} (hy : y ≠ []) (hstream : ¬ headEnd <:+: x ++ y) :
    r ++ headEnd ++ y ≠ r' ++ [101] ++ headEnd := by
  intro heq
  have hrev := congrArg List.reverse heq
  simp only [List.reverse_append] at hrev
  rcases hy' : y.reverse with _ | ⟨b₁, _ | ⟨b₂, _ | ⟨b₃, _ | ⟨b₄, l⟩⟩⟩⟩
  · exact hy (List.reverse_eq_nil_iff.mp hy')
  all_goals rw [hy'] at hrev
  · simp [headEnd] at hrev
  · simp [headEnd] at hrev
  · simp [headEnd] at hrev
  · -- all of the mark is behind
    have hfour : [b₁, b₂, b₃, b₄] = headEnd.reverse := congrArg (List.take 4) hrev
    refine hstream ⟨x ++ l.reverse, [], ?_⟩
    have hy'' : y = l.reverse ++ [b₁, b₂, b₃, b₄].reverse := by
      rw [← List.reverse_reverse y, hy']
      simp
    rw [hy'', hfour, List.reverse_reverse, List.append_nil, List.append_assoc]

section

variable {x y : Bytes} {m p q : Bytes} {qs : List Bytes}

/-- A head that has arrived is rewritten as a whole. -/
theorem toAbsoluteUri_append (h : headEnd <:+: x) (y host : Bytes) (port : ℕ) :
    toAbsoluteUri x host port ++ y = toAbsoluteUri (x ++ y) host port := by
  cases hread : readThrough headEnd x with
  | none => exact absurd hread (readThrough_ne_none h)
  | some found =>
    obtain ⟨piece, body⟩ := found
    obtain ⟨-, w, rfl⟩ := readThrough_eq_some hread
    rw [toAbsoluteUri, toAbsoluteUri, partitionHead_of_some hread,
      partitionHead_of_some (readThrough_extend hread y)]
    dsimp only
    cases rewriteHead w host port with
    | none => rfl
    | some r => exact List.append_assoc _ _ _

/-- **When a beginning can be rewritten by itself.** -/
theorem toAbsoluteUri_append_iff (hwords : requestWords x = m :: p :: q :: qs) (y host : Bytes)
    (port : ℕ) :
    toAbsoluteUri x host port ++ y = toAbsoluteUri (x ++ y) host port ↔
      headEnd <:+: x ∨ y = [] := by
  constructor
  · intro heq
    by_contra hcut
    rw [not_or] at hcut
    obtain ⟨hx, hy⟩ := hcut
    have hwait : readThrough headEnd x = none := by
      by_contra hsome
      obtain ⟨⟨piece, body⟩, hread⟩ := Option.ne_none_iff_exists'.mp hsome
      obtain ⟨rfl, w, rfl⟩ := readThrough_eq_some hread
      exact hx ⟨w, body, rfl⟩
    obtain ⟨r, hr⟩ := rewriteHead_isSome hwords host port
    rw [toAbsoluteUri, toAbsoluteUri, partitionHead_of_none hwait] at heq
    dsimp only at heq
    rw [hr] at heq
    dsimp only at heq
    rw [List.append_nil] at heq
    -- by the end of the output when no head ends in the stream, and by its length otherwise
    cases hread : readThrough headEnd (x ++ y) with
    | none =>
      obtain ⟨q', qs', hmore⟩ := requestWords_append hwords y
      obtain ⟨r₂, hr₂⟩ := rewriteHead_isSome hmore host port
      rw [partitionHead_of_none hread] at heq
      dsimp only at heq
      rw [hr₂] at heq
      dsimp only at heq
      obtain ⟨r', rfl⟩ := rewriteHead_concat hr₂
      rw [List.append_nil] at heq
      exact headEnd_append_ne hy (fun hin => readThrough_ne_none hin hread) heq
    | some found =>
      obtain ⟨piece, body⟩ := found
      have hlt := length_lt_of_readThrough hwait hread
      obtain ⟨hstream, w, rfl⟩ := readThrough_eq_some hread
      obtain ⟨z, hz⟩ : x <+: w ++ headEnd :=
        List.prefix_of_prefix_length_le (hstream ▸ List.prefix_append x y)
          (List.prefix_append _ body) hlt.le
      obtain ⟨q', qs', hmore⟩ := requestWords_append hwords z
      rw [hz, requestWords_headEnd] at hmore
      obtain ⟨r₂, hr₂⟩ := rewriteHead_isSome hmore host port
      rw [partitionHead_of_some hread] at heq
      dsimp only at heq
      rw [hr₂] at heq
      dsimp only at heq
      -- the beginning would save four bytes more than the whole head
      have hsaved := removed_append x z
      rw [hz, removed_headEnd] at hsaved
      have hlen := length_rewriteHead hwords hr
      have hlen₂ := length_rewriteHead hmore hr₂
      have htotal := congrArg List.length hstream
      have hout := congrArg List.length heq
      have hfour : headEnd.length = 4 := rfl
      simp only [List.length_append, hfour] at htotal hout
      omega
  · rintro (hin | rfl)
    · exact toAbsoluteUri_append hin y host port
    · rw [List.append_nil, List.append_nil]

end

/-! ### The upstream -/

section

variable {host : Bytes} {port : ℕ} {httpProxy : Bool} {reads : List ℕ} {stream : Bytes}

/-- Nothing looks like a request after the first byte of a handshake. -/
theorem kindOf_arrived_tls {b : UInt8} (hb : b = 0x16) (rest : Bytes) (k : ℕ) :
    kindOf (arrived reads (b :: rest) k) = .tls := by
  obtain ⟨l, hl⟩ := arrived_cons reads b rest k
  rw [hl, kindOf, if_pos hb]

theorem kindOf_cons_ne_empty (b : UInt8) (l : Bytes) : kindOf (b :: l) ≠ .empty := by
  rw [kindOf, requestKind]
  split
  · exact fun h => by cases h
  · split <;> exact fun h => by cases h

/-- What is done with a stream that is not empty. -/
theorem handle_cons (b : UInt8) (rest : Bytes) :
    handle host port httpProxy reads (b :: rest) =
      let p := peekRequest reads (b :: rest)
      let isRaw := decide (p.kind = .http) && httpProxy
      some ⟨isRaw, if p.kind = .http ∧ isRaw = true then toAbsoluteUri p.buffered host port
        else p.buffered, p.rest⟩ := by
  have hkind : (peekRequest reads (b :: rest)).kind ≠ .empty := by
    rcases (peekRequest_stops reads b rest).2 with ⟨-, htls⟩ | ⟨k, -, -, hpeek⟩
    · rw [htls]
      exact fun h => by cases h
    · obtain ⟨l, hl⟩ := arrived_cons reads b rest k
      rw [hpeek, hl]
      exact kindOf_cons_ne_empty b l
  rw [handle, if_neg hkind]
  simp only [Bool.not_not]

/-- Only an empty stream is closed. -/
theorem handle_eq_none_iff : handle host port httpProxy reads stream = none ↔ stream = [] := by
  cases stream with
  | nil => exact ⟨fun _ => rfl, fun _ => rfl⟩
  | cons b rest =>
    rw [handle_cons]
    exact ⟨fun h => (by cases h), fun h => (by cases h)⟩

/-- What is written and what is left, for a raw upstream and a beginning that looks like a
request. -/
theorem append_rest_iff_of_raw {k : ℕ} {buffered rest : Bytes} (hstream : buffered ++ rest = stream)
    (hstops : Stops reads stream k) (hbuf : buffered = arrived reads stream k)
    (hkind : kindOf buffered = .http) :
    toAbsoluteUri buffered host port ++ rest = intended host port true stream ↔
      HeadArrives true reads stream := by
  subst hbuf
  obtain ⟨m, p, q, qs, hwords, -⟩ := requestWords_of_http hkind
  have hrest : rest = [] ↔ arrived reads stream k = stream := by
    conv_rhs => rhs; rw [← hstream]
    exact List.self_eq_append_right.symm
  have hhttp : kindOf stream = .http := hstream ▸ kindOf_append hkind rest
  rw [intended, if_pos ⟨hhttp, rfl⟩]
  conv_lhs => rhs; rw [← hstream]
  rw [toAbsoluteUri_append_iff hwords, hrest]
  constructor
  · intro hdone k' hstops' _ _
    rwa [hstops'.unique hstops]
  · exact fun hall => hall k hstops hkind rfl

/-- **When the upstream receives what is intended**: once the relay has copied the client's stream,
the upstream has received the whole head rewritten and the rest unchanged, or exactly the client's
bytes, if and only if, when the beginning of the stream up to which `_peek_request` reads looks like
a request and the upstream is an HTTP proxy, it has the whole head or is the whole stream. An empty
stream is closed. -/
theorem handle_rewrites_iff (host : Bytes) (port : ℕ) (httpProxy : Bool) (reads : List ℕ)
    (stream : Bytes) :
    (handle host port httpProxy reads stream = none ↔ stream = []) ∧
      ∀ h, handle host port httpProxy reads stream = some h →
        ∀ (sent : Dir → Bytes) (live : Dir → ℕ) (s : Relay), sent .c2u = h.rest →
          Relay.machine.Reaches Machine.anyStep (Relay.start sent live) s →
          (s.pipes .c2u).buf = [] → (s.pipes .c2u).rest = [] →
          (h.written ++ (s.pipes .c2u).delivered = intended host port h.isRaw stream ↔
            HeadArrives httpProxy reads stream) := by
  refine ⟨handle_eq_none_iff, fun h hh sent live s hsent hrun hbuf hrest => ?_⟩
  rw [Relay.delivered_eq hrun hbuf hrest, hsent]
  cases stream with
  | nil => cases hh
  | cons b rest =>
    rw [handle_cons] at hh
    obtain rfl := Option.some.inj hh
    dsimp only
    obtain ⟨hstream, hpeek⟩ := peekRequest_stops reads b rest
    by_cases hraw : (peekRequest reads (b :: rest)).kind = .http ∧ httpProxy = true
    · obtain ⟨hhttp, rfl⟩ := hraw
      rcases hpeek with ⟨-, htls⟩ | ⟨k, hstops, hbuffered, hkind⟩
      · rw [htls] at hhttp
        cases hhttp
      · rw [hhttp, decide_eq_true rfl, Bool.true_and, if_pos ⟨rfl, rfl⟩]
        exact append_rest_iff_of_raw hstream hstops hbuffered (by rw [hbuffered, ← hkind, hhttp])
    · have hfalse : (decide ((peekRequest reads (b :: rest)).kind = .http) && httpProxy) = false := by
        rw [Bool.and_eq_false_iff, decide_eq_false_iff_not, ← Bool.not_eq_true, ← not_and_or]
        exact hraw
      rw [hfalse, if_neg (fun h => by cases h.2), hstream, intended, if_neg (fun h => by cases h.2)]
      refine iff_of_true rfl (fun k hstops hkind hproxy => ?_)
      rcases hpeek with ⟨hb, -⟩ | ⟨k', hstops', -, hkind'⟩
      · rw [kindOf_arrived_tls hb] at hkind
        cases hkind
      · rw [hstops.unique hstops', ← hkind'] at hkind
        exact absurd ⟨hkind, hproxy⟩ hraw

end

/-! ### A request in two parts -/

/-- The request line. -/
def firstLine : Bytes := ascii "GET / HTTP/1.1\r\n"

/-- The rest of the head. -/
def otherLines : Bytes := ascii "A: b\r\n\r\n"

/-- What the relay has to copy, when the head is split or when a body follows it. -/
def leftOver (rest : Bytes) : Dir → Bytes
  | .c2u => rest
  | .u2c => []

/-- The relay copies it. -/
theorem exists_copied {rest : Bytes} (h : rest = otherLines ∨ rest = ascii "body") :
    ∃ s : Relay,
      Relay.machine.Reaches Machine.anyStep (Relay.start (leftOver rest) (fun _ => 0)) s ∧
        (s.pipes .c2u).buf = [] ∧ (s.pipes .c2u).rest = [] := by
  have hrun : (Relay.machine.exec (fun _ _ _ => true) (Relay.start (leftOver rest) (fun _ => 0))
      [.arrive .c2u rest.length, .read .c2u]).any (fun s =>
        decide ((s.pipes .c2u).buf = [] ∧ (s.pipes .c2u).rest = [])) = true := by
    rcases h with rfl | rfl <;> decide
  obtain ⟨s, hs, hp⟩ := Machine.exists_reaches_of_exec (G := Machine.anyStep)
    (fun _ _ _ _ => trivial) hrun
  exact ⟨s, hs, of_decide_eq_true hp⟩

/-- A head that arrives with the first read, and a body behind it. -/
theorem handle_rewrites_iff_whole_head :
    ∃ s : Relay, toAbsoluteUri (firstLine ++ otherLines) (ascii "h") 80 ++
        (s.pipes .c2u).delivered =
      intended (ascii "h") 80 true (firstLine ++ otherLines ++ ascii "body") := by
  obtain ⟨s, hs, hbuf, hrest⟩ := exists_copied (.inr rfl)
  have hhandle : handle (ascii "h") 80 true [23] (firstLine ++ otherLines ++ ascii "body") =
      some ⟨true, toAbsoluteUri (firstLine ++ otherLines) (ascii "h") 80, ascii "body"⟩ := by decide
  refine ⟨s, ((handle_rewrites_iff _ _ true [23] _).2 _ hhandle _ _ s rfl hs hbuf hrest).mpr ?_⟩
  intro k hstops _ _
  have h1 : Stops [23] (firstLine ++ otherLines ++ ascii "body") 1 := by
    refine ⟨fun i hi => ?_, fun hg => hg.1 (by decide)⟩
    obtain rfl := Nat.lt_one_iff.mp hi
    exact ⟨by decide, by decide, by decide⟩
  rw [hstops.unique h1]
  exact .inl (by decide)

/-- The first read gets the request line only: the upstream receives a request without its
headers, and the headers behind it. -/
theorem split_head_garbled :
    ¬ ∀ (host : Bytes) (port : ℕ) (httpProxy : Bool) (reads : List ℕ) (stream : Bytes),
      ∀ h, handle host port httpProxy reads stream = some h →
        ∀ (sent : Dir → Bytes) (live : Dir → ℕ) (s : Relay), sent .c2u = h.rest →
          Relay.machine.Reaches Machine.anyStep (Relay.start sent live) s →
          (s.pipes .c2u).buf = [] → (s.pipes .c2u).rest = [] →
          h.written ++ (s.pipes .c2u).delivered = intended host port h.isRaw stream := by
  intro hall
  obtain ⟨s, hs, hbuf, hrest⟩ := exists_copied (.inl rfl)
  have hhandle : handle (ascii "h") 80 true [15] (firstLine ++ otherLines) =
      some ⟨true, ascii "GET http://h/ HTTP/1.1\r\n\r\nConnection: close\r\n\r\n", otherLines⟩ := by
    decide
  have heq := hall _ _ true [15] _ _ hhandle _ _ s rfl hs hbuf hrest
  rw [Relay.delivered_eq hs hbuf hrest] at heq
  exact absurd heq (by decide)

end HuntProxy.Transparent
