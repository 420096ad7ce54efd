import HuntProxy.Lib.Casing
import HuntProxy.Lib.Cut
import HuntProxy.Lib.Decimal
import HuntProxy.Lib.Dict
import HuntProxy.Proxy.HttpConnect

/-!
# Connections of the web interface

A browser sends requests one behind the other on a connection, and may send the next one before
the answer has come. The server reads a request line, the header lines and a body of the length
that the headers name; it answers, and goes on reading unless it is asked to close. So what is
read as a request must be what has been sent as one, for all requests and whatever their bodies
contain; and the other way round for the answers.

What the handlers do is a parameter, with a state of its own; an exception in one of them closes
the connection.

## Main definitions

- `readRequest`, `writeReply`, `serve` — the server
- `SentRequest` — a request as it is sent
- `answers` — the answers to requests, one after the other
- `readReplies` — the answers as a browser reads them

## Main results

- `serve_eq` — the server answers the requests that have been sent
- `readReplies_serve` — the browser reads these answers
-/

namespace HuntProxy.Web

open Ip (Str)
open HttpConnect (words streamLimit)

/-! ### The server -/

/-- What the loop over the requests takes from one of them. -/
structure WebRequest where
  method : Str
  rawPath : Str
  body : Bytes
  close : Bool

/-- `raw_path.split("?", 1)[0]`. -/
def WebRequest.path (q : WebRequest) : Str := beforeFirst '?' q.rawPath

/-- An answer: its body, its status and its content type. -/
structure Reply where
  body : Bytes
  status : ℕ
  ct : Str

/-- `bytes.decode`. -/
def decode (l : Bytes) : Option Str :=
  if Utf8.encode (Utf8.decodeReplace l) = l then some (Utf8.decodeReplace l) else none

section

variable (lower : LowerCase) (upper : Str → Str)

/-- One line of the headers. -/
def addHeader (headers : Dict Str Str) (hl : Bytes) : Dict Str Str :=
  if 58 ∈ hl then
    let kv := Text.splitOnce ':' (Utf8.decodeReplace hl)
    headers.insert (lower.apply (Text.strip kv.1)) (Text.strip kv.2)
  else headers

/-- A line that ends the headers. -/
def endsHeaders (hl : Bytes) : Bool := hl = crlf || hl = [10] || hl = []

/-- The header lines up to an empty one. -/
def readHeaders (headers : Dict Str Str) (r : Incoming UInt8) :
    Option (Dict Str Str × Incoming UInt8) :=
  match _hline : r.readLine streamLimit [10] with
  | (.error _, _) => none
  | (.ok hl, r') =>
    if _hend : endsHeaders hl then some (headers, r')
    else readHeaders (addHeader lower headers hl) r'
termination_by r.size
decreasing_by
  have hread := Incoming.readLine_size _hline
  have hne : hl ≠ [] := by
    rintro rfl
    exact _hend rfl
  have hpos := List.length_pos_iff.mpr hne
  omega

/-- `int(headers.get("content-length", 0))`. -/
def bodyLength (headers : Dict Str Str) : Option ℤ :=
  match headers.get? "content-length".toList with
  | none => some 0
  | some text => Decimal.int text

/-- `headers.get("connection", "").lower() == "close"`. -/
def closeAfter (headers : Dict Str Str) : Bool :=
  lower.apply ((headers.get? "connection".toList).getD []) = "close".toList

/-- A request; `none` says that the connection is closed without an answer. -/
def readRequest (r : Incoming UInt8) : Option (WebRequest × Incoming UInt8) :=
  match r.readLine streamLimit [10] with
  | (.error _, _) => none
  | (.ok line, r) =>
    match words line with
    | method :: target :: _ =>
      match decode method, decode target, readHeaders lower .empty r with
      | some method, some rawPath, some (headers, r) =>
        match bodyLength headers with
        | none => none
        | some cl =>
          let request (body : Bytes) : WebRequest :=
            ⟨upper method, rawPath, body, closeAfter lower headers⟩
          if 0 < cl then
            match r.readExactly cl.toNat with
            | (.error _, _) => none
            | (.ok body, r) => some (request body, r)
          else some (request [], r)
      | _, _, _ => none
    | _ => none

end

/-! Every request takes something from the stream, so that the loop ends. -/

section

variable {lower : LowerCase} {upper : Str → Str} {r r' : Incoming UInt8}

theorem readHeaders_size {headers headers' : Dict Str Str}
    (h : readHeaders lower headers r = some (headers', r')) : r'.size ≤ r.size := by
  fun_induction readHeaders lower headers r with
  | case1 => cases h
  | case2 headers r hl r₁ hline hend =>
    cases h
    have hread := Incoming.readLine_size hline
    omega
  | case3 headers r hl r₁ hline hend ih =>
    have hread := Incoming.readLine_size hline
    have hrest := ih h
    omega

theorem readRequest_size {request : WebRequest} (h : readRequest lower upper r = some (request, r')) :
    r'.size < r.size := by
  unfold readRequest at h
  split at h
  · cases h
  · next line r₁ hline =>
    have hread := Incoming.readLine_size hline
    split at h
    · next method target rest hwords =>
      have hpos : 0 < line.length := by
        refine List.length_pos_iff.mpr ?_
        rintro rfl
        cases hwords
      split at h
      · next hheaders =>
        have hhead := readHeaders_size hheaders
        split at h
        · cases h
        · dsimp only at h
          split at h
          · split at h
            · cases h
            · next hbody =>
              have hexact := Incoming.readExactly_size hbody
              cases h
              omega
          · cases h
            omega
      · cases h
    · cases h

end

/-- The `cache_control` of a content type. -/
def cacheControl (ct : Str) : Str :=
  if "image/".toList.isPrefixOf ct ∨ ct = "application/manifest+json".toList then
    "public, max-age=86400".toList
  else if "text/css".toList.isPrefixOf ct ∨ "application/javascript".toList.isPrefixOf ct then
    "no-cache".toList
  else "no-store".toList

/-- The status line of an answer. -/
def statusText (reply : Reply) : Str :=
  "HTTP/1.1 ".toList ++ Nat.toDigits 10 reply.status ++ " OK\r\n".toList

/-- A header line. -/
def headerText (name value : Str) : Str := name ++ ": ".toList ++ value ++ "\r\n".toList

/-- The header lines of an answer. -/
def replyHeaders (reply : Reply) (close : Bool) : List (Str × Str) :=
  [("Content-Type".toList, reply.ct),
    ("Content-Length".toList, Nat.toDigits 10 reply.body.length),
    ("Cache-Control".toList, cacheControl reply.ct),
    ("Connection".toList, if close then "close".toList else "keep-alive".toList)]

/-- `_write`. -/
def writeReply (reply : Reply) (close : Bool) : Bytes :=
  Utf8.encode (statusText reply) ++
    ((replyHeaders reply close).map (fun h => Utf8.encode (headerText h.1 h.2))).flatten ++ crlf ++
    reply.body

section

variable {σ : Type} (lower : LowerCase) (upper : Str → Str)
  (route : σ → WebRequest → σ × Option Reply)

/-- The loop over the requests of a connection: the state of the handlers, and what is written. -/
def serve (s : σ) (r : Incoming UInt8) : σ × Bytes :=
  match _hread : readRequest lower upper r with
  | none => (s, [])
  | some (request, r') =>
    match route s request with
    | (s, none) => (s, [])
    | (s, some reply) =>
      if request.close then (s, writeReply reply true)
      else
        let rest := serve s r'
        (rest.1, writeReply reply false ++ rest.2)
termination_by r.size
decreasing_by exact readRequest_size _hread

end

/-! ### What is sent -/

/-- A request as it is sent: the words of its first line, its header lines and its body. -/
structure SentRequest where
  method : Bytes
  target : Bytes
  headers : List Bytes
  body : Bytes

namespace SentRequest

/-- The first line. -/
def line (q : SentRequest) : Bytes := q.method ++ [32] ++ q.target ++ ascii " HTTP/1.1" ++ crlf

/-- The bytes of a request. -/
def text (q : SentRequest) : Bytes := q.line ++ q.headers.flatten ++ crlf ++ q.body

variable (lower : LowerCase) (upper : Str → Str)

/-- The headers, as they are understood. -/
def fields (q : SentRequest) : Dict Str Str := q.headers.foldl (addHeader lower) .empty

/-- What the server takes from it. -/
def request (q : SentRequest) : WebRequest :=
  ⟨upper (Utf8.decodeReplace q.method), Utf8.decodeReplace q.target, q.body,
    closeAfter lower (q.fields lower)⟩

/-- A request is well formed: its words are texts, its lines are not too long, and its headers name
the length of its body. -/
structure Proper (q : SentRequest) : Prop where
  method : q.method ≠ [] ∧ (∀ b ∈ q.method, isSpace b = false) ∧ (decode q.method).isSome = true
  target : q.target ≠ [] ∧ (∀ b ∈ q.target, isSpace b = false) ∧ (decode q.target).isSome = true
  line : q.line.length ≤ streamLimit + 1
  headers : ∀ hl ∈ q.headers, Ends 10 hl ∧ hl.length ≤ streamLimit + 1 ∧ endsHeaders hl = false
  length : bodyLength (q.fields lower) = some (q.body.length : ℤ)

end SentRequest

section

variable {σ : Type} (lower : LowerCase) (upper : Str → Str)
  (route : σ → WebRequest → σ × Option Reply)

/-- The requests are answered one after the other, up to the one that asks to close or whose handler
fails. -/
def answers : σ → List SentRequest → σ × List (Reply × Bool)
  | s, [] => (s, [])
  | s, q :: rest =>
    let request := q.request lower upper
    match route s request with
    | (s, none) => (s, [])
    | (s, some reply) =>
      if request.close then (s, [(reply, true)])
      else
        let more := answers s rest
        (more.1, (reply, false) :: more.2)

end

/-! ### The server reads what is sent -/

section

variable {lower : LowerCase} {upper : Str → Str} {r : Incoming UInt8} {rest : Bytes}

theorem readHeaders_lines {lines : List Bytes} (hlines : ∀ hl ∈ lines,
      Ends 10 hl ∧ hl.length ≤ streamLimit + 1 ∧ endsHeaders hl = false) (headers : Dict Str Str)
    (h : r.Holds (lines.flatten ++ crlf ++ rest)) :
    ∃ r', readHeaders lower headers r = some (lines.foldl (addHeader lower) headers, r') ∧
      r'.Holds rest := by
  induction lines generalizing r headers with
  | nil =>
    have hcrlf : Ends (10 : UInt8) crlf := ⟨[13], rfl, by decide⟩
    obtain ⟨r', hread, hrest⟩ := h.readLine streamLimit hcrlf (by decide)
    refine ⟨r', ?_, hrest⟩
    rw [readHeaders]
    split
    · next heq => rw [hread] at heq; cases heq
    · next heq =>
      rw [hread] at heq
      cases heq
      rfl
  | cons hl lines ih =>
    obtain ⟨⟨hends, hlen, hmore⟩, hlines'⟩ := List.forall_mem_cons.mp hlines
    have hsplit : r.Holds (hl ++ (lines.flatten ++ crlf ++ rest)) := by
      rw [List.flatten_cons] at h
      simpa only [List.append_assoc] using h
    obtain ⟨r₁, hread, hrest⟩ := hsplit.readLine streamLimit hends hlen
    obtain ⟨r', hheaders, hlast⟩ := ih hlines' (addHeader lower headers hl) hrest
    refine ⟨r', ?_, hlast⟩
    rw [readHeaders]
    split
    · next heq => rw [hread] at heq; cases heq
    · next heq =>
      rw [hread] at heq
      cases heq
      rw [dif_neg (by simp [hmore])]
      exact hheaders

/-- The words of the first line. -/
theorem words_line {q : SentRequest} (h : q.Proper lower) :
    ∃ more, words q.line = q.method :: q.target :: more := by
  have hspace : isSpace 32 = true := by decide
  have hline : q.line = q.method ++ 32 :: (q.target ++ 32 :: (ascii "HTTP/1.1" ++ crlf)) := by
    have hversion : ascii " HTTP/1.1" = 32 :: ascii "HTTP/1.1" := rfl
    simp only [SentRequest.line, hversion, List.append_assoc, List.cons_append, List.nil_append]
  refine ⟨((ascii "HTTP/1.1" ++ crlf).splitOnP isSpace).filter (· ≠ []), ?_⟩
  rw [words, hline, List.splitOnP_append_cons_of_forall_mem h.method.2.1 32 hspace,
    List.splitOnP_append_cons_of_forall_mem h.target.2.1 32 hspace,
    List.filter_cons_of_pos (by simpa using h.method.1),
    List.filter_cons_of_pos (by simpa using h.target.1)]

/-- **A request is read as it was sent.** -/
theorem readRequest_text {q : SentRequest} (h : q.Proper lower) (hr : r.Holds (q.text ++ rest)) :
    ∃ r', readRequest lower upper r = some (q.request lower upper, r') ∧ r'.Holds rest := by
  have hends : Ends (10 : UInt8) q.line := by
    refine ⟨q.method ++ [32] ++ q.target ++ ascii " HTTP/1.1" ++ [13], ?_, ?_⟩
    · simp [SentRequest.line, crlf]
    · have hword : ∀ w : Bytes, (∀ b ∈ w, isSpace b = false) → 10 ∉ w := fun w hw hmem =>
        absurd (hw 10 hmem) (by decide)
      have hversion : (10 : UInt8) ∉ ascii " HTTP/1.1" := by decide
      simp [hword _ h.method.2.1, hword _ h.target.2.1, hversion]
  have hsplit : r.Holds (q.line ++ (q.headers.flatten ++ crlf ++ (q.body ++ rest))) := by
    simpa only [SentRequest.text, List.append_assoc] using hr
  obtain ⟨r₁, hline, hrest₁⟩ := hsplit.readLine streamLimit hends h.line
  obtain ⟨r₂, hheaders, hrest₂⟩ : ∃ r₂, readHeaders lower .empty r₁ = some (q.fields lower, r₂) ∧
      r₂.Holds (q.body ++ rest) := readHeaders_lines h.headers .empty hrest₁
  obtain ⟨more, hwords⟩ := words_line h
  have hmethod : decode q.method = some (Utf8.decodeReplace q.method) := by
    have hsome := h.method.2.2
    unfold decode at hsome ⊢
    split at hsome
    · next heq => rw [if_pos heq]
    · cases hsome
  have htarget : decode q.target = some (Utf8.decodeReplace q.target) := by
    have hsome := h.target.2.2
    unfold decode at hsome ⊢
    split at hsome
    · next heq => rw [if_pos heq]
    · cases hsome
  by_cases hbody : q.body = []
  · refine ⟨r₂, ?_, ?_⟩
    · have hlength : bodyLength (q.fields lower) = some 0 := by simpa [hbody] using h.length
      simp [readRequest, hline, hwords, hmethod, htarget, hheaders, hlength, SentRequest.request, hbody]
    · simpa [hbody] using hrest₂
  · obtain ⟨r₃, hexact, hrest₃⟩ := hrest₂.readExactly
    have hpos : (0 : ℤ) < q.body.length := by
      exact_mod_cast List.length_pos_iff.mpr hbody
    refine ⟨r₃, ?_, hrest₃⟩
    simp only [readRequest, hline, hwords, hmethod, htarget, hheaders, h.length, if_pos hpos,
      Int.toNat_natCast, hexact, SentRequest.request]

variable {σ : Type} {route : σ → WebRequest → σ × Option Reply}

/-- What is written for answers. -/
def written (replies : List (Reply × Bool)) : Bytes :=
  (replies.map (fun p => writeReply p.1 p.2)).flatten

/-- At the end of the stream no request is read. -/
theorem readRequest_nil (h : r.Holds []) : readRequest lower upper r = none := by
  obtain ⟨r', hline⟩ := h.readLine_nil streamLimit 10
  have hwords : words [] = [] := rfl
  rw [readRequest, hline]
  simp only [hwords]

/-- **The server answers the requests that have been sent**, in their order, whatever the pieces in
which they arrive. -/
theorem serve_eq {reqs : List SentRequest} (h : ∀ q ∈ reqs, q.Proper lower) (s : σ)
    (hr : r.Holds (reqs.map SentRequest.text).flatten) :
    serve lower upper route s r = ((answers lower upper route s reqs).1,
      written (answers lower upper route s reqs).2) := by
  induction reqs generalizing s r with
  | nil =>
    rw [serve]
    split
    · rfl
    · next hread =>
      rw [readRequest_nil hr] at hread
      cases hread
  | cons q reqs ih =>
    obtain ⟨hq, hreqs⟩ := List.forall_mem_cons.mp h
    rw [List.map_cons, List.flatten_cons] at hr
    obtain ⟨r', hread, hrest⟩ := readRequest_text hq hr
    rw [serve]
    split
    · next hnone =>
      rw [hread] at hnone
      cases hnone
    · next hsome =>
      rw [hread] at hsome
      cases hsome
      rw [answers]
      dsimp only
      split
      · rfl
      · next s' reply _ =>
        split
        · simp [written]
        · rw [ih hreqs s' hrest]
          simp [written]

end

/-! ### The browser -/

section

variable (lower : LowerCase)

/-- An answer as a browser reads it: the status line, and a body of the length that the headers
name. -/
def readReply (r : Incoming UInt8) : Option ((Bytes × Bytes) × Incoming UInt8) :=
  match r.readLine streamLimit [10] with
  | (.error _, _) => none
  | (.ok [], _) => none
  | (.ok (b :: line), r) =>
    match readHeaders lower .empty r with
    | none => none
    | some (headers, r) =>
      match bodyLength headers with
      | none => none
      | some cl =>
        match r.readExactly cl.toNat with
        | (.error _, _) => none
        | (.ok body, r) => some ((b :: line, body), r)

variable {lower} {r r' : Incoming UInt8}

theorem readReply_size {q : Bytes × Bytes} (h : readReply lower r = some (q, r')) :
    r'.size < r.size := by
  unfold readReply at h
  split at h
  · cases h
  · cases h
  · next b line r₁ hline =>
    have hread := Incoming.readLine_size hline
    rw [List.length_cons] at hread
    split at h
    · cases h
    · next hheaders =>
      have hhead := readHeaders_size hheaders
      split at h
      · cases h
      · split at h
        · cases h
        · next hbody =>
          have hexact := Incoming.readExactly_size hbody
          cases h
          omega

variable (lower)

/-- All answers on a connection. -/
def readReplies (r : Incoming UInt8) : List (Bytes × Bytes) :=
  match _hread : readReply lower r with
  | none => []
  | some (q, r') => q :: readReplies r'
termination_by r.size
decreasing_by exact readReply_size _hread

end

/-- A part of a line: letters of ASCII without a line feed. -/
def OneLine (s : Str) : Prop := ∀ c ∈ s, c.toNat < 128 ∧ c ≠ '\n'

/-- A content type on one line, and numbers that are not too long. -/
structure Reply.Plain (reply : Reply) : Prop where
  ct : OneLine reply.ct
  short : reply.ct.length ≤ 1000
  status : (Nat.toDigits 10 reply.status).length ≤ 1000
  length : (Nat.toDigits 10 reply.body.length).length ≤ 1000

/-! ### Lines of ASCII -/

theorem OneLine.of_all {s : Str} (h : s.all (fun c => decide (c.toNat < 128) && c != '\n') = true) :
    OneLine s := fun c hc => by simpa using List.all_eq_true.mp h c hc

theorem OneLine.append {s t : Str} (hs : OneLine s) (ht : OneLine t) : OneLine (s ++ t) := by
  intro c hc
  rcases List.mem_append.mp hc with hc | hc
  · exact hs c hc
  · exact ht c hc

theorem oneLine_toDigits (n : ℕ) : OneLine (Nat.toDigits 10 n) := by
  intro c hc
  have hdigit : c.isDigit = true := Decimal.isDigit_toDigits c hc
  exact ⟨LowerCase.ascii_of_isAlphanum (by rw [Char.isAlphanum, hdigit, Bool.or_true]),
    Decimal.ne_of_mem_toDigits hc (by decide)⟩

theorem oneLine_cacheControl (ct : Str) : OneLine (cacheControl ct) := by
  unfold cacheControl
  split
  · exact .of_all (by decide)
  · split <;> exact .of_all (by decide)

theorem encode_append (s t : Str) : Utf8.encode (s ++ t) = Utf8.encode s ++ Utf8.encode t :=
  List.flatMap_append

theorem OneLine.length_encode {s : Str} (h : OneLine s) : (Utf8.encode s).length = s.length := by
  rw [Utf8.encode_of_ascii (fun c hc => (h c hc).1), List.length_map]

/-- A line with its end. -/
theorem OneLine.ends {s : Str} (h : OneLine s) (hlen : s.length ≤ streamLimit) :
    Ends 10 (Utf8.encode (s ++ ['\n'])) ∧ (Utf8.encode (s ++ ['\n'])).length ≤ streamLimit + 1 := by
  have hnl : Utf8.encode ['\n'] = [10] := by decide
  rw [encode_append, hnl]
  refine ⟨⟨Utf8.encode s, rfl, ?_⟩, ?_⟩
  · rw [Utf8.encode_of_ascii (fun c hc => (h c hc).1)]
    intro hmem
    obtain ⟨c, hc, heq⟩ := List.mem_map.mp hmem
    have hvalue : c.toNat = 10 := by
      have hnat := congrArg UInt8.toNat heq
      rw [UInt8.toNat_ofNat_of_lt' (lt_trans (h c hc).1 (by decide))] at hnat
      exact hnat
    exact (h c hc).2 (Char.toNat_inj.mp hvalue)
  · rw [List.length_append, h.length_encode]
    exact Nat.succ_le_succ hlen

section

variable {lower : LowerCase}

/-- A header line with a name of ASCII letters and hyphens. -/
theorem addHeader_headerText {name : Str} (value : Str)
    (hall : name.all (fun c => decide (c.toNat < 128) && c != ':' && !Text.isSpace c) = true)
    (headers : Dict Str Str) :
    addHeader lower headers (Utf8.encode (headerText name value)) =
      headers.insert (name.map Char.toLower) (Text.strip (' ' :: value ++ "\r\n".toList)) := by
  have hname : ∀ c ∈ name, c ≠ ':' ∧ Text.isSpace c = false := fun c hc => by
    have hc := List.all_eq_true.mp hall c hc
    simp at hc
    exact ⟨hc.1.2, hc.2⟩
  have hlow : lower.apply name = name.map Char.toLower := lower.apply_of_ascii (fun c hc => by
    have hc := List.all_eq_true.mp hall c hc
    simp at hc
    exact hc.1.1)
  have htext : headerText name value = name ++ ':' :: (' ' :: value ++ "\r\n".toList) := by
    simp [headerText]
  have hcolon : (58 : UInt8) ∈ Utf8.encode (headerText name value) := by
    have hone : Utf8.encode [':'] = [58] := by decide
    rw [htext, encode_append, ← List.singleton_append, encode_append, hone]
    simp
  have htake : (name ++ ':' :: (' ' :: value ++ "\r\n".toList)).takeWhile (· ≠ ':') = name := by
    rw [List.takeWhile_append_of_pos (fun c hc => decide_eq_true (hname c hc).1)]
    simp
  have hdrop : (name ++ ':' :: (' ' :: value ++ "\r\n".toList)).dropWhile (· ≠ ':') =
      ':' :: (' ' :: value ++ "\r\n".toList) := by
    rw [List.dropWhile_append_of_pos (fun c hc => decide_eq_true (hname c hc).1)]
    simp
  rw [addHeader, if_pos hcolon, Utf8.decodeReplace_encode, htext, Text.splitOnce, htake, hdrop]
  dsimp only
  rw [Text.strip_of_noSpace (fun c hc => (hname c hc).2), hlow]
  rfl

/-- The headers of an answer name the length of its body. -/
theorem bodyLength_reply {reply : Reply} (h : reply.Plain) (close : Bool) :
    bodyLength (((replyHeaders reply close).map (fun h => Utf8.encode (headerText h.1 h.2))).foldl
      (addHeader lower) .empty) = some (reply.body.length : ℤ) := by
  have hvalue : Text.strip (' ' :: Nat.toDigits 10 reply.body.length ++ "\r\n".toList) =
      Nat.toDigits 10 reply.body.length := by
    have hblank : ∀ c ∈ [' '], Text.isSpace c = true := by simp; decide
    have hend : ∀ c ∈ "\r\n".toList, Text.isSpace c = true := by simp; decide
    exact Text.strip_append hblank Decimal.isSpace_toDigits hend
  have hget : (((replyHeaders reply close).map (fun h => Utf8.encode (headerText h.1 h.2))).foldl
      (addHeader lower) .empty).get? "content-length".toList =
      some (Nat.toDigits 10 reply.body.length) := by
    simp only [replyHeaders, List.map_cons, List.map_nil, List.foldl_cons, List.foldl_nil]
    rw [addHeader_headerText _ (by decide), addHeader_headerText _ (by decide),
      addHeader_headerText _ (by decide), addHeader_headerText _ (by decide)]
    simp only [Dict.get?_insert, hvalue]
    rw [if_neg (by decide), if_neg (by decide), if_pos (by decide)]
  rw [bodyLength, hget]
  exact Decimal.int_toDigits (h.length.trans (by decide))

/-- The lines of an answer are lines, none of them empty. -/
theorem lines_reply {reply : Reply} (h : reply.Plain) (close : Bool) :
    ∀ hl ∈ (replyHeaders reply close).map (fun h => Utf8.encode (headerText h.1 h.2)),
      Ends 10 hl ∧ hl.length ≤ streamLimit + 1 ∧ endsHeaders hl = false := by
  intro hl hmem
  obtain ⟨⟨name, value⟩, hpair, rfl⟩ := List.mem_map.mp hmem
  -- the four headers in turn
  have hparts : OneLine name ∧ OneLine value ∧ 2 < name.length ∧ name.length ≤ 20 ∧
      value.length ≤ 1000 := by
    have hcache : (cacheControl reply.ct).length ≤ 1000 := by
      unfold cacheControl
      split
      · decide
      · split <;> decide
    have hclose : OneLine (if close then "close".toList else "keep-alive".toList) ∧
        (if close then "close".toList else "keep-alive".toList).length ≤ 1000 := by
      cases close
      · exact ⟨.of_all (by decide), by decide⟩
      · exact ⟨.of_all (by decide), by decide⟩
    simp only [replyHeaders, List.mem_cons, Prod.mk.injEq, List.not_mem_nil, or_false] at hpair
    rcases hpair with ⟨rfl, rfl⟩ | ⟨rfl, rfl⟩ | ⟨rfl, rfl⟩ | ⟨rfl, rfl⟩
    · exact ⟨.of_all (by decide), h.ct, by decide, by decide, h.short⟩
    · exact ⟨.of_all (by decide), oneLine_toDigits _, by decide, by decide, h.length⟩
    · exact ⟨.of_all (by decide), oneLine_cacheControl _, by decide, by decide, hcache⟩
    · exact ⟨.of_all (by decide), hclose.1, by decide, by decide, hclose.2⟩
  obtain ⟨hname, hvalue, hlong, hshort, hlen⟩ := hparts
  have htext : headerText name value = (name ++ ": ".toList ++ value ++ ['\r']) ++ ['\n'] := by
    simp [headerText]
  have hcolon : OneLine ": ".toList := .of_all (by decide)
  have hcr : OneLine ['\r'] := .of_all (by decide)
  have hline := ((hname.append hcolon).append hvalue).append hcr
  have hsize : (name ++ ": ".toList ++ value ++ ['\r']).length = name.length + value.length + 3 := by
    simp
    omega
  have hfits : (name ++ ": ".toList ++ value ++ ['\r']).length ≤ streamLimit := by
    rw [hsize]
    exact le_trans (by omega : name.length + value.length + 3 ≤ 2000) (by decide)
  obtain ⟨hends, hlimit⟩ := hline.ends hfits
  rw [htext]
  refine ⟨hends, hlimit, ?_⟩
  have hbytes : 2 < (Utf8.encode (name ++ ": ".toList ++ value ++ ['\r'] ++ ['\n'])).length := by
    rw [encode_append, List.length_append, hline.length_encode, hsize]
    omega
  rw [endsHeaders, Bool.or_eq_false_iff, Bool.or_eq_false_iff, decide_eq_false_iff_not,
    decide_eq_false_iff_not, decide_eq_false_iff_not]
  refine ⟨⟨?_, ?_⟩, ?_⟩
  all_goals
    intro heq
    rw [heq] at hbytes
    exact absurd hbytes (by decide)

/-- **An answer is read as it was written.** -/
theorem readReply_writeReply {reply : Reply} (h : reply.Plain) (close : Bool) {r : Incoming UInt8}
    {rest : Bytes} (hr : r.Holds (writeReply reply close ++ rest)) :
    ∃ r', readReply lower r = some ((Utf8.encode (statusText reply), reply.body), r') ∧
      r'.Holds rest := by
  have htext : statusText reply =
      ("HTTP/1.1 ".toList ++ Nat.toDigits 10 reply.status ++ " OK\r".toList) ++ ['\n'] := by
    have hend : " OK\r\n".toList = " OK\r".toList ++ ['\n'] := by decide
    unfold statusText
    rw [hend]
    exact (List.append_assoc ("HTTP/1.1 ".toList ++ Nat.toDigits 10 reply.status) _ _).symm
  have hversion : OneLine "HTTP/1.1 ".toList := .of_all (by decide)
  have hok : OneLine " OK\r".toList := .of_all (by decide)
  have hline := (hversion.append (oneLine_toDigits reply.status)).append hok
  have hsize : ("HTTP/1.1 ".toList ++ Nat.toDigits 10 reply.status ++ " OK\r".toList).length =
      (Nat.toDigits 10 reply.status).length + 13 := by
    simp
  have hstatus := h.status
  have hfits : ("HTTP/1.1 ".toList ++ Nat.toDigits 10 reply.status ++ " OK\r".toList).length ≤
      streamLimit := by
    rw [hsize]
    exact le_trans (by omega : (Nat.toDigits 10 reply.status).length + 13 ≤ 2000) (by decide)
  obtain ⟨hends, hlimit⟩ := hline.ends hfits
  rw [← htext] at hends hlimit
  have hsplit : r.Holds (Utf8.encode (statusText reply) ++
      (((replyHeaders reply close).map (fun h => Utf8.encode (headerText h.1 h.2))).flatten ++ crlf ++
        (reply.body ++ rest))) := by
    simpa only [writeReply, List.append_assoc] using hr
  obtain ⟨r₁, hread, hrest₁⟩ := hsplit.readLine streamLimit hends hlimit
  obtain ⟨r₂, hheaders, hrest₂⟩ : ∃ r₂, readHeaders lower .empty r₁ =
      some (((replyHeaders reply close).map (fun h => Utf8.encode (headerText h.1 h.2))).foldl
        (addHeader lower) .empty, r₂) ∧ r₂.Holds (reply.body ++ rest) :=
    readHeaders_lines (lines_reply h close) .empty hrest₁
  obtain ⟨r₃, hbody, hrest₃⟩ := hrest₂.readExactly
  refine ⟨r₃, ?_, hrest₃⟩
  cases henc : Utf8.encode (statusText reply) with
  | nil =>
    obtain ⟨l, hl, -⟩ := hends
    rw [henc] at hl
    exact absurd hl.symm (by simp)
  | cons b line =>
    rw [henc] at hread
    simp only [readReply, hread, hheaders, bodyLength_reply h close, Int.toNat_natCast, hbody]

/-- All answers are read as they were written. -/
theorem readReplies_written {replies : List (Reply × Bool)} (h : ∀ p ∈ replies, p.1.Plain)
    {r : Incoming UInt8} (hr : r.Holds (written replies)) :
    readReplies lower r = replies.map (fun p => (Utf8.encode (statusText p.1), p.1.body)) := by
  induction replies generalizing r with
  | nil =>
    obtain ⟨r', hline⟩ := hr.readLine_nil streamLimit 10
    have hnone : readReply lower r = none := by
      rw [readReply, hline]
    rw [readReplies]
    split
    · rfl
    · next hsome =>
      rw [hnone] at hsome
      cases hsome
  | cons p replies ih =>
    obtain ⟨hp, hrest⟩ := List.forall_mem_cons.mp h
    rw [written, List.map_cons, List.flatten_cons] at hr
    obtain ⟨r', hread, hmore⟩ : ∃ r', readReply lower r =
        some ((Utf8.encode (statusText p.1), p.1.body), r') ∧ r'.Holds (written replies) :=
      readReply_writeReply hp p.2 hr
    rw [readReplies]
    split
    · next hnone =>
      rw [hread] at hnone
      cases hnone
    · next hsome =>
      rw [hread] at hsome
      cases hsome
      rw [ih hrest hmore]
      rfl

variable {upper : Str → Str} {σ : Type} {route : σ → WebRequest → σ × Option Reply}

/-- The answers are those of the handlers. -/
theorem plain_answers (hroute : ∀ s q s' reply, route s q = (s', some reply) → reply.Plain) (s : σ)
    (reqs : List SentRequest) : ∀ p ∈ (answers lower upper route s reqs).2, p.1.Plain := by
  induction reqs generalizing s with
  | nil => simp [answers]
  | cons q reqs ih =>
    rw [answers]
    dsimp only
    split
    · simp
    · next s' reply hreply =>
      have hplain := hroute _ _ _ _ hreply
      split
      · simpa using hplain
      · intro p hp
        rcases List.mem_cons.mp hp with rfl | hp
        · exact hplain
        · exact ih s' p hp

/-- **The browser reads the answers to its requests**, in their order, however the bytes arrive in
either direction; and a body is never taken for a request. -/
theorem readReplies_serve (hroute : ∀ s q s' reply, route s q = (s', some reply) → reply.Plain)
    {reqs : List SentRequest} (h : ∀ q ∈ reqs, q.Proper lower) (s : σ) {r out : Incoming UInt8}
    (hr : r.Holds (reqs.map SentRequest.text).flatten)
    (hout : out.Holds (serve lower upper route s r).2) :
    (serve lower upper route s r).1 = (answers lower upper route s reqs).1 ∧
      readReplies lower out = (answers lower upper route s reqs).2.map
        (fun p => (Utf8.encode (statusText p.1), p.1.body)) := by
  have heq : serve lower upper route s r = ((answers lower upper route s reqs).1,
      written (answers lower upper route s reqs).2) := serve_eq h s hr
  rw [heq] at hout
  exact ⟨by rw [heq], readReplies_written (plain_answers hroute s reqs) hout⟩

/-- Two requests one behind the other, the body of the second with the text of a third. -/
def pipelined : List SentRequest :=
  [⟨ascii "GET", ascii "/", [], []⟩,
    ⟨ascii "POST", ascii "/api", [ascii "Content-Length: 14\r\n"], ascii "GET / HTTP/1.1"⟩]

/-- Handlers that count the requests. -/
def countRequests (n : ℕ) (_ : WebRequest) : ℕ × Option Reply :=
  (n + 1, some ⟨ascii "ok", 200, "text/plain".toList⟩)

theorem readReplies_serve_pipelined :
    (serve asciiLowerCase id countRequests 0
      ⟨(pipelined.map SentRequest.text).flatten, [], true⟩).1 = 2 ∧
    readReplies asciiLowerCase ⟨(serve asciiLowerCase id countRequests 0
      ⟨(pipelined.map SentRequest.text).flatten, [], true⟩).2, [], true⟩ =
        List.replicate 2 (ascii "HTTP/1.1 200 OK\r\n", ascii "ok") := by
  have hword : ∀ w : Bytes, w ≠ [] → w.all (fun b => !isSpace b) = true → (decode w).isSome = true →
      w ≠ [] ∧ (∀ b ∈ w, isSpace b = false) ∧ (decode w).isSome = true := fun w hne hall hsome =>
    ⟨hne, fun b hb => by simpa using List.all_eq_true.mp hall b hb, hsome⟩
  have hproper : ∀ q ∈ pipelined, q.Proper asciiLowerCase := by
    intro q hq
    rcases List.mem_pair.mp hq with rfl | rfl
    · exact ⟨hword _ (by decide) rfl rfl, hword _ (by decide) rfl rfl, by decide,
        fun _ h => absurd h List.not_mem_nil, by decide⟩
    · refine ⟨hword _ (by decide) rfl rfl, hword _ (by decide) rfl rfl, by decide,
        List.forall_mem_singleton.mpr ⟨?_, ?_⟩, by decide⟩
      · exact ⟨ascii "Content-Length: 14\r", rfl, by decide⟩
      · decide
  have hplain : ∀ s q s' reply, countRequests s q = (s', some reply) → reply.Plain := by
    rintro s q s' reply ⟨⟩
    exact ⟨.of_all (by decide), by decide, by decide, by decide⟩
  have hanswers : answers asciiLowerCase id countRequests 0 pipelined =
      (2, List.replicate 2 (⟨ascii "ok", 200, "text/plain".toList⟩, false)) := rfl
  obtain ⟨hstate, hreplies⟩ := readReplies_serve hplain hproper 0
    (Incoming.holds_buf (pipelined.map SentRequest.text).flatten) (Incoming.holds_buf (serve _ id _ _ _).2)
  rw [hanswers] at hstate hreplies
  exact ⟨hstate, hreplies⟩

end

end HuntProxy.Web
