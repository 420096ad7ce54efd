import HuntProxy.Lib.Incoming
import HuntProxy.Lib.Split
import HuntProxy.Lib.Text
import HuntProxy.Proxy.Socks5

/-!
# Tunnels through HTTP proxies

`http_connect` asks a proxy for a tunnel and reads the head of the response. It asks a second
time when the proxy is busy, or wants a login that has been sent, after the body of the
response has been read. Whether there is a tunnel is decided by a search for `200` anywhere in
the status line, and everything else by the status code.

What arrives, and which waits run out, is given; there is no write error. Lower case letters
and numbers in texts are functions of the standard library.

## Main definitions

- `statusCodeFromLine`, `drainResponseBody`, `httpConnect` — the source's functions
- `responseHeads` — the heads that a proxy sends
- `Truthful` — the heads whose status line tells what the code does
- `ConnectPromise` — what is promised about a call

## Main results

- `connectLoop_bounds` — the requests, and how a call can end
- `http_connect_iff` — when a call ends with `True` exactly for the status code 200
-/

namespace HuntProxy.HttpConnect

open Ip (Str)
open Socks5 (ClientEnd)
open Utf8 (encode decodeReplace)

/-! ### Numbers and texts -/

/-- The words of a line, `bytes.split`. -/
def words (line : Bytes) : List Bytes := (line.splitOnP isSpace).filter (· ≠ [])

/-- `_status_code_from_line`. -/
def statusCodeFromLine (line : Bytes) : ℤ := ((words line)[1]?.bind pyInt).getD 0

/-- The value of a hexadecimal digit. -/
def hexDigit (b : UInt8) : Option ℕ :=
  if 48 ≤ b ∧ b ≤ 57 then some (b.toNat - 48)
  else if 97 ≤ b ∧ b ≤ 102 then some (b.toNat - 87)
  else if 65 ≤ b ∧ b ≤ 70 then some (b.toNat - 55)
  else none

/-- The digits of a hexadecimal literal; `afterDigit` says that an underscore may follow. -/
def hexDigits (afterDigit : Bool) : Bytes → Option (List ℕ)
  | [] => if afterDigit then some [] else none
  | b :: rest =>
    match hexDigit b with
    | some d => (hexDigits true rest).map (d :: ·)
    | none => if b = 95 ∧ afterDigit = true then hexDigits false rest else none

/-- A literal without a sign, which may begin with `0x`, and then with an underscore. -/
def hexValue (l : Bytes) : Option ℕ :=
  let digits :=
    match l with
    | 48 :: 120 :: 95 :: rest => hexDigits false rest
    | 48 :: 88 :: 95 :: rest => hexDigits false rest
    | 48 :: 120 :: rest => hexDigits false rest
    | 48 :: 88 :: rest => hexDigits false rest
    | l => hexDigits false l
  digits.map (fun ds => ds.foldl (fun n d => 16 * n + d) 0)

/-- `int(l, 16)`. -/
def intHex (l : Bytes) : Option ℤ :=
  match strip l with
  | 45 :: rest => (hexValue rest).map (fun n => -(n : ℤ))
  | 43 :: rest => (hexValue rest).map (fun n => (n : ℤ))
  | rest => (hexValue rest).map (fun n => (n : ℤ))

/-- A letter of the alphabet of `base64.b64encode`. -/
def base64Letter (n : ℕ) : Char :=
  "ABCDEFGHIJKLMNOPQRSTUVWXYZabcdefghijklmnopqrstuvwxyz0123456789+/".toList.getD n '='

/-- `base64.b64encode`. -/
def b64encode : Bytes → Str
  | a :: b :: c :: rest =>
    let n := a.toNat * 65536 + b.toNat * 256 + c.toNat
    base64Letter (n / 262144) :: base64Letter (n / 4096 % 64) :: base64Letter (n / 64 % 64) ::
      base64Letter (n % 64) :: b64encode rest
  | [a, b] =>
    let n := a.toNat * 65536 + b.toNat * 256
    [base64Letter (n / 262144), base64Letter (n / 4096 % 64), base64Letter (n / 64 % 64), '=']
  | [a] =>
    let n := a.toNat * 65536
    [base64Letter (n / 262144), base64Letter (n / 4096 % 64), '=', '=']
  | [] => []

/-- `base_req`. -/
def connectRequest (host : Str) (port : ℤ) (username password : Str) : Bytes :=
  let target := host ++ ":".toList ++ (toString port).toList
  let login :=
    if username = [] then []
    else
      "Proxy-Authorization: Basic ".toList ++
        b64encode (encode (username ++ ":".toList ++ password)) ++ "\r\n".toList
  encode ("CONNECT ".toList ++ target ++ " HTTP/1.1\r\nHost: ".toList ++ target ++
    "\r\n".toList ++ login ++ "\r\n".toList)

/-! ### Responses -/

/-- `resp.split(b"\r\n")[0]`. -/
def statusLine (resp : Bytes) : Bytes :=
  match readThrough crlf resp with
  | none => resp
  | some (piece, _) => piece.take (piece.length - 2)

/-- `b"200" in status_line`. -/
def names200 (resp : Bytes) : Bool := ascii "200" <:+: statusLine resp

/-- The status code of a response. -/
def statusCode (resp : Bytes) : ℤ := statusCodeFromLine (statusLine resp)

/-- `_TRANSIENT_STATUSES`. -/
def transientStatuses : List ℤ := [429, 502, 503, 504]

/-- `_HTTP_CONNECT_RETRIES`. -/
def httpConnectRetries : ℕ := 2

/-- The limit of a stream reader. -/
def streamLimit : ℕ := 65536

/-- The loop over the chunks of a body. -/
def drainChunks (r : Incoming UInt8) : Incoming UInt8 :=
  match _hline : r.readLine streamLimit [10] with
  | (.error _, r) => r
  | (.ok line, r') =>
    match _hsize : intHex (strip line) with
    | none => r'
    | some n =>
      if n = 0 then (r'.readLine streamLimit [10]).2
      -- a read of a negative number of bytes raises
      else if n + 2 < 0 then r'
      else
        match _hchunk : r'.readExactly (n + 2).toNat with
        | (.error _, r) => r
        | (.ok _, r) => drainChunks r
termination_by r.size
decreasing_by
  have hread := Incoming.readLine_size _hline
  have hexact := Incoming.readExactly_size _hchunk
  have hne : line ≠ [] := by
    rintro rfl
    cases _hsize
  have hpos := List.length_pos_iff.mpr hne
  omega

section

variable (lower : Str → Str) (intOfText : Str → Option ℤ)

/-- The value of the first `Content-Length` of a header: none, a text that is no number, or a
number. -/
def contentLength (header : Str) : Option (Option ℤ) :=
  ((splitPair '\r' '\n' header).find?
      (fun line => "content-length:".toList.isPrefixOf (lower line))).map
    (fun line => intOfText (Text.strip (Text.splitOnce ':' line).2))

/-- `_drain_response_body`. -/
def drainResponseBody (r : Incoming UInt8) (header : Bytes) : Incoming UInt8 :=
  let chunked := "transfer-encoding: chunked".toList <:+: lower (decodeReplace header)
  match contentLength lower intOfText (decodeReplace header) with
  -- a length that is no number raises, and the body is left where it is
  | some none => r
  | some (some n) =>
    if 0 < n then (r.readExactly n.toNat).2 else if chunked then drainChunks r else r
  | none => if chunked then drainChunks r else r

/-- The record of a call: the requests that have been written, the heads that have been read,
and whether a head could not be read. -/
structure ConnectLog where
  requests : List Bytes
  heads : List Bytes
  unread : Bool

/-- The loop of `http_connect`, with the number of attempts that are left. -/
def connectLoop (request : Bytes) (login raiseOnBroken : Bool) :
    ℕ → ConnectLog → Incoming UInt8 → ClientEnd × ConnectLog
  | 0, log, _ => (.returned false, log)
  | left + 1, log, r =>
    let log := { log with requests := log.requests ++ [request] }
    match r.readUntil streamLimit headEnd with
    | (.error _, _) =>
      (if raiseOnBroken then .raised else .returned false, { log with unread := true })
    | (.ok resp, r) =>
      let log := { log with heads := log.heads ++ [resp] }
      -- the code is looked at only when the line does not contain `200`
      if names200 resp then (.returned true, log)
      else if statusCode resp = 407 ∧ login = true then
        connectLoop request login raiseOnBroken left log
          (drainResponseBody lower intOfText r resp)
      else if statusCode resp ∈ transientStatuses ∧ 0 < left then
        connectLoop request login raiseOnBroken left log
          (drainResponseBody lower intOfText r resp)
      else (.returned false, log)

/-- `http_connect`. -/
def httpConnect (host : Str) (port : ℤ) (username password : Str) (raiseOnBroken : Bool)
    (r : Incoming UInt8) : ClientEnd × ConnectLog :=
  connectLoop lower intOfText (connectRequest host port username password)
    (username ≠ []) raiseOnBroken httpConnectRetries ⟨[], [], false⟩ r

end

section

variable (lower : Str → Str) (intOfText : Str → Option ℤ)

/-- The heads of the responses in what a proxy sends, when it is asked a number of times: there
is another one behind a response that leads to another request. -/
def responseHeads (login : Bool) : ℕ → Incoming UInt8 → List Bytes
  | 0, _ => []
  | left + 1, r =>
    match r.readUntil streamLimit headEnd with
    | (.error _, _) => []
    | (.ok resp, r) =>
      resp :: if (statusCode resp = 407 ∧ login = true) ∨
          (statusCode resp ∈ transientStatuses ∧ 0 < left) then
        responseHeads login left (drainResponseBody lower intOfText r resp)
      else []

end

/-- The status line of a head contains `200` exactly if the status code is 200. -/
def Truthful (resp : Bytes) : Prop := names200 resp = true ↔ statusCode resp = 200

/-- What is promised about a call: it returns `True` exactly if the last head has the status
code 200, it writes at most two requests, and it raises only if it is told to and a head could
not be read. -/
structure ConnectPromise (request : Bytes) (raiseOnBroken : Bool)
    (out : ClientEnd × ConnectLog) : Prop where
  succeeds : out.1 = .returned true ↔
    ∃ resp, out.2.heads.getLast? = some resp ∧ statusCode resp = 200
  requests : ∃ n ≤ 2, out.2.requests = List.replicate n request
  raises : out.1 = .raised → raiseOnBroken = true ∧ out.2.unread = true

section

variable {lower : Str → Str} {intOfText : Str → Option ℤ} {request : Bytes}
  {login raiseOnBroken : Bool}

/-- Every attempt writes one request, and an exception tells that a head could not be read. -/
theorem connectLoop_bounds (left : ℕ) (log : ConnectLog) (r : Incoming UInt8) :
    (∃ n ≤ left, (connectLoop lower intOfText request login raiseOnBroken left log r).2.requests =
      log.requests ++ List.replicate n request) ∧
    ((connectLoop lower intOfText request login raiseOnBroken left log r).1 = .raised →
      raiseOnBroken = true ∧
        (connectLoop lower intOfText request login raiseOnBroken left log r).2.unread = true) := by
  induction left generalizing log r with
  | zero => exact ⟨⟨0, le_refl 0, (List.append_nil _).symm⟩, fun h => (by cases h)⟩
  | succ left ih =>
    have hone : ∃ n ≤ left + 1, log.requests ++ [request] = log.requests ++ List.replicate n request :=
      ⟨1, by omega, rfl⟩
    have hmore (heads : List Bytes) (r : Incoming UInt8) :=
      ih ⟨log.requests ++ [request], heads, log.unread⟩ r
    have hgo (heads : List Bytes) (r : Incoming UInt8) :
        ∃ n ≤ left + 1,
          (connectLoop lower intOfText request login raiseOnBroken left
            ⟨log.requests ++ [request], heads, log.unread⟩ r).2.requests =
              log.requests ++ List.replicate n request := by
      obtain ⟨n, hn, heq⟩ := (hmore heads r).1
      refine ⟨n + 1, by omega, ?_⟩
      rw [heq, List.append_assoc, List.singleton_append, List.replicate_succ]
    unfold connectLoop
    dsimp only
    split
    · -- only a head that cannot be read makes it raise
      refine ⟨hone, fun h => ?_⟩
      cases raiseOnBroken with
      | true => exact ⟨rfl, rfl⟩
      | false => cases h
    · split
      · exact ⟨hone, fun h => (by cases h)⟩
      · split
        · exact ⟨hgo _ _, (hmore _ _).2⟩
        · split
          · exact ⟨hgo _ _, (hmore _ _).2⟩
          · exact ⟨hone, fun h => (by cases h)⟩

theorem statusCode_ne_of_transient {resp : Bytes} (h : statusCode resp ∈ transientStatuses) :
    statusCode resp ≠ 200 := by
  intro heq
  rw [heq] at h
  revert h
  decide

/-- A head with another status code, of which the status line says so. -/
def Refuses (resp : Bytes) : Prop := names200 resp = false ∧ statusCode resp ≠ 200

theorem Refuses.truthful {resp : Bytes} (h : Refuses resp) : Truthful resp := by
  unfold Truthful
  rw [h.1]
  exact ⟨fun h => (by cases h), fun hcode => absurd hcode h.2⟩

/-- An end is that of the last head, exactly if all heads are truthful. -/
def Judged (e : ClientEnd) (heads : List Bytes) : Prop :=
  (e = .returned true ↔ ∃ resp, heads.getLast? = some resp ∧ statusCode resp = 200) ↔
    ∀ resp ∈ heads, Truthful resp

/-- Nothing more has been read. -/
theorem judged_of_refuses {heads : List Bytes} (h : ∀ resp ∈ heads, Refuses resp) {e : ClientEnd}
    (he : e ≠ .returned true) : Judged e heads := by
  refine ⟨fun _ resp hresp => (h resp hresp).truthful, fun _ => ⟨fun heq => absurd heq he, ?_⟩⟩
  rintro ⟨resp, hlast, hcode⟩
  exact absurd hcode (h resp (List.mem_of_getLast? hlast)).2

theorem truthful_append {heads : List Bytes} (h : ∀ resp ∈ heads, Refuses resp) (resp : Bytes) :
    (∀ resp' ∈ heads ++ [resp], Truthful resp') ↔ Truthful resp := by
  rw [List.forall_mem_append, List.forall_mem_singleton]
  exact and_iff_right fun resp' hresp' => (h resp' hresp').truthful

theorem refuses_append {heads : List Bytes} (h : ∀ resp ∈ heads, Refuses resp) {resp : Bytes}
    (hresp : Refuses resp) : ∀ resp' ∈ heads ++ [resp], Refuses resp' :=
  List.forall_mem_append.mpr ⟨h, List.forall_mem_singleton.mpr hresp⟩

/-- The last head decides. -/
theorem judged_append {heads : List Bytes} (h : ∀ resp ∈ heads, Refuses resp) {e : ClientEnd}
    {resp : Bytes} (he : e = .returned true ↔ names200 resp = true) :
    Judged e (heads ++ [resp]) := by
  have hlast : (∃ resp', (heads ++ [resp]).getLast? = some resp' ∧ statusCode resp' = 200) ↔
      statusCode resp = 200 := by simp
  unfold Judged
  rw [hlast, he, truthful_append h]
  exact Iff.rfl

/-- The loop, after heads that have been understood. -/
theorem connectLoop_judged (left : ℕ) {log : ConnectLog} (hlog : ∀ resp ∈ log.heads, Refuses resp)
    (r : Incoming UInt8) :
    Judged (connectLoop lower intOfText request login raiseOnBroken left log r).1
      (connectLoop lower intOfText request login raiseOnBroken left log r).2.heads := by
  induction left generalizing log r with
  | zero => exact judged_of_refuses hlog (fun h => (by cases h))
  | succ left ih =>
    unfold connectLoop
    dsimp only
    split
    · refine judged_of_refuses hlog ?_
      cases raiseOnBroken with
      | true => exact fun h => (by cases h)
      | false => exact fun h => (by cases h)
    · next resp s _ =>
      split
      · next hnames => exact judged_append hlog ⟨fun _ => hnames, fun _ => rfl⟩
      · next hnames =>
        have hnames : names200 resp = false := by simpa using hnames
        split
        · next hlogin =>
          -- a login is wanted, and was sent; its code is not 200
          exact ih (refuses_append hlog ⟨hnames, by rw [hlogin.1]; decide⟩) _
        · split
          · next htransient =>
            exact ih (refuses_append hlog ⟨hnames, statusCode_ne_of_transient htransient.1⟩) _
          · refine judged_append hlog ⟨fun h => (by cases h), fun h => ?_⟩
            rw [hnames] at h
            cases h

/-- The heads that are read are those that the proxy sends, as long as they are truthful. -/
theorem connectLoop_truthful (left : ℕ) {log : ConnectLog} (hlog : ∀ resp ∈ log.heads, Refuses resp)
    (r : Incoming UInt8) :
    (∀ resp ∈ (connectLoop lower intOfText request login raiseOnBroken left log r).2.heads,
        Truthful resp) ↔
      ∀ resp ∈ responseHeads lower intOfText login left r, Truthful resp := by
  induction left generalizing log r with
  | zero =>
    exact ⟨fun _ resp hresp => (by cases hresp), fun _ resp hresp => (hlog resp hresp).truthful⟩
  | succ left ih =>
    unfold connectLoop responseHeads
    dsimp only
    split
    · exact ⟨fun _ resp hresp => (by cases hresp), fun _ resp hresp => (hlog resp hresp).truthful⟩
    · next resp s _ =>
      rw [List.forall_mem_cons]
      split
      · next hnames =>
        rw [truthful_append hlog]
        refine ⟨fun h => ⟨h, ?_⟩, And.left⟩
        -- no response with the status code 200 leads to another request
        have hcode := h.mp hnames
        rw [if_neg]
        · exact fun resp' hresp' => (by cases hresp')
        · rintro (⟨hlogin, -⟩ | ⟨htransient, -⟩)
          · rw [hcode] at hlogin
            cases hlogin
          · exact statusCode_ne_of_transient htransient hcode
      · next hnames =>
        have hnames : names200 resp = false := by simpa using hnames
        split
        · next hlogin =>
          have hrefuses : Refuses resp := ⟨hnames, by rw [hlogin.1]; decide⟩
          rw [if_pos (.inl hlogin), ih (refuses_append hlog hrefuses)]
          exact ⟨fun h => ⟨hrefuses.truthful, h⟩, And.right⟩
        · next hlogin =>
          split
          · next htransient =>
            have hrefuses : Refuses resp := ⟨hnames, statusCode_ne_of_transient htransient.1⟩
            rw [if_pos (.inr htransient), ih (refuses_append hlog hrefuses)]
            exact ⟨fun h => ⟨hrefuses.truthful, h⟩, And.right⟩
          · next htransient =>
            rw [if_neg (fun h => h.elim hlogin htransient), truthful_append hlog]
            exact ⟨fun h => ⟨h, fun resp' hresp' => (by cases hresp')⟩, And.left⟩

end

/-- **A tunnel is there exactly for the status code 200**, if and only if the status line of
every response head that the proxy sends contains `200` exactly if its status code is 200. -/
theorem http_connect_iff (lower : Str → Str) (intOfText : Str → Option ℤ) (host : Str) (port : ℤ)
    (username password : Str) (raiseOnBroken : Bool) (r : Incoming UInt8) :
    ConnectPromise (connectRequest host port username password) raiseOnBroken
        (httpConnect lower intOfText host port username password raiseOnBroken r) ↔
      ∀ resp ∈ responseHeads lower intOfText (username ≠ []) httpConnectRetries r,
        Truthful resp := by
  have hnone : ∀ resp ∈ (⟨[], [], false⟩ : ConnectLog).heads, Refuses resp :=
    fun resp hresp => (by cases hresp)
  have hjudged : Judged (httpConnect lower intOfText host port username password raiseOnBroken r).1
      (httpConnect lower intOfText host port username password raiseOnBroken r).2.heads :=
    connectLoop_judged httpConnectRetries hnone r
  have htruthful : (∀ resp ∈
      (httpConnect lower intOfText host port username password raiseOnBroken r).2.heads,
        Truthful resp) ↔ _ := connectLoop_truthful httpConnectRetries hnone r
  obtain ⟨hrequests, hraises⟩ := @connectLoop_bounds lower intOfText
    (connectRequest host port username password) (username ≠ []) raiseOnBroken httpConnectRetries
    ⟨[], [], false⟩ r
  rw [← htruthful]
  exact ⟨fun h => hjudged.mp h.succeeds, fun h => ⟨hjudged.mpr h, hrequests, hraises⟩⟩

/-- A proxy that could not connect, and says which answer it got. -/
def gatewayHead : Bytes := ascii "HTTP/1.1 502 upstream returned 200" ++ headEnd

/-- The reason phrase is taken for a success. -/
theorem reason_taken_for_status :
    ¬ ∀ (host : Str) (port : ℤ) (username password : Str) (raiseOnBroken : Bool)
      (r : Incoming UInt8),
      ConnectPromise (connectRequest host port username password) raiseOnBroken
        (httpConnect id Text.intOfText host port username password raiseOnBroken r) := by
  intro hall
  have hpromise := hall "example.org".toList 443 [] [] true ⟨gatewayHead, [], true⟩
  have hcall : (httpConnect id Text.intOfText "example.org".toList 443 [] [] true
      ⟨gatewayHead, [], true⟩).1 = .returned true ∧
      (httpConnect id Text.intOfText "example.org".toList 443 [] [] true
        ⟨gatewayHead, [], true⟩).2.heads = [gatewayHead] := by decide +kernel
  obtain ⟨resp, hlast, hcode⟩ := hpromise.succeeds.mp hcall.1
  rw [hcall.2, List.getLast?_singleton] at hlast
  cases hlast
  have hother : statusCode gatewayHead = 502 := by decide +kernel
  rw [hother] at hcode
  cases hcode

end HuntProxy.HttpConnect
