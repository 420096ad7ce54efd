import HuntProxy.Lib.Stream

/-!
# HTTP requests at the proxy

The parsing helpers of `proxy_http.py`, on byte lists: the header lines of a forwarded
request, whether they announce a body, the host and port they name, and the head that is
sent to the upstream. The text functions of the standard library that the proxy applies to
a target (`urlparse`, and `int` on decoded text) are parameters.

## Main definitions

- `Request` — a request with a body, as a client sends it
- `requestHasBody`, `parseForwardTarget`, `forwardHead`
- `readResponseHead` — the head of a response, when it is complete
-/

namespace HuntProxy

/-- A string of bytes. -/
abbrev Bytes := List UInt8

/-- The bytes of an ASCII text. -/
def ascii (s : String) : Bytes := s.toList.map (fun c => UInt8.ofNat c.toNat)

/-- `b"\r\n"`. -/
def crlf : Bytes := [13, 10]

/-- `b"\r\n\r\n"`. -/
def headEnd : Bytes := [13, 10, 13, 10]

/-- `bytes.lower`. -/
def lower (l : Bytes) : Bytes := l.map (fun b => if 65 ≤ b ∧ b ≤ 90 then b + 32 else b)

/-- The white space of `bytes.strip`. -/
def isSpace (b : UInt8) : Bool := b = 32 || (9 ≤ b && b ≤ 13)

/-- `bytes.strip`. -/
def strip (l : Bytes) : Bytes := ((l.dropWhile isSpace).reverse.dropWhile isSpace).reverse

/-- The digits of a literal of `int`: single underscores may stand between them. `afterDigit`
says that a digit has just been read. -/
def digits (afterDigit : Bool) : Bytes → Option (List ℕ)
  | [] => if afterDigit then some [] else none
  | b :: rest =>
    if 48 ≤ b ∧ b ≤ 57 then (digits true rest).map ((b.toNat - 48) :: ·)
    else if b = 95 ∧ afterDigit = true then digits false rest
    else none

/-- `int` on bytes. Literals of more than 4300 digits are refused. -/
def pyInt (l : Bytes) : Option ℤ :=
  let value (l : Bytes) : Option ℤ :=
    match digits false l with
    | none => none
    | some ds => if ds.length ≤ 4300 then some (ds.foldl (fun n d => 10 * n + d) 0) else none
  match strip l with
  | [] => none
  | b :: rest =>
    if b = 45 then (value rest).map (fun n => -n)
    else if b = 43 then value rest
    else value (b :: rest)

/-- What is behind the first colon of a header line. -/
def headerValue (h : Bytes) : Bytes := strip ((h.dropWhile (· ≠ 58)).drop 1)

/-- `_request_has_body`: the first header that is about a body decides. -/
def requestHasBody : List Bytes → Bool
  | [] => false
  | h :: rest =>
    if (ascii "content-length:").isPrefixOf (lower h) then
      if headerValue h = [] then false
      else
        match pyInt (headerValue h) with
        | some n => 0 < n
        | none => true
    else if (ascii "transfer-encoding:").isPrefixOf (lower h) then true
    else requestHasBody rest

/-- The `Host` header that `_read_http_headers` returns: the last one. -/
def hostHeader (headers : List Bytes) : Option Bytes :=
  headers.foldl
    (fun found h =>
      if (ascii "host:").isPrefixOf (lower h) then some (strip (h.drop 5)) else found) none

/-- What `urlparse` makes of a target; `port` is `none` when it is not a port. -/
structure UrlParts where
  hostname : Option Bytes
  port : Option (Option ℤ)
  path : Bytes
  query : Bytes

/-- The text functions of the standard library, on the bytes of the text. `urlparse` may
raise; `intOfText` is `int`. -/
structure TextLib where
  urlparse : Bytes → Option UrlParts
  intOfText : Bytes → Option ℤ

/-- `target.startswith("/")`. -/
def originForm (url : Bytes) : Bool := (ascii "/").isPrefixOf url

/-- `text.rsplit(":", 1)`, when there is a colon. -/
def rsplitHost (text : Bytes) : Option (Bytes × Bytes) :=
  if 58 ∈ text then
    some ((text.reverse.dropWhile (· ≠ 58)).tail.reverse, (text.reverse.takeWhile (· ≠ 58)).reverse)
  else none

/-- `_parse_forward_target`; `none` says that it raises. -/
def parseForwardTarget (lib : TextLib) (url : Bytes) (host : Option Bytes) : Option (Bytes × ℤ) :=
  if originForm url then
    match (host.bind rsplitHost) with
    | none => some (host.getD [], 80)
    | some (name, port) =>
      match lib.intOfText port with
      | none => some (host.getD [], 80)
      | some n => some (name, n)
  else
    match lib.urlparse url with
    | none => none
    | some parts =>
      match parts.port with
      | none => none
      | some port =>
        -- `parsed.port or 80`: a port of zero counts as missing
        some (parts.hostname.getD [], if port.getD 0 = 0 then 80 else port.getD 0)

/-- What `_forward_request` writes: `raw` upstreams get the target as it came. `none` says
that it raises before it has written anything. -/
def forwardHead (lib : TextLib) (method url : Bytes) (raw : Bool) (headers : List Bytes) :
    Option Bytes :=
  let head (target : Bytes) : Bytes :=
    method ++ ascii " " ++ target ++ ascii " HTTP/1.1" ++ crlf ++ headers.flatten ++ crlf
  if raw && !originForm url then some (head url)
  else
    match lib.urlparse url with
    | none => none
    | some parts =>
      let path := if parts.path = [] then ascii "/" else parts.path
      some (head (if parts.query = [] then path else path ++ ascii "?" ++ parts.query))

/-- The limit of `_RESPONSE_HEAD_CAP`, which is also that of `readuntil`. -/
def responseHeadCap : ℕ := 65536

/-- A line that ends the headers. -/
def isBlank (h : Bytes) : Bool := h = crlf || h = [10] || h = []

/-- A request with a body, as its client sends it. The request line has been read: `headers`
are the lines behind it, each with its line end. -/
structure Request where
  method : Bytes
  url : Bytes
  headers : List Bytes
  body : Bytes
  lines : ∀ h ∈ headers, Ends 10 h ∧ isBlank h = false
  body_ne : body ≠ []

namespace Request

/-- What the client sends after the request line. -/
def stream (req : Request) : Bytes := req.headers.flatten ++ crlf ++ req.body

/-- Everything an upstream has to receive. -/
def complete (req : Request) (lib : TextLib) (raw : Bool) : Option Bytes :=
  (forwardHead lib req.method req.url raw req.headers).map (· ++ req.body)

end Request

end HuntProxy
