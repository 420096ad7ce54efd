import HuntProxy.Lib.Dialog
import HuntProxy.Lib.Inet
import HuntProxy.Lib.Utf8
import HuntProxy.Proxy.Http

/-!
# The SOCKS5 handshake

`socks5_connect`, the client that the engine uses towards its upstreams, and the handshake of
`Socks5Runner`, as parties that exchange bytes. There is no timeout and no lost connection, and
`_connect_upstream` is a function of the destination.

## Main definitions

- `socks5Connect`, `handshake` — the client and the server
- `Destination` — the hosts that the client can ask for

## Main results

- `settles` — the run in which each party goes on as soon as it can
- `socks5_agree` — all runs
-/

namespace HuntProxy.Socks5

open Ip (Str)
open Utf8 (encode decodeReplace)

/-! ### The client -/

/-- `str.isdigit` of a character; the ASCII digits are digits. -/
structure DigitClass where
  isDigit : Char → Bool
  ascii : ∀ c, c.isDigit = true → isDigit c = true

/-- How `socks5_connect` ends. -/
inductive ClientEnd
  | returned (ok : Bool)
  | raised
  deriving DecidableEq, Repr

/-- `struct.pack(">H", port)`. -/
def packPort (port : ℕ) : Option Bytes :=
  if port < 65536 then some [UInt8.ofNat (port / 256), UInt8.ofNat (port % 256)] else none

/-- `struct.unpack(">H", ...)`. -/
def unpackPort (l : Bytes) : ℕ := (l.getD 0 0).toNat * 256 + (l.getD 1 0).toNat

/-- A text behind its length; `bytes` raises when the length is no byte. -/
def lengthPrefixed (raw : Bytes) : Option Bytes :=
  if raw.length < 256 then some (UInt8.ofNat raw.length :: raw) else none

/-- The request for a login. -/
def authRequest (username password : Str) : Option Bytes :=
  (lengthPrefixed (encode username)).bind fun u =>
    (lengthPrefixed (encode password)).map fun p => [1] ++ u ++ p

/-- `is_ip`. -/
def isIp (digits : DigitClass) (host : Str) : Bool :=
  host.all (fun c => digits.isDigit c || c = '.')

/-- The request for a destination. -/
def connectRequest (digits : DigitClass) (host : Str) (port : ℕ) : Option Bytes :=
  (if isIp digits host then (Ip.inetAton host).map ([5, 1, 0, 1] ++ ·)
    else (lengthPrefixed (encode host)).map ([5, 1, 0, 3] ++ ·)).bind fun req =>
      (packPort port).map (req ++ ·)

/-- What is made of an exception. -/
def broken (raiseOnBroken : Bool) : Party UInt8 ClientEnd :=
  .ret (if raiseOnBroken then .raised else .returned false)

/-- What follows the header of the reply. -/
def readBound (hdr : Bytes) : Party UInt8 ClientEnd :=
  if hdr.getD 1 0 ≠ 0 then .ret (.returned false)
  else
    -- the address of the upstream's socket is read and dropped
    match (hdr.getD 3 0).toNat with
    | 1 => .read (4 + 2) fun _ => .ret (.returned true)
    | 3 => .read 1 fun dl => .read ((dl.getD 0 0).toNat + 2) fun _ => .ret (.returned true)
    | 4 => .read (16 + 2) fun _ => .ret (.returned true)
    | _ => .ret (.returned false)

/-- The reply to the request for a destination. -/
def readReply : Party UInt8 ClientEnd := .read 4 readBound

/-- `socks5_connect`, when the server has let the client in. -/
def sendRequest (digits : DigitClass) (host : Str) (port : ℕ) (raiseOnBroken : Bool) :
    Party UInt8 ClientEnd :=
  match connectRequest digits host port with
  | none => broken raiseOnBroken
  | some req => .write req readReply

/-- `socks5_connect`, with the method that the server has chosen. -/
def authenticate (digits : DigitClass) (host : Str) (port : ℕ) (username password : Str)
    (raiseOnBroken : Bool) (resp : Bytes) : Party UInt8 ClientEnd :=
  if resp.getD 1 0 = 0xFF then .ret (.returned false)
  else if resp.getD 1 0 = 2 ∧ username ≠ [] then
    match authRequest username password with
    | none => broken raiseOnBroken
    | some auth => .write auth <| .read 2 fun authResp =>
      if authResp.getD 1 0 ≠ 0 then .ret (.returned false)
      else sendRequest digits host port raiseOnBroken
  else sendRequest digits host port raiseOnBroken

/-- `socks5_connect`. -/
def socks5Connect (digits : DigitClass) (host : Str) (port : ℕ) (username password : Str)
    (raiseOnBroken : Bool) : Party UInt8 ClientEnd :=
  .write (if username ≠ [] then [5, 2, 0, 2] else [5, 1, 0]) <|
    .read 2 (authenticate digits host port username password raiseOnBroken)

/-! ### The server -/

/-- The name of the upstream's socket: none, an address, or something else. -/
inductive Sockname
  | missing
  | tuple (ip : Str) (port : Fin 65536)
  | other

/-- How the handshake ends: the connection is closed, or relayed. -/
inductive ServerEnd
  | closed
  | noUpstream (host : Str) (port : ℕ)
  | tunnel (host : Str) (port : ℕ)
  deriving DecidableEq, Repr

/-- `bind_ip` and `bind_port`. -/
def bindAddr : Sockname → Str × Fin 65536
  | .tuple ip port => (ip, port)
  | _ => ("0.0.0.0".toList, 0)

/-- The reply for an upstream that has been connected. -/
def tunnelReply (sock : Sockname) : Bytes :=
  [5, 0, 0, 1] ++ ((Ip.inetAton (bindAddr sock).1).getD [0, 0, 0, 0] ++
    (packPort (bindAddr sock).2).getD [])

/-- The handshake from the port on. -/
def readPort (connectUpstream : Str → ℕ → Option Sockname) (targetHost : Str) :
    Party UInt8 ServerEnd :=
  .read 2 fun portBytes =>
    let targetPort := unpackPort portBytes
    match connectUpstream targetHost targetPort with
    | none => .write [5, 5] (.ret (.noUpstream targetHost targetPort))
    | some sock => .write (tunnelReply sock) (.ret (.tunnel targetHost targetPort))

/-- The handshake from the request on. -/
def readRequest (connectUpstream : Str → ℕ → Option Sockname) : Party UInt8 ServerEnd :=
  .read 4 fun hdr =>
    if hdr.getD 0 0 ≠ 5 ∨ hdr.getD 1 0 ≠ 1 then .write [5, 7] (.ret .closed)
    else
      match (hdr.getD 3 0).toNat with
      -- an IPv4 address, a name, or an IPv6 address
      | 1 => .read 4 fun addr => readPort connectUpstream (Ip.inetNtoa addr)
      | 3 => .read 1 fun dl => .read (dl.getD 0 0).toNat fun domain =>
        readPort connectUpstream (decodeReplace domain)
      | 4 => .read 16 fun addr => readPort connectUpstream (Ip.inetNtop6 addr)
      | _ => .write [5, 8] (.ret .closed)

/-- `_handle`, up to the relay. -/
def handshake (connectUpstream : Str → ℕ → Option Sockname) : Party UInt8 ServerEnd :=
  .read 1 fun ver =>
    if ver.getD 0 0 ≠ 5 then .ret .closed
    -- whatever methods the client offers, it is let in without a login
    else .read 1 fun nmethods => .read (nmethods.getD 0 0).toNat fun _ =>
      .write [5, 0] (readRequest connectUpstream)

/-! ### Destinations -/

/-- A canonical IPv4 address, or a name of one to 255 bytes that has something else than digits and
dots. -/
def Destination (digits : DigitClass) (host : Str) : Prop :=
  (∃ n < 2 ^ 32, host = Ip.text4 n) ∨
    (1 ≤ (encode host).length ∧ (encode host).length ≤ 255 ∧
      ¬ ∀ c ∈ host, digits.isDigit c = true ∨ c = '.')

section

variable {digits : DigitClass} {host : Str} {port : ℕ} {connectUpstream : Str → ℕ → Option Sockname}
  {sock : Sockname}

theorem packPort_eq (hport : port < 65536) :
    packPort port = some [UInt8.ofNat (port / 256), UInt8.ofNat (port % 256)] := if_pos hport

/-- A port that has been packed is unpacked. -/
theorem unpackPort_pack (hport : port < 65536) :
    unpackPort [UInt8.ofNat (port / 256), UInt8.ofNat (port % 256)] = port := by
  have hhigh : (UInt8.ofNat (port / 256)).toNat = port / 256 :=
    UInt8.toNat_ofNat_of_lt' (show port / 256 < 256 by omega)
  have hlow : (UInt8.ofNat (port % 256)).toNat = port % 256 :=
    UInt8.toNat_ofNat_of_lt' (show port % 256 < 256 by omega)
  change (UInt8.ofNat (port / 256)).toNat * 256 + (UInt8.ofNat (port % 256)).toNat = port
  rw [hhigh, hlow]
  omega

/-- The reply has the length that the client expects. -/
theorem tunnelReply_eq (sock : Sockname) :
    ∃ l : Bytes, tunnelReply sock = [5, 0, 0, 1] ++ l ∧ l.length = 4 + 2 := by
  refine ⟨_, rfl, ?_⟩
  rw [List.length_append, packPort_eq (bindAddr sock).2.isLt]
  have haddr : ((Ip.inetAton (bindAddr sock).1).getD [0, 0, 0, 0]).length = 4 := by
    unfold Ip.inetAton
    cases (((((bindAddr sock).1.takeWhile (fun c => !Ip.isCSpace c)).splitOn '.').mapM
      Ip.cNumber).bind Ip.ofParts) with
    | none => rfl
    | some n => exact Ip.length_octets n
  rw [haddr]
  rfl

/-- The client takes the reply, and nothing behind it. -/
theorem readReply_settles {b : ServerEnd} {l : Bytes} (hlen : l.length = 4 + 2) :
    Settles (ClientEnd.returned true) [] b [] 2 readReply ([5, 0, 0, 1] ++ l) (.ret b) [] := by
  have hbound : readBound [5, 0, 0, 1] = .read (4 + 2) fun _ => .ret (.returned true) := rfl
  refine .readLeft_append rfl ?_
  rw [hbound]
  exact .readLeft_all hlen .done

/-- The upstream is connected when the port has been read. -/
theorem readPort_settles (hport : port < 65536) (hup : connectUpstream host port = some sock) :
    ∃ n, Settles (ClientEnd.returned true) [] (ServerEnd.tunnel host port) [] n readReply []
      (readPort connectUpstream host) [UInt8.ofNat (port / 256), UInt8.ofNat (port % 256)] := by
  obtain ⟨l, hreply, hlen⟩ := tunnelReply_eq sock
  refine ⟨2 + (tunnelReply sock).length + 1 + 1, .readRight_all rfl ?_⟩
  dsimp only
  rw [unpackPort_pack hport, hup]
  refine .writeRight ?_
  rw [List.nil_append, hreply]
  exact readReply_settles hlen

/-- The server obtains the destination that the client asks for. -/
theorem readRequest_settles (hhost : Destination digits host) (hport : port < 65536)
    (hup : connectUpstream host port = some sock) :
    ∃ n req, connectRequest digits host port = some req ∧
      Settles (ClientEnd.returned true) [] (ServerEnd.tunnel host port) [] n readReply []
        (readRequest connectUpstream) req := by
  obtain ⟨n, hread⟩ := readPort_settles hport hup
  rcases hhost with ⟨addr, haddr, rfl⟩ | ⟨hpos, hlen, hname⟩
  · have hip : isIp digits (Ip.text4 addr) = true := by
      refine List.all_eq_true.mpr (fun c hc => ?_)
      rcases Ip.mem_text4 hc with rfl | hdigit
      · exact Bool.or_true _
      · rw [digits.ascii c hdigit, Bool.true_or]
    refine ⟨n + 1 + 1, [5, 1, 0, 1] ++ (Ip.octets addr ++
      [UInt8.ofNat (port / 256), UInt8.ofNat (port % 256)]), ?_, ?_⟩
    · rw [connectRequest, if_pos hip, Ip.inetAton_text4 haddr, packPort_eq hport]
      rfl
    · refine .readRight_append rfl ?_
      change Settles _ _ _ _ _ _ _ (.read 4 fun a => readPort connectUpstream (Ip.inetNtoa a)) _
      refine .readRight_append (Ip.length_octets addr) ?_
      rwa [Ip.inetNtoa_octets]
  · have hip : ¬ isIp digits host = true := by
      intro hall
      refine hname (fun c hc => ?_)
      simpa using List.all_eq_true.mp hall c hc
    have hbyte : (UInt8.ofNat (encode host).length).toNat = (encode host).length :=
      UInt8.toNat_ofNat_of_lt' (show (encode host).length < 256 by omega)
    refine ⟨n + 1 + 1 + 1, [5, 1, 0, 3] ++ ([UInt8.ofNat (encode host).length] ++ (encode host ++
      [UInt8.ofNat (port / 256), UInt8.ofNat (port % 256)])), ?_, ?_⟩
    · rw [connectRequest, if_neg hip, lengthPrefixed, if_pos (by omega), packPort_eq hport]
      rfl
    · refine .readRight_append rfl ?_
      change Settles _ _ _ _ _ _ _ (.read 1 fun dl => .read (dl.getD 0 0).toNat fun domain =>
        readPort connectUpstream (decodeReplace domain)) _
      refine .readRight_append rfl (.readRight_append hbyte.symm ?_)
      rwa [Utf8.decodeReplace_encode]

/-- The server takes the greeting, and answers it. -/
theorem handshake_settles {a : ClientEnd} {b : ServerEnd} {n : ℕ} {p : Party UInt8 ClientEnd}
    {methods : Bytes} (hlen : methods.length < 256)
    (h : Settles a [] b [] n p [] (.write [5, 0] (readRequest connectUpstream)) []) :
    Settles a [] b [] (n + 1 + 1 + 1) p [] (handshake connectUpstream)
      ([5] ++ ([UInt8.ofNat methods.length] ++ methods)) := by
  have hbyte : (UInt8.ofNat methods.length).toNat = methods.length := UInt8.toNat_ofNat_of_lt' hlen
  have hversion : ¬ ([5] : Bytes).getD 0 0 ≠ 5 := by decide
  refine .readRight_append rfl ?_
  rw [if_neg hversion]
  exact .readRight_append rfl (.readRight_all hbyte.symm h)

/-- **The run in which each party goes on as soon as it can.** -/
theorem settles (hhost : Destination digits host) (hport : port < 65536)
    (hup : connectUpstream host port = some sock) (username password : Str) (raiseOnBroken : Bool) :
    ∃ n, Settles (ClientEnd.returned true) [] (ServerEnd.tunnel host port) [] n
      (socks5Connect digits host port username password raiseOnBroken) []
      (handshake connectUpstream) [] := by
  obtain ⟨n, req, hreq, hread⟩ := readRequest_settles hhost hport hup
  have hsend : Settles (ClientEnd.returned true) [] (ServerEnd.tunnel host port) []
      (n + req.length + 1) (sendRequest digits host port raiseOnBroken) []
      (readRequest connectUpstream) [] := by
    rw [sendRequest, hreq]
    exact .writeLeft hread
  -- the server lets the client in without a login
  have hlogin : authenticate digits host port username password raiseOnBroken [5, 0] =
      sendRequest digits host port raiseOnBroken := by
    rw [authenticate, if_neg (by decide), if_neg (fun h => absurd h.1 (by decide))]
  have hmethod : Settles (ClientEnd.returned true) [] (ServerEnd.tunnel host port) []
      (n + req.length + 1 + 1)
      (.read 2 (authenticate digits host port username password raiseOnBroken)) [5, 0]
      (readRequest connectUpstream) [] := .readLeft_all rfl (by rwa [hlogin])
  have hgreet := handshake_settles
    (show (if username ≠ [] then [0, 2] else [0] : Bytes).length < 256 by split <;> decide)
    (.writeRight hmethod)
  have hbytes : (if username ≠ [] then [5, 2, 0, 2] else [5, 1, 0] : Bytes) =
      [5] ++ ([UInt8.ofNat (if username ≠ [] then [0, 2] else [0] : Bytes).length] ++
        if username ≠ [] then [0, 2] else [0]) := by
    split <;> rfl
  rw [← hbytes] at hgreet
  exact ⟨_, .writeLeft hgreet⟩

/-- **Client and server agree**, over all segments and orders of steps. -/
theorem socks5_agree (digits : DigitClass) (host : Str) (port : ℕ) (username password : Str)
    (raiseOnBroken : Bool) (connectUpstream : Str → ℕ → Option Sockname) (sock : Sockname)
    (hhost : Destination digits host) (hport : port < 65536)
    (hup : connectUpstream host port = some sock) (s : Dialog UInt8 ClientEnd ServerEnd)
    (hrun : Dialog.machine.Reaches Machine.anyStep
      (Dialog.start (socks5Connect digits host port username password raiseOnBroken)
        (handshake connectUpstream)) s) :
    s.Agrees (.returned true) (.tunnel host port) := by
  obtain ⟨n, h⟩ := settles hhost hport hup username password raiseOnBroken
  exact Dialog.agrees h hrun

end

/-- A name, with a login. -/
theorem socks5_agree_name :
    ∃ s : Dialog UInt8 ClientEnd ServerEnd,
      Dialog.machine.Reaches Dialog.Quiet
          (Dialog.start
            (socks5Connect ⟨Char.isDigit, fun _ h => h⟩ "a.net".toList 443 "user".toList [] false)
            (handshake fun _ _ => some .missing)) s ∧
        s.Finished (.returned true) (.tunnel "a.net".toList 443) :=
  (socks5_agree _ _ 443 _ _ _ _ .missing
    (.inr ⟨by decide, by decide, fun hall => absurd (hall 'a' List.mem_cons_self) (by decide)⟩)
    (by omega) rfl _ (.refl _)).finishes

end HuntProxy.Socks5
