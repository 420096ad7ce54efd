import HuntProxy.Lib.Machine
import HuntProxy.Proxy.Http

/-!
# Forwarding a request that has a body

`_handle_http_forward` reads the headers, connects an upstream, sends it the head of the
request, waits for the head of the response, and only then starts the relay, which is the
only place where bytes of the body are read from the client. An upstream that answers when
it has the whole request therefore waits for the body while the proxy waits for the
answer, until the wait of thirty seconds is over and the client gets a 502.

The machine has one step for every read and write; time is not modelled, so the end of a
wait may come at any point of it.

## Main definitions

- `Forwarding` — the coroutine, its buffers and the connection to the upstream
- `Upstream`, `Upstream.Patient` — a peer, and one that waits for the whole request
- `Delivered` — the claim of a proxy that forwards the request

## Main results

- `Unanswered.step` — before the relay, nothing but the head goes to the upstream
- `never_delivered` — no schedule delivers the request to a patient upstream
-/

namespace HuntProxy

/-- Where `_handle_http_forward` is suspended: reading the headers, connecting, in the
`drain` after the head, waiting for the head of the response, in the relay, in the sleep
before another attempt, or ended. -/
inductive ForwardPc
  | headers
  | connecting
  | draining
  | awaitingHead
  | relaying
  | sleeping
  | finished
  deriving DecidableEq, Repr

/-- The coroutine with its locals, the bytes of the client that are under way
(`clientOut`) and in its reader (`clientBuf`), the bytes for the upstream that are under
way (`toUpstream`) and that have arrived (`received`), the bytes of the upstream in its
reader (`fromUpstream`), and everything that has been written to the client. -/
structure Forwarding where
  pc : ForwardPc
  rawHeaders : List Bytes
  attempt : ℕ
  raw : Bool
  clientOut : Bytes
  clientBuf : Bytes
  toUpstream : Bytes
  received : Bytes
  fromUpstream : Bytes
  toClient : Bytes
  deriving DecidableEq

/-- One step of the coroutine, of the network, or of the upstream. -/
inductive ForwardEvent
  | arrive (n : ℕ)
  | line
  | stalled
  | connect (raw : Bool)
  | connectFailed
  | drained
  | deliver (n : ℕ)
  | respond (bytes : Bytes)
  | headComplete
  | headTimeout
  | upstreamClosed
  | upload (n : ℕ)
  | download (n : ℕ)
  | relayEnds
  | slept
  deriving DecidableEq

/-- Whether an event is a socket error, or a wait for a header line that runs out. -/
def ForwardEvent.isFailure : ForwardEvent → Bool
  | .stalled => true
  | .connectFailed => true
  | .upstreamClosed => true
  | _ => false

/-- An upstream of either kind: whether it may send bytes after those it has received. -/
structure Upstream where
  answers : Bool → Bytes → Bool

/-- The answer of the proxy when all attempts have failed. -/
def badGateway : Bytes := ascii "HTTP/1.1 502 Bad Gateway" ++ headEnd

/-- The answer of the proxy to a request without a host. -/
def badRequest : Bytes := ascii "HTTP/1.1 400 Bad Request" ++ headEnd

/-- `_FORWARD_RETRIES`. -/
def forwardRetries : ℕ := 2

namespace Forwarding

/-- The request line has been read. -/
def start (req : Request) : Forwarding where
  pc := .headers
  rawHeaders := []
  attempt := 0
  raw := false
  clientOut := req.stream
  clientBuf := []
  toUpstream := []
  received := []
  fromUpstream := []
  toClient := []

/-- A request with a body is not sent again. -/
def retries (s : Forwarding) : ℕ := if requestHasBody s.rawHeaders then 0 else forwardRetries

/-- `_safe_close` of the upstream. -/
def close (s : Forwarding) : Forwarding :=
  { s with toUpstream := [], received := [], fromUpstream := [] }

/-- The end of an attempt: the connection is closed, and another attempt or a 502 follows. -/
def fail (s : Forwarding) : Forwarding :=
  if s.attempt < s.retries then { s.close with pc := .sleeping, attempt := s.attempt + 1 }
  else { s.close with pc := .finished, toClient := s.toClient ++ badGateway }

/-- The headers have been read. -/
def route (s : Forwarding) (lib : TextLib) (url : Bytes) : Forwarding :=
  match parseForwardTarget lib url (hostHeader s.rawHeaders) with
  | none => { s with pc := .finished }
  | some (host, _) =>
    if host = [] then { s with pc := .finished, toClient := s.toClient ++ badRequest }
    else { s with pc := .connecting }

/-- `_read_http_headers`, one line. -/
def readLine (s : Forwarding) (lib : TextLib) (url : Bytes) : Option Forwarding :=
  (readThrough [10] s.clientBuf).map (fun p =>
    let s := { s with clientBuf := p.2 }
    if isBlank p.1 then s.route lib url else { s with rawHeaders := s.rawHeaders ++ [p.1] })

/-- An upstream is connected; `_forward_request` writes the head. -/
def forwardRequest (s : Forwarding) (lib : TextLib) (method url : Bytes) (raw : Bool) :
    Forwarding :=
  match forwardHead lib method url raw s.rawHeaders with
  | none => s.fail
  | some head =>
    { s with pc := .draining, raw := raw, toUpstream := head, received := [], fromUpstream := [] }

/-- `_read_response_head` has found the end of the head: the head goes to the client. -/
def responseHead (s : Forwarding) : Option Forwarding :=
  (readThrough headEnd s.fromUpstream).map (fun p =>
    if responseHeadCap < p.1.length then s.fail
    else { s with pc := .relaying, fromUpstream := p.2, toClient := s.toClient ++ p.1 })

/-- The transition function, for one request and one upstream. -/
def step (lib : TextLib) (req : Request) (up : Upstream) (s : Forwarding) :
    ForwardEvent → Option Forwarding
  | .arrive n => some { s with
      clientOut := s.clientOut.drop n, clientBuf := s.clientBuf ++ s.clientOut.take n }
  | .line => if s.pc = .headers then s.readLine lib req.url else none
  | .stalled => if s.pc = .headers then some (s.route lib req.url) else none
  | .connect raw =>
    if s.pc = .connecting then some (s.forwardRequest lib req.method req.url raw) else none
  | .connectFailed => if s.pc = .connecting then some s.fail else none
  | .drained => if s.pc = .draining then some { s with pc := .awaitingHead } else none
  | .deliver n => some { s with
      toUpstream := s.toUpstream.drop n, received := s.received ++ s.toUpstream.take n }
  | .respond bytes =>
    if up.answers s.raw s.received then some { s with fromUpstream := s.fromUpstream ++ bytes }
    else none
  | .headComplete => if s.pc = .awaitingHead then s.responseHead else none
  | .headTimeout => if s.pc = .awaitingHead then some s.fail else none
  | .upstreamClosed =>
    if s.pc = .draining ∨ s.pc = .awaitingHead then some s.fail else none
  | .upload n =>
    if s.pc = .relaying then
      some { s with
        clientBuf := s.clientBuf.drop n, toUpstream := s.toUpstream ++ s.clientBuf.take n }
    else none
  | .download n =>
    if s.pc = .relaying then
      some { s with
        fromUpstream := s.fromUpstream.drop n, toClient := s.toClient ++ s.fromUpstream.take n }
    else none
  | .relayEnds => if s.pc = .relaying then some { s with pc := .finished } else none
  | .slept => if s.pc = .sleeping then some { s with pc := .connecting } else none

/-- The machine of one forwarded request. -/
def machine (lib : TextLib) (req : Request) (up : Upstream) : Machine Forwarding ForwardEvent :=
  ⟨step lib req up⟩

/-- The schedules without a socket error. -/
def NoFailure : Machine.Guard Forwarding ForwardEvent := fun _ a _ => a.isFailure = false

/-- The upstream of the current attempt has received the head and the body, and the client
has got an answer of it. -/
def Delivered (lib : TextLib) (req : Request) (s : Forwarding) : Prop :=
  some s.received = req.complete lib s.raw ∧ s.toClient ≠ [] ∧ s.toClient ≠ badGateway

end Forwarding

/-- A patient upstream sends nothing before it has received the whole request. -/
def Upstream.Patient (up : Upstream) (lib : TextLib) (req : Request) : Prop :=
  ∀ raw received, up.answers raw received = true →
    ∃ all, req.complete lib raw = some all ∧ all <+: received

/-- An upstream that answers as soon as it has the whole request. -/
def Upstream.patient (lib : TextLib) (req : Request) : Upstream :=
  ⟨fun raw received => (req.complete lib raw).any (fun all => all.isPrefixOf received)⟩

theorem Upstream.patient_patient (lib : TextLib) (req : Request) :
    (Upstream.patient lib req).Patient lib req := by
  intro raw received h
  obtain ⟨all, hall, hprefix⟩ := (Option.any_eq_true _ _).mp h
  exact ⟨all, hall, List.isPrefixOf_iff_prefix.mp hprefix⟩

namespace Forwarding

variable {lib : TextLib} {req : Request} {up : Upstream} {s s' : Forwarding}

/-- What holds until the relay begins: the upstream has been sent nothing but the head, and
has not answered. -/
structure Unanswered (lib : TextLib) (req : Request) (s : Forwarding) : Prop where
  pc : s.pc ≠ .relaying
  silent : s.fromUpstream = []
  sent : s.received ++ s.toUpstream = [] ∨
    forwardHead lib req.method req.url s.raw req.headers = some (s.received ++ s.toUpstream)
  reading : s.pc = .headers → ∃ rest, s.rawHeaders ++ rest = req.headers ∧
    s.clientBuf ++ s.clientOut = rest.flatten ++ crlf ++ req.body
  read : s.pc ≠ .headers → s.rawHeaders = req.headers
  answer : s.toClient = if s.pc = .finished then badGateway else []

/-- The bytes that have arrived are too few for the whole request. -/
theorem Unanswered.incomplete (h : Unanswered lib req s) {all : Bytes}
    (hall : req.complete lib s.raw = some all) : ¬ all <+: s.received := by
  intro hprefix
  obtain ⟨head, hhead, rfl⟩ := Option.map_eq_some_iff.mp hall
  have hle : (head ++ req.body).length ≤ s.received.length := hprefix.length_le
  have hbody : 0 < req.body.length := List.length_pos_iff.mpr req.body_ne
  rw [List.length_append] at hle
  rcases h.sent with hnone | hsome
  · have hzero : s.received = [] := (List.append_eq_nil_iff.mp hnone).1
    rw [hzero, List.length_nil] at hle
    omega
  · rw [hhead] at hsome
    have heq : head.length = s.received.length + s.toUpstream.length := by
      rw [Option.some.inj hsome, List.length_append]
    omega

/-- A patient upstream has nothing to answer yet. -/
theorem Unanswered.no_answer (h : Unanswered lib req s) (hpatient : up.Patient lib req) :
    up.answers s.raw s.received = false := by
  rw [Bool.eq_false_iff]
  intro hanswers
  obtain ⟨all, hall, hprefix⟩ := hpatient s.raw s.received hanswers
  exact h.incomplete hall hprefix

theorem Unanswered.not_delivered (h : Unanswered lib req s) : ¬ Delivered lib req s := by
  rintro ⟨hreceived, -, -⟩
  exact h.incomplete hreceived.symm (List.prefix_refl _)

/-- The end of an attempt. -/
theorem Unanswered.fail (h : Unanswered lib req s) (hpc : s.pc ≠ .headers) (hend : s.pc ≠ .finished) :
    Unanswered lib req s.fail := by
  have hnone : s.toClient = [] := by rw [h.answer, if_neg hend]
  have hread := h.read hpc
  unfold Forwarding.fail
  split
  · refine ⟨?_, rfl, .inl rfl, ?_, fun _ => hread, hnone⟩ <;> simp
  · refine ⟨?_, rfl, .inl rfl, ?_, fun _ => hread, ?_⟩
    · simp
    · simp
    · rw [hnone]
      rfl

/-- One more header line, or the end of the headers, which names the host. -/
theorem Unanswered.readLine (h : Unanswered lib req s) {host : Bytes} {port : ℤ}
    (htarget : parseForwardTarget lib req.url (hostHeader req.headers) = some (host, port))
    (hhost : host ≠ []) (hpc : s.pc = .headers) (hs : s.readLine lib req.url = some s') :
    Unanswered lib req s' := by
  obtain ⟨rest, hrest, hstream⟩ := h.reading hpc
  simp only [Forwarding.readLine, Option.map_eq_some_iff] at hs
  obtain ⟨⟨line, buf⟩, hread, rfl⟩ := hs
  have hnone : s.toClient = [] := by rw [h.answer, hpc]; rfl
  cases rest with
  | nil =>
    have hends : Ends 10 crlf := ⟨[13], rfl, by decide⟩
    obtain ⟨rfl, hbuf⟩ := readThrough_first hends hstream hread
    rw [List.append_nil] at hrest
    have hblank : isBlank crlf = true := by decide
    have hroute : ({ s with clientBuf := buf } : Forwarding).route lib req.url =
        { s with clientBuf := buf, pc := .connecting } := by
      simp only [Forwarding.route, hrest, htarget, if_neg hhost]
    rw [if_pos hblank, hroute]
    refine ⟨?_, h.silent, h.sent, ?_, fun _ => hrest, hnone⟩ <;> simp
  | cons first rest =>
    have hmem : first ∈ req.headers := hrest ▸ List.mem_append_right _ List.mem_cons_self
    obtain ⟨hends, hblank⟩ := req.lines first hmem
    rw [List.flatten_cons, List.append_assoc, List.append_assoc] at hstream
    obtain ⟨rfl, hbuf⟩ := readThrough_first hends hstream hread
    rw [hblank, if_neg Bool.false_ne_true]
    refine ⟨h.pc, h.silent, h.sent, fun _ => ⟨rest, ?_, ?_⟩, fun hno => absurd hpc hno, h.answer⟩
    · rw [List.append_assoc]
      exact hrest
    · rw [hbuf, List.append_assoc]

/-- **Step lemma**: with a patient upstream and without a socket error, the request stays
unanswered. -/
theorem Unanswered.step (h : Unanswered lib req s) (hpatient : up.Patient lib req) {host : Bytes}
    {port : ℤ} (htarget : parseForwardTarget lib req.url (hostHeader req.headers) = some (host, port))
    (hhost : host ≠ []) {a : ForwardEvent} (hs : Forwarding.step lib req up s a = some s')
    (ha : a.isFailure = false) : Unanswered lib req s' := by
  cases a with
  | arrive n =>
    cases hs
    refine ⟨h.pc, h.silent, h.sent, fun hpc => ?_, h.read, h.answer⟩
    obtain ⟨rest, hrest, hstream⟩ := h.reading hpc
    refine ⟨rest, hrest, ?_⟩
    rw [List.append_assoc, List.take_append_drop]
    exact hstream
  | line =>
    simp only [Forwarding.step, Option.ite_none_right_eq_some] at hs
    exact h.readLine htarget hhost hs.1 hs.2
  | stalled => cases ha
  | connect raw =>
    simp only [Forwarding.step, Option.ite_none_right_eq_some, Option.some.injEq] at hs
    obtain ⟨hpc, rfl⟩ := hs
    have hread : s.rawHeaders = req.headers := h.read (by rw [hpc]; decide)
    have hnone : s.toClient = [] := by rw [h.answer, hpc]; rfl
    unfold Forwarding.forwardRequest
    split
    · exact h.fail (by rw [hpc]; decide) (by rw [hpc]; decide)
    · next head hhead =>
      rw [hread] at hhead
      refine ⟨?_, rfl, .inr hhead, ?_, fun _ => hread, hnone⟩ <;> simp
  | connectFailed => cases ha
  | drained =>
    simp only [Forwarding.step, Option.ite_none_right_eq_some, Option.some.injEq] at hs
    obtain ⟨hpc, rfl⟩ := hs
    have hnone : s.toClient = [] := by rw [h.answer, hpc]; rfl
    refine ⟨?_, h.silent, h.sent, ?_, fun _ => h.read (by rw [hpc]; decide), hnone⟩ <;> simp
  | deliver n =>
    cases hs
    have hsame : s.received ++ s.toUpstream.take n ++ s.toUpstream.drop n =
        s.received ++ s.toUpstream := by
      rw [List.append_assoc, List.take_append_drop]
    refine ⟨h.pc, h.silent, ?_, h.reading, h.read, h.answer⟩
    rw [hsame]
    exact h.sent
  | respond bytes =>
    -- the upstream waits for a body that is not sent to it
    simp only [Forwarding.step, h.no_answer hpatient] at hs
    cases hs
  | headComplete =>
    simp only [Forwarding.step, responseHead, h.silent, readThrough_nil (by decide : headEnd ≠ []),
      Option.map_none, ite_self] at hs
    cases hs
  | headTimeout =>
    simp only [Forwarding.step, Option.ite_none_right_eq_some, Option.some.injEq] at hs
    obtain ⟨hpc, rfl⟩ := hs
    exact h.fail (by rw [hpc]; decide) (by rw [hpc]; decide)
  | upstreamClosed => cases ha
  | upload n =>
    simp only [Forwarding.step, Option.ite_none_right_eq_some] at hs
    -- the relay, which would send the body, has not begun
    exact absurd hs.1 h.pc
  | download n =>
    simp only [Forwarding.step, Option.ite_none_right_eq_some] at hs
    exact absurd hs.1 h.pc
  | relayEnds =>
    simp only [Forwarding.step, Option.ite_none_right_eq_some] at hs
    exact absurd hs.1 h.pc
  | slept =>
    simp only [Forwarding.step, Option.ite_none_right_eq_some, Option.some.injEq] at hs
    obtain ⟨hpc, rfl⟩ := hs
    have hnone : s.toClient = [] := by rw [h.answer, hpc]; rfl
    refine ⟨?_, h.silent, h.sent, ?_, fun _ => h.read (by rw [hpc]; decide), hnone⟩ <;> simp

theorem start_unanswered (lib : TextLib) (req : Request) : Unanswered lib req (start req) where
  pc := by simp [start]
  silent := rfl
  sent := .inl rfl
  reading _ := ⟨req.headers, rfl, rfl⟩
  read hno := absurd rfl hno
  answer := rfl

/-! ### The wait runs out -/

/-- An attempt with nothing but the head sent ends when the wait for the answer is over. -/
theorem attempt_fails (lib : TextLib) (req : Request) (up : Upstream) (hpc : s.pc = .connecting) :
    ∃ t : Forwarding, (machine lib req up).Reaches NoFailure s t.fail ∧
      t.rawHeaders = s.rawHeaders ∧ t.attempt = s.attempt ∧ t.toClient = s.toClient := by
  have hconnect : (machine lib req up).step s (.connect false) =
      some (s.forwardRequest lib req.method req.url false) := if_pos hpc
  cases hhead : forwardHead lib req.method req.url false s.rawHeaders with
  | none =>
    have heq : s.forwardRequest lib req.method req.url false = s.fail := by
      rw [forwardRequest, hhead]
    rw [heq] at hconnect
    exact ⟨s, .single hconnect rfl, rfl, rfl, rfl⟩
  | some head =>
    let t : Forwarding :=
      { s with pc := .draining, raw := false, toUpstream := head, received := [], fromUpstream := [] }
    have heq : s.forwardRequest lib req.method req.url false = t := by
      rw [forwardRequest, hhead]
    rw [heq] at hconnect
    refine ⟨{ t with pc := .awaitingHead }, ?_, rfl, rfl, rfl⟩
    have hdrain : (machine lib req up).step t .drained = some { t with pc := .awaitingHead } := rfl
    have hwait := (Machine.Reaches.single (G := NoFailure) hconnect rfl).tail hdrain rfl
    exact hwait.tail (a := .headTimeout) rfl rfl

/-- When all attempts have failed, the client gets a 502. -/
theorem exhausted (lib : TextLib) (req : Request) (up : Upstream) (hpc : s.pc = .connecting)
    (hnone : s.toClient = []) :
    ∃ s', (machine lib req up).Reaches NoFailure s s' ∧ s'.pc = .finished ∧
      s'.toClient = badGateway := by
  induction hleft : s.retries - s.attempt generalizing s with
  | zero =>
    obtain ⟨t, ht, hheaders, hattempt, hclient⟩ := attempt_fails lib req up hpc
    have hretries : t.retries = s.retries := by rw [retries, retries, hheaders]
    have hlast : ¬ t.attempt < t.retries := by
      rw [hattempt, hretries]
      omega
    have hfail : t.fail = { t.close with pc := .finished, toClient := badGateway } := by
      rw [fail, if_neg hlast, hclient, hnone]
      rfl
    rw [hfail] at ht
    exact ⟨_, ht, rfl, rfl⟩
  | succ n ih =>
    obtain ⟨t, ht, hheaders, hattempt, hclient⟩ := attempt_fails lib req up hpc
    have hretries : t.retries = s.retries := by rw [retries, retries, hheaders]
    have hmore : t.attempt < t.retries := by
      rw [hattempt, hretries]
      omega
    let u : Forwarding := { t.close with pc := .connecting, attempt := t.attempt + 1 }
    have hu : (machine lib req up).Reaches NoFailure s u := by
      rw [fail, if_pos hmore] at ht
      exact ht.tail (a := .slept) rfl rfl
    have hleft' : u.retries - u.attempt = n := by
      change t.retries - (t.attempt + 1) = n
      rw [hretries, hattempt]
      omega
    obtain ⟨s', hs', hend, hanswer⟩ := ih (s := u) rfl (hclient.trans hnone) hleft'
    exact ⟨s', hu.trans hs', hend, hanswer⟩

/-- The header lines are read one after the other. -/
theorem headers_read (lib : TextLib) {req : Request} (up : Upstream) {host : Bytes} {port : ℤ}
    (htarget : parseForwardTarget lib req.url (hostHeader req.headers) = some (host, port))
    (hhost : host ≠ []) {rest : List Bytes} (hpc : s.pc = .headers)
    (hrest : s.rawHeaders ++ rest = req.headers)
    (hbuf : s.clientBuf = rest.flatten ++ crlf ++ req.body) :
    ∃ s', (machine lib req up).Reaches NoFailure s s' ∧ s'.pc = .connecting ∧
      s'.toClient = s.toClient := by
  induction rest generalizing s with
  | nil =>
    have hends : Ends 10 crlf := ⟨[13], rfl, by decide⟩
    have hblank : isBlank crlf = true := by decide
    rw [List.append_nil] at hrest
    have hline : (machine lib req up).step s .line =
        some { s with clientBuf := req.body, pc := .connecting } := by
      change (if s.pc = .headers then s.readLine lib req.url else none) = _
      rw [if_pos hpc, readLine, hbuf, List.flatten_nil, List.nil_append,
        readThrough_append hends, Option.map_some, if_pos hblank]
      simp only [route, hrest, htarget, if_neg hhost]
    exact ⟨_, .single hline rfl, rfl, rfl⟩
  | cons first rest ih =>
    have hmem : first ∈ req.headers := hrest ▸ List.mem_append_right _ List.mem_cons_self
    obtain ⟨hends, hblank⟩ := req.lines first hmem
    let t : Forwarding :=
      { s with
        clientBuf := rest.flatten ++ crlf ++ req.body, rawHeaders := s.rawHeaders ++ [first] }
    have hline : (machine lib req up).step s .line = some t := by
      change (if s.pc = .headers then s.readLine lib req.url else none) = _
      rw [if_pos hpc, readLine, hbuf, List.flatten_cons, List.append_assoc, List.append_assoc,
        readThrough_append hends, Option.map_some, hblank, if_neg Bool.false_ne_true,
        ← List.append_assoc]
    have hrest' : t.rawHeaders ++ rest = req.headers := by
      change s.rawHeaders ++ [first] ++ rest = req.headers
      rw [List.append_assoc]
      exact hrest
    obtain ⟨s', hs', hpc', hclient⟩ := ih (s := t) hpc hrest' rfl
    exact ⟨s', (Machine.Reaches.single (G := NoFailure) hline rfl).trans hs', hpc', hclient⟩

/-- **A request with a body is never delivered** to an upstream that waits for the whole
request: in no schedule without a socket error does the upstream receive it, every schedule
that comes to its end has answered with a 502, and there is one that does. -/
theorem never_delivered (lib : TextLib) (req : Request) (up : Upstream)
    (hpatient : up.Patient lib req) {host : Bytes} {port : ℤ}
    (htarget : parseForwardTarget lib req.url (hostHeader req.headers) = some (host, port))
    (hhost : host ≠ []) :
    (∀ s, (machine lib req up).Reaches NoFailure (start req) s →
      ¬ Delivered lib req s ∧ (s.pc = .finished → s.toClient = badGateway)) ∧
      ∃ s, (machine lib req up).Reaches NoFailure (start req) s ∧ s.pc = .finished := by
  constructor
  · intro s hs
    have hinv : Unanswered lib req s :=
      hs.invariant (I := Unanswered lib req) (start_unanswered lib req)
        (fun _ _ _ hi hstep ha => hi.step hpatient htarget hhost hstep ha)
    refine ⟨hinv.not_delivered, fun hend => ?_⟩
    rw [hinv.answer, if_pos hend]
  · let s₁ : Forwarding := { start req with clientOut := [], clientBuf := req.stream }
    have harrive : (machine lib req up).step (start req) (.arrive req.stream.length) = some s₁ := by
      change some _ = some _
      simp [s₁, start]
    obtain ⟨s₂, hs₂, hpc, hclient⟩ := headers_read lib up (s := s₁) htarget hhost rfl rfl rfl
    obtain ⟨s₃, hs₃, hend, -⟩ := exhausted lib req up hpc hclient
    exact ⟨s₃, ((Machine.Reaches.single (G := NoFailure) harrive rfl).trans hs₂).trans hs₃, hend⟩

/-- A small `urlparse` for absolute targets without a port: the authority is what stands
between the two slashes and the next one. -/
def sampleLib : TextLib where
  urlparse url :=
    let rest := url.drop 7
    some ⟨some (rest.takeWhile (· ≠ 47)), some none, rest.dropWhile (· ≠ 47), []⟩
  intOfText := pyInt

/-- A request that posts five bytes. -/
def samplePost : Request where
  method := ascii "POST"
  url := ascii "http://example.com/"
  headers := [ascii "Host: example.com" ++ crlf, ascii "Content-Length: 5" ++ crlf]
  body := ascii "hello"
  lines := by
    intro h hh
    simp only [List.mem_cons, List.not_mem_nil, or_false] at hh
    rcases hh with rfl | rfl
    · exact ⟨⟨ascii "Host: example.com" ++ [13], by decide, by decide⟩, by decide⟩
    · exact ⟨⟨ascii "Content-Length: 5" ++ [13], by decide, by decide⟩, by decide⟩
  body_ne := by decide

theorem samplePost_target : parseForwardTarget sampleLib samplePost.url
    (hostHeader samplePost.headers) = some (ascii "example.com", 80) := by decide +kernel

/-- The steps of a schedule up to the sending of the head. -/
def postSchedule : List ForwardEvent :=
  [.arrive 100, .line, .line, .line, .connect true, .drained, .deliver 100]

/-- An upstream that answers without waiting for the body gets it through the relay. -/
example : ((machine sampleLib samplePost ⟨fun _ received => headEnd.isSuffixOf received⟩).exec
    (fun _ a _ => !a.isFailure) (start samplePost)
    (postSchedule ++ [.respond (ascii "HTTP/1.1 200 OK" ++ headEnd), .headComplete, .upload 100,
      .deliver 100, .relayEnds])).map (fun s => (some s.received, s.toClient)) =
    some (samplePost.complete sampleLib true, ascii "HTTP/1.1 200 OK" ++ headEnd) := by
  decide +kernel

theorem never_delivered_sample :
    (∀ s, (machine sampleLib samplePost (.patient sampleLib samplePost)).Reaches NoFailure
        (start samplePost) s →
      ¬ Delivered sampleLib samplePost s ∧ (s.pc = .finished → s.toClient = badGateway)) ∧
      ∃ s, (machine sampleLib samplePost (.patient sampleLib samplePost)).Reaches NoFailure
        (start samplePost) s ∧ s.pc = .finished :=
  never_delivered sampleLib samplePost _ (Upstream.patient_patient _ _) samplePost_target
    (by decide)

/-- The body of a posted form stays in the proxy: the upstream has the head and waits, the
wait of the proxy runs out. -/
theorem body_withheld :
    ¬ ∀ (lib : TextLib) (req : Request) (up : Upstream) (host : Bytes) (port : ℤ),
      up.Patient lib req →
        parseForwardTarget lib req.url (hostHeader req.headers) = some (host, port) → host ≠ [] →
          ∀ s, (machine lib req up).Reaches NoFailure (start req) s → s.pc = .finished →
            Delivered lib req s := by
  intro hall
  have hrun : ∃ s, (machine sampleLib samplePost (.patient sampleLib samplePost)).Reaches NoFailure
      (start samplePost) s ∧ decide (s.pc = .finished ∧ s.toClient = badGateway) = true :=
    Machine.exists_reaches_of_exec (g := fun _ a _ => !a.isFailure)
      (l := postSchedule ++ [.headTimeout])
      (fun _ _ _ hg => by rwa [Bool.not_eq_true'] at hg) (by decide +kernel)
  obtain ⟨s, hs, hend⟩ := hrun
  obtain ⟨hpc, hanswer⟩ := of_decide_eq_true hend
  have hdelivered := hall sampleLib samplePost _ _ _ (Upstream.patient_patient _ _)
    samplePost_target (by decide) s hs hpc
  exact hdelivered.2.2 hanswer

end Forwarding

end HuntProxy
