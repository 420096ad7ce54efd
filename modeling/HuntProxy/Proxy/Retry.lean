import HuntProxy.Lib.Machine
import HuntProxy.Proxy.Forward
import Mathlib.Data.List.TakeWhile

/-!
# The attempts of a forwarded request

`_handle_http_forward` tries up to three upstreams for a request without a body. An attempt
fails when no upstream is connected, the request cannot be written, or no response head
arrives. The head is written to the client when it is complete, and behind it what the relay
downloads. An exception of the `drain` behind the head is caught like one of the upstream, so
that another attempt, or a 502, follows a head that has been written.

A request that announces a body gets one attempt. The first header that is about a body
decides whether it does.

The machine has a step for every outcome of every await. Socket errors within `_relay` end it,
and it returns; `_relay` raises when it is cancelled only.

## Main definitions

- `Retry`, `Retry.step` — the coroutine with a trace of what it does
- `Retry.CommitPoint` — what is promised about a trace
- `Retry.Drained` — the steps at which the drain behind a head does not fail
- `Announces`, `BodyPromise` — the headers that announce a body, and what is promised of them

## Main results

- `Retry.attempts_le` — the number of attempts
- `Retry.commit_point` — the runs with a commit point
- `Retry.drainRaises_breaks` — what follows when the drain fails
- `body_promise_iff` — when a request with a body is sent once
-/

namespace HuntProxy

open HuntProxy.Forwarding

/-- What is done: an upstream is asked for, or something is written to the client. -/
inductive Act
  | attempt
  | head (h : Bytes)
  | relayed (l : Bytes)
  | badGateway
  | badRequest
  deriving DecidableEq, Repr

/-- Where `_handle_http_forward` is suspended: in `_connect_upstream`, in the `drain` of the
request, in `_read_response_head`, in the `drain` behind the head, in the relay, in the sleep
before another attempt, in the `drain` behind a refusal, or ended. -/
inductive RetryPc
  | connecting
  | sending
  | awaitingHead
  | drainingHead
  | relaying
  | sleeping
  | refusing
  | finished
  deriving DecidableEq, Repr

/-- The coroutine, with a trace of what it has done. -/
structure Retry where
  pc : RetryPc
  attempt : ℕ
  trace : List Act
  deriving DecidableEq

/-- The outcomes of the awaits. -/
inductive RetryEvent
  | connected (raw : Bool)
  | unconnected
  | connectRaises
  | sent
  | sendRaises
  | head (h : Bytes)
  | headUnwritable
  | noHead
  | drained
  | drainRaises
  | relayed (l : Bytes)
  | relayReturns
  | slept
  | refusalDrained
  | refusalDrainRaises
  | cancelled
  deriving DecidableEq

namespace Retry

section

variable (lib : TextLib) (method url : Bytes) (headers : List Bytes)

/-- `retries`. -/
def retries : ℕ := if requestHasBody headers then 0 else forwardRetries

/-- The headers have been read, and the target is parsed. -/
def start : Retry :=
  match parseForwardTarget lib url (hostHeader headers) with
  | none => ⟨.finished, 0, []⟩
  | some (host, _) =>
    if host = [] then ⟨.refusing, 0, [.badRequest]⟩ else ⟨.connecting, 0, [.attempt]⟩

/-- The end of an attempt: the connection is closed, and another attempt or a 502 follows. -/
def fail (s : Retry) : Retry :=
  if s.attempt < retries headers then { s with pc := .sleeping, attempt := s.attempt + 1 }
  else { s with pc := .refusing, trace := s.trace ++ [.badGateway] }

/-- The transition function. -/
def step (s : Retry) : RetryEvent → Option Retry
  | .connected raw =>
    if s.pc = .connecting then
      match forwardHead lib method url raw headers with
      | none => some (s.fail headers)
      | some _ => some { s with pc := .sending }
    else none
  | .unconnected => if s.pc = .connecting then some (s.fail headers) else none
  -- `_connect_upstream` is called outside of the `try`
  | .connectRaises => if s.pc = .connecting then some { s with pc := .finished } else none
  | .sent => if s.pc = .sending then some { s with pc := .awaitingHead } else none
  | .sendRaises => if s.pc = .sending then some (s.fail headers) else none
  | .head h =>
    if s.pc = .awaitingHead then
      if responseHeadCap < h.length then some (s.fail headers)
      else some { s with pc := .drainingHead, trace := s.trace ++ [.head h] }
    else none
  | .headUnwritable => if s.pc = .awaitingHead then some (s.fail headers) else none
  | .noHead => if s.pc = .awaitingHead then some (s.fail headers) else none
  | .drained => if s.pc = .drainingHead then some { s with pc := .relaying } else none
  -- caught by the handler that is meant for the upstream
  | .drainRaises => if s.pc = .drainingHead then some (s.fail headers) else none
  | .relayed l =>
    if s.pc = .relaying then some { s with trace := s.trace ++ [.relayed l] } else none
  | .relayReturns => if s.pc = .relaying then some { s with pc := .finished } else none
  | .slept =>
    if s.pc = .sleeping then some { s with pc := .connecting, trace := s.trace ++ [.attempt] }
    else none
  | .refusalDrained => if s.pc = .refusing then some { s with pc := .finished } else none
  | .refusalDrainRaises => if s.pc = .refusing then some { s with pc := .finished } else none
  | .cancelled => if s.pc = .finished then none else some { s with pc := .finished }

/-- The machine of one request. -/
def machine : Machine Retry RetryEvent := ⟨step lib method url headers⟩

end

/-- The steps at which the drain behind a response head does not fail. -/
def Drained : Machine.Guard Retry RetryEvent := fun _ e _ => e ≠ .drainRaises

/-! ### Traces -/

/-- The number of upstream attempts of a trace. -/
def attempts (t : List Act) : ℕ := t.count .attempt

/-- Whether a response head is written. -/
def isHead : Act → Bool
  | .head _ => true
  | _ => false

/-- Behind a response head there is nothing but what the relay writes. -/
def HeadLast (t : List Act) : Prop :=
  ∀ before h after, t = before ++ .head h :: after → ∀ a ∈ after, ∃ l, a = .relayed l

/-- What is promised: at most three attempts, at most one response head, and nothing but the
relay behind it. -/
structure CommitPoint (t : List Act) : Prop where
  attempts : attempts t ≤ 3
  heads : t.countP isHead ≤ 1
  last : HeadLast t

/-- No response head has been written. -/
def Uncommitted (t : List Act) : Prop := ∀ a ∈ t, isHead a = false

theorem Uncommitted.append {t : List Act} (h : Uncommitted t) {a : Act} (ha : isHead a = false) :
    Uncommitted (t ++ [a]) := by
  intro x hx
  rcases List.mem_append.mp hx with hx | hx
  · exact h x hx
  · cases List.mem_singleton.mp hx
    exact ha

/-- The first response head may be written, and anything else. -/
theorem Uncommitted.headLast_append {t : List Act} (h : Uncommitted t) (a : Act) :
    HeadLast (t ++ [a]) := by
  intro before hd after heq x hx
  rcases List.append_eq_append_iff.mp heq with ⟨l, hbefore, hcons⟩ | ⟨l, ht, hcons⟩
  · -- the head is the last one
    cases l with
    | nil =>
      rw [List.nil_append] at hcons
      cases hcons
      cases hx
    | cons y l =>
      have hlen := congrArg List.length hcons
      simp at hlen
  · cases l with
    | nil =>
      rw [List.nil_append] at hcons
      cases hcons
      cases hx
    | cons y l =>
      rw [List.cons_append, List.cons.injEq] at hcons
      have := h (.head hd) (by rw [ht, hcons.1]; simp)
      cases this

theorem Uncommitted.headLast {t : List Act} (h : Uncommitted t) : HeadLast t := by
  intro before hd after heq
  have := h (.head hd) (by rw [heq]; simp)
  cases this

/-- The relay may write behind the response head. -/
theorem HeadLast.append_relayed {t : List Act} (h : HeadLast t) (l : Bytes) :
    HeadLast (t ++ [.relayed l]) := by
  intro before hd after heq x hx
  cases after using List.reverseRecOn with
  | nil => cases hx
  | append_singleton after y =>
    rw [← List.cons_append, ← List.append_assoc] at heq
    obtain ⟨ht, hy⟩ := List.append_inj' heq rfl
    rcases List.mem_append.mp hx with hx | hx
    · exact h before hd after ht x hx
    · cases List.mem_singleton.mp hx
      cases hy
      exact ⟨l, rfl⟩

/-- There is no second response head behind the first one. -/
theorem HeadLast.countP_le {t : List Act} (h : HeadLast t) : t.countP isHead ≤ 1 := by
  induction t with
  | nil => exact Nat.zero_le _
  | cons a t ih =>
    have htail : HeadLast t := fun before hd after heq =>
      h (a :: before) hd after (by rw [heq, List.cons_append])
    cases a with
    | head hd =>
      have hnone : t.countP isHead = 0 := by
        rw [List.countP_eq_zero]
        intro x hx
        obtain ⟨l, rfl⟩ := h [] hd t rfl x hx
        exact Bool.false_ne_true
      rw [List.countP_cons_of_pos rfl, hnone]
    | attempt => exact ih htail
    | relayed l => exact ih htail
    | badGateway => exact ih htail
    | badRequest => exact ih htail

theorem attempts_append (t : List Act) (a : Act) :
    attempts (t ++ [a]) = attempts t + if a = .attempt then 1 else 0 := by
  unfold attempts
  rw [List.count_append]
  congr 1
  by_cases h : a = .attempt
  · rw [if_pos h, h]
    rfl
  · rw [if_neg h, List.count_eq_zero]
    simpa using fun heq => h heq.symm

/-! ### Invariants -/

section

variable {lib : TextLib} {method url : Bytes} {headers : List Bytes} {s s' : Retry} {e : RetryEvent}

/-- The attempts that have been made; one that has been counted is still to be made during the
sleep before it. -/
structure Counted (headers : List Bytes) (s : Retry) : Prop where
  le : s.attempt ≤ retries headers
  attempts : attempts s.trace + (if s.pc = .sleeping then 1 else 0) ≤ s.attempt + 1

/-- Before the head is written nothing of it has been, and then the relay follows. -/
structure InOrder (s : Retry) : Prop where
  before : s.pc = .connecting ∨ s.pc = .sending ∨ s.pc = .awaitingHead ∨ s.pc = .sleeping →
    Uncommitted s.trace
  last : HeadLast s.trace

theorem start_counted : Counted headers (start lib url headers) := by
  unfold start
  split
  · exact ⟨Nat.zero_le _, by decide⟩
  · split
    · exact ⟨Nat.zero_le _, by decide⟩
    · exact ⟨Nat.zero_le _, by decide⟩

theorem start_uncommitted : Uncommitted (start lib url headers).trace := by
  unfold start
  split
  · exact fun a ha => (by cases ha)
  · split
    · exact List.forall_mem_singleton.mpr rfl
    · exact List.forall_mem_singleton.mpr rfl

theorem start_inOrder : InOrder (start lib url headers) :=
  ⟨fun _ => start_uncommitted, start_uncommitted.headLast⟩

/-- A failed attempt leaves room for the next one. -/
theorem Counted.fail (h : Counted headers s) (hpc : s.pc ≠ .sleeping) :
    Counted headers (s.fail headers) := by
  obtain ⟨hle, hattempts⟩ := h
  rw [if_neg hpc, Nat.add_zero] at hattempts
  unfold Retry.fail
  split
  · next hlt => exact ⟨hlt, by dsimp only; rw [if_pos rfl]; omega⟩
  · refine ⟨hle, ?_⟩
    dsimp only
    rw [attempts_append, if_neg (by decide), if_neg (by decide)]
    omega

theorem InOrder.fail (h : Uncommitted s.trace) : InOrder (s.fail headers) := by
  unfold Retry.fail
  split
  · exact ⟨fun _ => h, h.headLast⟩
  · have happ : Uncommitted (s.trace ++ [.badGateway]) := h.append rfl
    exact ⟨fun _ => happ, happ.headLast⟩

/-- What a step can do. -/
inductive Effect (headers : List Bytes) (s : Retry) (e : RetryEvent) : Retry → Prop
  | failed (h : s.pc = .connecting ∨ s.pc = .sending ∨ s.pc = .awaitingHead) :
    Effect headers s e (s.fail headers)
  | undrained (h : s.pc = .drainingHead) (he : e = .drainRaises) :
    Effect headers s e (s.fail headers)
  | moved (pc : RetryPc) (h : (s.pc = .connecting ∧ pc = .sending) ∨
      (s.pc = .sending ∧ pc = .awaitingHead) ∨ (s.pc = .drainingHead ∧ pc = .relaying) ∨
      pc = .finished) : Effect headers s e { s with pc := pc }
  | wrote (hd : Bytes) (h : s.pc = .awaitingHead) :
    Effect headers s e { s with pc := .drainingHead, trace := s.trace ++ [.head hd] }
  | passed (l : Bytes) (h : s.pc = .relaying) :
    Effect headers s e { s with trace := s.trace ++ [.relayed l] }
  | retried (h : s.pc = .sleeping) :
    Effect headers s e { s with pc := .connecting, trace := s.trace ++ [.attempt] }

theorem effect (hs : (machine lib method url headers).step s e = some s') :
    Effect headers s e s' := by
  have hs : Retry.step lib method url headers s e = some s' := hs
  cases e with
  | connected raw =>
    rw [Retry.step, Option.ite_none_right_eq_some] at hs
    obtain ⟨hpc, hs⟩ := hs
    split at hs
    · cases hs
      exact .failed (.inl hpc)
    · cases hs
      exact .moved .sending (.inl ⟨hpc, rfl⟩)
  | unconnected =>
    obtain ⟨hpc, ⟨⟩⟩ := Option.ite_none_right_eq_some.mp hs
    exact .failed (.inl hpc)
  | connectRaises =>
    obtain ⟨hpc, ⟨⟩⟩ := Option.ite_none_right_eq_some.mp hs
    exact .moved .finished (.inr (.inr (.inr rfl)))
  | sent =>
    obtain ⟨hpc, ⟨⟩⟩ := Option.ite_none_right_eq_some.mp hs
    exact .moved .awaitingHead (.inr (.inl ⟨hpc, rfl⟩))
  | sendRaises =>
    obtain ⟨hpc, ⟨⟩⟩ := Option.ite_none_right_eq_some.mp hs
    exact .failed (.inr (.inl hpc))
  | head h =>
    rw [Retry.step, Option.ite_none_right_eq_some] at hs
    obtain ⟨hpc, hs⟩ := hs
    split at hs
    · cases hs
      exact .failed (.inr (.inr hpc))
    · cases hs
      exact .wrote h hpc
  | headUnwritable =>
    obtain ⟨hpc, ⟨⟩⟩ := Option.ite_none_right_eq_some.mp hs
    exact .failed (.inr (.inr hpc))
  | noHead =>
    obtain ⟨hpc, ⟨⟩⟩ := Option.ite_none_right_eq_some.mp hs
    exact .failed (.inr (.inr hpc))
  | drained =>
    obtain ⟨hpc, ⟨⟩⟩ := Option.ite_none_right_eq_some.mp hs
    exact .moved .relaying (.inr (.inr (.inl ⟨hpc, rfl⟩)))
  | drainRaises =>
    obtain ⟨hpc, ⟨⟩⟩ := Option.ite_none_right_eq_some.mp hs
    exact .undrained hpc rfl
  | relayed l =>
    obtain ⟨hpc, ⟨⟩⟩ := Option.ite_none_right_eq_some.mp hs
    exact .passed l hpc
  | relayReturns =>
    obtain ⟨hpc, ⟨⟩⟩ := Option.ite_none_right_eq_some.mp hs
    exact .moved .finished (.inr (.inr (.inr rfl)))
  | slept =>
    obtain ⟨hpc, ⟨⟩⟩ := Option.ite_none_right_eq_some.mp hs
    exact .retried hpc
  | refusalDrained =>
    obtain ⟨hpc, ⟨⟩⟩ := Option.ite_none_right_eq_some.mp hs
    exact .moved .finished (.inr (.inr (.inr rfl)))
  | refusalDrainRaises =>
    obtain ⟨hpc, ⟨⟩⟩ := Option.ite_none_right_eq_some.mp hs
    exact .moved .finished (.inr (.inr (.inr rfl)))
  | cancelled =>
    rw [Retry.step, Option.ite_none_left_eq_some] at hs
    obtain ⟨hpc, hs⟩ := hs
    cases hs
    exact .moved .finished (.inr (.inr (.inr rfl)))

/-- **Step lemma**: the attempts are counted. -/
theorem Counted.step (h : Counted headers s)
    (hs : (machine lib method url headers).step s e = some s') : Counted headers s' := by
  obtain ⟨hle, hattempts⟩ := id h
  cases effect hs with
  | failed hpc => exact h.fail (by rcases hpc with hpc | hpc | hpc <;> rw [hpc] <;> decide)
  | undrained hpc _ => exact h.fail (by rw [hpc]; decide)
  | moved pc hpc =>
    refine ⟨hle, ?_⟩
    have hnot : pc ≠ .sleeping := by
      rcases hpc with ⟨-, rfl⟩ | ⟨-, rfl⟩ | ⟨-, rfl⟩ | rfl <;> decide
    dsimp only
    rw [if_neg hnot]
    omega
  | wrote hd hpc =>
    refine ⟨hle, ?_⟩
    rw [if_neg (by rw [hpc]; decide)] at hattempts
    dsimp only
    rwa [attempts_append, if_neg (fun h => (by cases h)), if_neg (by decide)]
  | passed l hpc =>
    refine ⟨hle, ?_⟩
    rw [if_neg (by rw [hpc]; decide)] at hattempts
    dsimp only
    rwa [attempts_append, if_neg (fun h => (by cases h)), if_neg (by rw [hpc]; decide)]
  | retried hpc =>
    refine ⟨hle, ?_⟩
    rw [if_pos hpc] at hattempts
    dsimp only
    rwa [attempts_append, if_pos rfl, if_neg (by decide)]

/-- **Step lemma**: as long as the drain behind a head does not fail, nothing but the relay
follows a head. -/
theorem InOrder.step (h : InOrder s) (hs : (machine lib method url headers).step s e = some s')
    (hg : Drained s e s') : InOrder s' := by
  obtain ⟨hbefore, hlast⟩ := id h
  cases effect hs with
  | failed hpc => exact InOrder.fail (hbefore (by tauto))
  | undrained _ he => exact absurd he hg
  | moved pc hpc =>
    -- only the moves in front of the head lead to a place in front of it
    refine ⟨fun hpc' => hbefore ?_, hlast⟩
    rcases hpc with ⟨hpc, -⟩ | ⟨hpc, -⟩ | ⟨-, rfl⟩ | rfl
    · exact .inl hpc
    · exact .inr (.inl hpc)
    · simp at hpc'
    · simp at hpc'
  | wrote hd hpc =>
    have hnone := hbefore (.inr (.inr (.inl hpc)))
    exact ⟨fun hpc' => (by simp at hpc'), hnone.headLast_append _⟩
  | passed l hpc =>
    refine ⟨fun hpc' => ?_, hlast.append_relayed l⟩
    rw [hpc] at hpc'
    simp at hpc'
  | retried hpc =>
    have hnone : Uncommitted (s.trace ++ [.attempt]) :=
      (hbefore (.inr (.inr (.inr hpc)))).append rfl
    exact ⟨fun _ => hnone, hnone.headLast⟩

/-- **The number of the attempts**, in every run. -/
theorem attempts_le
    (hrun : (machine lib method url headers).Reaches Machine.anyStep (start lib url headers) s) :
    attempts s.trace ≤ retries headers + 1 := by
  have h := hrun.invariant (I := Counted headers) start_counted
    (fun _ _ _ hI hs _ => hI.step hs)
  have := h.le
  have := h.attempts
  omega

/-- **There is a commit point**: in every run in which no drain behind a response head fails,
nothing but the relay follows a head. -/
theorem commit_point (lib : TextLib) (method url : Bytes) (headers : List Bytes) (s : Retry)
    (hrun : (machine lib method url headers).Reaches Drained (start lib url headers) s) :
    CommitPoint s.trace := by
  have horder := hrun.invariant (I := InOrder) start_inOrder
    (fun _ _ _ hI hs hg => hI.step hs hg)
  have hattempts := attempts_le (hrun.mono (fun _ _ _ _ => trivial))
  have hretries : retries headers ≤ 2 := by
    unfold retries forwardRetries
    split <;> omega
  exact ⟨by omega, horder.last.countP_le, horder.last⟩

/-! ### A drain that fails -/

/-- Something else than the relay behind a response head. -/
theorem not_headLast (t : List Act) (hd : Bytes) {a : Act} (ha : ∀ l, a ≠ .relayed l) :
    ¬ HeadLast (t ++ [.head hd] ++ [a]) := by
  intro h
  obtain ⟨l, hl⟩ := h t hd [a] (by simp) a List.mem_cons_self
  exact ha l hl

/-- In the drain behind a response head, the head has been written last. -/
theorem written
    (hrun : (machine lib method url headers).Reaches Machine.anyStep (start lib url headers) s)
    (hpc : s.pc = .drainingHead) : ∃ t hd, s.trace = t ++ [.head hd] := by
  refine hrun.invariant (I := fun s => s.pc = .drainingHead → ∃ t hd, s.trace = t ++ [.head hd]) ?_
    (fun s e s' _ hs _ hpc' => ?_) hpc
  · unfold start
    split
    · exact fun h => (by cases h)
    · split <;> exact fun h => (by cases h)
  · cases effect hs with
    | failed _ =>
      unfold Retry.fail at hpc'
      split at hpc' <;> cases hpc'
    | undrained _ _ =>
      unfold Retry.fail at hpc'
      split at hpc' <;> cases hpc'
    | moved pc hpc =>
      obtain rfl : pc = .drainingHead := hpc'
      simp at hpc
    | wrote hd _ => exact ⟨s.trace, hd, rfl⟩
    | passed l hpc =>
      rw [hpc] at hpc'
      cases hpc'
    | retried _ => cases hpc'

/-- After a drain behind a response head that fails, the commit point can be passed again. -/
theorem drainRaises_breaks
    (hrun : (machine lib method url headers).Reaches Machine.anyStep (start lib url headers) s)
    (hs : (machine lib method url headers).step s .drainRaises = some s') :
    ∃ s'', (machine lib method url headers).Reaches Machine.anyStep s' s'' ∧
      ¬ CommitPoint s''.trace := by
  obtain ⟨hpc, ⟨⟩⟩ := Option.ite_none_right_eq_some.mp hs
  obtain ⟨t, hd, htrace⟩ := written hrun hpc
  have hbroken {a : Act} (ha : ∀ l, a ≠ .relayed l) : ¬ CommitPoint (s.trace ++ [a]) := by
    intro h
    have hlast := h.last
    rw [htrace] at hlast
    exact not_headLast t hd ha hlast
  unfold Retry.fail
  by_cases hlt : s.attempt < retries headers
  · -- another attempt is made behind the head
    rw [if_pos hlt]
    exact ⟨⟨.connecting, s.attempt + 1, s.trace ++ [.attempt]⟩,
      .single (a := .slept) rfl trivial, hbroken fun l h => (by cases h)⟩
  · -- a refusal is written behind the head
    rw [if_neg hlt]
    exact ⟨_, .refl _, hbroken fun l h => (by cases h)⟩

end

/-- A response head of a sample. -/
def sampleHead : Bytes := ascii "HTTP/1.1 200 OK" ++ headEnd

/-- The first upstream closes the connection, the second one answers. -/
theorem commit_point_second :
    ∃ s, (machine sampleLib (ascii "GET") samplePost.url []).Reaches Drained
        (start sampleLib samplePost.url []) s ∧
      s = ⟨.finished, 1, [.attempt, .attempt, .head sampleHead, .relayed (ascii "ok")]⟩ ∧
      CommitPoint s.trace := by
  obtain ⟨s, hs, hend⟩ := Machine.exists_reaches_of_exec (G := Drained)
    (M := machine sampleLib (ascii "GET") samplePost.url [])
    (s := start sampleLib samplePost.url [])
    (g := fun _ e _ => e ≠ .drainRaises)
    (l := [.connected false, .sent, .noHead, .slept, .connected true, .sent, .head sampleHead,
      .drained, .relayed (ascii "ok"), .relayReturns])
    (p := fun s => s = ⟨.finished, 1, [.attempt, .attempt, .head sampleHead, .relayed (ascii "ok")]⟩)
    (fun _ e _ h => show e ≠ .drainRaises from of_decide_eq_true h) (by decide +kernel)
  exact ⟨s, hs, of_decide_eq_true hend, commit_point _ _ _ _ s hs⟩

/-- The client is gone when the head has been written: the request goes to another upstream,
and its head is written as well. -/
theorem second_head :
    ¬ ∀ (lib : TextLib) (method url : Bytes) (headers : List Bytes) (s : Retry),
      requestHasBody headers = false →
        (machine lib method url headers).Reaches Machine.anyStep (start lib url headers) s →
          CommitPoint s.trace := by
  intro hall
  obtain ⟨s, hs, hend⟩ := Machine.exists_reaches_of_exec (G := Machine.anyStep)
    (M := machine sampleLib (ascii "GET") samplePost.url [])
    (s := start sampleLib samplePost.url [])
    (g := fun _ _ _ => true)
    (l := [.connected true, .sent, .head sampleHead, .drainRaises, .slept, .connected true, .sent,
      .head sampleHead])
    (p := fun s => 1 < s.trace.countP isHead)
    (fun _ _ _ _ => trivial) (by decide +kernel)
  have hheads := (hall _ _ _ _ s rfl hs).heads
  have := of_decide_eq_true hend
  omega

end Retry

/-! ### Headers that announce a body -/

/-- The name of a header line, in lower case; a line without a colon has none. -/
def Named (name : String) (h : Bytes) : Prop :=
  58 ∈ h ∧ lower (h.takeWhile (· ≠ 58)) = ascii name

instance (name : String) (h : Bytes) : Decidable (Named name h) :=
  inferInstanceAs (Decidable (58 ∈ h ∧ lower (h.takeWhile (· ≠ 58)) = ascii name))

/-- The header is about a body. -/
def AboutBody (h : Bytes) : Prop := Named "content-length" h ∨ Named "transfer-encoding" h

/-- The header announces a body: it names an encoding, or a length that is positive or no
number. An empty value stands for zero. -/
def Announces (h : Bytes) : Prop :=
  Named "transfer-encoding" h ∨
    Named "content-length" h ∧ headerValue h ≠ [] ∧ ∀ n, pyInt (headerValue h) = some n → 0 < n

/-- The first header that is about a body announces one. -/
def FirstAnnounces (headers : List Bytes) : Prop :=
  ∃ before h after, headers = before ++ h :: after ∧ (∀ x ∈ before, ¬ AboutBody x) ∧ Announces h

/-- What is promised about a request one of whose headers announces a body. -/
def BodyPromise (headers : List Bytes) : Prop :=
  (∃ h ∈ headers, Announces h) →
    requestHasBody headers = true ∧ ∀ (lib : TextLib) (method url : Bytes) (s : Retry),
      (Retry.machine lib method url headers).Reaches Machine.anyStep
          (Retry.start lib url headers) s → Retry.attempts s.trace ≤ 1

/-- No other byte is turned into a colon. -/
theorem lower_eq_colon (b : UInt8) : (if 65 ≤ b ∧ b ≤ 90 then b + 32 else b) = 58 ↔ b = 58 := by
  split
  · next hupper =>
    have hlow := UInt8.le_iff_toNat_le.mp hupper.1
    have hhigh := UInt8.le_iff_toNat_le.mp hupper.2
    constructor
    · intro heq
      have hsum := congrArg UInt8.toNat heq
      rw [UInt8.toNat_add] at hsum
      simp at hlow hhigh hsum
      omega
    · rintro rfl
      simp at hlow
  · exact Iff.rfl

theorem takeWhile_lower (h : Bytes) :
    (lower h).takeWhile (· ≠ 58) = lower (h.takeWhile (· ≠ 58)) := by
  unfold lower
  rw [List.takeWhile_map]
  congr 2
  funext b
  simp [lower_eq_colon]

theorem mem_lower {h : Bytes} : 58 ∈ lower h ↔ 58 ∈ h := by
  unfold lower
  simp only [List.mem_map, lower_eq_colon, exists_eq_right]

/-- A line that begins with a name and a colon has this name. -/
theorem isPrefixOf_colon {name l : Bytes} (hname : 58 ∉ name) :
    (name ++ [58]).isPrefixOf l = true ↔ 58 ∈ l ∧ l.takeWhile (· ≠ 58) = name := by
  rw [List.isPrefixOf_iff_prefix]
  constructor
  · rintro ⟨rest, rfl⟩
    refine ⟨by simp, ?_⟩
    have hall : ∀ b ∈ name, decide (b ≠ 58) = true := by
      intro b hb
      rw [decide_eq_true_eq]
      rintro rfl
      exact hname hb
    rw [List.append_assoc, List.takeWhile_append_of_pos hall, List.singleton_append,
      List.takeWhile_cons_of_neg (by decide), List.append_nil]
  · rintro ⟨hmem, rfl⟩
    have hsplit := List.takeWhile_append_dropWhile (p := fun b => decide (b ≠ 58)) (l := l)
    cases hdrop : l.dropWhile (fun b => decide (b ≠ 58)) with
    | nil =>
      have := List.dropWhile_eq_nil_iff.mp hdrop 58 hmem
      simp at this
    | cons b after =>
      have hb : b = 58 := by
        have hhead := List.head?_dropWhile_not (fun b => decide (b ≠ 58)) l
        rw [hdrop] at hhead
        simpa using hhead
      rw [hdrop, hb] at hsplit
      exact ⟨after, by rw [List.append_assoc, List.singleton_append]; exact hsplit⟩

/-- The test of the beginning of a line is a test of its name. -/
theorem isPrefixOf_lower {name : String} {h : Bytes} (hname : 58 ∉ ascii name) :
    (ascii name ++ [58]).isPrefixOf (lower h) = true ↔ Named name h := by
  rw [isPrefixOf_colon hname, mem_lower, takeWhile_lower]
  rfl

theorem isLength_iff {h : Bytes} :
    (ascii "content-length:").isPrefixOf (lower h) = true ↔ Named "content-length" h := by
  have hascii : ascii "content-length:" = ascii "content-length" ++ [58] := by decide
  rw [hascii]
  exact isPrefixOf_lower (by decide)

theorem isEncoding_iff {h : Bytes} :
    (ascii "transfer-encoding:").isPrefixOf (lower h) = true ↔ Named "transfer-encoding" h := by
  have hascii : ascii "transfer-encoding:" = ascii "transfer-encoding" ++ [58] := by decide
  rw [hascii]
  exact isPrefixOf_lower (by decide)

theorem announces_length {h : Bytes} (hlen : Named "content-length" h) :
    Announces h ↔ headerValue h ≠ [] ∧ ∀ n, pyInt (headerValue h) = some n → 0 < n := by
  have hnot : ¬ Named "transfer-encoding" h := fun henc =>
    absurd (hlen.2.symm.trans henc.2) (by decide)
  exact ⟨fun h => (h.resolve_left hnot).2, fun h => .inr ⟨hlen, h⟩⟩

/-- The first header that is about a body decides. -/
theorem firstAnnounces_cons_of_about {h : Bytes} (habout : AboutBody h) (rest : List Bytes) :
    FirstAnnounces (h :: rest) ↔ Announces h := by
  constructor
  · rintro ⟨before, x, after, heq, hbefore, hx⟩
    cases before with
    | nil =>
      cases heq
      exact hx
    | cons y before =>
      cases heq
      exact absurd habout (hbefore h List.mem_cons_self)
  · exact fun hann => ⟨[], h, rest, rfl, fun x hx => (by cases hx), hann⟩

/-- Any other header is passed over. -/
theorem firstAnnounces_cons_of_not {h : Bytes} (hnot : ¬ AboutBody h) (rest : List Bytes) :
    FirstAnnounces (h :: rest) ↔ FirstAnnounces rest := by
  constructor
  · rintro ⟨before, x, after, heq, hbefore, hx⟩
    cases before with
    | nil =>
      cases heq
      exact absurd (hx.elim .inr (fun hx => .inl hx.1)) hnot
    | cons y before =>
      cases heq
      exact ⟨before, x, after, rfl, fun y hy => hbefore y (List.mem_cons_of_mem _ hy), hx⟩
  · rintro ⟨before, x, after, rfl, hbefore, hx⟩
    refine ⟨h :: before, x, after, rfl, ?_, hx⟩
    intro y hy
    rcases List.mem_cons.mp hy with rfl | hy
    · exact hnot
    · exact hbefore y hy

/-- **The decision**: a body is announced by the first header that is about one. -/
theorem requestHasBody_iff {headers : List Bytes} :
    requestHasBody headers = true ↔ FirstAnnounces headers := by
  induction headers with
  | nil =>
    refine ⟨fun h => (by cases h), ?_⟩
    rintro ⟨before, h, after, heq, -⟩
    cases before <;> cases heq
  | cons h rest ih =>
    rw [requestHasBody]
    by_cases hlen : Named "content-length" h
    · -- a length is final, whatever its value is
      rw [if_pos (isLength_iff.mpr hlen), firstAnnounces_cons_of_about (.inl hlen),
        announces_length hlen]
      by_cases hvalue : headerValue h = []
      · rw [if_pos hvalue]
        simp [hvalue]
      · rw [if_neg hvalue]
        cases hint : pyInt (headerValue h) with
        | none => simp [hvalue]
        | some n => simp [hvalue]
    · rw [if_neg (fun h => hlen (isLength_iff.mp h))]
      by_cases henc : Named "transfer-encoding" h
      · rw [if_pos (isEncoding_iff.mpr henc), firstAnnounces_cons_of_about (.inr henc)]
        exact ⟨fun _ => .inl henc, fun _ => rfl⟩
      · rw [if_neg (fun h => henc (isEncoding_iff.mp h)), ih]
        exact (firstAnnounces_cons_of_not (fun habout => habout.elim hlen henc) rest).symm

/-- **A request with a body is sent once**, exactly when the first of its headers that is about
a body announces it. -/
theorem body_promise_iff (headers : List Bytes) :
    BodyPromise headers ↔ (∀ h ∈ headers, ¬ Announces h) ∨ FirstAnnounces headers := by
  constructor
  · intro h
    by_cases hann : ∃ x ∈ headers, Announces x
    · exact .inr (requestHasBody_iff.mp (h hann).1)
    · push Not at hann
      exact .inl hann
  · rintro (hnone | hfirst) ⟨x, hx, hann⟩
    · exact absurd hann (hnone x hx)
    · have hbody := requestHasBody_iff.mpr hfirst
      refine ⟨hbody, fun lib method url s hrun => ?_⟩
      have hle := Retry.attempts_le hrun
      rwa [Retry.retries, if_pos hbody] at hle

/-- A length of zero in front of an encoding. -/
def zeroThenChunked : List Bytes :=
  [ascii "Content-Length: 0" ++ crlf, ascii "Transfer-Encoding: chunked" ++ crlf]

/-- The length in front of the encoding decides: three upstreams get the request. -/
theorem chunked_replayed :
    ¬ ∀ headers : List Bytes, BodyPromise headers := by
  intro hall
  have hann : ∃ h ∈ zeroThenChunked, Announces h :=
    ⟨_, List.mem_cons_of_mem _ List.mem_cons_self, .inl (by decide +kernel)⟩
  obtain ⟨s, hs, hend⟩ := Machine.exists_reaches_of_exec (G := Machine.anyStep)
    (M := Retry.machine sampleLib (ascii "POST") samplePost.url zeroThenChunked)
    (s := Retry.start sampleLib samplePost.url zeroThenChunked)
    (g := fun _ _ _ => true)
    (l := [.connected true, .sent, .noHead, .slept, .connected true, .sent, .noHead, .slept,
      .connected true, .sent])
    (p := fun s => Retry.attempts s.trace = 3)
    (fun _ _ _ _ => trivial) (by decide +kernel)
  have hone := (hall _ hann).2 _ _ _ s hs
  rw [of_decide_eq_true hend] at hone
  omega

end HuntProxy
