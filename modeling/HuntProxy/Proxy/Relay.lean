import HuntProxy.Lib.Machine
import HuntProxy.Proxy.Http

/-!
# The relay

`_relay` copies both directions of a tunnel with one loop each. A loop that reaches the end of
its source closes the connection that it writes to, which is the connection that the other loop
reads from, and `_relay`, which waits for the first loop only, cancels the other one. What the
other side has not sent by then, and what has arrived but is not read, is lost.

A connection delivers what is written to it, also when it is closed afterwards, and there is no
socket error and no cancellation from outside.

## Main definitions

- `Pipe`, `Relay`, `Relay.step` — the loops, and what can happen between their awaits
- `Relay.Lossless` — everything is delivered, and counted
- `Relay.Careful` — no loop ends while the other direction has something left

## Main results

- `Relay.Flow.stream` — a direction loses nothing before its loop ends
- `Relay.delivered_eq` — what a direction has delivered when nothing of it is left
- `Relay.lossless_iff` — when a relay that has returned is lossless
- `Relay.half_close_loses` — a relay that is not
-/

namespace HuntProxy

/-- The two directions: client to upstream, and upstream to client. -/
inductive Dir
  | c2u
  | u2c
  deriving DecidableEq, Repr

/-- The other direction. -/
def Dir.other : Dir → Dir
  | .c2u => .u2c
  | .u2c => .c2u

@[simp] theorem Dir.other_other (d : Dir) : d.other.other = d := by cases d <;> rfl

@[simp] theorem Dir.other_ne (d : Dir) : d.other ≠ d := by cases d <;> decide

/-- Where a loop is: before or in its `read`, in its `drain`, or over. -/
inductive PipePc
  | reading
  | draining
  | ended
  deriving DecidableEq, Repr

/-- One direction: what its source is still to send, the buffer of the reader, whether the reader
is at the end, whether the relay has closed the connection that it reads from, the loop, the
counters, and what has been written to the other side. -/
structure Pipe where
  rest : Bytes
  buf : Bytes
  eof : Bool
  closed : Bool
  pc : PipePc
  count : ℕ
  live : ℕ
  delivered : Bytes
  deriving DecidableEq

/-- Both directions, and the result of `_relay`. -/
structure Relay where
  pipes : Dir → Pipe
  returned : Option (ℕ × ℕ)

/-- Bytes arrive, a source ends, a closed connection is reported to its reader, a loop takes its
next step, its `drain` returns, it is cancelled, or `_relay` returns. -/
inductive RelayEvent
  | arrive (d : Dir) (n : ℕ)
  | sourceEnds (d : Dir)
  | connectionLost (d : Dir)
  | read (d : Dir)
  | drained (d : Dir)
  | cancel (d : Dir)
  | ret

/-- The size of a read. -/
def readSize : ℕ := 65536

namespace Relay

/-- A relay of two streams, with the live counters of the process. -/
def start (sent : Dir → Bytes) (live : Dir → ℕ) : Relay :=
  ⟨fun d => ⟨sent d, [], false, false, .reading, 0, live d, []⟩, none⟩

/-- Change one direction. -/
def set (s : Relay) (d : Dir) (p : Pipe) : Relay :=
  { s with pipes := fun d' => if d' = d then p else s.pipes d' }

/-- A loop is over: it closes the connection that it writes to. -/
def endPipe (s : Relay) (d : Dir) : Relay :=
  (s.set d { s.pipes d with pc := .ended }).set d.other { s.pipes d.other with closed := true }

/-- The transition function. -/
def step (s : Relay) (a : RelayEvent) : Option Relay :=
  if s.returned.isSome then none
  else
    match a with
    | .arrive d n =>
      let p := s.pipes d
      if p.closed = false ∧ p.eof = false ∧ 0 < n ∧ n ≤ p.rest.length then
        some (s.set d { p with buf := p.buf ++ p.rest.take n, rest := p.rest.drop n })
      else none
    | .sourceEnds d =>
      let p := s.pipes d
      if p.closed = false ∧ p.rest = [] then some (s.set d { p with eof := true }) else none
    | .connectionLost d =>
      let p := s.pipes d
      if p.closed then some (s.set d { p with eof := true }) else none
    | .read d =>
      let p := s.pipes d
      if p.pc = .reading then
        if p.buf = [] then
          if p.eof then some (s.endPipe d) else none
        else
          let data := p.buf.take readSize
          some (s.set d { p with
            buf := p.buf.drop readSize
            pc := .draining
            count := p.count + data.length
            live := p.live + data.length
            delivered := p.delivered ++ data })
      else none
    | .drained d =>
      let p := s.pipes d
      if p.pc = .draining then some (s.set d { p with pc := .reading }) else none
    -- the first loop to end takes the other one with it
    | .cancel d =>
      if (s.pipes d).pc ≠ .ended ∧ (s.pipes d.other).pc = .ended then some (s.endPipe d) else none
    | .ret =>
      if (s.pipes .c2u).pc = .ended ∧ (s.pipes .u2c).pc = .ended then
        some { s with returned := some ((s.pipes .c2u).count, (s.pipes .u2c).count) }
      else none

/-- The machine. -/
def machine : Machine Relay RelayEvent := ⟨step⟩

/-- All bytes of both sides are delivered in order, and the result counts them. -/
def Lossless (sent : Dir → Bytes) (s : Relay) : Prop :=
  (∀ d, (s.pipes d).delivered = sent d) ∧
    s.returned = some ((s.pipes .c2u).delivered.length, (s.pipes .u2c).delivered.length)

/-- A loop that ends finds that everything of the other direction has arrived, and a loop that is
cancelled has read everything that has arrived. -/
def Careful : Machine.Guard Relay RelayEvent := fun s a _ =>
  match a with
  | .read d => (s.pipes d).buf = [] → (s.pipes d.other).rest = []
  | .cancel d => (s.pipes d).buf = []
  | _ => True

instance (s s' : Relay) (a : RelayEvent) : Decidable (Careful s a s') :=
  match a with
  | .read d => inferInstanceAs
      (Decidable ((s.pipes d).buf = [] → (s.pipes d.other).rest = []))
  | .cancel d => inferInstanceAs (Decidable ((s.pipes d).buf = []))
  | .arrive _ _ => .isTrue trivial
  | .sourceEnds _ => .isTrue trivial
  | .connectionLost _ => .isTrue trivial
  | .drained _ => .isTrue trivial
  | .ret => .isTrue trivial

/-! ### One direction -/

/-- What holds of a direction that is to transport `sent`. -/
structure Flow (sent : Bytes) (live : ℕ) (p : Pipe) : Prop where
  stream : p.delivered ++ p.buf ++ p.rest = sent
  count : p.count = p.delivered.length
  live : p.live = live + p.count
  eof : p.eof = true → p.rest = [] ∨ p.closed = true
  ended : p.pc = .ended → p.eof = true ∨ p.closed = true

/-- Nothing has been lost: a closed connection had nothing left, and a loop that is over has read
everything. -/
structure Kept (p : Pipe) : Prop where
  rest : p.closed = true → p.rest = []
  buf : p.pc = .ended → p.buf = []

/-- What holds of a relay in all runs. -/
structure Inv (sent : Dir → Bytes) (live : Dir → ℕ) (s : Relay) : Prop where
  flow : ∀ d, Flow (sent d) (live d) (s.pipes d)
  closed : ∀ d, (s.pipes d).pc = .ended → (s.pipes d.other).closed = true
  returned : ∀ counts, s.returned = some counts →
    counts = ((s.pipes .c2u).count, (s.pipes .u2c).count) ∧ ∀ d, (s.pipes d).pc = .ended

section

variable {sent : Dir → Bytes} {live : Dir → ℕ} {s s' : Relay}

@[simp] theorem pipes_set_self (s : Relay) (d : Dir) (p : Pipe) : (s.set d p).pipes d = p :=
  if_pos rfl

theorem pipes_set_of_ne (s : Relay) {d d' : Dir} (h : d' ≠ d) (p : Pipe) :
    (s.set d p).pipes d' = s.pipes d' :=
  if_neg h

theorem pipes_endPipe (s : Relay) (d : Dir) :
    (s.endPipe d).pipes d = { s.pipes d with pc := .ended } := by
  rw [endPipe, pipes_set_of_ne _ (Ne.symm d.other_ne), pipes_set_self]

theorem pipes_endPipe_other (s : Relay) (d : Dir) :
    (s.endPipe d).pipes d.other = { s.pipes d.other with closed := true } := by
  rw [endPipe, pipes_set_self]

theorem eq_or_eq_other (d d' : Dir) : d' = d ∨ d' = d.other := by
  cases d <;> cases d' <;> simp [Dir.other]

/-- What holds of both directions, when one is changed. -/
theorem forall_set {P : Dir → Pipe → Prop} {d : Dir} {p : Pipe} (hp : P d p)
    (h : P d.other (s.pipes d.other)) : ∀ d', P d' ((s.set d p).pipes d') := by
  intro d'
  rcases eq_or_eq_other d d' with rfl | rfl
  · rwa [pipes_set_self]
  · rwa [pipes_set_of_ne _ d.other_ne]

/-- What holds of both directions, when a loop ends. -/
theorem forall_endPipe {P : Dir → Pipe → Prop} {d : Dir} (hd : P d { s.pipes d with pc := .ended })
    (ho : P d.other { s.pipes d.other with closed := true }) :
    ∀ d', P d' ((s.endPipe d).pipes d') := by
  intro d'
  rcases eq_or_eq_other d d' with rfl | rfl
  · rwa [pipes_endPipe]
  · rwa [pipes_endPipe_other]

/-! ### Steps -/

/-- What a step does, and when. -/
inductive Taken (s : Relay) : RelayEvent → Relay → Prop
  | arrive {d n} (open_ : (s.pipes d).closed = false) (more : (s.pipes d).eof = false)
      (some_ : 0 < n) (sent : n ≤ (s.pipes d).rest.length) :
      Taken s (.arrive d n) (s.set d { s.pipes d with
        buf := (s.pipes d).buf ++ (s.pipes d).rest.take n, rest := (s.pipes d).rest.drop n })
  | sourceEnds {d} (open_ : (s.pipes d).closed = false) (rest : (s.pipes d).rest = []) :
      Taken s (.sourceEnds d) (s.set d { s.pipes d with eof := true })
  | connectionLost {d} (closed : (s.pipes d).closed = true) :
      Taken s (.connectionLost d) (s.set d { s.pipes d with eof := true })
  | read {d} (reading : (s.pipes d).pc = .reading) (buf : (s.pipes d).buf ≠ []) :
      Taken s (.read d) (s.set d { s.pipes d with
        buf := (s.pipes d).buf.drop readSize
        pc := .draining
        count := (s.pipes d).count + ((s.pipes d).buf.take readSize).length
        live := (s.pipes d).live + ((s.pipes d).buf.take readSize).length
        delivered := (s.pipes d).delivered ++ (s.pipes d).buf.take readSize })
  | ends {d} (reading : (s.pipes d).pc = .reading) (buf : (s.pipes d).buf = [])
      (eof : (s.pipes d).eof = true) : Taken s (.read d) (s.endPipe d)
  | drained {d} (draining : (s.pipes d).pc = .draining) :
      Taken s (.drained d) (s.set d { s.pipes d with pc := .reading })
  | cancel {d} (running : (s.pipes d).pc ≠ .ended) (ended : (s.pipes d.other).pc = .ended) :
      Taken s (.cancel d) (s.endPipe d)
  | ret (c2u : (s.pipes .c2u).pc = .ended) (u2c : (s.pipes .u2c).pc = .ended) :
      Taken s .ret { s with returned := some ((s.pipes .c2u).count, (s.pipes .u2c).count) }

/-- **Inversion lemma** of the transition function. -/
theorem step_cases {a : RelayEvent} (hs : s.step a = some s') :
    s.returned = none ∧ Taken s a s' := by
  unfold Relay.step at hs
  split at hs
  · cases hs
  next hreturned =>
  refine ⟨by simpa using hreturned, ?_⟩
  cases a with
  | arrive d n =>
    obtain ⟨⟨hopen, hmore, hpos, hsent⟩, hs⟩ := Option.ite_none_right_eq_some.mp hs
    cases hs
    exact .arrive hopen hmore hpos hsent
  | sourceEnds d =>
    obtain ⟨⟨hopen, hrest⟩, hs⟩ := Option.ite_none_right_eq_some.mp hs
    cases hs
    exact .sourceEnds hopen hrest
  | connectionLost d =>
    obtain ⟨hclosed, hs⟩ := Option.ite_none_right_eq_some.mp hs
    cases hs
    exact .connectionLost hclosed
  | read d =>
    obtain ⟨hreading, hs⟩ := Option.ite_none_right_eq_some.mp hs
    split at hs
    · next hbuf =>
      obtain ⟨heof, hs⟩ := Option.ite_none_right_eq_some.mp hs
      cases hs
      exact .ends hreading hbuf heof
    · next hbuf =>
      cases hs
      exact .read hreading hbuf
  | drained d =>
    obtain ⟨hdraining, hs⟩ := Option.ite_none_right_eq_some.mp hs
    cases hs
    exact .drained hdraining
  | cancel d =>
    obtain ⟨⟨hrunning, hended⟩, hs⟩ := Option.ite_none_right_eq_some.mp hs
    cases hs
    exact .cancel hrunning hended
  | ret =>
    obtain ⟨⟨hc2u, hu2c⟩, hs⟩ := Option.ite_none_right_eq_some.mp hs
    cases hs
    exact .ret hc2u hu2c

/-! ### All runs -/

theorem Inv.set (h : s.Inv sent live) (hrun : s.returned = none) {d : Dir} {p : Pipe}
    (hflow : Flow (sent d) (live d) p) (hclosed : p.closed = (s.pipes d).closed)
    (hended : p.pc = .ended → (s.pipes d).pc = .ended) : (s.set d p).Inv sent live where
  flow := forall_set hflow (h.flow d.other)
  closed d' hd' := by
    rcases eq_or_eq_other d d' with rfl | rfl
    · rw [pipes_set_self] at hd'
      rw [pipes_set_of_ne _ d'.other_ne]
      exact h.closed d' (hended hd')
    · rw [pipes_set_of_ne _ d.other_ne] at hd'
      rw [Dir.other_other, pipes_set_self, hclosed]
      simpa using h.closed d.other hd'
  returned counts hcounts := by
    rw [show (s.set d p).returned = s.returned from rfl, hrun] at hcounts
    cases hcounts

theorem Inv.endPipe (h : s.Inv sent live) (hrun : s.returned = none) {d : Dir}
    (hend : (s.pipes d).eof = true ∨ (s.pipes d).closed = true) :
    (s.endPipe d).Inv sent live where
  flow := by
    obtain ⟨hstream, hcount, hlive, heof, -⟩ := h.flow d
    obtain ⟨hstream', hcount', hlive', -, -⟩ := h.flow d.other
    exact forall_endPipe ⟨hstream, hcount, hlive, heof, fun _ => hend⟩
      ⟨hstream', hcount', hlive', fun _ => .inr rfl, fun _ => .inr rfl⟩
  closed d' hd' := by
    rcases eq_or_eq_other d d' with rfl | rfl
    · rw [pipes_endPipe_other]
    · rw [pipes_endPipe_other] at hd'
      rw [Dir.other_other, pipes_endPipe]
      simpa using h.closed d.other hd'
  returned counts hcounts := by
    rw [show (s.endPipe d).returned = s.returned from rfl, hrun] at hcounts
    cases hcounts

/-- **Step lemma**: no direction loses a byte, or counts one that is not delivered, before its loop
is over. -/
theorem Inv.step (h : s.Inv sent live) {a : RelayEvent} (hs : s.step a = some s') :
    s'.Inv sent live := by
  obtain ⟨hrun, htaken⟩ := step_cases hs
  cases htaken with
  | @arrive d n hopen hmore _ _ =>
    obtain ⟨hstream, hcount, hlive, heof, hended⟩ := h.flow d
    refine h.set hrun ⟨?_, hcount, hlive, fun he => ?_, hended⟩ rfl id
    · dsimp only
      rw [← hstream, List.append_assoc, List.append_assoc, List.append_assoc,
        List.take_append_drop]
    · exact absurd (hmore.symm.trans he) Bool.false_ne_true
  | @sourceEnds d _ hrest =>
    obtain ⟨hstream, hcount, hlive, heof, hended⟩ := h.flow d
    exact h.set hrun ⟨hstream, hcount, hlive, fun _ => .inl hrest, fun _ => .inl rfl⟩ rfl id
  | @connectionLost d hclosed =>
    obtain ⟨hstream, hcount, hlive, heof, hended⟩ := h.flow d
    exact h.set hrun ⟨hstream, hcount, hlive, fun _ => .inr hclosed, fun _ => .inl rfl⟩ rfl id
  | @read d _ _ =>
    obtain ⟨hstream, hcount, hlive, heof, hended⟩ := h.flow d
    refine h.set hrun ⟨?_, ?_, ?_, heof, fun he => by cases he⟩ rfl (fun he => by cases he)
    · dsimp only
      rw [← hstream, List.append_assoc _ (List.take _ _), List.take_append_drop]
    · simp [hcount]
    · dsimp only
      rw [hlive, Nat.add_assoc]
  | ends _ _ heof =>
    -- the end of the source closes the connection that the other loop reads from
    exact h.endPipe hrun (.inl heof)
  | @drained d _ =>
    obtain ⟨hstream, hcount, hlive, heof, -⟩ := h.flow d
    exact h.set hrun ⟨hstream, hcount, hlive, heof, (fun he => by cases he)⟩ rfl
      (fun he => by cases he)
  | @cancel d _ hended =>
    refine h.endPipe hrun (.inr ?_)
    simpa using h.closed d.other hended
  | ret hc2u hu2c =>
    refine ⟨h.flow, h.closed, fun counts hcounts => ⟨(Option.some.inj hcounts).symm, ?_⟩⟩
    intro d
    cases d with
    | c2u => exact hc2u
    | u2c => exact hu2c

theorem start_inv (sent : Dir → Bytes) (live : Dir → ℕ) : (start sent live).Inv sent live where
  flow _ := ⟨rfl, rfl, rfl, (fun h => by cases h), (fun h => by cases h)⟩
  closed _ h := by cases h
  returned _ h := by cases h

/-- **A direction that has been copied** has delivered everything, in any run. -/
theorem delivered_eq (h : machine.Reaches Machine.anyStep (start sent live) s) {d : Dir}
    (hbuf : (s.pipes d).buf = []) (hrest : (s.pipes d).rest = []) :
    (s.pipes d).delivered = sent d := by
  have hinv := h.invariant (start_inv sent live) (fun _ _ _ hI hs _ => hI.step hs)
  rw [← (hinv.flow d).stream, hbuf, hrest, List.append_nil, List.append_nil]

/-! ### Careful runs -/

/-- Nothing has been lost in either direction. -/
def Intact (s : Relay) : Prop := ∀ d, Kept (s.pipes d)

/-- A careful step loses nothing. -/
theorem Intact.step (h : s.Intact) (hI : s.Inv sent live) {a : RelayEvent}
    (hs : s.step a = some s') (hcareful : Careful s a s') : s'.Intact := by
  cases (step_cases hs).2 with
  | @arrive d n hopen hmore _ _ =>
    refine forall_set ⟨fun hc => ?_, fun he => ?_⟩ (h d.other)
    · exact absurd (hopen.symm.trans hc) Bool.false_ne_true
    · rcases (hI.flow d).ended he with heof | hclosed
      · exact absurd (hmore.symm.trans heof) Bool.false_ne_true
      · exact absurd (hopen.symm.trans hclosed) Bool.false_ne_true
  | @sourceEnds d _ _ => exact forall_set ⟨(h d).rest, (h d).buf⟩ (h d.other)
  | @connectionLost d _ => exact forall_set ⟨(h d).rest, (h d).buf⟩ (h d.other)
  | @read d _ _ => exact forall_set ⟨(h d).rest, fun he => by cases he⟩ (h d.other)
  | @ends d _ hbuf _ =>
    exact forall_endPipe ⟨(h d).rest, fun _ => hbuf⟩ ⟨fun _ => hcareful hbuf, (h d.other).buf⟩
  | @drained d _ => exact forall_set ⟨(h d).rest, fun he => by cases he⟩ (h d.other)
  | @cancel d _ hended =>
    refine forall_endPipe ⟨(h d).rest, fun _ => hcareful⟩ ⟨fun _ => ?_, (h d.other).buf⟩
    -- the loop that is over has come to its end, or had been cut off with nothing left
    rcases (hI.flow d.other).ended hended with heof | hclosed
    · exact ((hI.flow d.other).eof heof).elim id (h d.other).rest
    · exact (h d.other).rest hclosed
  | ret _ _ => exact h

/-- A step after which nothing is lost was careful, and nothing was lost before. -/
theorem Intact.of_step (h : s'.Intact) {a : RelayEvent} (hs : s.step a = some s') :
    Careful s a s' ∧ s.Intact := by
  have hset {d : Dir} {p : Pipe} (hset : s' = s.set d p) (hp : Kept p → Kept (s.pipes d)) :
      s.Intact := by
    subst hset
    intro d'
    have hd' := h d'
    rcases eq_or_eq_other d d' with rfl | rfl
    · rw [pipes_set_self] at hd'
      exact hp hd'
    · rwa [pipes_set_of_ne _ d.other_ne] at hd'
  have hend {d : Dir} (hend : s' = s.endPipe d) :
      ((s.pipes d).buf = [] ∧ (s.pipes d.other).rest = []) ∧ s.Intact := by
    subst hend
    have hd := h d
    have ho := h d.other
    rw [pipes_endPipe] at hd
    rw [pipes_endPipe_other] at ho
    refine ⟨⟨hd.buf rfl, ho.rest rfl⟩, fun d' => ?_⟩
    rcases eq_or_eq_other d d' with rfl | rfl
    · exact ⟨hd.rest, fun _ => hd.buf rfl⟩
    · exact ⟨fun _ => ho.rest rfl, ho.buf⟩
  cases (step_cases hs).2 with
  | arrive hopen _ _ _ =>
    refine ⟨trivial, hset rfl (fun hp => ⟨fun hc => ?_, fun he => ?_⟩)⟩
    · exact absurd (hopen.symm.trans hc) Bool.false_ne_true
    · exact (List.append_eq_nil_iff.mp (hp.buf he)).1
  | sourceEnds _ _ => exact ⟨trivial, hset rfl (fun hp => ⟨hp.rest, hp.buf⟩)⟩
  | connectionLost _ => exact ⟨trivial, hset rfl (fun hp => ⟨hp.rest, hp.buf⟩)⟩
  | read hreading hbuf =>
    refine ⟨fun hnil => absurd hnil hbuf, hset rfl (fun hp => ⟨hp.rest, fun he => ?_⟩)⟩
    rw [hreading] at he
    cases he
  | ends _ _ _ => exact ⟨fun _ => (hend rfl).1.2, (hend rfl).2⟩
  | drained hdraining =>
    refine ⟨trivial, hset rfl (fun hp => ⟨hp.rest, fun he => ?_⟩)⟩
    rw [hdraining] at he
    cases he
  | cancel _ _ => exact ⟨(hend rfl).1.1, (hend rfl).2⟩
  | ret _ _ => exact ⟨trivial, h⟩

/-- A relay that has returned is lossless when nothing has been lost. -/
theorem Inv.lossless_iff_intact (h : s.Inv sent live) (hret : s.returned.isSome = true) :
    s.Lossless sent ↔ s.Intact := by
  obtain ⟨counts, hcounts⟩ := Option.isSome_iff_exists.mp hret
  obtain ⟨rfl, hended⟩ := h.returned counts hcounts
  constructor
  · intro hlossless d
    have hstream := (h.flow d).stream
    rw [hlossless.1 d, List.append_assoc, List.append_right_eq_self] at hstream
    obtain ⟨hbuf, hrest⟩ := List.append_eq_nil_iff.mp hstream
    exact ⟨fun _ => hrest, fun _ => hbuf⟩
  · intro hintact
    refine ⟨fun d => ?_, ?_⟩
    · have hbuf := (hintact d).buf (hended d)
      have hrest : (s.pipes d).rest = [] := by
        rcases (h.flow d).ended (hended d) with heof | hclosed
        · exact ((h.flow d).eof heof).elim id (hintact d).rest
        · exact (hintact d).rest hclosed
      have hstream := (h.flow d).stream
      rwa [hbuf, hrest, List.append_nil, List.append_nil] at hstream
    · rw [hcounts, (h.flow .c2u).count, (h.flow .u2c).count]

/-- **When the relay is lossless**: a relay that has returned has delivered all bytes of both
sides in order, and counts them, if and only if it can be reached by steps in which every loop
that ends finds that everything of the other direction has arrived, and every loop that is
cancelled has read everything that has arrived. -/
theorem lossless_iff {sent : Dir → Bytes} {live : Dir → ℕ} {s : Relay}
    (h : machine.Reaches Machine.anyStep (start sent live) s) (hret : s.returned.isSome = true) :
    s.Lossless sent ↔ machine.Reaches Careful (start sent live) s := by
  have hinv := h.invariant (start_inv sent live) (fun _ _ _ hI hs _ => hI.step hs)
  rw [hinv.lossless_iff_intact hret]
  constructor
  · exact fun hintact => h.of_last (start_inv sent live) (fun _ _ _ hI hs => hI.step hs)
      (fun _ _ _ _ hs hP => Intact.of_step hP hs) hintact
  · intro hcareful
    have hstart : (start sent live).Intact :=
      fun _ => ⟨(fun hc => by cases hc), (fun he => by cases he)⟩
    exact (hcareful.invariant (I := fun s => s.Inv sent live ∧ s.Intact)
      ⟨start_inv sent live, hstart⟩
      (fun _ _ _ hI hs hg => ⟨hI.1.step hs, hI.2.step hI.1 hs hg⟩)).2

end

/-! ### A request and its response -/

/-- The client sends one byte, and the upstream sends two. -/
def request : Dir → Bytes
  | .c2u => [1]
  | .u2c => [2, 3]

/-- The request is copied. -/
def copied : List RelayEvent := [.arrive .c2u 1, .sourceEnds .c2u, .read .c2u, .drained .c2u]

theorem lossless_iff_response :
    ∃ s : Relay, s.Lossless request ∧ s.returned = some (1, 2) := by
  have hrun : (machine.exec (fun s a s' => decide (Careful s a s')) (start request (fun _ => 0))
      (copied ++ [.arrive .u2c 2, .sourceEnds .u2c, .read .u2c, .drained .u2c, .read .c2u,
        .cancel .u2c, .ret])).any (fun s => decide (s.returned = some (1, 2))) = true := by decide
  obtain ⟨s, hs, hp⟩ := Machine.exists_reaches_of_exec (G := Careful)
    (fun _ _ _ => of_decide_eq_true) hrun
  have hreturned : s.returned = some (1, 2) := of_decide_eq_true hp
  refine ⟨s, (lossless_iff (hs.mono (fun _ _ _ _ => trivial)) ?_).mpr hs, hreturned⟩
  rw [hreturned]
  rfl

/-- The client has sent its request and closes its side: the response is not delivered. -/
theorem half_close_loses :
    ¬ ∀ (sent : Dir → Bytes) (live : Dir → ℕ) (s : Relay),
      machine.Reaches Machine.anyStep (start sent live) s → s.returned.isSome = true →
        s.Lossless sent := by
  intro hall
  have hrun : (machine.exec (fun _ _ _ => true) (start request (fun _ => 0))
      (copied ++ [.read .c2u, .cancel .u2c, .ret])).any (fun s =>
        s.returned.isSome && !decide ((s.pipes .u2c).delivered = request .u2c)) = true := by decide
  obtain ⟨s, hs, hp⟩ := Machine.exists_reaches_of_exec (G := Machine.anyStep)
    (fun _ _ _ _ => trivial) hrun
  simp only [Bool.and_eq_true, Bool.not_eq_true', decide_eq_false_iff_not] at hp
  exact hp.2 ((hall request _ s hs hp.1).1 .u2c)

end Relay

end HuntProxy
