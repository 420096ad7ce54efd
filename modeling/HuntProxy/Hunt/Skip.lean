import HuntProxy.Hunt.Engine

/-!
# Skipping a phase

`skip_phase` sets one event, `_skip_event`. Every download of lists and every validation
watches it while it waits for its own tasks: those of the hunt's phases, of the scheduled
runs, of the HTTP handlers and of the refresh loop. Only a wait that is cut short clears the
event; a wait whose tasks are done when it resumes leaves it as it is.

Each call that sets the event is remembered, as a ghost, in every wait that it wakes, so
that a wait that is cut short is recorded together with the call that has cut it. In the
runs of this module's condition a call cuts short nothing but the phase that it was
accepted in.

## Main definitions

- `SkipWait` — a wait of `_gather_skip_aware` or of `_validate_all`
- `SkipEngine`, `SkipEngine.step` — the hunts and the waits, with the event they share
- `SkipEngine.pending` — the calls that can still cut something short
- `SkipEngine.Confined` — the condition of this module

## Main results

- `SkipEngine.Inv.advance`, `SkipEngine.Inv.step` — what a step under the condition keeps
- `SkipEngine.skip_own_phase` — a call cuts short at most its own phase
- `SkipEngine.next_phase_cut` — a call and the last task of a phase in the same round
-/

namespace HuntProxy

/-- An accepted call of `skip_phase`: the hunt and the phase it was accepted in. -/
structure SkipCall where
  hunt : ℕ
  phase : Phase
  deriving DecidableEq, Repr

/-- Who waits: a hunt in one of its phases, or a scheduled run, an HTTP handler or the
refresh loop. -/
inductive Waiter
  | hunt (h : ℕ) (phase : Phase)
  | outside
  deriving DecidableEq, Repr

/-- The only waiter that a call is meant for. -/
def SkipCall.waiter (c : SkipCall) : Waiter := .hunt c.hunt c.phase

/-- What is waited for: the tasks of a download, or the workers of a validation. -/
inductive Work
  | sources
  | ipBlacklists
  | blocklists
  | validation
  deriving DecidableEq, Repr

/-- `skip_task`, which awaits the event. When it is done it remembers the call that had set
the event. -/
inductive SkipTask
  | unstarted
  | waiting
  | done (call : SkipCall)
  deriving DecidableEq, Repr

/-- Where the waiting task is suspended: at `asyncio.wait`, at the await of the tasks it has
cancelled, at the await of the workers of a completed validation, or past all of them. -/
inductive SkipWaitPc
  | waiting
  | cutting
  | draining
  | ended
  deriving DecidableEq, Repr

/-- A wait of `_gather_skip_aware` or of `_validate_all`. `worked` says that `gather_task`,
or `complete_task`, is done. -/
structure SkipWait where
  waiter : Waiter
  work : Work
  skipTask : SkipTask := .unstarted
  worked : Bool := false
  pc : SkipWaitPc := .waiting
  deriving DecidableEq, Repr

namespace SkipWait

/-- The wait can still be cut short. -/
def exposed (w : SkipWait) : Bool := decide (w.pc = .waiting) && !w.worked

/-- `Event.set` resolves the waiters of the event. -/
def notify (w : SkipWait) (call : SkipCall) : SkipWait :=
  match w.skipTask with
  | .waiting => { w with skipTask := .done call }
  | _ => w

/-- The first step of `skip_task`: it ends at once when the event is set. -/
def listen (w : SkipWait) (event : Option SkipCall) : SkipWait :=
  match w.skipTask with
  | .unstarted =>
    { w with skipTask := match event with | some call => .done call | none => .waiting }
  | _ => w

/-- The call that is about to cut the wait short. -/
def pending (w : SkipWait) : Option SkipCall :=
  match w.skipTask with
  | .done call => if w.exposed then some call else none
  | _ => none

/-- Where the waiting task goes when it is resumed. `asyncio.wait` returns when one of its
two tasks is done, and for a validation also when the time is over. -/
def next (w : SkipWait) (timedOut : Bool) : Option SkipWaitPc :=
  match w.pc with
  | .waiting =>
    if w.worked then some (if w.work = .validation then .draining else .ended)
    else if w.pending.isSome then some .cutting
    else if timedOut && decide (w.work = .validation) then some .ended else none
  | .cutting => some .ended
  | .draining => some .ended
  | .ended => none

end SkipWait

/-- A subprocess of `_active_dl_procs`, and the wait whose task has started it. -/
structure DownloadProc where
  wait : ℕ
  running : Bool
  deriving DecidableEq, Repr

/-- The engine with the waits that share the event. The ghosts are `setBy`, the call that
has set the event, and `cuts`, the waiters that were cut short, each with the call that has
done it. -/
structure SkipEngine where
  host : HuntState
  waits : List SkipWait
  procs : List DownloadProc
  setBy : SkipCall
  cuts : List (Waiter × SkipCall)

/-- What a hunt does when a wait of it has ended: `_download_blocklists` follows
`_download_ip_blacklists` in the same phase, otherwise the cycle goes on. -/
inductive PhaseInput
  | nextList
  | cycle (inp : CycleInput)
  deriving DecidableEq, Repr

/-- A step: a method of the engine, the end of `manual_start_hunt`, a cancellation, a turn
of a health check or of a hunt outside of a wait; a wait that begins outside of the hunts, a
first step of a `skip_task`, a subprocess that begins or ends, the end of the awaited tasks,
a cancelled wait outside of the hunts; a turn of a waiting task. -/
inductive SkipEvent
  | control (c : Control)
  | manualHunt
  | cancelHunt (h : ℕ)
  | health (k candidates : ℕ)
  | cycle (h : ℕ) (inp : CycleInput)
  | opens (work : Work)
  | noBlocklists
  | listen (k : ℕ)
  | launched (k : ℕ)
  | exited (j : ℕ)
  | worked (k : ℕ)
  | abort (k : ℕ)
  | turn (k : ℕ) (timedOut : Bool) (inp : PhaseInput)

/-- What a call of `skip_phase` is accepted for. -/
def HuntState.skipCall (hs : HuntState) : Option SkipCall :=
  if hs.skipPhase.2 then hs.task.map (fun h => ⟨h, hs.phase⟩) else none

/-- The wait with which a hunt enters its phase. A validation of no address waits for
nothing. -/
def HuntState.opening (hs : HuntState) (h : ℕ) : Option (Waiter × Work) :=
  match (hs.hunts h).pc with
  | .downloading => some (.hunt h .downloading, .sources)
  | .blacklists => some (.hunt h .blacklists, .ipBlacklists)
  | .validating =>
    if hs.checkingTotal = 0 then none else some (.hunt h .validating, .validation)
  | _ => none

namespace SkipEngine

/-- The call that has set the event, when the event is set. -/
def event (e : SkipEngine) : Option SkipCall := if e.host.skipEvent then some e.setBy else none

/-- The calls that can still cut something short: the one that has set the event, and
those that have woken a wait. -/
def pending (e : SkipEngine) : List SkipCall := e.event.toList ++ e.waits.filterMap SkipWait.pending

/-- Replace the attributes of the engine. -/
def withHost (e : SkipEngine) (hs : HuntState) : SkipEngine := { e with host := hs }

/-- Replace a wait. -/
def setWait (e : SkipEngine) (k : ℕ) (w : SkipWait) : SkipEngine :=
  { e with waits := e.waits.set k w }

/-- `skip_phase`. Setting an event that is set does nothing. -/
def skip (e : SkipEngine) : SkipEngine :=
  match e.host.skipCall with
  | none => e
  | some call =>
    if e.host.skipEvent then e.withHost e.host.skipPhase.1
    else
      { e with
        host := e.host.skipPhase.1, setBy := call,
        waits := e.waits.map (fun w => w.notify call) }

/-- A wait begins. A download first replaces the list of the subprocesses. -/
def begin (e : SkipEngine) (waiter : Waiter) (work : Work) : SkipEngine :=
  { e with
    waits := e.waits ++ [{ waiter := waiter, work := work }]
    procs := if work = .validation then e.procs else [] }

/-- The waiters, exposed so far, whose subprocesses `_kill_active_downloads` kills. -/
def killed (e : SkipEngine) : List Waiter :=
  (e.procs.filter DownloadProc.running).filterMap
    (fun p => (e.waits[p.wait]?).bind (fun w => if w.exposed then some w.waiter else none))

/-- The tasks of a wait are cancelled, and those of a download also have the subprocesses
killed. -/
def cut (e : SkipEngine) (k : ℕ) (w : SkipWait) (call : SkipCall) : SkipEngine :=
  if w.work = .validation then
    { e.setWait k { w with pc := .cutting } with cuts := (w.waiter, call) :: e.cuts }
  else
    { e.setWait k { w with pc := .cutting } with
      procs := []
      cuts := (w.waiter, call) :: e.killed.map (fun o => (o, call)) ++ e.cuts }

/-- A wait is left. Only the branch that has cut it short clears the event. -/
def leave (e : SkipEngine) (k : ℕ) (w : SkipWait) : SkipEngine :=
  (if w.pc = .cutting then e.withHost e.host.resetSkip else e).setWait k { w with pc := .ended }

/-- The hunt goes on, up to the wait of its next phase. -/
def cycle (e : SkipEngine) (h : ℕ) (inp : CycleInput) :
    Option (SkipEngine × Option (Waiter × Work)) :=
  (e.host.cycleStep h inp).map (fun q => (e.withHost q.1, q.1.opening h))

/-- The waiter goes on after its wait. -/
def proceed (e : SkipEngine) (w : SkipWait) (inp : PhaseInput) :
    Option (SkipEngine × Option (Waiter × Work)) :=
  match w.waiter, inp with
  | .outside, _ => some (e, none)
  | .hunt h _, .cycle inp => e.cycle h inp
  | .hunt h phase, .nextList =>
    if w.work = .ipBlacklists ∧ (e.host.hunts h).cancelRequested = false then
      some (e, some (.hunt h phase, .blocklists))
    else none

/-- The cancellation of a hunt is delivered at its wait. -/
def cancelled (e : SkipEngine) (w : SkipWait) : Bool :=
  match w.waiter with
  | .hunt h _ => (e.host.hunts h).cancelRequested
  | .outside => false

/-- A turn of the waiting task `k`. -/
def turn (e : SkipEngine) (k : ℕ) (w : SkipWait) (timedOut : Bool) (inp : PhaseInput) :
    Option (SkipEngine × Option (Waiter × Work)) :=
  if w.pc = .ended then none
  else if e.cancelled w then (e.setWait k { w with pc := .ended }).proceed w inp
  else
    match w.next timedOut with
    | none => none
    | some .cutting => w.pending.map (fun call => (e.cut k w call, none))
    | some .ended => (e.leave k w).proceed w inp
    | some pc => some (e.setWait k { w with pc := pc }, none)

/-- Hunt `h` is inside a wait. -/
def inWait (e : SkipEngine) (h : ℕ) : Bool :=
  e.waits.any fun w =>
    decide (w.pc ≠ .ended) && match w.waiter with | .hunt h' _ => h' == h | .outside => false

/-- A method of the engine. The validation pipeline, the canary and the downloads do not
write the event. -/
def controlled (e : SkipEngine) : Control → Option SkipEngine
  | .skipPhase => some e.skip
  | .progress new =>
    if new.skipEvent = e.host.skipEvent then some (e.withHost (e.host.progress new)) else none
  | c => (e.host.control c).map e.withHost

/-- A step as far as the wait that begins with it, if there is one. -/
def advance (e : SkipEngine) : SkipEvent → Option (SkipEngine × Option (Waiter × Work))
  | .control c => (e.controlled c).map (fun e' => (e', none))
  | .manualHunt => some (e.withHost (e.host.resetForHunt.startHunt true).1, none)
  | .cancelHunt h => some (e.withHost (e.host.cancelHunt h), none)
  | .health k candidates =>
    (e.host.healthStep k candidates).map (fun hs => (e.withHost hs, none))
  | .cycle h inp => if e.inWait h then none else e.cycle h inp
  | .opens work => some (e, some (.outside, work))
  | .noBlocklists => some ({ e with procs := [] }, none)
  | .listen k => (e.waits[k]?).map (fun w => (e.setWait k (w.listen e.event), none))
  | .launched k =>
    (e.waits[k]?).bind fun w =>
      if w.worked ∨ w.work = .validation then none
      else some ({ e with procs := e.procs ++ [⟨k, true⟩] }, none)
  | .exited j =>
    (e.procs[j]?).map
      (fun p => ({ e with procs := e.procs.set j { p with running := false } }, none))
  | .worked k =>
    (e.waits[k]?).bind fun w =>
      if e.procs.any (fun p => p.wait == k && p.running) then none
      else some (e.setWait k { w with worked := true }, none)
  | .abort k =>
    (e.waits[k]?).bind fun w =>
      if w.waiter = .outside then some (e.setWait k { w with pc := .ended }, none) else none
  | .turn k timedOut inp => (e.waits[k]?).bind (fun w => e.turn k w timedOut inp)

/-- The wait that a step begins. -/
def opened : SkipEngine × Option (Waiter × Work) → SkipEngine
  | (e, some (waiter, work)) => e.begin waiter work
  | (e, none) => e

/-- The transition function. -/
def step (e : SkipEngine) (a : SkipEvent) : Option SkipEngine := (e.advance a).map opened

/-- The machine of the hunts and the waits. -/
def machine : Machine SkipEngine SkipEvent := ⟨step⟩

/-- Nothing is waited for, and nothing is to be skipped. -/
structure Initial (e : SkipEngine) : Prop where
  waits : e.waits = []
  event : e.host.skipEvent = false
  cuts : e.cuts = []

/-! ### The condition -/

/-- A call that sets the event finds no wait to be cut short but those of its own phase. -/
def wakesOwn (e : SkipEngine) : SkipEvent → Bool
  | .control .skipPhase =>
    e.host.skipEvent || match e.host.skipCall with
      | none => true
      | some call => e.waits.all (fun w => !w.exposed || decide (w.waiter = call.waiter))
  | _ => true

/-- A wait begins only when every call that is still pending was accepted in its phase. -/
def opensClear : Option (SkipEngine × Option (Waiter × Work)) → Bool
  | some (e, some (waiter, _)) => e.pending.all (fun call => decide (waiter = call.waiter))
  | _ => true

/-- The condition of this module, as a guard on runs. -/
def Confined : Machine.Guard SkipEngine SkipEvent :=
  fun e a _ => (e.wakesOwn a && opensClear (e.advance a)) = true

/-- A call cuts short nothing but its own phase. -/
def OwnPhase (e : SkipEngine) : Prop := ∀ q ∈ e.cuts, q.1 = q.2.waiter

/-! ### The event along the methods of the engine -/

end SkipEngine

namespace HuntState

variable {hs hs' : HuntState}

theorem cancelHunt_skipEvent (hs : HuntState) (h : ℕ) :
    (hs.cancelHunt h).skipEvent = hs.skipEvent := by
  unfold cancelHunt
  split <;> rfl

theorem startHunt_skipEvent (hs : HuntState) (manual : Bool) :
    (hs.startHunt manual).1.skipEvent = hs.skipEvent := by
  unfold startHunt
  split
  · rfl
  · split <;> rfl

theorem stopHunt_skipEvent (hs : HuntState) : hs.stopHunt.skipEvent = hs.skipEvent := by
  change hs.cancelTask.skipEvent = _
  unfold cancelTask
  split
  · rfl
  · exact hs.cancelHunt_skipEvent _

theorem cancelHealth_skipEvent (hs : HuntState) (k : ℕ) :
    (hs.cancelHealth k).skipEvent = hs.skipEvent := by
  unfold cancelHealth
  split <;> rfl

theorem stopHealth_skipEvent (hs : HuntState) : hs.stopHealth.skipEvent = hs.skipEvent := by
  unfold stopHealth
  split
  · rfl
  · exact hs.cancelHealth_skipEvent _

theorem pauseHunt_skipEvent (hs : HuntState) (manual : Bool) :
    (hs.pauseHunt manual).1.skipEvent = hs.skipEvent := by
  unfold pauseHunt
  split <;> rfl

theorem resumeHunt_skipEvent (hs : HuntState) (manual : Bool) :
    (hs.resumeHunt manual).1.skipEvent = hs.skipEvent := by
  unfold resumeHunt
  split
  · rfl
  · split <;> rfl

theorem startupHunt_skipEvent (hs : HuntState) : hs.startupHunt.skipEvent = hs.skipEvent := by
  have hstopped : (if hs.taskAlive then hs.stopHunt else hs).skipEvent = hs.skipEvent := by
    split
    · exact hs.stopHunt_skipEvent
    · rfl
  rw [← hstopped]
  unfold startupHunt
  dsimp only
  generalize (if hs.taskAlive then hs.stopHunt else hs) = stopped
  have hstart := startHunt_skipEvent { stopped with phase := .idle } false
  generalize startHunt { stopped with phase := .idle } false = started at hstart
  split <;> exact hstart

theorem restoreHealth_skipEvent (hs : HuntState) (saved : HealthSaved) (huntActive : Bool) :
    (hs.restoreHealth saved huntActive).skipEvent = hs.skipEvent := by
  have hcounters : (hs.restoreCounters saved).skipEvent = hs.skipEvent := by
    unfold restoreCounters
    split <;> rfl
  unfold restoreHealth
  split <;> exact hcounters

theorem healthBegin_skipEvent (hs : HuntState) (k : ℕ) (saved : HealthSaved) (huntActive : Bool)
    (candidates : ℕ) : (hs.healthBegin k saved huntActive candidates).skipEvent = hs.skipEvent := by
  unfold healthBegin
  split
  · exact restoreHealth_skipEvent _ saved huntActive
  · rfl

theorem healthStep_skipEvent {k candidates : ℕ} (h : hs.healthStep k candidates = some hs') :
    hs'.skipEvent = hs.skipEvent := by
  unfold healthStep at h
  dsimp only at h
  split at h
  · split at h
    · cases h
      rfl
    · split at h
      · cases h
        exact hs.pauseHunt_skipEvent true
      · cases h
        exact hs.healthBegin_skipEvent ..
  · split at h
    · cases h
      rfl
    · cases h
      exact hs.healthBegin_skipEvent ..
  · cases h
    exact hs.restoreHealth_skipEvent ..
  · cases h

/-- Apart from `skip_phase` no method of the engine sets the event. -/
theorem control_skipEvent {c : Control} (hskip : c ≠ .skipPhase)
    (hprogress : ∀ new, c ≠ .progress new) (h : hs.control c = some hs') :
    hs'.skipEvent = hs.skipEvent := by
  cases c with
  | startHunt =>
    cases h
    exact hs.startHunt_skipEvent false
  | stopHunt =>
    cases h
    exact hs.stopHunt_skipEvent
  | pauseHunt manual =>
    cases h
    exact hs.pauseHunt_skipEvent manual
  | resumeHunt manual =>
    cases h
    exact hs.resumeHunt_skipEvent manual
  | skipPhase => exact absurd rfl hskip
  | healthStart =>
    simp only [control] at h
    split at h <;> cases h <;> rfl
  | healthStop =>
    simp only [control] at h
    split at h
    · cases h
      exact hs.stopHealth_skipEvent
    · cases h
      rfl
  | healthRun candidates => exact (healthStep_skipEvent h).trans rfl
  | cancelHealth k =>
    cases h
    exact hs.cancelHealth_skipEvent k
  | startupBegin =>
    simp only [control, Option.ite_none_left_eq_some, Option.some.injEq] at h
    obtain ⟨-, rfl⟩ := h
    rfl
  | startupHunt =>
    simp only [control, Option.ite_none_right_eq_some, Option.some.injEq] at h
    obtain ⟨-, rfl⟩ := h
    exact hs.startupHunt_skipEvent
  | startupEnd =>
    simp only [control, Option.ite_none_right_eq_some, Option.some.injEq] at h
    obtain ⟨-, rfl⟩ := h
    rfl
  | progress new => exact absurd rfl (hprogress new)

end HuntState

namespace SkipWait

variable {w : SkipWait} {call : SkipCall}

theorem pending_eq_some : w.pending = some call ↔ w.skipTask = .done call ∧ w.exposed = true := by
  unfold pending
  split
  · next call' hdone =>
    rw [hdone, SkipTask.done.injEq]
    split
    · next hexp => simp [hexp]
    · next hexp => simp [hexp]
  · next hdone =>
    constructor
    · intro h
      cases h
    · intro h
      exact absurd h.1 (hdone call)

@[simp] theorem notify_waiter (w : SkipWait) (call : SkipCall) :
    (w.notify call).waiter = w.waiter := by
  unfold notify
  split <;> rfl

@[simp] theorem notify_exposed (w : SkipWait) (call : SkipCall) :
    (w.notify call).exposed = w.exposed := by
  unfold notify
  split <;> rfl

theorem notify_pending {call' : SkipCall} (h : (w.notify call).pending = some call') :
    call' = call ∨ w.pending = some call' := by
  rw [pending_eq_some, notify_exposed] at h
  obtain ⟨hdone, hexp⟩ := h
  unfold notify at hdone
  split at hdone
  · cases hdone
    exact .inl rfl
  · exact .inr (pending_eq_some.mpr ⟨hdone, hexp⟩)

@[simp] theorem listen_waiter (w : SkipWait) (event : Option SkipCall) :
    (w.listen event).waiter = w.waiter := by
  unfold listen
  split <;> rfl

@[simp] theorem listen_exposed (w : SkipWait) (event : Option SkipCall) :
    (w.listen event).exposed = w.exposed := by
  unfold listen
  split <;> rfl

theorem listen_pending {event : Option SkipCall} (h : (w.listen event).pending = some call) :
    event = some call ∨ w.pending = some call := by
  rw [pending_eq_some, listen_exposed] at h
  obtain ⟨hdone, hexp⟩ := h
  unfold listen at hdone
  split at hdone
  · cases event with
    | none => cases hdone
    | some call' =>
      cases hdone
      exact .inl rfl
  · exact .inr (pending_eq_some.mpr ⟨hdone, hexp⟩)

/-- `asyncio.wait` is not awaited twice. -/
theorem next_ne_waiting {timedOut : Bool} {pc : SkipWaitPc} (h : w.next timedOut = some pc) :
    pc ≠ .waiting := by
  rintro rfl
  unfold next at h
  split at h
  · split at h
    · split at h <;> cases h
    · split at h
      · cases h
      · split at h <;> cases h
  all_goals cases h

/-- A wait that is not exposed has no pending call. -/
theorem pending_of_not_exposed (h : w.exposed = false) : w.pending = none := by
  refine Option.eq_none_iff_forall_ne_some.mpr fun call hcall => ?_
  rw [(pending_eq_some.mp hcall).2] at h
  cases h

end SkipWait

namespace SkipEngine

variable {e e' : SkipEngine} {k : ℕ} {w : SkipWait} {call : SkipCall}

theorem mem_pending :
    call ∈ e.pending ↔ e.event = some call ∨ ∃ w ∈ e.waits, w.pending = some call := by
  rw [pending, List.mem_append, Option.mem_toList, List.mem_filterMap]

theorem event_withHost {hs : HuntState} (hkept : hs.skipEvent = true → e.host.skipEvent = true)
    (h : (e.withHost hs).event = some call) : e.event = some call := by
  obtain ⟨hset, heq⟩ := Option.ite_none_right_eq_some.mp h
  exact Option.ite_none_right_eq_some.mpr ⟨hkept hset, heq⟩

/-- Every wait that can still be cut short belongs to the phase of every call that can
still cut, and so did every wait that was cut short. -/
structure Inv (e : SkipEngine) : Prop where
  waits : ∀ w ∈ e.waits, w.exposed = true → ∀ call ∈ e.pending, w.waiter = call.waiter
  cuts : e.OwnPhase

theorem Initial.inv (h : e.Initial) : e.Inv := by
  constructor
  · rw [h.waits]
    exact fun w hw => absurd hw List.not_mem_nil
  · rw [OwnPhase, h.cuts]
    exact fun q hq => absurd hq List.not_mem_nil

namespace Inv

/-- Fewer pending calls and fewer exposed waits keep the invariant. -/
theorem mono (h : e.Inv)
    (hwaits : ∀ w' ∈ e'.waits, w'.exposed = true →
      ∃ w ∈ e.waits, w.exposed = true ∧ w.waiter = w'.waiter)
    (hpending : ∀ call ∈ e'.pending, call ∈ e.pending) (hcuts : e'.cuts = e.cuts) : e'.Inv := by
  constructor
  · intro w' hw' hexp call hcall
    obtain ⟨w, hw, hexp, heq⟩ := hwaits w' hw' hexp
    rw [← heq]
    exact h.waits w hw hexp call (hpending call hcall)
  · rw [OwnPhase, hcuts]
    exact h.cuts

/-- Only the event, the waits and the cuts matter. -/
theorem withHost (h : e.Inv) {hs : HuntState}
    (hkept : hs.skipEvent = true → e.host.skipEvent = true) : (e.withHost hs).Inv := by
  refine h.mono (fun w hw hexp => ⟨w, hw, hexp, rfl⟩) (fun call hcall => ?_) rfl
  rw [mem_pending] at hcall ⊢
  exact hcall.imp_left (event_withHost hkept)

theorem withProcs (h : e.Inv) (procs : List DownloadProc) : { e with procs := procs }.Inv :=
  h.mono (fun w hw hexp => ⟨w, hw, hexp, rfl⟩) (fun _ hcall => hcall) rfl

/-- A wait that is not more exposed than before, and that only calls have woken which were
pending already. -/
theorem setWait (h : e.Inv) {w' : SkipWait} (hk : e.waits[k]? = some w)
    (hwaiter : w'.waiter = w.waiter) (hexposed : w'.exposed = true → w.exposed = true)
    (hpending : ∀ call, w'.pending = some call → call ∈ e.pending) : (e.setWait k w').Inv := by
  have hw : w ∈ e.waits := List.mem_of_getElem? hk
  refine h.mono (fun v hv hexp => ?_) (fun call hcall => ?_) rfl
  · rcases List.mem_or_eq_of_mem_set hv with hv | rfl
    · exact ⟨v, hv, hexp, rfl⟩
    · exact ⟨w, hw, hexposed hexp, hwaiter.symm⟩
  · rcases mem_pending.mp hcall with hevent | ⟨v, hv, hwoken⟩
    · exact mem_pending.mpr (.inl hevent)
    · rcases List.mem_or_eq_of_mem_set hv with hv | rfl
      · exact mem_pending.mpr (.inr ⟨v, hv, hwoken⟩)
      · exact hpending call hwoken

/-- A wait that has left `asyncio.wait`. -/
theorem setPc (h : e.Inv) {pc : SkipWaitPc} (hk : e.waits[k]? = some w) (hpc : pc ≠ .waiting) :
    (e.setWait k { w with pc := pc }).Inv := by
  have hexp : SkipWait.exposed { w with pc := pc } = false := by
    simp [SkipWait.exposed, hpc]
  refine h.setWait hk rfl (fun h => absurd (hexp.symm.trans h) Bool.false_ne_true) ?_
  intro call hcall
  rw [SkipWait.pending_of_not_exposed hexp] at hcall
  cases hcall

/-- The call that sets the event has found exposed waits of its own phase only. -/
theorem skip (h : e.Inv) (hown : e.wakesOwn (.control .skipPhase) = true) : e.skip.Inv := by
  unfold SkipEngine.skip
  split
  · exact h
  · next call hcall =>
    split
    · next hset => exact h.withHost (fun _ => hset)
    · next hclear =>
      simp only [wakesOwn, hcall, Bool.or_eq_true, List.all_eq_true, Bool.not_eq_true',
        decide_eq_true_eq] at hown
      replace hown := hown.resolve_left hclear
      refine ⟨fun w' hw' hexp call' hcall' => ?_, h.cuts⟩
      obtain ⟨w, hw, rfl⟩ := List.mem_map.mp hw'
      rw [SkipWait.notify_exposed] at hexp
      rw [SkipWait.notify_waiter]
      have hnew : w.waiter = call.waiter :=
        (hown w hw).resolve_left (fun hno => by rw [hexp] at hno; cases hno)
      -- a pending call is the new one, or it was pending before
      rcases mem_pending.mp hcall' with hevent | ⟨v', hv', hpend⟩
      · obtain ⟨-, heq⟩ := Option.ite_none_right_eq_some.mp hevent
        rw [← Option.some.inj heq]
        exact hnew
      · obtain ⟨v, hv, rfl⟩ := List.mem_map.mp hv'
        rcases SkipWait.notify_pending hpend with rfl | hpend
        · exact hnew
        · exact h.waits w hw hexp call' (mem_pending.mpr (.inr ⟨v, hv, hpend⟩))

/-- A wait that begins belongs to the phase of every pending call. -/
theorem begin (h : e.Inv) {waiter : Waiter} {work : Work}
    (hclear : ∀ call ∈ e.pending, waiter = call.waiter) : (e.begin waiter work).Inv := by
  have hpending : ∀ call ∈ (e.begin waiter work).pending, call ∈ e.pending := by
    intro call hcall
    rcases mem_pending.mp hcall with hevent | ⟨w, hw, hpend⟩
    · exact mem_pending.mpr (.inl hevent)
    · rcases List.mem_append.mp hw with hw | hw
      · exact mem_pending.mpr (.inr ⟨w, hw, hpend⟩)
      · rw [List.mem_singleton.mp hw] at hpend
        cases hpend
  refine ⟨fun w hw hexp call hcall => ?_, h.cuts⟩
  rcases List.mem_append.mp hw with hw | hw
  · exact h.waits w hw hexp call (hpending call hcall)
  · rw [List.mem_singleton.mp hw]
    exact hclear call (hpending call hcall)

/-- What a pending call cuts short is of its own phase: the wait itself, and the downloads
whose subprocesses are killed with it. -/
theorem cut (h : e.Inv) (hk : e.waits[k]? = some w) (hcall : w.pending = some call) :
    (e.cut k w call).Inv := by
  have hw : w ∈ e.waits := List.mem_of_getElem? hk
  have hmem : call ∈ e.pending := mem_pending.mpr (.inr ⟨w, hw, hcall⟩)
  have hown : w.waiter = call.waiter :=
    h.waits w hw (SkipWait.pending_eq_some.mp hcall).2 call hmem
  have hkilled : ∀ o ∈ e.killed, o = call.waiter := by
    intro o ho
    obtain ⟨p, -, hp⟩ := List.mem_filterMap.mp ho
    obtain ⟨v, hv, hv'⟩ := Option.bind_eq_some_iff.mp hp
    obtain ⟨hexp, heq⟩ := Option.ite_none_right_eq_some.mp hv'
    rw [← Option.some.inj heq]
    exact h.waits v (List.mem_of_getElem? hv) hexp call hmem
  have hset : (e.setWait k { w with pc := .cutting }).Inv := h.setPc hk (by decide)
  unfold SkipEngine.cut
  split
  · refine ⟨hset.waits, fun q hq => ?_⟩
    rcases List.mem_cons.mp hq with rfl | hq
    · exact hown
    · exact h.cuts q hq
  · refine ⟨hset.waits, fun q hq => ?_⟩
    rcases List.mem_append.mp hq with hq | hq
    · rcases List.mem_cons.mp hq with rfl | hq
      · exact hown
      · obtain ⟨o, ho, rfl⟩ := List.mem_map.mp hq
        exact hkilled o ho
    · exact h.cuts q hq

theorem leave (h : e.Inv) (hk : e.waits[k]? = some w) : (e.leave k w).Inv := by
  unfold SkipEngine.leave
  split
  · have hreset : (e.withHost e.host.resetSkip).Inv := h.withHost (fun hset => by cases hset)
    exact hreset.setPc hk (by decide)
  · exact h.setPc hk (by decide)

/-! ### Steps -/

variable {r : SkipEngine × Option (Waiter × Work)}

theorem cycle (h : e.Inv) {hn : ℕ} {inp : CycleInput} (hr : e.cycle hn inp = some r) :
    r.1.Inv := by
  obtain ⟨q, hq, rfl⟩ := Option.map_eq_some_iff.mp hr
  exact h.withHost (fun hset => (HuntState.cycleStep_kept hq).skipEvent ▸ hset)

theorem proceed (h : e.Inv) {inp : PhaseInput} (hr : e.proceed w inp = some r) : r.1.Inv := by
  unfold SkipEngine.proceed at hr
  split at hr
  · cases hr
    exact h
  · exact h.cycle hr
  · obtain ⟨-, heq⟩ := Option.ite_none_right_eq_some.mp hr
    cases heq
    exact h

theorem turn (h : e.Inv) (hk : e.waits[k]? = some w) {timedOut : Bool} {inp : PhaseInput}
    (hr : e.turn k w timedOut inp = some r) : r.1.Inv := by
  unfold SkipEngine.turn at hr
  split at hr
  · cases hr
  · split at hr
    · exact (h.setPc hk (by decide)).proceed hr
    · split at hr
      · cases hr
      · obtain ⟨call, hcall, rfl⟩ := Option.map_eq_some_iff.mp hr
        exact h.cut hk hcall
      · exact (h.leave hk).proceed hr
      · next pc _ _ hpc =>
        cases hr
        exact h.setPc hk (SkipWait.next_ne_waiting hpc)

theorem controlled (h : e.Inv) {c : Control} (hown : e.wakesOwn (.control c) = true)
    (hs : e.controlled c = some e') : e'.Inv := by
  by_cases hskip : c = .skipPhase
  · subst hskip
    cases hs
    exact h.skip hown
  · by_cases hprogress : ∃ new, c = .progress new
    · obtain ⟨new, rfl⟩ := hprogress
      obtain ⟨hkept, heq⟩ := Option.ite_none_right_eq_some.mp hs
      cases heq
      exact h.withHost (fun hset => hkept ▸ hset)
    · have hmap : (e.host.control c).map e.withHost = some e' := by
        cases c with
        | skipPhase => exact absurd rfl hskip
        | progress new => exact absurd ⟨new, rfl⟩ hprogress
        | _ => exact hs
      obtain ⟨hs', hcontrol, rfl⟩ := Option.map_eq_some_iff.mp hmap
      have hkept :=
        HuntState.control_skipEvent hskip (fun new heq => hprogress ⟨new, heq⟩) hcontrol
      exact h.withHost (fun hset => hkept ▸ hset)

/-- What a step does before a wait begins with it. -/
theorem advance (h : e.Inv) {a : SkipEvent} (hown : e.wakesOwn a = true)
    (hr : e.advance a = some r) : r.1.Inv := by
  cases a with
  | control c =>
    obtain ⟨e', hs, rfl⟩ := Option.map_eq_some_iff.mp hr
    exact h.controlled hown hs
  | manualHunt =>
    cases hr
    refine h.withHost (fun hset => ?_)
    rw [HuntState.startHunt_skipEvent] at hset
    cases hset
  | cancelHunt hn =>
    cases hr
    exact h.withHost (fun hset => (e.host.cancelHunt_skipEvent hn) ▸ hset)
  | health k candidates =>
    obtain ⟨hs', hs, rfl⟩ := Option.map_eq_some_iff.mp hr
    exact h.withHost (fun hset => (HuntState.healthStep_skipEvent hs) ▸ hset)
  | cycle hn inp => exact h.cycle (Option.ite_none_left_eq_some.mp hr).2
  | opens work =>
    cases hr
    exact h
  | noBlocklists =>
    cases hr
    exact h.withProcs []
  | listen k =>
    obtain ⟨w, hk, rfl⟩ := Option.map_eq_some_iff.mp hr
    refine h.setWait hk (w.listen_waiter e.event) ?_ (fun call hcall => ?_)
    · intro hexp
      rwa [SkipWait.listen_exposed] at hexp
    · rcases SkipWait.listen_pending hcall with hevent | hcall
      · exact mem_pending.mpr (.inl hevent)
      · exact mem_pending.mpr (.inr ⟨w, List.mem_of_getElem? hk, hcall⟩)
  | launched k =>
    obtain ⟨w, -, hw⟩ := Option.bind_eq_some_iff.mp hr
    obtain ⟨-, heq⟩ := Option.ite_none_left_eq_some.mp hw
    cases heq
    exact h.withProcs _
  | exited j =>
    obtain ⟨p, -, rfl⟩ := Option.map_eq_some_iff.mp hr
    exact h.withProcs _
  | worked k =>
    obtain ⟨w, hk, hw⟩ := Option.bind_eq_some_iff.mp hr
    obtain ⟨-, heq⟩ := Option.ite_none_left_eq_some.mp hw
    cases heq
    -- a wait whose work has come to its end can no longer be cut
    have hexp : SkipWait.exposed { w with worked := true } = false := by simp [SkipWait.exposed]
    refine h.setWait hk rfl (fun h => absurd (hexp.symm.trans h) Bool.false_ne_true) ?_
    intro call hcall
    rw [SkipWait.pending_of_not_exposed hexp] at hcall
    cases hcall
  | abort k =>
    obtain ⟨w, hk, hw⟩ := Option.bind_eq_some_iff.mp hr
    obtain ⟨-, heq⟩ := Option.ite_none_right_eq_some.mp hw
    cases heq
    exact h.setPc hk (by decide)
  | turn k timedOut inp =>
    obtain ⟨w, hk, hw⟩ := Option.bind_eq_some_iff.mp hr
    exact h.turn hk hw

/-- **Step lemma**: a step under the condition keeps every wait that can be cut short in the
phase of every call that can cut it. -/
theorem step (h : e.Inv) {a : SkipEvent} (hs : e.step a = some e') (hg : Confined e a e') :
    e'.Inv := by
  obtain ⟨hown, hclear⟩ := Bool.and_eq_true_iff.mp hg
  obtain ⟨⟨e₁, opening⟩, hr, rfl⟩ := Option.map_eq_some_iff.mp hs
  have h₁ : e₁.Inv := h.advance hown hr
  cases opening with
  | none => exact h₁
  | some o =>
    obtain ⟨waiter, work⟩ := o
    rw [hr] at hclear
    exact h₁.begin (fun call hcall => of_decide_eq_true (List.all_eq_true.mp hclear call hcall))

end Inv

/-- **Skip affects only its own phase** in every run whose steps all meet the condition:
whatever is cut short is the phase that the call was accepted in. -/
theorem skip_own_phase {e e' : SkipEngine} (h₀ : e.Initial) (h : machine.Reaches Confined e e') :
    e'.OwnPhase :=
  (h.invariant (I := Inv) h₀.inv (fun _ _ _ hi hs hg => hi.step hs hg)).cuts

/-- An engine with nothing under way. -/
def idle : SkipEngine := ⟨{}, [], [], ⟨0, .idle⟩, []⟩

theorem idle_initial : idle.Initial := ⟨rfl, rfl, rfl⟩

/-- A hunt is started and downloads its sources. -/
def downloading : List SkipEvent := [.control .startHunt, .cycle 0 (.done 0 0), .listen 0]

/-- A hunt's download is skipped while a source is being fetched, so that its wait is cut
short and its subprocess killed; the hunt goes on with the blacklists, and then the sources
are fetched over HTTP. -/
theorem skip_own_phase_downloading :
    ∃ e', machine.Reaches Confined idle e' ∧
      e'.cuts = List.replicate 2 (.hunt 0 .downloading, ⟨0, .downloading⟩) ∧ e'.OwnPhase := by
  have hrun : ∃ e', machine.Reaches Confined idle e' ∧
      decide (e'.cuts = List.replicate 2 (.hunt 0 .downloading, ⟨0, .downloading⟩)) = true :=
    Machine.exists_reaches_of_exec (g := fun e a _ => e.wakesOwn a && opensClear (e.advance a))
      (l := downloading ++ [.launched 0, .control .skipPhase, .turn 0 false (.cycle (.done 5 2)),
        .turn 0 false (.cycle (.done 5 2)), .listen 1, .opens .sources, .listen 2])
      (fun e a _ (h : (e.wakesOwn a && opensClear (e.advance a)) = true) => h) (by decide +kernel)
  obtain ⟨e', he', hcuts⟩ := hrun
  exact ⟨e', he', of_decide_eq_true hcuts, skip_own_phase idle_initial he'⟩

/-- A call of `skip_phase` and the last task of a download come in the same round: the wait
returns with its results and leaves the event set, which cuts the next phase short. -/
theorem next_phase_cut :
    ¬ ∀ e e' : SkipEngine, e.Initial → machine.Reaches Machine.anyStep e e' → e'.OwnPhase := by
  intro hall
  have hrun : ∃ e', machine.Reaches Machine.anyStep idle e' ∧
      decide (e'.cuts = [(.hunt 0 .blacklists, ⟨0, .downloading⟩)]) = true :=
    Machine.exists_reaches_of_exec (g := fun _ _ _ => true)
      (l := downloading ++ [.worked 0, .control .skipPhase, .turn 0 false (.cycle (.done 5 2)),
        .listen 1, .turn 1 false (.cycle (.done 5 2))])
      (fun _ _ _ _ => trivial) (by decide +kernel)
  obtain ⟨e', he', hcuts⟩ := hrun
  have hown := hall _ e' idle_initial he'
  rw [OwnPhase, of_decide_eq_true hcuts] at hown
  exact absurd (hown _ List.mem_cons_self) (by decide)

end SkipEngine

end HuntProxy
