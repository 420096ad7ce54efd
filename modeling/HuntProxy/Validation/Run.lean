import HuntProxy.Validation.Worker

/-!
# A run of `_validate_all`

The task that calls `_validate_all`, a hunt cycle or a scheduled `proxy_check`, creates the
workers and waits until all addresses are processed, a skip is requested or the time is over.
Beside it the control calls, the canary loop and the blacklists go on; the canary pauses and
resumes like the automatic calls.

## Main definitions

- `ValidationRun` — the run, with the hunt that awaits it, if one does
- `ValidationRun.step`, `ValidationRun.machine` — the transition function
- `ValidationRun.Initial` — the run has just created its workers
- `ValidationRun.begun` — `_validate_all` up to its first await
-/

namespace HuntProxy

variable {α : Type*}

/-- A run of `_validate_all` and the task that awaits it: hunt `h`, or a scheduled run.
`skipped` says that the workers are gathered because of a skip. -/
structure ValidationRun (α : Type*) where
  nursery : Nursery (Validation α) (CheckPc α)
  total : ℕ
  owner : Option ℕ
  skipped : Bool := false

/-- A turn of a worker or of the awaiting task, the cancellation of the latter, the control
calls, an address that is blacklisted meanwhile, and a turn of the hunt after its
validation. -/
inductive ValidationEvent (α : Type*)
  | worker (i : ℕ) (inp : CheckInput)
  | parent (d : Decision)
  | cancel
  | pauseHunt (manual : Bool)
  | resumeHunt (manual : Bool)
  | stopHunt
  | skipPhase
  | blacklisted (addr : α)
  | cycle (inp : CycleInput)

namespace ValidationRun

/-- What the workers share. -/
def shared (s : ValidationRun α) : Validation α := s.nursery.shared

/-- The attributes of the engine. -/
def host (s : ValidationRun α) : HuntState := s.nursery.shared.host

/-- Replace what the workers share. -/
def withShared (s : ValidationRun α) (v : Validation α) : ValidationRun α :=
  { s with nursery := { s.nursery with shared := v } }

/-- Replace the attributes of the engine. -/
def withHost (s : ValidationRun α) (hs : HuntState) : ValidationRun α :=
  s.withShared (s.shared.withHost hs)

/-- `complete` has been set. -/
def complete (s : ValidationRun α) : Bool := decide (s.total ≤ s.shared.processed)

/-- What the awaiting task may do when it is resumed at `asyncio.wait`. The task that waits for
`complete` ends after it has been set, so a skip or the timeout may still come first. -/
def mayDecide (s : ValidationRun α) : Decision → Bool
  | .leave => false
  | .gather => s.complete
  | .cut => s.host.skipEvent
  | .abandon => true

/-- The engine after a hunt has left its validation: it waits for the pause event, or ends
when it was cancelled. -/
def leftBy (hs : HuntState) (h : ℕ) : HuntState :=
  if (hs.hunts h).pc = .validating then ((hs.cycleStep h (.done 0 0)).map Prod.fst).getD hs else hs

/-- The awaiting task leaves `_validate_all`: a skip is reset when it has not been cancelled,
and a hunt goes on or ends. -/
def left (s : ValidationRun α) : ValidationRun α :=
  let hs := if s.skipped && !s.nursery.cancelRequested then s.host.resetSkip else s.host
  match s.owner with
  | none => s.withHost hs
  | some h => s.withHost (leftBy hs h)

/-- A turn of the awaiting task. -/
def parentTurn [DecidableEq α] (s : ValidationRun α) (d : Decision) : Option (ValidationRun α) :=
  if s.nursery.parent = .waiting ∧ s.nursery.cancelRequested = false ∧ s.mayDecide d = false then
    none
  else
    (s.nursery.parentTurn checkBody d).map fun n =>
      let cut := s.nursery.parent == .waiting && d == .cut
      let s' : ValidationRun α := { s with nursery := n, skipped := s.skipped || cut }
      if n.parent = .finished then s'.left else s'

/-- The awaiting task is cancelled. -/
def cancel (s : ValidationRun α) : ValidationRun α :=
  { s with nursery := s.nursery.cancel }

/-- `stop_hunt`, which cancels the hunt in the engine's slot. -/
def stopHunt (s : ValidationRun α) : ValidationRun α :=
  let s' := s.withHost s.host.stopHunt
  if s.owner.isSome ∧ s.owner = s.host.task then s'.cancel else s'

/-- The transition function. A hunt cycle takes turns of its own only after its
validation. -/
def step [DecidableEq α] (s : ValidationRun α) : ValidationEvent α → Option (ValidationRun α)
  | .worker i inp => (s.nursery.childTurn checkBody i inp).map (fun n => { s with nursery := n })
  | .parent d => s.parentTurn d
  | .cancel =>
    match s.owner with
    | none => some s.cancel
    | some h => some (s.withHost (s.host.cancelHunt h)).cancel
  | .pauseHunt manual => some (s.withHost (s.host.pauseHunt manual).1)
  | .resumeHunt manual => some (s.withHost (s.host.resumeHunt manual).1)
  | .stopHunt => some s.stopHunt
  | .skipPhase => some (s.withHost s.host.skipPhase.1)
  | .blacklisted addr =>
    some (s.withShared { s.shared with blacklist := addr :: s.shared.blacklist })
  | .cycle inp =>
    s.owner.bind fun h =>
      if s.nursery.parent = .finished ∧ (s.host.hunts h).pc = .settling then
        (s.host.cycleStep h inp).map (fun q => s.withHost q.1)
      else none

/-- The machine of a run. -/
def machine [DecidableEq α] : Machine (ValidationRun α) (ValidationEvent α) := ⟨step⟩

/-- The run has just created its workers, for a set of addresses, and its caller has reset
the counters; no health check is running. -/
structure Initial (s : ValidationRun α) : Prop where
  parent : s.nursery.parent = .waiting
  cancelRequested : s.nursery.cancelRequested = false
  children : ∀ c ∈ s.nursery.children, c.state = .idle ∧ c.cancelRequested = false
  queue : s.shared.queue.Nodup
  total : s.total = s.shared.queue.length
  ctx : s.shared.ctx = ⟨0, 0, 0, 0⟩
  processed : s.shared.processed = 0
  counted : s.shared.counted = []
  resulted : s.shared.resulted = []
  healthRunning : s.host.healthRunning = false
  working : s.host.working = 0
  failed : s.host.failed = 0

/-- `_validate_all` up to its `asyncio.wait`, for a set of addresses that is not empty, while
no address is blacklisted. -/
def begun (hs : HuntState) (owner : Option ℕ) (proxies : List α) (parallel : ℕ) :
    ValidationRun α where
  nursery :=
    { shared :=
        { host := { hs with failStreak := 0, checkStreak := 0 }
          blacklist := [], queue := proxies, slots := parallel }
      children := List.replicate (max 1 parallel) ⟨.idle, false⟩ }
  total := proxies.length
  owner := owner

theorem begun_initial {hs : HuntState} (owner : Option ℕ) {proxies : List α} (parallel : ℕ)
    (hproxies : proxies.Nodup) (hhealth : hs.healthRunning = false) (hworking : hs.working = 0)
    (hfailed : hs.failed = 0) : (begun hs owner proxies parallel).Initial where
  parent := rfl
  cancelRequested := rfl
  children := by
    intro c hc
    rw [List.eq_of_mem_replicate hc]
    exact ⟨rfl, rfl⟩
  queue := hproxies
  total := rfl
  ctx := rfl
  processed := rfl
  counted := rfl
  resulted := rfl
  healthRunning := hhealth
  working := hworking
  failed := hfailed

/-- Hunt `0` is in its validation. -/
def validating : HuntState where
  phase := .validating
  task := some 0
  nextHunt := 1
  hunts _ := ⟨.validating, false, false⟩

end ValidationRun

end HuntProxy
