import HuntProxy.Hunt.Recheck
import HuntProxy.Lib.Nursery

/-!
# The workers of a validation

A worker of `_validate_all` takes addresses from the queue and checks them one after
another with `_check_one`: it may have to wait while the hunt is paused, while the internet
is suspected to be down, or for a slot of the semaphore, and a check that may have failed
because of the internet is repeated. The helpers `_handle_blacklisted`, `_handle_fast_fail`
and `_record_check_result` count the address, `_auto_pause_if_internet_down` asks the canary.

The bodies under the lock contain no await, so the lock is always free and is left out. A
worker that goes on without suspending itself takes several turns here, which only adds
interleavings.

## Main definitions

- `Validation` — what the workers of a run share
- `CheckPc` — the awaits of a worker
- `Validation.turn`, `Validation.unwind` — a worker up to its next await, and its end
- `checkBody` — the workers as the tasks of a nursery
-/

namespace HuntProxy

variable {α : Type*}

/-- What `_merge_check_results` says about a check. -/
structure ProbeResult where
  ok : Bool
  sslOk : Bool
  fastFail : Bool
  deriving DecidableEq, Repr

/-- The check has failed so fast that the internet may be down. -/
def ProbeResult.isFastFail (r : ProbeResult) : Bool := r.fastFail && !r.ok && !r.sslOk

/-- Where a worker is: at the queue; with an address, at the top of the loop of `_check_one`;
at `_pause_event.wait()` there; at the semaphore; at `_pause_event.wait()` before the check;
in the check; in the speed measurement; in `_auto_pause_if_internet_down` after a fast fail or
after a result; at `_pause_event.wait()` before the check is repeated; or at its end.
`counted` is the local flag of `_check_one`, and a worker that waits for the event remembers
how often the event had been set. -/
inductive CheckPc (α : Type*)
  | idle
  | ready (addr : α) (counted : Bool)
  | pauseWait (addr : α) (counted : Bool) (since : ℕ)
  | slotWait (addr : α) (counted : Bool)
  | suspectWait (addr : α) (counted : Bool) (since : ℕ)
  | probing (addr : α) (counted : Bool)
  | measuring (addr : α) (counted : Bool)
  | autoPause (addr : α) (fastFail : Bool)
  | retryWait (addr : α) (since : ℕ)
  | stopped
  deriving DecidableEq, Repr

/-- The worker is inside the semaphore. -/
def CheckPc.holdsSlot : CheckPc α → Bool
  | .suspectWait _ _ _ => true
  | .probing _ _ => true
  | .measuring _ _ => true
  | .autoPause _ _ => true
  | .retryWait _ _ => true
  | _ => false

/-- What a worker is resumed with: nothing, the results of the check and whether a working
rating of the address is there, the speed, or the verdict of the canary, which may raise. -/
inductive CheckInput
  | go
  | probed (r : ProbeResult) (known : Bool)
  | measured (known : Bool)
  | verdict (alive : Option Bool)
  deriving DecidableEq, Repr

/-- What the workers of a run share: the engine, the blacklist, the queue and the semaphore
of the run, its counts, how many addresses are done, and how often the pause event has been
set. The ghosts are the checks that were begun, the addresses that `checked` counts, and the
results that `working` and `failed` count; `rated` are the calls of `_update_rating`. -/
structure Validation (α : Type*) where
  host : HuntState
  blacklist : List α
  queue : List α
  slots : ℕ
  ctx : ValidationContext := ⟨0, 0, 0, 0⟩
  processed : ℕ := 0
  sets : ℕ := 0
  rated : List (α × Bool) := []
  probed : List α := []
  counted : List α := []
  resulted : List α := []

namespace HuntState

/-- The suspicion of `_check_one`: more than seven of ten checks in a row have failed. -/
def failing (hs : HuntState) (least : ℕ) : Bool :=
  decide (least ≤ hs.checkStreak) && decide (7 * hs.checkStreak < 10 * hs.failStreak)

/-- `_auto_pause_if_internet_down` up to the canary. -/
@[simps] def suspect (hs : HuntState) : HuntState :=
  { hs with internetSuspect := true, pauseEvent := false }

/-- `_auto_pause_if_internet_down` after the canary. -/
def afterCanary (hs : HuntState) (alive : Option Bool) : HuntState :=
  if alive = some true then
    { hs with
      internetSuspect := false, failStreak := 0, checkStreak := 0, pauseEvent := true,
      woken := fun _ => true }
  else (hs.pauseHunt false).1

/-- The counters of `_handle_fast_fail`, where `c` are the counts with the failure. -/
@[simps] def recordFastFail (hs : HuntState) (c : ValidationContext) (counted : Bool) : HuntState :=
  { hs with
    failStreak := hs.failStreak + 1
    checkStreak := hs.checkStreak + 1
    checked := if counted then hs.checked else hs.checked + 1
    failed := c.failCount }

/-- The counters of `_record_check_result`, where `c` are the counts with the result. -/
@[simps!] def recordResult (hs : HuntState) (c : ValidationContext) (r : WorkResult) : HuntState :=
  { hs.setAttributes (hs.attributes.record c r) with
    checkStreak := hs.checkStreak + 1
    failStreak := if r.ok then 0 else hs.failStreak + 1 }

end HuntState

namespace Validation

/-- Replace the attributes of the engine. An event that is set afterwards has woken those
that were waiting for it. -/
@[simps] def withHost (v : Validation α) (hs : HuntState) : Validation α :=
  { v with host := hs, sets := if hs.pauseEvent then v.sets + 1 else v.sets }

/-- Give a slot of the semaphore back. -/
@[simps] def release (v : Validation α) : Validation α := { v with slots := v.slots + 1 }

/-- `_check_one` returns, and the worker goes to the queue. -/
def returned (v : Validation α) : Validation α × CheckPc α :=
  ({ v with processed := v.processed + 1 }, .idle)

/-- `_handle_blacklisted`. -/
def handleBlacklisted (v : Validation α) (addr : α) (counted : Bool) : Validation α :=
  if v.host.healthRunning || counted then v
  else
    { v with
      host := { v.host with checked := v.host.checked + 1 }, counted := addr :: v.counted }

/-- `_check_one` before it is repeated: `_pause_event.wait()`, which returns at once when the
event is set, and then the top of the loop. -/
def repeated (v : Validation α) (addr : α) : Validation α × CheckPc α :=
  if v.host.pauseEvent then (v.release, .ready addr true) else (v, .retryWait addr v.sets)

/-- `_check_one` after a fast fail. -/
def afterFastFail (v : Validation α) (addr : α) : Validation α × CheckPc α :=
  if v.host.internetSuspect then v.repeated addr else v.release.returned

/-- `_handle_fast_fail`, and what follows it. -/
def handleFastFail (v : Validation α) (addr : α) (counted : Bool) : Validation α × CheckPc α :=
  if v.host.healthRunning then v.release.returned
  else
    let c := v.ctx.add ⟨false, false, counted⟩
    let v₁ : Validation α :=
      { v with
        host := v.host.recordFastFail c counted
        ctx := c
        counted := if counted then v.counted else addr :: v.counted
        resulted := addr :: v.resulted }
    if v₁.host.failing 3 then (v₁.withHost v₁.host.suspect, .autoPause addr true)
    else v₁.afterFastFail addr

/-- `_should_retry_after_result`, and what follows it. -/
def afterResult (v : Validation α) (addr : α) : Validation α × CheckPc α :=
  if v.host.internetSuspect then v.repeated addr
  else if v.host.failing 10 then (v.withHost v.host.suspect, .autoPause addr false)
  else v.release.returned

/-- `_record_check_result`, and what follows it. -/
def recordCheckResult (v : Validation α) (addr : α) (r : WorkResult) : Validation α × CheckPc α :=
  if v.host.healthRunning then v.release.returned
  else if v.host.internetSuspect then v.afterResult addr
  else
    let c := v.ctx.add r
    let v₁ : Validation α :=
      { v with
        host := v.host.recordResult c r
        ctx := c
        counted := if r.counted then v.counted else addr :: v.counted
        resulted := addr :: v.resulted
        rated := (addr, r.ok) :: v.rated }
    v₁.afterResult addr

/-- `_check_one` inside the semaphore: a suspicion sends it back to the top of the loop,
otherwise the check begins. -/
def inside (v : Validation α) (addr : α) (counted : Bool) : Validation α × CheckPc α :=
  if v.host.internetSuspect then
    if v.host.pauseEvent then (v, .ready addr counted)
    else ({ v with slots := v.slots - 1 }, .suspectWait addr counted v.sets)
  else ({ v with slots := v.slots - 1, probed := addr :: v.probed }, .probing addr counted)

/-- `_check_one` after the wait for the end of a pause. -/
def enter [DecidableEq α] (v : Validation α) (addr : α) (counted : Bool) :
    Validation α × CheckPc α :=
  if addr ∈ v.blacklist then (v.handleBlacklisted addr counted).returned
  else if v.slots = 0 then (v, .slotWait addr counted)
  else v.inside addr counted

/-- A worker up to its next await. -/
def turn [DecidableEq α] (v : Validation α) :
    CheckPc α → CheckInput → Option (Validation α × CheckPc α)
  | .idle, .go =>
    match v.queue with
    | [] => some (v, .stopped)
    | addr :: rest => some ({ v with queue := rest }, .ready addr false)
  | .ready addr counted, .go =>
    if v.host.paused ∧ v.host.pauseEvent = false then some (v, .pauseWait addr counted v.sets)
    else some (v.enter addr counted)
  | .pauseWait addr counted since, .go =>
    if since < v.sets then some (v.enter addr counted) else none
  | .slotWait addr counted, .go => if v.slots = 0 then none else some (v.inside addr counted)
  | .suspectWait addr counted since, .go =>
    if since < v.sets then some (v.release, .ready addr counted) else none
  | .probing addr counted, .probed r known =>
    if r.isFastFail then some (v.handleFastFail addr counted)
    else if r.ok then some (v, .measuring addr counted)
    else some (v.recordCheckResult addr ⟨false, known, counted⟩)
  | .measuring addr counted, .measured known =>
    some (v.recordCheckResult addr ⟨true, known, counted⟩)
  | .autoPause addr fastFail, .verdict alive =>
    let v₁ := v.withHost (v.host.afterCanary alive)
    some (if fastFail then v₁.afterFastFail addr else v₁.release.returned)
  | .retryWait addr since, .go =>
    if since < v.sets then some (v.release, .ready addr true) else none
  | _, _ => none

/-- A cancellation ends a worker; it leaves the semaphore if it is inside. -/
def unwind (v : Validation α) (pc : CheckPc α) : Validation α × CheckPc α :=
  (if pc.holdsSlot then v.release else v, .stopped)

end Validation

/-- The workers as the tasks of a nursery. -/
def checkBody [DecidableEq α] : TaskBody (Validation α) (CheckPc α) CheckInput where
  turn := Validation.turn
  unwind := Validation.unwind
  ended
    | .stopped => true
    | _ => false
  unwind_ended _ _ := rfl

end HuntProxy
