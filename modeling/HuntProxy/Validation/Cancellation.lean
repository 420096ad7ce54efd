import HuntProxy.Validation.Run

/-!
# Cancelled work

The workers of a validation and the tasks of a download are tasks of their own. The task
that has created them cancels or gathers them when it leaves its wait by itself. When it is
cancelled at `asyncio.wait`, it ends and they go on; the health check, in the same
situation, cancels and gathers its checks before it raises.

## Main definitions

- `Downloads`, `fetchBody` — the tasks of `_download_sources` and its siblings
- `GatherRun`, `GatherRun.machine` — a run of `_gather_skip_aware`
- `ValidationRun.Attended`, `GatherRun.Attended` — the condition of this module

## Main results

- `ValidationRun.contained_step`, `GatherRun.contained_step` — no child outlives its parent
- `cancelled_work_stops` — what is left behind has no effect any more
- `orphaned_check` — a check that goes on after its hunt was stopped
-/

namespace HuntProxy

/-! ### Downloads -/

/-- Where a task that fetches one list is suspended: before its first step, at the
semaphore, in `create_subprocess_exec`, or while it reads the output of its subprocess. -/
inductive FetchPc
  | unstarted
  | slotWait
  | launching
  | streaming
  | stopped
  deriving DecidableEq, Repr

/-- A task that fetches one list. -/
structure FetchTask where
  source : ℕ
  pc : FetchPc := .unstarted
  deriving DecidableEq, Repr

/-- What a fetching task is resumed with: nothing, a chunk, or the end of the fetch, with the
number of entries or without any after an error. -/
inductive FetchInput
  | go
  | chunk
  | fetched (count : Option ℕ)
  deriving DecidableEq, Repr

/-- What the tasks of a download share: the semaphore, the subprocesses they have started,
the chunks they have read, and the results they have stored, which `sources_done` counts. -/
structure Downloads where
  slots : ℕ
  launched : List ℕ := []
  received : List ℕ := []
  stored : List (ℕ × Option ℕ) := []
  sourcesDone : ℕ := 0
  deriving DecidableEq, Repr

namespace Downloads

/-- The end of a fetch. -/
def store (d : Downloads) (source : ℕ) (count : Option ℕ) : Downloads :=
  { d with
    slots := d.slots + 1, stored := (source, count) :: d.stored, sourcesDone := d.sourcesDone + 1 }

/-- `_fetch_one_source`, and likewise its siblings, up to its next await. -/
def turn (d : Downloads) (t : FetchTask) (inp : FetchInput) : Option (Downloads × FetchTask) :=
  match t.pc, inp with
  | .unstarted, .go =>
    if d.slots = 0 then some (d, { t with pc := .slotWait })
    else some ({ d with slots := d.slots - 1 }, { t with pc := .launching })
  | .slotWait, .go =>
    if d.slots = 0 then none
    else some ({ d with slots := d.slots - 1 }, { t with pc := .launching })
  | .launching, .go =>
    some ({ d with launched := t.source :: d.launched }, { t with pc := .streaming })
  | .launching, .fetched none => some (d.store t.source none, { t with pc := .stopped })
  | .streaming, .chunk => some ({ d with received := t.source :: d.received }, t)
  | .streaming, .fetched count => some (d.store t.source count, { t with pc := .stopped })
  | _, _ => none

/-- A cancellation ends a fetching task; it leaves the semaphore if it is inside. -/
def unwind (d : Downloads) (t : FetchTask) : Downloads × FetchTask :=
  (if t.pc = .launching ∨ t.pc = .streaming then { d with slots := d.slots + 1 } else d,
    { t with pc := .stopped })

/-- All that fetching tasks can change, the semaphore apart. -/
def effects (d : Downloads) : Downloads := { d with slots := 0 }

theorem unwind_effects (d : Downloads) (t : FetchTask) : (d.unwind t).1.effects = d.effects := by
  unfold unwind
  split <;> rfl

end Downloads

/-- The fetching tasks as the tasks of a nursery. -/
def fetchBody : TaskBody Downloads FetchTask FetchInput where
  turn := Downloads.turn
  unwind := Downloads.unwind
  ended t := decide (t.pc = .stopped)
  unwind_ended _ _ := rfl

/-- A run of `_gather_skip_aware`, with the attributes of the engine. -/
structure GatherRun where
  nursery : Nursery Downloads FetchTask
  host : HuntState

/-- A turn of a fetching task or of the awaiting task, the cancellation of the latter, or
anything else that writes the attributes. -/
inductive GatherEvent
  | fetch (i : ℕ) (inp : FetchInput)
  | parent (d : Decision)
  | cancel
  | other (hs : HuntState)

namespace GatherRun

/-- What the awaiting task may do when it is resumed at `asyncio.wait`. The future of `gather` is
done after all tasks have ended, so a skip may still come first. -/
def mayDecide (s : GatherRun) : Decision → Bool
  | .leave => s.nursery.allEnded fetchBody
  | .cut => s.host.skipEvent
  | _ => false

/-- A turn of the awaiting task. The tasks are gathered only after a skip, which is reset
when the awaiting task has not been cancelled meanwhile. -/
def parentTurn (s : GatherRun) (d : Decision) : Option GatherRun :=
  if s.nursery.parent = .waiting ∧ s.nursery.cancelRequested = false ∧ s.mayDecide d = false then
    none
  else
    (s.nursery.parentTurn fetchBody d).map fun n =>
      { nursery := n
        host :=
          if s.nursery.parent = .gathering ∧ s.nursery.cancelRequested = false then s.host.resetSkip
          else s.host }

/-- The transition function. -/
def step (s : GatherRun) : GatherEvent → Option GatherRun
  | .fetch i inp => (s.nursery.childTurn fetchBody i inp).map (fun n => { s with nursery := n })
  | .parent d => s.parentTurn d
  | .cancel => some { s with nursery := s.nursery.cancel }
  | .other hs => some { s with host := hs }

/-- The machine of a run. -/
def machine : Machine GatherRun GatherEvent := ⟨step⟩

/-- The run has just created its tasks. -/
structure Initial (s : GatherRun) : Prop where
  parent : s.nursery.parent = .waiting
  children : ∀ c ∈ s.nursery.children, c.state.pc = .unstarted ∧ c.cancelRequested = false

/-- No cancellation ends the awaiting task at `asyncio.wait` while a fetching task has not
ended. -/
def attended (s : GatherRun) : GatherEvent → Bool
  | .parent _ => !s.nursery.orphans fetchBody
  | _ => true

/-- The condition of this module, as a guard on runs. -/
def Attended : Machine.Guard GatherRun GatherEvent := fun s ev _ => s.attended ev = true

/-- No fetching task has an effect after the awaiting task has ended. -/
def Quiet (s : GatherRun) : Prop :=
  s.nursery.parent = .finished → ∀ i inp s', machine.step s (.fetch i inp) = some s' →
    s'.nursery.shared.effects = s.nursery.shared.effects

variable {s s' : GatherRun} {ev : GatherEvent}

theorem contained_step (h : s.nursery.Contained fetchBody) (hs : s.step ev = some s')
    (hg : Attended s ev s') : s'.nursery.Contained fetchBody := by
  cases ev with
  | fetch i inp =>
    obtain ⟨n, hn, rfl⟩ := Option.map_eq_some_iff.mp hs
    exact h.childTurn hn
  | parent d =>
    have horphan : s.nursery.orphans fetchBody = false := by
      rwa [Attended, attended, Bool.not_eq_true'] at hg
    obtain ⟨-, hs⟩ := Option.ite_none_left_eq_some.mp hs
    obtain ⟨n, hn, rfl⟩ := Option.map_eq_some_iff.mp hs
    exact Nursery.Contained.parentTurn horphan hn
  | cancel =>
    cases hs
    exact h.cancel
  | other hs' =>
    cases hs
    exact h

theorem quiet_of_contained (h : s.nursery.Contained fetchBody) : s.Quiet := by
  intro hfin i inp s' hs
  obtain ⟨n, hn, rfl⟩ := Option.map_eq_some_iff.mp hs
  exact h.quiet hfin Downloads.effects Downloads.unwind_effects hn

theorem Initial.contained (h : s.Initial) : s.nursery.Contained fetchBody := by
  intro hfin
  rw [h.parent] at hfin
  cases hfin

end GatherRun

/-! ### Validations -/

/-- All that workers can change, the semaphore apart: the counters, the ratings, the checks
and the queue. -/
def Validation.effects {α : Type*} (v : Validation α) : Validation α := { v with slots := 0 }

theorem Validation.unwind_effects {α : Type*} (v : Validation α) (pc : CheckPc α) :
    (v.unwind pc).1.effects = v.effects := by
  unfold unwind
  split <;> rfl

namespace ValidationRun

variable {α : Type*} {s s' : ValidationRun α} {ev : ValidationEvent α}

variable [DecidableEq α]

/-- No cancellation ends the awaiting task at `asyncio.wait` while a worker has not ended. -/
def attended (s : ValidationRun α) : ValidationEvent α → Bool
  | .parent _ => !s.nursery.orphans checkBody
  | _ => true

/-- The condition of this module, as a guard on runs. -/
def Attended : Machine.Guard (ValidationRun α) (ValidationEvent α) :=
  fun s ev _ => s.attended ev = true

/-- No worker has an effect after the awaiting task has left `_validate_all`. -/
def Quiet (s : ValidationRun α) : Prop :=
  s.nursery.parent = .finished → ∀ i inp s', machine.step s (.worker i inp) = some s' →
    s'.shared.effects = s.shared.effects

theorem contained_withHost (h : s.nursery.Contained checkBody) (hs : HuntState) :
    (s.withHost hs).nursery.Contained checkBody := h

theorem contained_left (h : s.nursery.Contained checkBody) :
    s.left.nursery.Contained checkBody := by
  unfold left
  dsimp only
  split
  · exact contained_withHost h _
  · exact contained_withHost h _

theorem contained_stopHunt (h : s.nursery.Contained checkBody) :
    s.stopHunt.nursery.Contained checkBody := by
  have h₁ := contained_withHost h s.host.stopHunt
  unfold stopHunt
  dsimp only
  split
  · exact h₁.cancel
  · exact h₁

/-- **Step lemma**: under the condition no worker outlives the awaiting task. -/
theorem contained_step (h : s.nursery.Contained checkBody) (hs : s.step ev = some s')
    (hg : Attended s ev s') : s'.nursery.Contained checkBody := by
  cases ev with
  | worker i inp =>
    obtain ⟨n, hn, rfl⟩ := Option.map_eq_some_iff.mp hs
    exact h.childTurn hn
  | parent d =>
    have horphan : s.nursery.orphans checkBody = false := by
      rwa [Attended, attended, Bool.not_eq_true'] at hg
    obtain ⟨-, hs⟩ := Option.ite_none_left_eq_some.mp hs
    obtain ⟨n, hn, rfl⟩ := Option.map_eq_some_iff.mp hs
    have hcontained := Nursery.Contained.parentTurn horphan hn
    dsimp only
    split
    · exact contained_left hcontained
    · exact hcontained
  | cancel =>
    simp only [step] at hs
    split at hs
    · cases hs
      exact h.cancel
    · cases hs
      exact (contained_withHost h _).cancel
  | pauseHunt manual =>
    cases hs
    exact contained_withHost h _
  | resumeHunt manual =>
    cases hs
    exact contained_withHost h _
  | stopHunt =>
    cases hs
    exact contained_stopHunt h
  | skipPhase =>
    cases hs
    exact contained_withHost h _
  | blacklisted addr =>
    cases hs
    exact h
  | cycle inp =>
    obtain ⟨hn, -, hs⟩ := Option.bind_eq_some_iff.mp hs
    obtain ⟨-, hs⟩ := Option.ite_none_right_eq_some.mp hs
    obtain ⟨q, -, rfl⟩ := Option.map_eq_some_iff.mp hs
    exact contained_withHost h _

theorem quiet_of_contained (h : s.nursery.Contained checkBody) : s.Quiet := by
  intro hfin i inp s' hs
  obtain ⟨n, hn, rfl⟩ := Option.map_eq_some_iff.mp hs
  exact h.quiet hfin Validation.effects Validation.unwind_effects hn

theorem Initial.contained (h : s.Initial) : s.nursery.Contained checkBody := by
  intro hfin
  rw [h.parent] at hfin
  cases hfin

end ValidationRun

/-- **Cancelled work stops** in every run in which no cancellation reaches the awaiting task
at `asyncio.wait` while a task of it has not ended: once it has finished, no worker and no
fetching task has an effect any more. -/
theorem cancelled_work_stops {α : Type*} [DecidableEq α] :
    (∀ s s' : ValidationRun α, s.Initial →
      ValidationRun.machine.Reaches ValidationRun.Attended s s' → s'.Quiet) ∧
    ∀ s s' : GatherRun, s.Initial → GatherRun.machine.Reaches GatherRun.Attended s s' →
      s'.Quiet := by
  constructor
  · intro s s' h₀ h
    exact ValidationRun.quiet_of_contained
      (h.invariant (I := fun s => s.nursery.Contained checkBody) h₀.contained
        (fun _ _ _ hi hs hg => ValidationRun.contained_step hi hs hg))
  · intro s s' h₀ h
    exact GatherRun.quiet_of_contained
      (h.invariant (I := fun s => s.nursery.Contained fetchBody) h₀.contained
        (fun _ _ _ hi hs hg => GatherRun.contained_step hi hs hg))

/-! ### Runs -/

/-- Hunt `0` has just created two workers for two addresses. -/
def sampleValidation : ValidationRun ℕ := .begun ValidationRun.validating (some 0) [80, 81] 2

theorem sampleValidation_initial : sampleValidation.Initial :=
  ValidationRun.begun_initial (some 0) 2 (by decide) rfl rfl rfl

/-- Two lists are about to be fetched. -/
def sampleGather : GatherRun where
  nursery :=
    { shared := { slots := 8 }
      children := [⟨⟨0, .unstarted⟩, false⟩, ⟨⟨1, .unstarted⟩, false⟩] }
  host := { skipEvent := true }

theorem sampleGather_initial : sampleGather.Initial where
  parent := rfl
  children := by simp [sampleGather]

/-- The first worker has begun to check its address. -/
def firstProbe : List (ValidationEvent ℕ) := [.worker 0 .go, .worker 0 .go]

/-- The time of a validation is over during a check; and a hunt is stopped while it gathers
the fetching tasks that it has cancelled after a skip. -/
theorem cancelled_work_stops_sample :
    (∃ s' : ValidationRun ℕ, s'.nursery.parent = .finished ∧
      s'.nursery.allEnded checkBody = false ∧ s'.Quiet) ∧
    ∃ s' : GatherRun, s'.nursery.parent = .finished ∧ s'.Quiet := by
  have hvalidation : ∃ s', ValidationRun.machine.Reaches ValidationRun.Attended sampleValidation s' ∧
      (s'.nursery.parent == .finished && !s'.nursery.allEnded checkBody) = true :=
    Machine.exists_reaches_of_exec (g := fun s ev _ => s.attended ev)
      (l := firstProbe ++ [.parent .abandon])
      (fun s ev _ (h : s.attended ev = true) => h) (by decide +kernel)
  have hgather : ∃ s', GatherRun.machine.Reaches GatherRun.Attended sampleGather s' ∧
      (s'.nursery.parent == .finished) = true :=
    Machine.exists_reaches_of_exec (g := fun s ev _ => s.attended ev)
      (l := [.fetch 0 .go, .fetch 0 .go, .parent .cut, .cancel, .fetch 0 .go, .fetch 1 .go,
        .parent .leave])
      (fun s ev _ (h : s.attended ev = true) => h) (by decide +kernel)
  obtain ⟨s', hs', hend⟩ := hvalidation
  obtain ⟨t', ht', hend'⟩ := hgather
  rw [Bool.and_eq_true, beq_iff_eq, Bool.not_eq_true'] at hend
  have hstops := cancelled_work_stops (α := ℕ)
  exact ⟨⟨s', hend.1, hend.2, hstops.1 _ _ sampleValidation_initial hs'⟩,
    ⟨t', beq_iff_eq.mp hend', hstops.2 _ _ sampleGather_initial ht'⟩⟩

/-- A hunt is stopped during a check: the worker goes on, and counts its address in the
counters of whatever runs then. -/
theorem orphaned_check :
    ¬ ((∀ s s' : ValidationRun ℕ, s.Initial →
        ValidationRun.machine.Reaches Machine.anyStep s s' → s'.Quiet) ∧
      ∀ s s' : GatherRun, s.Initial → GatherRun.machine.Reaches Machine.anyStep s s' →
        s'.Quiet) := by
  rintro ⟨hall, -⟩
  have hrun : ∃ s', ValidationRun.machine.Reaches Machine.anyStep sampleValidation s' ∧
      (s'.nursery.parent == .finished && s'.host.checked == 0 &&
        (ValidationRun.machine.step s' (.worker 0 (.probed ⟨false, false, false⟩ false))).any
          (fun s'' => s''.host.checked == 1)) = true :=
    Machine.exists_reaches_of_exec (g := fun _ _ _ => true)
      (l := firstProbe ++ [.stopHunt, .parent .leave]) (fun _ _ _ _ => trivial)
      (by decide +kernel)
  obtain ⟨s', hs', hend⟩ := hrun
  rw [Bool.and_eq_true, Bool.and_eq_true, beq_iff_eq, beq_iff_eq, Option.any_eq_true] at hend
  obtain ⟨⟨hfin, hbefore⟩, s'', hstep, hafter⟩ := hend
  have hquiet := hall _ s' sampleValidation_initial hs' hfin 0 _ s'' hstep
  have hchecked : s''.shared.effects.host.checked = s'.shared.effects.host.checked := by
    rw [hquiet]
  change s''.host.checked = s'.host.checked at hchecked
  rw [hbefore, beq_iff_eq.mp hafter] at hchecked
  cases hchecked

end HuntProxy
