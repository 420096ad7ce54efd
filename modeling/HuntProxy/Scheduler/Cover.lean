import HuntProxy.Lib.Slots
import HuntProxy.Scheduler.Effect

/-!
# The registry covers the unfinished runs

A run is unfinished until its `finally` has left the registry; the drain it makes
afterwards is no longer part of the scheduled work. The registry covers the unfinished
runs when each is registered under its own key: then a free key has no unfinished run,
and testing the registry tests the runs. The launch lock makes the test and the
registration one unit, although the internet check lies between them.

Which runs are followed is a parameter: all of them, or only those that `trigger_now`
did not ask for. The registry stays covering in the runs of the machine whose steps are
all `covering`: no run is finished or cleared away under a key that another followed run
holds, and no type is edited to a registered one while a launch awaits its internet
check.

## Main results

- `CoverInv` — the invariant, with the launch lock
- `CoverInv.step` — covering steps keep it
-/

namespace HuntProxy

/-- The key of an unfinished run that is followed. -/
def Code.keyAs (kind : Bool → Bool) (c : Code) : Option TaskType :=
  (c.unfinished.filter (fun p => kind p.2)).map Prod.fst

/-- Follow every run. -/
def everyRun : Bool → Bool := fun _ => true

/-- Follow the runs that `trigger_now` did not launch. -/
def scheduledRun : Bool → Bool := fun triggered => !triggered

theorem Code.keyAs_everyRun (c : Code) : c.keyAs everyRun = c.liveKey := by
  cases c with
  | run sid key triggered pc => cases pc <;> rfl
  | _ => rfl

theorem Code.keyAs_none {c : Code} (h : c.liveKey = none) (kind : Bool → Bool) :
    c.keyAs kind = none := by
  rw [keyAs, unfinished_eq_none h]
  rfl

theorem Code.keyAs_unstarted (kind : Bool → Bool) (sid : Sid) (key : TaskType)
    (triggered : Bool) :
    (Code.run sid key triggered .unstarted).keyAs kind =
      if kind triggered = true then some key else none := by
  cases h : kind triggered <;> simp [keyAs, unfinished, Option.filter, h]

namespace SchedulerEngine

/-- The key under which task `i` is an unfinished run that is followed. -/
def runs (s : SchedulerEngine) (kind : Bool → Bool) (i : TaskId) : Option TaskType :=
  (s.code i).keyAs kind

theorem runs_everyRun (s : SchedulerEngine) (i : TaskId) : s.runs everyRun i = s.live i :=
  Code.keyAs_everyRun _

theorem runs_of_live {s : SchedulerEngine} {i : TaskId} (h : s.live i = none)
    (kind : Bool → Bool) : s.runs kind i = none :=
  Code.keyAs_none h kind

/-- No followed run is unfinished under one of the keys. -/
def unowned (s : SchedulerEngine) (kind : Bool → Bool) (ks : List TaskType) : Bool :=
  (List.range s.nextTask).all (fun o => ks.all (fun k => s.runs kind o != some k))

/-- The steps that keep the registry covering. -/
def covering (s : SchedulerEngine) (kind : Bool → Bool) : Time × Action → Bool
  | (_, .resume i inp) =>
    match s.code i with
    | .run _ _ _ .unstarted => true
    | .run _ key triggered (.executing r _) =>
      kind triggered && (s.entries r).taskType == key ||
        s.unowned kind [(s.entries r).taskType]
    | c =>
      s.unowned kind (s.clearedKeys c) &&
        match c.tested with
        | none => true
        | some (r, _, key) =>
          inp != .alive true || (s.entries r).taskType == key ||
            !s.runningTasks.contains (s.entries r).taskType
  | _ => true

/-- Tasks that are yet to be created have no coroutine, every followed run is registered
under its key, and a launch in its internet check holds the launch lock over a key that
is free. -/
structure CoverInv (kind : Bool → Bool) (s : SchedulerEngine) : Prop where
  fresh : s.Fresh
  covered : Slots.Covered s.runningTasks.get? (s.runs kind)
  lock : ∀ i r taskDef key, (s.code i).tested = some (r, taskDef, key) →
    s.launchLock = some i ∧ s.runningTasks.get? key = none

theorem Initial.live {s : SchedulerEngine} (h : s.Initial) (j : TaskId) : s.live j = none := by
  rw [live_eq, h.code]
  rfl

theorem Initial.coverInv {s : SchedulerEngine} (h : s.Initial) (kind : Bool → Bool) :
    s.CoverInv kind := by
  refine ⟨h.fresh, ?_, ?_⟩
  · intro o k ho
    rw [runs_of_live (h.live o)] at ho
    cases ho
  · intro i r taskDef key hi
    rw [h.code] at hi
    cases hi

/-- In a covering registry of all runs every unfinished run is registered. -/
theorem CoverInv.covers {s : SchedulerEngine} (h : s.CoverInv everyRun) :
    Slots.Covered s.runningTasks.get? s.live :=
  h.covered.congr (fun _ => rfl) (fun o => (s.runs_everyRun o).symm)

theorem liveKey_of_done {c : Code} (h : c.isDone = true) : c.liveKey = none := by
  cases c <;> first | rfl | cases h

/-- Keys without an owner have no followed run. -/
theorem CoverInv.not_runs_of_unowned {s : SchedulerEngine} {kind : Bool → Bool}
    (h : s.CoverInv kind) {ks : List TaskType} (hks : s.unowned kind ks = true) {k : TaskType}
    (hk : k ∈ ks) (o : TaskId) : s.runs kind o ≠ some k := by
  by_cases ho : o < s.nextTask
  · simp only [unowned, List.all_eq_true, List.mem_range, bne_iff_ne] at hks
    exact hks o ho k hk
  · rw [runs_of_live (liveKey_of_done (h.fresh o (Nat.le_of_not_lt ho)))]
    exact (Option.some_ne_none k).symm

/-- The followed runs after a turn of task `i`. -/
theorem runs_setCode (s : SchedulerEngine) (kind : Bool → Bool) (i j : TaskId) (c : Code) :
    (s.setCode i c).runs kind j = if j = i then c.keyAs kind else s.runs kind j := by
  rw [runs, code_setCode]
  split <;> rfl

/-- A turn that creates and ends no run leaves the followed runs as they are. -/
theorem runs_still {s s₁ : SchedulerEngine} {i : TaskId} {c' : Code}
    (hcode : ∀ j, s₁.code j = s.code j) (hlive : c'.unfinished = (s.code i).unfinished)
    (kind : Bool → Bool) (j : TaskId) : (s₁.setCode i c').runs kind j = s.runs kind j := by
  rw [runs_setCode]
  by_cases hj : j = i
  · rw [if_pos hj, hj, runs, Code.keyAs, Code.keyAs, hlive]
  · rw [if_neg hj, runs, runs, hcode]

/-- A turn that ends the run of its task leaves the other ones as they are. -/
theorem runs_finished {s s₁ : SchedulerEngine} {i : TaskId} {c' : Code}
    (hcode : ∀ j, s₁.code j = s.code j) (hlive : c'.liveKey = none) (kind : Bool → Bool)
    (j : TaskId) : (s₁.setCode i c').runs kind j = if j = i then none else s.runs kind j := by
  rw [runs_setCode, Code.keyAs_none hlive, runs, runs, hcode]

/-- A turn that launches a run adds it to the followed ones if it is to be followed. -/
theorem runs_launched {s s₁ : SchedulerEngine} {i : TaskId} {c' : Code} {sid : Sid}
    {key : TaskType} {triggered : Bool} (hnew : i ≠ s.nextTask)
    (hl : s.Launched s₁ sid key triggered) (hlive : (s.code i).liveKey = none)
    (hlive' : c'.liveKey = none) (kind : Bool → Bool) (j : TaskId) :
    (s₁.setCode i c').runs kind j =
      if j = s.nextTask then (if kind triggered = true then some key else none)
      else s.runs kind j := by
  rw [runs_setCode]
  by_cases hj : j = i
  · rw [if_pos hj, hj, if_neg hnew, Code.keyAs_none hlive', runs_of_live hlive]
  · rw [if_neg hj, runs, hl.code]
    by_cases hjn : j = s.nextTask
    · rw [if_pos hjn, if_pos hjn, Code.keyAs_unstarted]
    · rw [if_neg hjn, if_neg hjn, runs]

/-- A turn that creates and ends no run leaves the unfinished runs as they are. -/
theorem live_still {s s₁ : SchedulerEngine} {i : TaskId} {c' : Code}
    (hcode : ∀ j, s₁.code j = s.code j) (hlive : c'.unfinished = (s.code i).unfinished)
    (j : TaskId) : (s₁.setCode i c').live j = s.live j := by
  have h := runs_still hcode hlive everyRun j
  rwa [runs_everyRun, runs_everyRun] at h

/-- A turn that ends the run of its task leaves the other ones as they are. -/
theorem live_finished {s s₁ : SchedulerEngine} {i : TaskId} {c' : Code}
    (hcode : ∀ j, s₁.code j = s.code j) (hlive : c'.liveKey = none) (j : TaskId) :
    (s₁.setCode i c').live j = if j = i then none else s.live j := by
  have h := runs_finished (i := i) hcode hlive everyRun j
  rwa [runs_everyRun, runs_everyRun] at h

/-- A turn that launches a run adds it to the unfinished ones. -/
theorem live_launched {s s₁ : SchedulerEngine} {i : TaskId} {c' : Code} {sid : Sid}
    {key : TaskType} {triggered : Bool} (hnew : i ≠ s.nextTask)
    (hl : s.Launched s₁ sid key triggered) (hlive : (s.code i).liveKey = none)
    (hlive' : c'.liveKey = none) (j : TaskId) :
    (s₁.setCode i c').live j = if j = s.nextTask then some key else s.live j := by
  have h := runs_launched hnew hl hlive hlive' everyRun j
  rwa [runs_everyRun, runs_everyRun, everyRun, if_pos rfl] at h

/-- What a turn does to the launches in their internet check. -/
theorem tested_setCode {s : SchedulerEngine} {i j : TaskId} {c : Code}
    {x : Ref × TaskDef × TaskType} (hc : c.tested = none)
    (h : ((s.setCode i c).code j).tested = some x) : j ≠ i ∧ (s.code j).tested = some x := by
  rw [code_setCode] at h
  by_cases hj : j = i
  · rw [if_pos hj, hc] at h
    cases h
  · rw [if_neg hj] at h
    exact ⟨hj, h⟩

/-- After a launch no task is in its internet check, if none but the launching one was. -/
theorem tested_launched {s s₁ : SchedulerEngine} {i : TaskId} {c' : Code} {sid : Sid}
    {key : TaskType} {triggered : Bool} (hl : s.Launched s₁ sid key triggered)
    (hafter : c'.tested = none) (hnone : ∀ j, j ≠ i → (s.code j).tested = none) (j : TaskId) :
    ((s₁.setCode i c').code j).tested = none := by
  rw [code_setCode]
  split
  · exact hafter
  · next hij =>
    rw [hl.code]
    -- the new task has not had its first turn
    split
    · rfl
    · exact hnone j hij

/-- A step of the API starts and ends no run. -/
theorem runs_api {s s' : SchedulerEngine} (hf : s.Fresh) (ha : s.ApiEffect s')
    (kind : Bool → Bool) (j : TaskId) : s'.runs kind j = s.runs kind j := by
  rcases ha.code j with hj | ⟨rfl, -, hlive, -⟩
  · rw [runs, runs, hj]
  · rw [runs_of_live hlive, runs_of_live (liveKey_of_done (hf _ le_rfl))]

/-- A step of the API starts and ends no run. -/
theorem live_api {s s' : SchedulerEngine} (hf : s.Fresh) (ha : s.ApiEffect s') (j : TaskId) :
    s'.live j = s.live j := by
  have h := runs_api hf ha everyRun j
  rwa [runs_everyRun, runs_everyRun] at h

theorem unfinished_none {c c' : Code} (hlive' : c'.liveKey = none) (hlive : c.liveKey = none) :
    c'.unfinished = c.unfinished := by
  rw [Code.unfinished_eq_none hlive', Code.unfinished_eq_none hlive]

namespace CoverInv

variable {kind : Bool → Bool} {s s₁ : SchedulerEngine} {i : TaskId} {c' : Code}

/-- A task that has not ended is not the next one to be created. -/
theorem ne_nextTask (h : s.CoverInv kind) (hi : (s.code i).isDone = false) : i ≠ s.nextTask :=
  (h.fresh.lt hi).ne

/-- A turn that leaves registry and lock alone, or takes a lock nobody holds, or gives up
the lock its own launch holds. -/
theorem still (h : s.CoverInv kind) (hfresh : (s₁.setCode i c').Fresh) (hstill : s.Still s₁)
    (hlive : c'.unfinished = (s.code i).unfinished)
    (hlock : ∀ j r taskDef key, ((s₁.setCode i c').code j).tested = some (r, taskDef, key) →
      s₁.launchLock = some j ∧ s.runningTasks.get? key = none) :
    (s₁.setCode i c').CoverInv kind := by
  have hl := runs_still hstill.code hlive kind
  refine ⟨hfresh, h.covered.congr hstill.held hl, ?_⟩
  intro j r taskDef key hj
  obtain ⟨howner, hfree⟩ := hlock j r taskDef key hj
  exact ⟨howner, (hstill.held key).trans hfree⟩

/-- A launch: the new run takes a key that is free. -/
theorem launched (h : s.CoverInv kind) (hi : (s.code i).isDone = false)
    (hfresh : (s₁.setCode i c').Fresh) {sid : Sid} {key : TaskType} {triggered : Bool} (hl : s.Launched s₁ sid key triggered)
    (hfree : s.runningTasks.get? key = none) (hlive : (s.code i).liveKey = none)
    (hlive' : c'.liveKey = none) (hafter : c'.tested = none)
    (hnone : ∀ j, j ≠ i → (s.code j).tested = none) : (s₁.setCode i c').CoverInv kind := by
  have hruns := runs_launched (h.ne_nextTask hi) hl hlive hlive' kind
  have hnew : s.runs kind s.nextTask = none :=
    runs_of_live (liveKey_of_done (h.fresh _ le_rfl)) kind
  have hcovered : Slots.Covered s₁.runningTasks.get? ((s₁.setCode i c').runs kind) := by
    cases hk : kind triggered with
    | true => exact h.covered.acquire hfree hl.held (fun j => by rw [hruns, if_pos hk])
    | false =>
      refine h.covered.skip hfree hl.held (fun j => ?_)
      rw [hruns, if_neg (Bool.eq_false_iff.mp hk)]
      split
      · next hj => rw [hj, hnew]
      · rfl
  refine ⟨hfresh, hcovered, ?_⟩
  intro j r taskDef k hj
  rw [tested_launched hl hafter hnone j] at hj
  cases hj

/-- Only the holder of the launch lock is in an internet check. -/
theorem tested_none (h : s.CoverInv kind) (hfree : s.launchLock = none) (j : TaskId) :
    (s.code j).tested = none := by
  cases hj : (s.code j).tested with
  | none => rfl
  | some x =>
    have howner := (h.lock j x.1 x.2.1 x.2.2 hj).1
    rw [hfree] at howner
    cases howner

/-- Nobody but the task that is in its internet check is in one. -/
theorem tested_unique (h : s.CoverInv kind) (hi : (s.code i).tested.isSome) {j : TaskId}
    (hj : j ≠ i) : (s.code j).tested = none := by
  obtain ⟨x, hx⟩ := Option.isSome_iff_exists.mp hi
  cases hy : (s.code j).tested with
  | none => rfl
  | some y =>
    have hlock := (h.lock i x.1 x.2.1 x.2.2 hx).1
    rw [(h.lock j y.1 y.2.1 y.2.2 hy).1, Option.some.injEq] at hlock
    exact absurd hlock hj

/-- A covering turn outside a run launches over the type it has tested, or over a free one,
and clears no key of an unfinished run. -/
theorem covering_launcher {now : Time} {inp : Input} (hlive : (s.code i).liveKey = none)
    (hcov : s.covering kind (now, .resume i inp) = true) :
    s.unowned kind (s.clearedKeys (s.code i)) = true ∧
      ∀ r taskDef key, (s.code i).tested = some (r, taskDef, key) → inp = .alive true →
        (s.entries r).taskType = key ∨
          s.runningTasks.get? (s.entries r).taskType = none := by
  simp only [covering] at hcov
  split at hcov
  · next hc =>
    rw [hc] at hlive
    cases hlive
  · next hc =>
    rw [hc] at hlive
    cases hlive
  · rw [Bool.and_eq_true] at hcov
    refine ⟨hcov.1, fun r taskDef key ht hinp => ?_⟩
    have hcheck := hcov.2
    rw [ht, hinp] at hcheck
    simpa using hcheck

/-- A positive internet check finds the type of its entry free. -/
theorem free_of_verdict (h : s.CoverInv kind) {now : Time} {inp : Input} {r : Ref} {taskDef : TaskDef}
    {key : TaskType} (hlive : (s.code i).liveKey = none)
    (hbefore : (s.code i).tested = some (r, taskDef, key)) (hverdict : inp = .alive true)
    (hcov : s.covering kind (now, .resume i inp) = true) :
    s.runningTasks.get? (s.entries r).taskType = none := by
  rcases (covering_launcher hlive hcov).2 r taskDef key hbefore hverdict with hsame | hfree
  · rw [hsame]
    exact (h.lock i r taskDef key hbefore).2
  · exact hfree

/-- **Step lemma for turns**: a covering turn keeps the invariant. -/
theorem turn (h : s.CoverInv kind) {now : Time} {inp : Input}
    (hcov : s.covering kind (now, .resume i inp) = true) (hturn : s.turn now i inp = some (s₁, c')) :
    (s₁.setCode i c').CoverInv kind := by
  have hi := turn_not_done hturn
  have he := turn_effect hturn
  have hfresh := h.fresh.turn hi he
  cases he with
  | quiet hstill hlock hlive hbefore hafter =>
    refine h.still hfresh hstill hlive (fun j r taskDef key hj => ?_)
    obtain ⟨-, hj⟩ := tested_setCode hafter hj
    rw [hstill.code] at hj
    rw [hlock]
    exact h.lock j r taskDef key hj
  | hold hstill hfree hlock hlive hlive' hbefore hafter hunreg hclear hrow =>
    refine h.still hfresh hstill (unfinished_none hlive' hlive) (fun j r taskDef key hj => ?_)
    rw [code_setCode] at hj
    by_cases hij : j = i
    · rw [if_pos hij, hafter, Option.some.injEq, Prod.mk.injEq, Prod.mk.injEq] at hj
      obtain ⟨rfl, -, rfl⟩ := hj
      exact ⟨hij ▸ hlock, Dict.contains_eq_false.mp hunreg⟩
    · rw [if_neg hij, hstill.code, h.tested_none hfree] at hj
      cases hj
  | drop hstill hlock hlive hlive' hbefore hafter =>
    refine h.still hfresh hstill (unfinished_none hlive' hlive) (fun j r taskDef key hj => ?_)
    obtain ⟨hij, hj⟩ := tested_setCode hafter hj
    rw [hstill.code, h.tested_unique hbefore hij] at hj
    cases hj
  | launchFree hl hfree hlock hlive hlive' hbefore hafter hunreg hclear hrow habout horigin =>
    exact h.launched hi hfresh hl (Dict.contains_eq_false.mp hunreg) hlive hlive' hafter
      (fun j _ => h.tested_none hfree j)
  | launchWaited at_ hwake hl hfree hlock hlive' hafter hunreg =>
    have hlive : (s.code i).liveKey = none := by rw [at_]; rfl
    exact h.launched hi hfresh hl (Dict.contains_eq_false.mp hunreg) hlive hlive' hafter
      (fun j _ => h.tested_none hfree j)
  | @launchHeld _ _ sid r taskDef key hl hverdict hlock hlive hlive' hbefore hafter =>
    exact h.launched hi hfresh hl (h.free_of_verdict hlive hbefore hverdict hcov) hlive hlive' hafter
      (fun j hij => h.tested_unique (Option.isSome_of_eq_some hbefore) hij)
  | @finish _ sid key triggered r started at_ hheld hcode hnext hlock hframe =>
    simp only [covering, at_, Bool.or_eq_true, Bool.and_eq_true, beq_iff_eq] at hcov
    have hended : (Code.run sid key triggered (.draining .start)).liveKey = none := rfl
    have hruns := runs_finished (i := i) hcode hended kind
    have hother : ∀ o, o ≠ i → s.runs kind o ≠ some (s.entries r).taskType := by
      intro o ho hlo
      rcases hcov with ⟨hk, hsame⟩ | hunowned
      · -- the run itself is followed and registered under the key it frees
        have hself : s.runs kind i = some key := by
          rw [runs, at_]
          simp [Code.keyAs, Code.unfinished, Option.filter, hk]
        rw [hsame] at hlo
        exact ho (h.covered.unique hlo hself)
      · exact h.not_runs_of_unowned hunowned (List.mem_singleton.mpr rfl) o hlo
    refine ⟨hfresh, h.covered.release hother hheld hruns,
      fun j r taskDef k hj => ?_⟩
    obtain ⟨-, hj⟩ := tested_setCode rfl hj
    rw [hcode] at hj
    obtain ⟨howner, hfree⟩ := h.lock j r taskDef k hj
    refine ⟨hlock.trans howner, (hheld k).trans ?_⟩
    rw [hfree, ite_self]
  | @vanish sid key triggered at_ why =>
    have hended : (Code.done .nothing).liveKey = none := rfl
    have hruns := runs_finished (i := i) (fun j => (rfl : s.code j = s.code j)) hended kind
    refine ⟨hfresh, h.covered.retire (fun _ => rfl) hruns,
      fun j r taskDef k hj => ?_⟩
    obtain ⟨-, hj⟩ := tested_setCode rfl hj
    exact h.lock j r taskDef k hj
  | clear hheld hcode hnext hlock hframe hlive hlive' hbefore hafter =>
    have hunowned := (covering_launcher hlive hcov).1
    have hruns := runs_still hcode (unfinished_none hlive' hlive) kind
    refine ⟨hfresh,
      h.covered.clear (fun k hk => h.not_runs_of_unowned hunowned hk) hheld hruns,
      fun j r taskDef k hj => ?_⟩
    obtain ⟨-, hj⟩ := tested_setCode hafter hj
    rw [hcode] at hj
    obtain ⟨howner, hfree⟩ := h.lock j r taskDef k hj
    refine ⟨hlock.trans howner, (hheld k).trans ?_⟩
    rw [hfree, ite_self]

/-- A step of the API keeps the invariant. -/
theorem api {s' : SchedulerEngine} (h : s.CoverInv kind) (ha : s.ApiEffect s') : s'.CoverInv kind := by
  refine ⟨h.fresh.api ha, h.covered.congr ha.held (runs_api h.fresh ha kind), fun j r taskDef key hj => ?_⟩
  rcases ha.code j with hc | ⟨-, -, -, hdrain⟩
  · rw [hc] at hj
    obtain ⟨howner, hfree⟩ := h.lock j r taskDef key hj
    exact ⟨ha.lock.trans howner, (ha.held key).trans hfree⟩
  · rw [Code.tested_of_no_drain hdrain] at hj
    cases hj

/-- **Step lemma**: a covering step keeps the invariant. -/
theorem step {s' : SchedulerEngine} {a : Time × Action} (h : s.CoverInv kind)
    (hs : s.step a = some s') (hcov : s.covering kind a = true) : s'.CoverInv kind := by
  obtain ⟨now, a⟩ := a
  rcases step_effect hs with ⟨i, inp, s₁, c', rfl, hturn, rfl⟩ | ⟨-, ha⟩
  · exact h.turn hcov hturn
  · exact h.api ha

end CoverInv

end SchedulerEngine

end HuntProxy
