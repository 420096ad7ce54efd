import HuntProxy.Scheduler.Gate
import HuntProxy.Scheduler.Turns

/-!
# What a turn of a task does to the registry

A turn of a task can do few things to the registry, the pool and the launch lock: nothing,
take the lock for an internet check, give it back, launch a run, end a run, or clear
keys. `TurnEffect` lists them once for all coroutines, and `Effect` adds the steps of
the API, which never launch or end anything. Invariants about the registry are proved
from these lists, without looking into the coroutines again.

## Main definitions

- `Still` — nothing changes that the registry depends on
- `TurnEffect`, `turn_effect` — the effects of a turn
- `Effect`, `step_effect` — the effects of a step
-/

namespace HuntProxy

/-- The entry, the table row and the tested key of a launch in its internet check. -/
def Launch.tested (l : Launch) : Option (Ref × TaskDef × TaskType) :=
  match l.await with
  | .lock => none
  | .internet key => some (l.entry, l.taskDef, key)

namespace Code

/-- The launch of a coroutine that is in its internet check. -/
def tested (c : Code) : Option (Ref × TaskDef × TaskType) := c.launch?.bind Launch.tested

/-- The entry and the table row that a launching coroutine has read before its await. -/
def row : Code → Option (Ref × TaskDef)
  | .triggerNow _ (.internet r taskDef) => some (r, taskDef)
  | .triggerNow _ (.lock r taskDef _) => some (r, taskDef)
  | c => c.launch?.map (fun l => (l.entry, l.taskDef))

/-- The key of an unfinished run, and whether `trigger_now` launched it. -/
def unfinished : Code → Option (TaskType × Bool)
  | .run _ key triggered .unstarted => some (key, triggered)
  | .run _ key triggered (.executing _ _) => some (key, triggered)
  | _ => none

theorem liveKey_eq (c : Code) : c.liveKey = c.unfinished.map Prod.fst := by
  cases c with
  | run sid key triggered pc => cases pc <;> rfl
  | _ => rfl

theorem unfinished_eq_none {c : Code} (h : c.liveKey = none) : c.unfinished = none := by
  rwa [liveKey_eq, Option.map_eq_none_iff] at h

theorem liveKey_of_drain {c : Code} {p : DrainPc} (h : c.drain? = some p) : c.liveKey = none := by
  cases c with
  | run sid key triggered pc =>
    cases pc with
    | draining q => rfl
    | unstarted => simp [drain?] at h
    | executing r t => simp [drain?] at h
  | _ => rfl

theorem drain?_withDrain {c : Code} {p q : DrainPc} (h : c.drain? = some p) :
    (c.withDrain q).drain? = some q := by
  cases c <;> first | rfl | simp [drain?] at h

@[simp] theorem drain?_afterDrain (c : Code) : c.afterDrain.drain? = none := by
  cases c <;> rfl

@[simp] theorem liveKey_afterDrain (c : Code) : c.afterDrain.liveKey = none := by
  cases c <;> rfl

theorem liveKey_afterDrainStep {c : Code} {p : DrainPc} (h : c.drain? = some p)
    (q : Option DrainPc) : (c.afterDrainStep q).liveKey = none := by
  cases q with
  | none => exact c.liveKey_afterDrain
  | some q => exact liveKey_of_drain (drain?_withDrain h)

theorem drain?_afterDrainStep {c : Code} {p : DrainPc} (h : c.drain? = some p)
    (q : Option DrainPc) : (c.afterDrainStep q).drain? = q := by
  cases q with
  | none => exact c.drain?_afterDrain
  | some q => exact drain?_withDrain h

theorem tested_of_drain {c : Code} {p : DrainPc} (h : c.drain? = some p) :
    c.tested = p.launch?.bind Launch.tested := by
  rw [tested, launch?, h, Option.bind_some]

theorem tested_of_no_drain {c : Code} (h : c.drain? = none) : c.tested = none := by
  rw [tested, launch?, h, Option.bind_none, Option.bind_none]

end Code

namespace SchedulerEngine

/-- The registry and the coroutines stay as they are. -/
structure Still (s s' : SchedulerEngine) : Prop where
  held : ∀ k, s'.runningTasks.get? k = s.runningTasks.get? k
  code : ∀ j, s'.code j = s.code j
  nextTask : s'.nextTask = s.nextTask
  frame : s.Frame s'

theorem Still.of_eq {s s' : SchedulerEngine} (hrun : s'.runningTasks = s.runningTasks)
    (htasks : s'.tasks = s.tasks) (hnext : s'.nextTask = s.nextTask) (hframe : s.Frame s') :
    s.Still s' :=
  ⟨fun k => by rw [hrun], code_congr htasks, hnext, hframe⟩

theorem Still.refl (s : SchedulerEngine) : s.Still s := .of_eq rfl rfl rfl (.refl s)

theorem Still.trans {s s' s'' : SchedulerEngine} (h : s.Still s') (h' : s'.Still s'') :
    s.Still s'' where
  held k := (h'.held k).trans (h.held k)
  code j := (h'.code j).trans (h.code j)
  nextTask := h'.nextTask.trans h.nextTask
  frame := h.frame.trans h'.frame

/-- A change that concerns neither the registry nor the pool may come first. -/
theorem Still.after {s s₁ s' : SchedulerEngine} (h : s₁.Still s')
    (hrun : s₁.runningTasks = s.runningTasks) (htasks : s₁.tasks = s.tasks)
    (hnext : s₁.nextTask = s.nextTask) (hframe : s.Frame s₁) : s.Still s' :=
  (Still.of_eq hrun htasks hnext hframe).trans h

theorem Kept.still {s s' : SchedulerEngine} (h : s.Kept s') : s.Still s' :=
  .of_eq h.runningTasks h.tasks h.nextTask h.toFrame

/-- Clearing stale flags of the host changes nothing here. -/
theorem Still.with_host {s s₁ : SchedulerEngine} (h : s.Still s₁) {hs : HuntState}
    (host : s₁.state.Kept hs) : s.Still { s₁ with state := hs } :=
  h.trans (.of_eq rfl rfl rfl ⟨rfl, rfl, fun _ => rfl, fun _ => rfl, host⟩)

theorem cancelTasks_still (s : SchedulerEngine) (is : List TaskId) :
    s.Still (s.cancelTasks is) :=
  ⟨fun _ => rfl, s.code_cancelTasks is, rfl, .of_eq rfl rfl rfl rfl⟩

/-- A new run has been created and registered under `key`. -/
structure Launched (s s' : SchedulerEngine) (sid : Sid) (key : TaskType) (triggered : Bool) :
    Prop where
  held : ∀ k, s'.runningTasks.get? k =
    if k = key then some s.nextTask else s.runningTasks.get? k
  code : ∀ j, s'.code j =
    if j = s.nextTask then .run sid key triggered .unstarted else s.code j
  nextTask : s'.nextTask = s.nextTask + 1
  frame : s.Frame s'

theorem launch_launched (s : SchedulerEngine) (now : Time) (sid : Sid) (r : Ref)
    (triggered : Bool) :
    s.Launched (s.launch now sid r triggered) sid (s.entries r).taskType triggered where
  held k := by simp [launch]
  code j := by
    have h := (s.writeEntry r { s.entries r with lastStatus := .running, lastRun := now }).code_spawn
      j (.run sid (s.entries r).taskType triggered .unstarted)
    exact h
  nextTask := rfl
  frame := (s.writeEntry_frame r (e := { s.entries r with lastStatus := .running, lastRun := now })
    rfl rfl).trans (.of_eq rfl rfl rfl rfl)

theorem Launched.of_still {s s₀ s' : SchedulerEngine} {sid : Sid} {key : TaskType}
    {triggered : Bool} (h₀ : s.Still s₀) (h : s₀.Launched s' sid key triggered) :
    s.Launched s' sid key triggered where
  held k := by rw [h.held, h₀.held, h₀.nextTask]
  code j := by rw [h.code, h₀.code, h₀.nextTask]
  nextTask := by rw [h.nextTask, h₀.nextTask]
  frame := h₀.frame.trans h.frame

theorem Launched.then_still {s s₁ s' : SchedulerEngine} {sid : Sid} {key : TaskType}
    {triggered : Bool} (h : s.Launched s₁ sid key triggered) (h₁ : s₁.Still s') :
    s.Launched s' sid key triggered where
  held k := by rw [h₁.held, h.held]
  code j := by rw [h₁.code, h.code]
  nextTask := by rw [h₁.nextTask, h.nextTask]
  frame := h.frame.trans h₁.frame

/-- `taskDef` is the row of entry `r`'s type, read in this turn or before its await. -/
def RowRead (s : SchedulerEngine) (c : Code) (r : Ref) (taskDef : TaskDef) : Prop :=
  c.row = some (r, taskDef) ∨ taskDef = taskTypes (s.entries r).taskType

/-- The entry of a schedule, unless its type needs the internet first. -/
def offline (s : SchedulerEngine) (sid : Sid) : Option Ref :=
  (s.schedules.get? sid).filter (fun r => !(taskTypes (s.entries r).taskType).respectInternet)

/-- The entry that a turn of a drain launches if nothing blocks it. -/
def drainCandidate (s : SchedulerEngine) : Input → DrainPc → Option Ref
  | .wake, .next (sid :: _) => s.offline sid
  | .wake, .launching ⟨_, r, taskDef, .lock⟩ _ => if taskDef.respectInternet then none else some r
  | .alive true, .launching ⟨_, r, _, .internet _⟩ _ => some r
  | _, _ => none

/-- The entry that a turn launches if nothing blocks it. A decision for a type that needs
the internet first only begins the check. -/
def candidate (s : SchedulerEngine) (inp : Input) (c : Code) : Option Ref :=
  match c.drain? with
  | some p => s.drainCandidate inp p
  | none =>
    match c, inp with
    | .triggerNow sid .start, .wake => s.offline sid
    | .triggerNow _ (.internet r _), .alive true => some r
    | .triggerNow _ (.lock r _ _), .wake => some r
    | _, _ => none

/-- The keys that a bulk cancellation clears when its gather is over. -/
def clearedKeys (s : SchedulerEngine) : Code → List TaskType
  | .loop (.gateGather running) => running.map Prod.fst
  | .cancelAll _ (.gather _) => s.runningTasks.keys
  | .stop (.gather _) => s.runningTasks.keys
  | _ => []

/-- What a turn of task `i` at `c` does, up to the coroutine it leaves behind. -/
inductive TurnEffect (s : SchedulerEngine) (i : TaskId) (inp : Input) (c : Code) :
    SchedulerEngine → Code → Prop
  /-- Nothing that concerns the registry happens. -/
  | quiet {s' c'} (still : s.Still s') (lock : s'.launchLock = s.launchLock)
      (live : c'.unfinished = c.unfinished) (before : c.tested = none) (after : c'.tested = none) :
      TurnEffect s i inp c s' c'
  /-- A drain takes the launch lock and begins its internet check. -/
  | hold {s' c' r taskDef} (still : s.Still s') (free : s.launchLock = none)
      (lock : s'.launchLock = some i) (live : c.liveKey = none) (live' : c'.liveKey = none)
      (before : c.tested = none)
      (after : c'.tested = some (r, taskDef, (s.entries r).taskType))
      (unregistered : s.runningTasks.contains (s.entries r).taskType = false)
      (clear : s.conflicts taskDef = false) (row : s.RowRead c r taskDef) :
      TurnEffect s i inp c s' c'
  /-- A check was negative, or its drain was cancelled. -/
  | drop {s' c'} (still : s.Still s') (lock : s'.launchLock = none) (live : c.liveKey = none)
      (live' : c'.liveKey = none) (before : c.tested.isSome) (after : c'.tested = none) :
      TurnEffect s i inp c s' c'
  /-- A run is launched in the turn that tested for conflicts. -/
  | launchFree {s' c' sid r taskDef triggered}
      (launched : s.Launched s' sid (s.entries r).taskType triggered)
      (free : s.launchLock = none) (lock : s'.launchLock = none) (live : c.liveKey = none)
      (live' : c'.liveKey = none) (before : c.tested = none) (after : c'.tested = none)
      (unregistered : s.runningTasks.contains (s.entries r).taskType = false)
      (clear : s.conflicts taskDef = false) (row : s.RowRead c r taskDef)
      (about : s.candidate inp c = some r) (origin : triggered = false → c.drain?.isSome) :
      TurnEffect s i inp c s' c'
  /-- `trigger_now` launches a run after it has waited for the lock. -/
  | launchWaited {s' c' sid r taskDef taken}
      (at_ : c = .triggerNow sid (.lock r taskDef taken)) (wake : inp = .wake)
      (launched : s.Launched s' sid (s.entries r).taskType true)
      (free : s.launchLock = none) (lock : s'.launchLock = none) (live' : c'.liveKey = none)
      (after : c'.tested = none)
      (unregistered : s.runningTasks.contains (s.entries r).taskType = false) :
      TurnEffect s i inp c s' c'
  /-- A drain launches a run after the internet check. -/
  | launchHeld {s' c' sid r taskDef key}
      (launched : s.Launched s' sid (s.entries r).taskType false) (verdict : inp = .alive true)
      (lock : s'.launchLock = none) (live : c.liveKey = none) (live' : c'.liveKey = none)
      (before : c.tested = some (r, taskDef, key)) (after : c'.tested = none) :
      TurnEffect s i inp c s' c'
  /-- An executor has ended. -/
  | finish {s' sid key triggered r started}
      (at_ : c = .run sid key triggered (.executing r started))
      (held : ∀ k, s'.runningTasks.get? k =
        if k = (s.entries r).taskType then none else s.runningTasks.get? k)
      (code : ∀ j, s'.code j = s.code j) (nextTask : s'.nextTask = s.nextTask)
      (lock : s'.launchLock = s.launchLock) (frame : s.Frame s') :
      TurnEffect s i inp c s' (.run sid key triggered (.draining .start))
  /-- A run ends before its body has begun. -/
  | vanish {sid key triggered} (at_ : c = .run sid key triggered .unstarted)
      (why : (s.tasks i).cancelRequested = true ∨ s.schedules.contains sid = false) :
      TurnEffect s i inp c s (.done .nothing)
  /-- A bulk cancellation clears its keys. -/
  | clear {s' c'}
      (held : ∀ k, s'.runningTasks.get? k =
        if k ∈ s.clearedKeys c then none else s.runningTasks.get? k)
      (code : ∀ j, s'.code j = s.code j) (nextTask : s'.nextTask = s.nextTask)
      (lock : s'.launchLock = s.launchLock) (frame : s.Frame s') (live : c.liveKey = none)
      (live' : c'.liveKey = none) (before : c.tested = none) (after : c'.tested = none) :
      TurnEffect s i inp c s' c'

/-! ### Drains -/

theorem contains_still {s s' : SchedulerEngine} (h : s.Still s') (k : TaskType) :
    s'.runningTasks.contains k = s.runningTasks.contains k := by
  rw [Dict.contains, Dict.contains, h.held]

theorem leaveWaiters_still (s : SchedulerEngine) (i : TaskId) : s.Still (s.leaveWaiters i) :=
  (.of_eq rfl rfl rfl (.of_eq rfl rfl rfl rfl))

theorem candidate_of_drain {s : SchedulerEngine} {inp : Input} {c : Code} {p : DrainPc}
    (hp : c.drain? = some p) : s.candidate inp c = s.drainCandidate inp p := by
  unfold candidate
  rw [hp]

theorem offline_eq {s : SchedulerEngine} {sid : Sid} {r : Ref} (hr : s.schedules.get? sid = some r)
    (hoff : (taskTypes (s.entries r).taskType).respectInternet = false) :
    s.offline sid = some r := by
  simp [offline, hr, hoff]

/-- The end of a launch decision, seen from a drain that was not in an internet check. -/
theorem decision_effect {s s₁ : SchedulerEngine} {now : Time} {i : TaskId} {inp : Input} {c : Code}
    {p : DrainPc} {sid : Sid} {r : Ref} {taskDef : TaskDef} {rest : List Sid}
    {d : SchedulerEngine × LaunchResult} {d' : SchedulerEngine × Option DrainPc}
    (hp : c.drain? = some p) (hbefore : c.tested = none) (hstill : s.Still s₁)
    (hentries : s₁.entries = s.entries) (hfree : s.launchLock = none)
    (hfree₁ : s₁.launchLock = none) (hrow : s.RowRead c r taskDef)
    (habout : taskDef.respectInternet = false → s.candidate inp c = some r)
    (hd : LaunchDecision s₁ now i sid r taskDef d) (hd' : drainAfter sid rest d = d') :
    TurnEffect s i inp c d'.1 (c.afterDrainStep d'.2) := by
  subst hd'
  have hlive := Code.liveKey_of_drain hp
  have htype : (s₁.entries r).taskType = (s.entries r).taskType := by rw [hentries]
  have hlive' := Code.liveKey_afterDrainStep hp
  have htested : ∀ q, (c.afterDrainStep q).tested =
      (q.bind DrainPc.launch?).bind Launch.tested := by
    intro q
    rw [Code.tested, Code.launch?, Code.drain?_afterDrainStep hp]
  have hclear : s₁.conflicts taskDef = false → s.conflicts taskDef = false := by
    intro h
    have heq : s₁.runningTasks.contains = s.runningTasks.contains :=
      funext (contains_still hstill)
    rwa [conflicts, heq] at h
  cases hd with
  | blocked hs host =>
    refine .quiet (hstill.with_host host) ?_ ?_ hbefore (htested _)
    · exact hfree₁.trans hfree.symm
    · rw [Code.unfinished_eq_none (hlive' _), Code.unfinished_eq_none hlive]
  | suspended hs host hunreg hcl =>
    have hlocked : Still ({ s₁ with state := hs } : SchedulerEngine)
        { s₁ with state := hs, launchLock := some i } :=
      .of_eq rfl rfl rfl (.of_eq rfl rfl rfl rfl)
    have hstill' := (hstill.with_host host).trans hlocked
    refine .hold (r := r) hstill' hfree rfl hlive (hlive' _) hbefore ?_ ?_ (hclear hcl) hrow
    · rw [htested, ← htype]
      rfl
    · rw [← contains_still hstill, ← htype]
      exact hunreg
  | launched hs host hunreg hcl hoff =>
    have hl : ({ s₁ with state := hs } : SchedulerEngine).Launched _ sid
        (s₁.entries r).taskType false := launch_launched { s₁ with state := hs } now sid r false
    rw [htype] at hl
    have hl := (hl.of_still (hstill.with_host host)).then_still (dequeue_kept _ sid).still
    refine .launchFree hl hfree hfree₁ hlive (hlive' _) hbefore (htested _) ?_ (hclear hcl) hrow
      (habout hoff) (fun _ => Option.isSome_of_eq_some hp)
    rw [← contains_still hstill, ← htype]
    exact hunreg

/-- A turn of a drain that moves on without launching. -/
theorem TurnEffect.drain_quiet {s s' : SchedulerEngine} {i : TaskId} {inp : Input} {c : Code} {p : DrainPc}
    {q : Option DrainPc} (hp : c.drain? = some p) (hbefore : c.tested = none)
    (hstill : s.Still s') (hlock : s'.launchLock = s.launchLock)
    (hafter : (q.bind DrainPc.launch?).bind Launch.tested = none) :
    TurnEffect s i inp c s' (c.afterDrainStep q) := by
  refine .quiet hstill hlock ?_ hbefore ?_
  · rw [Code.unfinished_eq_none (Code.liveKey_afterDrainStep hp q),
      Code.unfinished_eq_none (Code.liveKey_of_drain hp)]
  · rw [Code.tested, Code.launch?, Code.drain?_afterDrainStep hp, hafter]

theorem row_of_launching {c : Code} {l : Launch} {rest : List Sid}
    (hp : c.drain? = some (.launching l rest)) : c.row = some (l.entry, l.taskDef) := by
  have hl : c.launch? = some l := by rw [Code.launch?, hp, Option.bind_some, DrainPc.launch?]
  cases c with
  | triggerNow sid pc => cases hp
  | _ => simp [Code.row, hl]

/-- A drain that goes on to the next schedule is in no internet check. -/
theorem tested_next {c : Code} {p : DrainPc} (hp : c.drain? = some p) (rest : List Sid) :
    (c.afterDrainStep (some (.next rest))).tested = none := by
  rw [Code.tested, Code.launch?, Code.drain?_afterDrainStep hp]
  rfl

theorem drainStep_effect {s s' : SchedulerEngine} {now : Time} {i : TaskId} {c : Code}
    {p : DrainPc} {q : Option DrainPc} {inp : Input} (hp : c.drain? = some p)
    (h : s.drainStep now i p inp = some (s', q)) :
    TurnEffect s i inp c s' (c.afterDrainStep q) := by
  have htested := Code.tested_of_drain hp
  cases drain_move h with
  | idle => exact .drain_quiet hp htested (.refl s) rfl rfl
  | began started unpaused => exact .drain_quiet hp htested (.refl s) rfl rfl
  | exhausted => exact .drain_quiet hp htested (.refl s) rfl rfl
  | dropped unknown => exact .drain_quiet hp htested (dequeue_kept s _).still rfl rfl
  | running known registered => exact .drain_quiet hp htested (.refl s) rfl rfl
  | @decided sid rest r d known unregistered lock decision =>
    subst decision
    have hfree := lockOpen_free lock
    refine decision_effect (r := r) hp htested (.refl s) rfl hfree hfree (.inr rfl) ?_
      (launchChecks_spec s now i sid r _) rfl
    intro hoff
    rw [candidate_of_drain hp]
    exact offline_eq known hoff
  | waits known unregistered lock =>
    exact .drain_quiet hp htested (.of_eq rfl rfl rfl (.of_eq rfl rfl rfl rfl)) rfl rfl
  | @woken sid r taskDef rest d lock decision =>
    subst decision
    have hfree := lockTurn_free lock
    refine decision_effect hp htested (leaveWaiters_still s i) rfl hfree hfree
      (.inl (row_of_launching hp)) ?_ (launchChecks_spec _ now i sid r taskDef) rfl
    intro hoff
    rw [candidate_of_drain hp, drainCandidate, if_neg (Bool.eq_false_iff.mp hoff)]
  | @online sid r taskDef key rest =>
    have hl : s.Launched (({ s.launch now sid r false with launchLock := none } :
        SchedulerEngine).dequeue sid) sid (s.entries r).taskType false :=
      (launch_launched s now sid r false).then_still (.of_eq rfl rfl rfl (.of_eq rfl rfl rfl rfl))
    exact .launchHeld hl rfl rfl (Code.liveKey_of_drain hp) (Code.liveKey_afterDrainStep hp _)
      htested (tested_next hp rest)
  | offline =>
    refine .drop (.of_eq rfl rfl rfl (.of_eq rfl rfl rfl rfl)) rfl (Code.liveKey_of_drain hp)
      (Code.liveKey_afterDrainStep hp _) ?_ (tested_next hp _)
    rw [htested]
    rfl

/-! ### The other coroutines -/

theorem runStep_effect {s s' : SchedulerEngine} {now : Time} {i : TaskId} {sid : Sid}
    {key : TaskType} {triggered : Bool} {pc : RunPc} {c' : Code} {inp : Input}
    (h : s.runStep now sid key triggered pc inp = some (s', c')) :
    TurnEffect s i inp (.run sid key triggered pc) s' c' := by
  cases run_turn h with
  | gone unknown => exact .vanish rfl (.inr (Dict.contains_eq_false.mpr unknown))
  | began known => exact .quiet (.refl s) rfl rfl rfl rfl
  | @ended r started outcome =>
    have htype : ((s.entries r).record now outcome).taskType = (s.entries r).taskType := by
      cases outcome <;> rfl
    have hid : ((s.entries r).record now outcome).id = (s.entries r).id := by
      cases outcome <;> rfl
    have hframe := s.writeEntry_frame r (e := { (s.entries r).record now outcome with
      lastDurationS := pyRound (now - started),
      nextRun := now + ((s.entries r).record now outcome).intervalSec }) hid htype
    refine .finish rfl (fun k => ?_) (fun _ => rfl) rfl rfl
      (hframe.trans (.of_eq rfl rfl rfl rfl))
    simp [finishRun, htype]

/-- A tick that goes on after its gate. -/
theorem TurnEffect.tick {s s₁ : SchedulerEngine} {now : Time} {i : TaskId} {inp : Input} {c : Code}
    (hlive : c.liveKey = none) (hbefore : c.tested = none) (hstill : s.Still s₁)
    (hlock : s₁.launchLock = s.launchLock) :
    TurnEffect s i inp c (s₁.afterGate now).1 (s₁.afterGate now).2 := by
  have hk := s₁.afterGate_kept now
  refine .quiet (hstill.trans hk.still) (hk.launchLock.trans hlock) ?_ hbefore ?_
  · rw [Code.unfinished_eq_none hlive]
    rcases s₁.afterGate_code now with h | h <;> rw [h] <;> rfl
  · rcases s₁.afterGate_code now with h | h <;> rw [h] <;> rfl

theorem gateDown_still (s : SchedulerEngine) : s.Still s.gateDown :=
  Still.after (cancelTasks_still _ _) rfl rfl rfl (.of_eq rfl rfl rfl rfl)

theorem gateUp_still (s : SchedulerEngine) : s.Still s.gateUp :=
  .of_eq rfl rfl rfl (.of_eq rfl rfl rfl rfl)

theorem loopStep_effect {s s' : SchedulerEngine} {now : Time} {i : TaskId} {pc : LoopPc}
    {c' : Code} {inp : Input} (hpc : (Code.loop pc).drain? = none)
    (h : s.loopStep now pc inp = some (s', c')) : TurnEffect s i inp (.loop pc) s' c' := by
  have hbefore := Code.tested_of_no_drain hpc
  cases loop_turn h with
  | skipped => exact .tick rfl hbefore (.refl s) rfl
  | asked => exact .quiet (.refl s) rfl rfl hbefore rfl
  | same known => exact .tick rfl hbefore (.refl s) rfl
  | up known => exact .tick rfl hbefore s.gateUp_still rfl
  | down known => exact .tick rfl hbefore s.gateDown_still rfl
  | cancelled known => exact .quiet s.gateDown_still rfl rfl hbefore rfl
  | @gathered running =>
    have hk := afterGate_kept ({ s with
      runningTasks := s.runningTasks.eraseAll (running.map Prod.fst) } : SchedulerEngine) now
    have hc := afterGate_code ({ s with
      runningTasks := s.runningTasks.eraseAll (running.map Prod.fst) } : SchedulerEngine) now
    refine .clear (fun k => ?_) hk.code hk.nextTask hk.launchLock
      (hk.toFrame.after rfl rfl rfl rfl) rfl ?_ rfl ?_
    · rw [hk.runningTasks]
      exact Dict.get?_eraseAll s.runningTasks _ k
    · rcases hc with hc | hc <;> rw [hc] <;> rfl
    · rcases hc with hc | hc <;> rw [hc] <;> rfl

theorem triggerNowLaunch_effect {s s₁ s' : SchedulerEngine} {now : Time} {i : TaskId} {inp : Input} {sid : Sid}
    {r : Ref} {taskDef : TaskDef} {pc : TriggerPc} {c' : Code} (hstill : s.Still s₁)
    (hentries : s₁.entries = s.entries) (hlock : s₁.launchLock = s.launchLock)
    (hfree : s.launchLock = none)
    (hrow : (s.conflicts taskDef = false ∧ s.RowRead (.triggerNow sid pc) r taskDef ∧
        s.candidate inp (.triggerNow sid pc) = some r) ∨
      inp = .wake ∧ ∃ taken, pc = .lock r taskDef taken)
    (h : s₁.triggerNowLaunch now sid r = (s', c')) :
    TurnEffect s i inp (.triggerNow sid pc) s' c' := by
  have hbefore : (Code.triggerNow sid pc).tested = none := Code.tested_of_no_drain rfl
  have htype : (s₁.entries r).taskType = (s.entries r).taskType := by rw [hentries]
  unfold triggerNowLaunch at h
  split at h
  · cases h
    exact .quiet hstill hlock rfl hbefore rfl
  · next hunreg =>
    cases h
    have hunreg : s.runningTasks.contains (s.entries r).taskType = false := by
      rw [← contains_still hstill, ← htype]
      exact Bool.eq_false_iff.mpr hunreg
    have hl := launch_launched s₁ now sid r true
    rw [htype] at hl
    have hl := hl.of_still hstill
    rcases hrow with ⟨hclear, hrow, habout⟩ | ⟨rfl, taken, rfl⟩
    · exact .launchFree hl hfree (hlock.trans hfree) rfl rfl hbefore rfl hunreg hclear hrow habout
        (fun hno => by cases hno)
    · exact .launchWaited rfl rfl hl hfree (hlock.trans hfree) rfl rfl hunreg

theorem triggerNowClaim_effect {s s' : SchedulerEngine} {now : Time} {i : TaskId} {inp : Input} {sid : Sid}
    {r : Ref} {taskDef : TaskDef} {pc : TriggerPc} {c' : Code}
    (hrow : s.RowRead (.triggerNow sid pc) r taskDef)
    (habout : s.candidate inp (.triggerNow sid pc) = some r)
    (h : s.triggerNowClaim now i sid r taskDef = (s', c')) :
    TurnEffect s i inp (.triggerNow sid pc) s' c' := by
  have hbefore : (Code.triggerNow sid pc).tested = none := Code.tested_of_no_drain rfl
  unfold triggerNowClaim at h
  split at h
  · cases h
    exact .quiet (enqueue_kept s now sid).still (enqueue_kept s now sid).launchLock rfl hbefore rfl
  · next s₁ hs₁ =>
    obtain ⟨hs, host, rfl⟩ := checkBusyFlag_kept hs₁
    have hk : s.Kept ({ s with state := hs } : SchedulerEngine) :=
      ⟨⟨rfl, rfl, fun _ => rfl, fun _ => rfl, host⟩, rfl, rfl, rfl, rfl, rfl, rfl, rfl, rfl, rfl⟩
    have hk := hk.trans (dequeue_kept _ sid)
    dsimp only at h
    split at h
    · cases h
      have hk := hk.trans (enqueue_kept _ now sid)
      exact .quiet hk.still hk.launchLock rfl hbefore rfl
    · next hclear =>
      split at h
      · next hopen =>
        have hfree := lockOpen_free hopen
        exact triggerNowLaunch_effect hk.still rfl rfl hfree
          (.inl ⟨Bool.eq_false_iff.mpr hclear, hrow, habout⟩) h
      · cases h
        exact .quiet (hk.still.trans (.of_eq rfl rfl rfl (.of_eq rfl rfl rfl rfl))) rfl rfl
          hbefore rfl

theorem triggerNowStep_effect {s s' : SchedulerEngine} {now : Time} {i : TaskId} {sid : Sid}
    {pc : TriggerPc} {c' : Code} {inp : Input}
    (h : s.triggerNowStep now i sid pc inp = some (s', c')) :
    TurnEffect s i inp (.triggerNow sid pc) s' c' := by
  have hbefore : (Code.triggerNow sid pc).tested = none := Code.tested_of_no_drain rfl
  have hquiet : ∀ c'', c''.liveKey = none → c''.tested = none →
      TurnEffect s i inp (.triggerNow sid pc) s c'' := fun c'' hl ht =>
    .quiet (.refl s) rfl (Code.unfinished_eq_none hl) hbefore ht
  cases trigger_turn h with
  | unknown => exact hquiet _ rfl rfl
  | running => exact hquiet _ rfl rfl
  | asked => exact hquiet _ rfl rfl
  | claimed known unregistered internet claim =>
    exact triggerNowClaim_effect (.inr rfl) (offline_eq known internet) claim
  | online claim => exact triggerNowClaim_effect (.inl rfl) rfl claim
  | offline => exact hquiet _ rfl rfl
  | @locked r taskDef taken d lock launch =>
    exact triggerNowLaunch_effect (leaveWaiters_still s i) rfl rfl (lockTurn_free lock)
      (.inr ⟨rfl, taken, rfl⟩) launch

/-- Emptying the registry clears all its keys. -/
theorem get?_cleared (s : SchedulerEngine) (k : TaskType) :
    (Dict.empty : Dict TaskType TaskId).get? k =
      if k ∈ s.runningTasks.keys then none else s.runningTasks.get? k := by
  by_cases hk : k ∈ s.runningTasks.keys
  · rw [if_pos hk, Dict.get?_empty]
  · rw [if_neg hk, Dict.get?_empty, Dict.get?_of_notMem_keys hk]

theorem cancelAllStep_effect {s s' : SchedulerEngine} {now : Time} {i : TaskId} {inp : Input} {reason : String}
    {pc : CancelAllPc} {c' : Code} (h : s.cancelAllStep now reason pc = some (s', c')) :
    TurnEffect s i inp (.cancelAll reason pc) s' c' := by
  have hbefore : (Code.cancelAll reason pc).tested = none := Code.tested_of_no_drain rfl
  cases pc with
  | start =>
    simp only [cancelAllStep] at h
    split at h
    · next hempty =>
      cases h
      have hk := markCancelled_kept ({ ({ s with queue := .empty } : SchedulerEngine).cancelTasks
        (s.runningTasks.items.map Prod.snd) with runningTasks := .empty } : SchedulerEngine)
        now reason
      refine .quiet ⟨fun k => ?_, fun j => ?_, hk.nextTask, ?_⟩ hk.launchLock rfl hbefore rfl
      · have hkeys : k ∉ s.runningTasks.keys := by simp [Dict.keys, hempty]
        rw [Dict.get?_of_notMem_keys hkeys]
        exact congrArg (fun d => d.get? k) hk.runningTasks
      · exact (hk.code j).trans (code_cancelTasks _ _ j)
      · exact hk.toFrame.after rfl rfl rfl rfl
    · cases h
      have hstill := cancelTasks_still { s with queue := .empty } (s.runningTasks.items.map Prod.snd)
      exact .quiet (hstill.after rfl rfl rfl (.of_eq rfl rfl rfl rfl)) rfl rfl hbefore rfl
  | gather running =>
    simp only [cancelAllStep] at h
    split at h
    · cases h
      have hk := markCancelled_kept ({ s with runningTasks := .empty } : SchedulerEngine) now reason
      refine .clear (fun k => ?_) hk.code hk.nextTask hk.launchLock
        (hk.toFrame.after rfl rfl rfl rfl) rfl rfl hbefore rfl
      rw [clearedKeys, ← get?_cleared]
      exact congrArg (fun d => d.get? k) hk.runningTasks
    · cases h

theorem stopRuns_effect {s s₁ : SchedulerEngine} {i : TaskId} {inp : Input} {pc : StopPc}
    (hstill : s.Still s₁) (hlock : s₁.launchLock = s.launchLock) :
    TurnEffect s i inp (.stop pc) s₁.stopRuns.1 s₁.stopRuns.2 :=
  .quiet (hstill.trans (cancelTasks_still s₁ _)) hlock rfl (Code.tested_of_no_drain rfl) rfl

theorem stopStep_effect {s s' : SchedulerEngine} {i : TaskId} {inp : Input} {pc : StopPc} {c' : Code}
    (h : s.stopStep pc = some (s', c')) : TurnEffect s i inp (.stop pc) s' c' := by
  have hbefore : (Code.stop pc).tested = none := Code.tested_of_no_drain rfl
  cases pc with
  | start =>
    simp only [stopStep] at h
    split at h
    · cases h
      exact stopRuns_effect (.of_eq rfl rfl rfl (.of_eq rfl rfl rfl rfl)) rfl
    · next l _ =>
      cases h
      have hstill := cancelTasks_still { s with stopped := true, queue := .empty }
        (l :: s.gathered l)
      exact .quiet (hstill.after rfl rfl rfl (.of_eq rfl rfl rfl rfl)) rfl rfl hbefore rfl
  | awaitLoop l =>
    simp only [stopStep] at h
    split at h
    · cases h
      exact stopRuns_effect (.of_eq rfl rfl rfl (.of_eq rfl rfl rfl rfl)) rfl
    · cases h
  | gather running =>
    simp only [stopStep] at h
    split at h
    · cases h
      exact .clear s.get?_cleared (fun _ => rfl) rfl rfl (.of_eq rfl rfl rfl rfl) rfl rfl hbefore rfl
    · cases h

theorem codeStep_effect {s s' : SchedulerEngine} {now : Time} {i : TaskId} {c c' : Code}
    {inp : Input} (h : s.codeStep now i c inp = some (s', c')) : TurnEffect s i inp c s' c' := by
  unfold codeStep at h
  split at h
  · next p hp =>
    simp only [Option.map_eq_some_iff] at h
    obtain ⟨⟨s₁, q⟩, hq, h⟩ := h
    cases h
    exact drainStep_effect hp hq
  · next hp =>
    cases c with
    | run sid key triggered pc => exact runStep_effect h
    | loop pc => exact loopStep_effect hp h
    | trigger sid p =>
      simp only [Option.ite_none_right_eq_some, Option.some.injEq] at h
      obtain ⟨-, h⟩ := h
      have hbefore := Code.tested_of_no_drain hp
      unfold triggerStep at h
      split at h
      · cases h
        exact .quiet (.refl s) rfl rfl hbefore rfl
      · cases h
        have hk := enqueue_kept s now sid
        exact .quiet hk.still hk.launchLock rfl hbefore rfl
    | triggerNow sid pc => exact triggerNowStep_effect h
    | cancelAll reason pc =>
      simp only [Option.ite_none_right_eq_some] at h
      exact cancelAllStep_effect h.2
    | stop pc =>
      simp only [Option.ite_none_right_eq_some] at h
      exact stopStep_effect h.2
    | done v => cases h

/-- A cancelled drain gives the launch lock back if it held it. -/
theorem abandonDrain_effect {s : SchedulerEngine} {i : TaskId} {inp : Input} {c : Code} {p : DrainPc}
    (hp : c.drain? = some p) : TurnEffect s i inp c (s.abandonDrain i p) (.done .nothing) := by
  have hlive := Code.liveKey_of_drain hp
  have htested := Code.tested_of_drain hp
  cases p with
  | launching l rest =>
    obtain ⟨sid, r, taskDef, a⟩ := l
    cases a with
    | lock => exact .quiet (leaveWaiters_still s i) rfl (Code.unfinished_eq_none hlive).symm htested rfl
    | internet key =>
      refine .drop (.of_eq rfl rfl rfl (.of_eq rfl rfl rfl rfl)) rfl hlive rfl ?_ rfl
      rw [htested]
      rfl
  | _ => exact .quiet (.refl s) rfl (Code.unfinished_eq_none hlive).symm htested rfl

theorem cancelStep_effect {s s' : SchedulerEngine} {i : TaskId} {inp : Input} {c' : Code}
    (hcancel : (s.tasks i).cancelRequested = true) (hint : (s.code i).interruptible = true)
    (h : s.cancelStep i (s.code i) = some (s', c')) : TurnEffect s i inp (s.code i) s' c' := by
  unfold cancelStep at h
  split at h
  · next p hp =>
    cases h
    exact abandonDrain_effect hp
  · next hp =>
    have hbefore := Code.tested_of_no_drain hp
    split at h
    · next heq =>
      split at h
      · cases h
        rw [heq] at hbefore ⊢
        exact .quiet (.refl s) rfl rfl hbefore rfl
      · cases h
    · cases h
      cases hc : s.code i with
      | run sid key triggered pc =>
        rw [hc] at hint hp
        cases pc with
        | unstarted => exact .vanish rfl (.inl hcancel)
        | executing r started => cases hint
        | draining p => cases hp
      | loop pc =>
        rw [hc] at hbefore
        exact .quiet (.refl s) rfl rfl hbefore rfl
      | _ => rw [hc] at hint; cases hint

/-- **The effects of a turn.** -/
theorem turn_effect {s s' : SchedulerEngine} {now : Time} {i : TaskId} {inp : Input} {c' : Code}
    (h : s.turn now i inp = some (s', c')) : TurnEffect s i inp (s.code i) s' c' := by
  unfold turn at h
  dsimp only at h
  split at h
  · next hcancel =>
    rw [Bool.and_eq_true] at hcancel
    simp only [Option.ite_none_right_eq_some] at h
    exact cancelStep_effect hcancel.1 hcancel.2 h.2
  · exact codeStep_effect h

/-- A task that has a turn has not ended. -/
theorem turn_not_done {s : SchedulerEngine} {now : Time} {i : TaskId} {inp : Input}
    {q : SchedulerEngine × Code} (h : s.turn now i inp = some q) :
    (s.code i).isDone = false := by
  unfold turn at h
  cases hc : s.code i with
  | done v =>
    have hc' : (s.tasks i).code = .done v := hc
    simp [hc', codeStep, Code.interruptible, Code.drain?] at h
  | _ => rfl

/-- A turn keeps the schedules, their names and their types, and of the host changes
busy flags only. -/
theorem TurnEffect.frame {s s' : SchedulerEngine} {i : TaskId} {inp : Input} {c c' : Code}
    (h : TurnEffect s i inp c s' c') : s.Frame s' := by
  cases h with
  | quiet still => exact still.frame
  | hold still => exact still.frame
  | drop still => exact still.frame
  | launchFree launched => exact launched.frame
  | launchWaited at_ wake launched => exact launched.frame
  | launchHeld launched => exact launched.frame
  | finish at_ held code nextTask lock frame => exact frame
  | vanish at_ why => exact .refl s
  | clear held code nextTask lock frame => exact frame

/-- A turn creates at most one task, and leaves the coroutines of the others alone. -/
theorem TurnEffect.pool {s s' : SchedulerEngine} {i : TaskId} {inp : Input} {c c' : Code}
    (h : TurnEffect s i inp c s' c') :
    (∀ j, s'.code j = s.code j) ∧ s'.nextTask = s.nextTask ∨
      ∃ sid key triggered, s.Launched s' sid key triggered := by
  cases h with
  | quiet still => exact .inl ⟨still.code, still.nextTask⟩
  | hold still => exact .inl ⟨still.code, still.nextTask⟩
  | drop still => exact .inl ⟨still.code, still.nextTask⟩
  | launchFree launched => exact .inr ⟨_, _, _, launched⟩
  | launchWaited at_ wake launched => exact .inr ⟨_, _, _, launched⟩
  | launchHeld launched => exact .inr ⟨_, _, _, launched⟩
  | finish at_ held code nextTask => exact .inl ⟨code, nextTask⟩
  | vanish at_ why => exact .inl ⟨fun _ => rfl, rfl⟩
  | clear held code nextTask => exact .inl ⟨code, nextTask⟩

/-- Tasks that are yet to be created have no coroutine. -/
def Fresh (s : SchedulerEngine) : Prop := ∀ j, s.nextTask ≤ j → (s.code j).isDone = true

/-- A task that has not ended has been created. -/
theorem Fresh.lt {s : SchedulerEngine} (h : s.Fresh) {i : TaskId}
    (hi : (s.code i).isDone = false) : i < s.nextTask := by
  by_contra hle
  rw [h i (Nat.le_of_not_lt hle)] at hi
  cases hi

theorem Fresh.turn {s s₁ : SchedulerEngine} {i : TaskId} {inp : Input} {c' : Code}
    (h : s.Fresh) (hi : (s.code i).isDone = false) (he : TurnEffect s i inp (s.code i) s₁ c') :
    (s₁.setCode i c').Fresh := by
  intro j hj
  have hnext : s.nextTask ≤ s₁.nextTask := by
    rcases he.pool with ⟨-, hnext⟩ | ⟨_, _, _, hl⟩
    · exact hnext.ge
    · exact hl.nextTask ▸ Nat.le_succ _
  have hj : s₁.nextTask ≤ j := hj
  have hij : j ≠ i := ((h.lt hi).trans_le (hnext.trans hj)).ne'
  rw [code_setCode, if_neg hij]
  rcases he.pool with ⟨hcode, -⟩ | ⟨_, _, _, hl⟩
  · rw [hcode]
    exact h j (hnext.trans hj)
  · rw [hl.nextTask] at hj
    rw [hl.code, if_neg (Nat.lt_of_succ_le hj).ne']
    exact h j (hnext.trans (hl.nextTask ▸ hj))

/-! ### The steps of the API -/

/-- What a step of the API does to the registry: at most, a task is created for a
coroutine that has not begun. -/
structure ApiEffect (s s' : SchedulerEngine) : Prop where
  held : ∀ k, s'.runningTasks.get? k = s.runningTasks.get? k
  lock : s'.launchLock = s.launchLock
  code : ∀ j, s'.code j = s.code j ∨
    j = s.nextTask ∧ s'.nextTask = s.nextTask + 1 ∧ (s'.code j).liveKey = none ∧
      (s'.code j).drain? = none
  nextTask : s.nextTask ≤ s'.nextTask
  waits : ∀ j running, s'.code j = .loop (.gateGather running) →
    s.code j = .loop (.gateGather running)

theorem Still.api {s s' : SchedulerEngine} (h : s.Still s') (hlock : s'.launchLock = s.launchLock) :
    s.ApiEffect s' :=
  ⟨h.held, hlock, fun j => .inl (h.code j), h.nextTask.ge, fun j _ hj => h.code j ▸ hj⟩

theorem spawn_api (s : SchedulerEngine) {c : Code} (hlive : c.liveKey = none)
    (hdrain : c.drain? = none) (hwait : ∀ running, c ≠ .loop (.gateGather running)) :
    s.ApiEffect (s.spawn c) := by
  refine ⟨fun _ => rfl, rfl, fun j => ?_, Nat.le_succ _, fun j running hj => ?_⟩
  · rw [code_spawn]
    by_cases hj : j = s.nextTask
    · rw [if_pos hj]
      exact .inr ⟨hj, rfl, hlive, hdrain⟩
    · rw [if_neg hj]
      exact .inl rfl
  · rw [code_spawn] at hj
    split at hj
    · exact absurd hj (hwait running)
    · exact hj

theorem startLoop_api (s : SchedulerEngine) : s.ApiEffect s.startLoop := by
  have hspawn : s.ApiEffect { s.spawn (.loop .sleeping) with loop := some s.nextTask } := by
    have h := s.spawn_api (c := .loop .sleeping) rfl rfl (fun _ => nofun)
    exact ⟨h.held, h.lock, h.code, h.nextTask, h.waits⟩
  unfold startLoop
  split
  · split
    · exact hspawn
    · exact (Still.refl s).api rfl
  · exact hspawn

/-- The editing operations change entries, schedules and the queue only. -/
theorem edit_api {s s' : SchedulerEngine} (hrun : s'.runningTasks = s.runningTasks)
    (htasks : s'.tasks = s.tasks) (hnext : s'.nextTask = s.nextTask)
    (hlock : s'.launchLock = s.launchLock) : s.ApiEffect s' :=
  ⟨fun k => by rw [hrun], hlock, fun j => .inl (code_congr htasks j), hnext.ge,
    fun j _ hj => code_congr htasks j ▸ hj⟩

theorem cancelRunning_api (s : SchedulerEngine) (sid : Sid) :
    s.ApiEffect (s.cancelRunning sid).1 := by
  unfold cancelRunning
  split
  · exact (Still.refl s).api rfl
  · dsimp only
    split
    · exact edit_api rfl rfl rfl rfl
    · split
      · exact (Still.refl s).api rfl
      · split
        · exact (Still.refl s).api rfl
        · exact (cancelTasks_still s _).api rfl

theorem addSchedule_api (s : SchedulerEngine) (now : Time) (sid : Sid) (name : String)
    (tt : TaskType) (interval : ℤ) (config : String) (enabled : Bool) :
    s.ApiEffect (s.addSchedule now sid name tt interval config enabled).1 := by
  unfold addSchedule
  split <;> exact edit_api rfl rfl rfl rfl

theorem updateSchedule_api (s : SchedulerEngine) (now : Time) (sid : Sid) (f : ScheduleFields) :
    s.ApiEffect (s.updateSchedule now sid f).1 := by
  unfold updateSchedule
  split
  · exact edit_api rfl rfl rfl rfl
  · dsimp only
    split <;> exact edit_api rfl rfl rfl rfl

theorem deleteSchedule_api (s : SchedulerEngine) (sid : Sid) :
    s.ApiEffect (s.deleteSchedule sid).1 := by
  unfold deleteSchedule
  split <;> exact edit_api rfl rfl rfl rfl

theorem toggleSchedule_api (s : SchedulerEngine) (now : Time) (sid : Sid) :
    s.ApiEffect (s.toggleSchedule now sid).1 := by
  unfold toggleSchedule
  split
  · exact edit_api rfl rfl rfl rfl
  · dsimp only
    split <;> exact edit_api rfl rfl rfl rfl

theorem api_effect {s s' : SchedulerEngine} {now : Time} {a : Action}
    (ha : ∀ i inp, a ≠ .resume i inp) (h : s.step (now, a) = some s') : s.ApiEffect s' := by
  cases a with
  | resume i inp => exact absurd rfl (ha i inp)
  | startLoop => cases h; exact s.startLoop_api
  | stop => cases h; exact s.spawn_api rfl rfl (fun _ => nofun)
  | trigger sid => cases h; exact s.spawn_api rfl rfl (fun _ => nofun)
  | triggerNow sid => cases h; exact s.spawn_api rfl rfl (fun _ => nofun)
  | cancelAll reason => cases h; exact s.spawn_api rfl rfl (fun _ => nofun)
  | cancelRunning sid => cases h; exact s.cancelRunning_api sid
  | addSchedule sid name tt interval config enabled =>
    cases h; exact s.addSchedule_api now sid name tt interval config enabled
  | updateSchedule sid f => cases h; exact s.updateSchedule_api now sid f
  | deleteSchedule sid => cases h; exact s.deleteSchedule_api sid
  | toggleSchedule sid => cases h; exact s.toggleSchedule_api now sid
  | pauseAll => cases h; exact edit_api rfl rfl rfl rfl
  | resumeAll => cases h; exact edit_api rfl rfl rfl rfl
  | host hs => cases h; exact edit_api rfl rfl rfl rfl

theorem Fresh.api {s s' : SchedulerEngine} (h : s.Fresh) (ha : s.ApiEffect s') : s'.Fresh := by
  intro j hj
  rcases ha.code j with hc | ⟨rfl, hnext, -, -⟩
  · rw [hc]
    exact h j (ha.nextTask.trans hj)
  · rw [hnext] at hj
    exact absurd hj (Nat.not_succ_le_self _)

/-- **The effects of a step**: a turn of a task, or a step of the API. -/
theorem step_effect {s s' : SchedulerEngine} {now : Time} {a : Action}
    (h : s.step (now, a) = some s') :
    (∃ i inp s₁ c', a = .resume i inp ∧ s.turn now i inp = some (s₁, c') ∧
      s' = s₁.setCode i c') ∨ (∀ i inp, a ≠ .resume i inp) ∧ s.ApiEffect s' := by
  by_cases ha : ∀ i inp, a ≠ .resume i inp
  · exact .inr ⟨ha, api_effect ha h⟩
  · push Not at ha
    obtain ⟨i, inp, rfl⟩ := ha
    simp only [step, resume, Option.map_eq_some_iff] at h
    obtain ⟨⟨s₁, c'⟩, hturn, rfl⟩ := h
    exact .inl ⟨i, inp, s₁, c', rfl, hturn, rfl⟩

theorem Fresh.step {s s' : SchedulerEngine} {a : Time × Action} (h : s.Fresh)
    (hs : s.step a = some s') : s'.Fresh := by
  obtain ⟨now, a⟩ := a
  rcases step_effect hs with ⟨i, inp, s₁, c', rfl, hturn, rfl⟩ | ⟨-, ha⟩
  · exact h.turn (turn_not_done hturn) (turn_effect hturn)
  · exact h.api ha

theorem Initial.code {s : SchedulerEngine} (h : s.Initial) (j : TaskId) :
    s.code j = .done .nothing :=
  congrArg Task.code (h.tasks j)

theorem Initial.fresh {s : SchedulerEngine} (h : s.Initial) : s.Fresh := by
  intro j _
  rw [h.code]
  rfl

end SchedulerEngine

end HuntProxy
