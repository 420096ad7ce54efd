import HuntProxy.Hunt.Owner
import HuntProxy.Hunt.Release

/-!
# The exclusiveness of a manual hunt

`manual_start_hunt` pauses the scheduler and cancels what is registered in it. The pause
does not reach a drain that is already between two of its launches, and the registry may
have lost a run, so a scheduled run can be alive beside a manual hunt.

In the runs whose steps are all `exclusive` this does not happen: the registry covers the
scheduled runs, a pause is set only when no drain has a schedule left to try, and it is
not lifted while a manual hunt, or a call that is about to start one, needs it.

## Main results

- `ExclusiveInv.step` — what exclusive events keep
- `pause_effective` — under a pause no scheduled run is started, beside a manual hunt none
  is alive
- `drained_past_pause` — a drain launches after the user's pause
-/

namespace HuntProxy

/-- The hunt is an unfinished one of a manual start. -/
def HuntTask.manualAlive (t : HuntTask) : Bool := t.alive && t.manual

namespace SchedulerEngine

/-- A verdict ends the outage that the gate has paused for. -/
def gateLifts (s : SchedulerEngine) : Action → Bool
  | .resume i (.alive true) => s.code i == .loop .gateInternet && s.pausedByInternet
  | _ => false

end SchedulerEngine

namespace Engine

/-- A manual hunt other than `h`, or a call that waits for `cancel_all`, needs the pause. -/
def needsPause (e : Engine) (h : Option ℕ) : Bool :=
  e.interrupting ||
    (List.range e.host.nextHunt).any
      (fun h' => decide (some h' ≠ h) && (e.host.hunts h').manualAlive)

/-- The events that keep a pause effective and a manual hunt exclusive. -/
def exclusive (e : Engine) : Event → Bool
  | .scheduler now a =>
    e.sched.restful (now, a) && (!e.sched.gateLifts a || !e.needsPause none)
  | .userPause => e.sched.paused || e.sched.drainsIdle
  | .userResume => !e.needsPause none
  | .manual m _ inp => !e.pausesNow m inp || e.sched.paused || e.sched.drainsIdle
  | .cycle h inp =>
    !(e.host.hunts h).ending inp || !e.host.schedulerPausedByHunt || !e.needsPause (some h)
  | _ => true

/-- A manual hunt or a call that waits for `cancel_all` needs the pause. -/
def Needed (e : Engine) : Prop :=
  (∃ m c, e.calls m = .cancelling c) ∨ ∃ h, (e.host.hunts h).manualAlive = true

/-- The scheduled runs that a call waits for are all there are; beside a manual hunt there
are none. -/
structure ExclusiveInv (e : Engine) : Prop extends e.Fresh where
  pauseInv : e.sched.PauseInv
  paused : e.Needed → e.sched.paused = true
  waiting : ∀ m c, e.calls m = .cancelling c → ∃ reason running,
    e.sched.code c = .cancelAll reason (.gather running) ∧
      ∀ o k, e.sched.runs scheduledRun o = some k → o ∈ running.map Prod.snd
  apart : ∀ m m' c, e.calls m = .cancelling c → e.calls m' = .cancelling c → m = m'
  quiet : (∃ h, (e.host.hunts h).manualAlive = true) →
    ∀ o, e.sched.runs scheduledRun o = none

theorem Initial.exclusiveInv {e : Engine} (h : e.Initial) : e.ExclusiveInv := by
  have hcalls : ∀ m c, e.calls m ≠ .cancelling c := by
    intro m c hm
    have hdone := h.calls m
    rw [hm] at hdone
    cases hdone
  have hhunts : ¬ ∃ hn, (e.host.hunts hn).manualAlive = true := by
    rintro ⟨hn, ha⟩
    rw [HuntTask.manualAlive, h.hunts] at ha
    cases ha
  refine ⟨h.fresh, h.sched.pauseInv, ?_, ?_, ?_, ?_⟩
  · rintro (⟨m, c, hm⟩ | ha)
    · exact absurd hm (hcalls m c)
    · exact absurd ha hhunts
  · intro m c hm
    exact absurd hm (hcalls m c)
  · intro m m' c hm
    exact absurd hm (hcalls m c)
  · intro ha
    exact absurd ha hhunts

theorem manualAlive_alive {t : HuntTask} (h : t.manualAlive = true) : t.alive = true := by
  rw [HuntTask.manualAlive, Bool.and_eq_true] at h
  exact h.1

/-- What needs the pause is found by the test. -/
theorem needsPause_of_needed {e : Engine} (hf : e.Fresh) {h : Option ℕ}
    (hn : (∃ m c, e.calls m = .cancelling c) ∨
      ∃ h', some h' ≠ h ∧ (e.host.hunts h').manualAlive = true) : e.needsPause h = true := by
  rw [needsPause, Bool.or_eq_true]
  rcases hn with ⟨m, c, hm⟩ | ⟨h', hne, ha⟩
  · left
    rw [interrupting, List.any_eq_true]
    have hlt : m < e.nextCall := hf.call_lt (by rw [hm]; rfl)
    exact ⟨m, List.mem_range.mpr hlt, by rw [hm]; rfl⟩
  · right
    rw [List.any_eq_true]
    have hlt := hf.hunt_lt (manualAlive_alive ha)
    exact ⟨h', List.mem_range.mpr hlt, by simp [hne, ha]⟩

/-- Without a need for the pause the test fails. -/
theorem not_needed {e : Engine} (hf : e.Fresh) (h : e.needsPause none = false) : ¬ e.Needed := by
  intro hn
  have htest : e.needsPause none = true :=
    needsPause_of_needed hf (hn.imp_right (fun ⟨h', ha⟩ => ⟨h', Option.some_ne_none h', ha⟩))
  rw [h] at htest
  cases htest

/-! ### Steps of the scheduler as they occur in events -/

/-- A task other than the one that runs keeps its bulk cancellation. -/
theorem step_gather_all {s s' : SchedulerEngine} {now : Time} {a : Action} {c : TaskId}
    (hs : s.step (now, a) = some s') (hf : s.Fresh) (hc : (s.code c).isDone = false)
    (ha : ∀ inp, a ≠ .resume c inp) : s'.code c = s.code c := by
  have hlt := hf.lt hc
  rcases SchedulerEngine.step_effect hs with ⟨i, inp, s₁, c', rfl, hturn, rfl⟩ | ⟨-, he⟩
  · have hci : c ≠ i := fun heq => ha inp (by rw [heq])
    rw [SchedulerEngine.code_setCode, if_neg hci]
    rcases (SchedulerEngine.turn_effect hturn).pool with ⟨hcode, -⟩ | ⟨_, _, _, hl⟩
    · exact hcode c
    · rw [hl.code, if_neg hlt.ne]
  · rcases he.code c with hcode | ⟨heq, -⟩
    · exact hcode
    · exact absurd heq hlt.ne

/-- Replacing the attributes of the host keeps the pause effective. -/
theorem pauseInv_setHost {s : SchedulerEngine} (h : s.PauseInv) (hs : HuntState) :
    (s.setHost hs).PauseInv :=
  h.step (a := (0, .host hs)) rfl rfl

theorem pauseInv_pauseAll {s : SchedulerEngine} (h : s.PauseInv)
    (hidle : s.paused = true ∨ s.drainsIdle = true) : s.pauseAll.PauseInv := by
  refine h.step (a := (0, .pauseAll)) rfl ?_
  simp only [SchedulerEngine.restful, SchedulerEngine.covering, SchedulerEngine.setsPause]
  rcases hidle with hp | hidle
  · simp [hp]
  · simp [hidle]

theorem pauseInv_resumeAll {s : SchedulerEngine} (h : s.PauseInv) : s.resumeAll.PauseInv :=
  h.step (a := (0, .resumeAll)) rfl rfl

theorem pauseInv_endManualHunt {s : SchedulerEngine} (h : s.PauseInv) :
    s.endManualHunt.PauseInv := by
  rcases endManualHunt_cases s with ⟨-, heq⟩ | ⟨-, heq⟩ <;> rw [heq]
  · exact h
  · exact pauseInv_resumeAll (pauseInv_setHost h _)

/-- A call pauses the scheduler while the drains are idle. -/
theorem pauseInv_pauseAndCancel {s s' : SchedulerEngine} {now : Time} {hs : HuntState}
    (h : s.PauseInv) (hidle : s.paused = true ∨ s.drainsIdle = true)
    (hrun : s.pauseAndCancel now hs = some s') : s'.PauseInv := by
  have hpaused : (s.setHost hs).pauseAll.PauseInv := pauseInv_pauseAll (pauseInv_setHost h hs) hidle
  have hspawned : ((s.setHost hs).pauseAll.spawn (.cancelAll "manual hunt" .start)).PauseInv :=
    hpaused.step (a := (now, .cancelAll "manual hunt")) rfl rfl
  refine hspawned.step (a := (now, .resume s.nextTask .wake)) hrun ?_
  have hcode : ((s.setHost hs).pauseAll.spawn (.cancelAll "manual hunt" .start)).code s.nextTask =
      .cancelAll "manual hunt" .start := by
    rw [SchedulerEngine.code_spawn]
    exact if_pos rfl
  simp [SchedulerEngine.restful, SchedulerEngine.covering, SchedulerEngine.setsPause, hcode,
    SchedulerEngine.clearedKeys, SchedulerEngine.unowned, Code.tested, Code.launch?, Code.drain?]

namespace ExclusiveInv

variable {e e' : Engine}

/-- An event that starts no manual hunt and no scheduled run, and keeps what is needed. -/
theorem congr (h : e.ExclusiveInv) (hf : e'.Fresh) (hpause : e'.sched.PauseInv)
    (hcalls : ∀ m c, e'.calls m = .cancelling c → e.calls m = .cancelling c)
    (hhunts : ∀ hn, (e'.host.hunts hn).manualAlive = true → (e.host.hunts hn).manualAlive = true)
    (hpaused : e'.Needed → e.sched.paused = true → e'.sched.paused = true)
    (hruns : e.sched.paused = true → ∀ o k,
      e'.sched.runs scheduledRun o = some k → e.sched.runs scheduledRun o = some k)
    (hcode : ∀ m c, e'.calls m = .cancelling c → e'.sched.code c = e.sched.code c) :
    e'.ExclusiveInv := by
  have hneeded : e'.Needed → e.Needed :=
    Or.imp (fun ⟨m, c, hm⟩ => ⟨m, c, hcalls m c hm⟩) (fun ⟨hn, ha⟩ => ⟨hn, hhunts hn ha⟩)
  refine ⟨hf, hpause, fun hn => hpaused hn (h.paused (hneeded hn)), ?_, ?_, ?_⟩
  · intro m c hm
    obtain ⟨reason, running, hc, hall⟩ := h.waiting m c (hcalls m c hm)
    have hp := h.paused (.inl ⟨m, c, hcalls m c hm⟩)
    exact ⟨reason, running, (hcode m c hm).trans hc, fun o k ho => hall o k (hruns hp o k ho)⟩
  · intro m m' c hm hm'
    exact h.apart m m' c (hcalls m c hm) (hcalls m' c hm')
  · rintro ⟨hn, ha⟩ o
    have hp := h.paused (.inr ⟨hn, hhunts hn ha⟩)
    cases ho : e'.sched.runs scheduledRun o with
    | none => rfl
    | some k =>
      have hold := hruns hp o k ho
      rw [h.quiet ⟨hn, hhunts hn ha⟩ o] at hold
      cases hold

/-- An event that changes the attributes of the host only. -/
theorem setHost (h : e.ExclusiveInv) {hs : HuntState} (hf : (e.setHost hs).Fresh)
    (hhunts : ∀ hn, (hs.hunts hn).manualAlive = true → (e.host.hunts hn).manualAlive = true) :
    (e.setHost hs).ExclusiveInv :=
  h.congr hf (pauseInv_setHost h.pauseInv hs) (fun _ _ hm => hm) hhunts (fun _ hp => hp)
    (fun _ _ _ ho => ho) (fun _ _ _ => rfl)

/-- A call comes to an await other than that for `cancel_all`. -/
theorem moved (h : e.ExclusiveInv) {m : ℕ} {hs : HuntState} {pc : ManualPc}
    (hf : (e.moved m (e.sched.setHost hs) pc).Fresh) (hpc : pc.isCancelling = false)
    (hhunts : ∀ hn, (hs.hunts hn).manualAlive = true → (e.host.hunts hn).manualAlive = true) :
    (e.moved m (e.sched.setHost hs) pc).ExclusiveInv := by
  refine h.congr hf (pauseInv_setHost h.pauseInv hs) (fun m' c hm' => ?_) hhunts (fun _ hp => hp)
    (fun _ _ _ ho => ho) (fun _ _ _ => rfl)
  rw [calls_moved] at hm'
  split at hm'
  · rw [hm'] at hpc
    cases hpc
  · exact hm'

/-- A waiting call's bulk cancellation has not ended. -/
theorem not_done (h : e.ExclusiveInv) {m : ℕ} {c : TaskId} (hm : e.calls m = .cancelling c) :
    (e.sched.code c).isDone = false := by
  obtain ⟨reason, running, hc, -⟩ := h.waiting m c hm
  rw [hc]
  rfl

/-- The scheduler's own steps do not touch the bulk cancellations that calls await. -/
theorem code_offered (h : e.ExclusiveInv) {now : Time} {a : Action} {s' : SchedulerEngine}
    (hoffered : e.offered a = true) (hs : e.sched.step (now, a) = some s') {m : ℕ} {c : TaskId}
    (hm : e.calls m = .cancelling c) : s'.code c = e.sched.code c := by
  refine step_gather_all hs h.sched (h.not_done hm) (fun inp ha => ?_)
  rw [ha] at hoffered
  have hlt : m < e.nextCall := h.call_lt (by rw [hm]; rfl)
  have howned : e.owned c = true := by
    rw [owned, List.any_eq_true]
    exact ⟨m, List.mem_range.mpr hlt, by rw [hm]; exact beq_self_eq_true _⟩
  simp [offered, howned] at hoffered

/-- With an empty registry there is no scheduled run. -/
theorem runs_of_empty {s : SchedulerEngine} (h : s.CoverInv scheduledRun)
    (hitems : s.runningTasks.items = []) (o : TaskId) : s.runs scheduledRun o = none := by
  cases ho : s.runs scheduledRun o with
  | none => rfl
  | some k =>
    have hmem := Dict.get?_eq_some_iff.mp (h.covered o k ho)
    rw [hitems] at hmem
    cases hmem

/-- A call that pauses the scheduler starts and ends no run. -/
theorem runs_interrupting {s s' : SchedulerEngine} (hf : s.Fresh) (hi : s.Interrupting s')
    (o : TaskId) : s'.runs scheduledRun o = s.runs scheduledRun o := by
  by_cases ho : o = s.nextTask
  · rw [ho, SchedulerEngine.runs, SchedulerEngine.runs,
      Code.keyAs_none (SchedulerEngine.liveKey_of_done (hf _ le_rfl))]
    rcases hi.outcome with ⟨-, hdone⟩ | ⟨-, hc⟩
    · exact Code.keyAs_none (SchedulerEngine.liveKey_of_done hdone) _
    · rw [hc]
      rfl
  · rw [SchedulerEngine.runs, SchedulerEngine.runs, hi.code o ho]

/-- The call goes on when no scheduled run is there: its hunt is alone. -/
theorem begun (h : e.ExclusiveInv) {m : ℕ} {s : SchedulerEngine} {q : SchedulerEngine × ManualPc}
    (hf : (e.moved m q.1 q.2).Fresh) (hpause : s.PauseInv) (hpaused : s.paused = true)
    (hquiet : ∀ o, s.runs scheduledRun o = none)
    (hcode : ∀ m' c, m' ≠ m → e.calls m' = .cancelling c → s.code c = e.sched.code c)
    (hq : s.Begun q) : (e.moved m q.1 q.2).ExclusiveInv := by
  obtain ⟨hs, hpc, hq⟩ : ∃ hs hunt, q = (s.setHost hs, .returned hunt) := by
    cases hq with
    | @refused hs => exact ⟨hs, none, rfl⟩
    | @created hs => exact ⟨hs, some s.state.nextHunt, rfl⟩
  subst hq
  have hcalls : ∀ m' c, (e.moved m (s.setHost hs) (.returned hpc)).calls m' = .cancelling c →
      m' ≠ m ∧ e.calls m' = .cancelling c := by
    intro m' c hm'
    rw [calls_moved] at hm'
    split at hm'
    · cases hm'
    · next hne => exact ⟨hne, hm'⟩
  refine ⟨hf, pauseInv_setHost hpause hs, fun _ => hpaused, ?_, ?_, fun _ => hquiet⟩
  · intro m' c hm'
    obtain ⟨hne, hm'⟩ := hcalls m' c hm'
    obtain ⟨reason, running, hc, -⟩ := h.waiting m' c hm'
    refine ⟨reason, running, (hcode m' c hne hm').trans hc, fun o k ho => ?_⟩
    have ho : s.runs scheduledRun o = some k := ho
    rw [hquiet] at ho
    cases ho
  · intro m₁ m₂ c h₁ h₂
    exact h.apart m₁ m₂ c (hcalls m₁ c h₁).2 (hcalls m₂ c h₂).2

/-- A hunt at another program point is a manual one only if it was. -/
theorem manualAlive_update {hunts : ℕ → HuntTask} {h hn : ℕ} {p : HuntPc}
    (hpc : (hunts h).alive = true ∨ p = .finished)
    (ha : (Function.update hunts h { hunts h with pc := p } hn).manualAlive = true) :
    (hunts hn).manualAlive = true := by
  rw [HuntTask.manualAlive, Bool.and_eq_true] at ha ⊢
  refine ⟨Fresh.alive_update hpc ha.1, ?_⟩
  by_cases hh : hn = h
  · have hm := ha.2
    rw [hh, Function.update_self] at hm
    rw [hh]
    exact hm
  · have hm := ha.2
    rwa [Function.update_of_ne hh] at hm

/-- An interrupted hunt is a manual one only if it was. -/
theorem manualAlive_cancelTask {hs : HuntState} {hn : ℕ}
    (ha : (hs.cancelTask.hunts hn).manualAlive = true) : (hs.hunts hn).manualAlive = true := by
  rcases hs.cancelTask_hunt hn with heq | ⟨-, -, heq⟩ <;> rw [heq] at ha <;> exact ha

/-- The runs that a call has waited for have ended. -/
theorem waited (h : e.ExclusiveInv) {m : ℕ} {c : TaskId} {now : Time} {s' : SchedulerEngine}
    (hm : e.calls m = .cancelling c) (hrun : e.sched.resume now c .wake = some s') (o : TaskId) :
    e.sched.runs scheduledRun o = none := by
  obtain ⟨reason, running, hc, hall⟩ := h.waiting m c hm
  cases ho : e.sched.runs scheduledRun o with
  | none => rfl
  | some k =>
    have hc' : (e.sched.tasks c).code = .cancelAll reason (.gather running) := hc
    simp only [SchedulerEngine.resume, SchedulerEngine.turn, hc', Code.interruptible,
      Bool.and_false, Bool.false_eq_true, if_false, SchedulerEngine.codeStep, Code.drain?, if_true,
      SchedulerEngine.cancelAllStep, Option.map_eq_some_iff] at hrun
    obtain ⟨q, hq, -⟩ := hrun
    split at hq
    · next hdone =>
      have hod : (e.sched.code o).isDone = true := by
        simp only [SchedulerEngine.allDone, List.all_eq_true] at hdone
        exact hdone o (hall o k ho)
      rw [SchedulerEngine.runs,
        Code.keyAs_none (SchedulerEngine.liveKey_of_done hod)] at ho
      cases ho
    · cases hq

/-- The bulk cancellation of a waiting call ends restfully. -/
theorem restful_waited (h : e.ExclusiveInv) {m : ℕ} {c : TaskId} {now : Time}
    {s' : SchedulerEngine} (hm : e.calls m = .cancelling c)
    (hrun : e.sched.resume now c .wake = some s') :
    e.sched.restful (now, .resume c .wake) = true := by
  obtain ⟨reason, running, hc, -⟩ := h.waiting m c hm
  have hunowned : e.sched.unowned scheduledRun e.sched.runningTasks.keys = true := by
    rw [SchedulerEngine.unowned]
    simp [h.waited hm hrun]
  simp [SchedulerEngine.restful, SchedulerEngine.covering, SchedulerEngine.setsPause, hc,
    SchedulerEngine.clearedKeys, hunowned, Code.tested, Code.launch?, Code.drain?]

/-! ### The events one by one -/

/-- The scheduler takes a step of its own. -/
theorem ofSched (h : e.ExclusiveInv) {now : Time} {a : Action} {s' : SchedulerEngine}
    (hoffered : e.offered a = true) (hstep : e.sched.step (now, a) = some s')
    (hf : Engine.Fresh { e with sched := s' })
    (hex : e.exclusive (.scheduler now a) = true) : ExclusiveInv { e with sched := s' } := by
  simp only [exclusive, Bool.and_eq_true, Bool.or_eq_true, Bool.not_eq_true'] at hex
  obtain ⟨hrest, hlift⟩ := hex
  have hk := (offered_host hoffered hstep).huntsKept
  refine h.congr hf (h.pauseInv.step hstep hrest) (fun _ _ hm => hm) (fun _ ha => hk.hunts ▸ ha)
    (fun hneed hp => ?_) (fun hp o k ho => h.pauseInv.no_start hp hstep ho)
    (fun m c hm => h.code_offered hoffered hstep hm)
  cases sched_pause hoffered hstep with
  | kept same => exact same.1.trans hp
  | down at_ code known paused mark => exact paused
  | up at_ code known =>
    subst at_
    -- the gate does not lift a pause that is needed
    have hneed : e.Needed := hneed.imp_right (fun ⟨hn, ha⟩ => ⟨hn, hk.hunts ▸ ha⟩)
    rcases hlift with hno | hno
    · simp [SchedulerEngine.gateLifts, code, known] at hno
    · exact absurd hneed (not_needed h.toFresh hno)

/-- The user pauses the scheduler while the drains are idle. -/
theorem ofUserPause (h : e.ExclusiveInv) (hf : Engine.Fresh { e with sched := e.sched.pauseAll })
    (hex : e.exclusive .userPause = true) : ExclusiveInv { e with sched := e.sched.pauseAll } := by
  simp only [exclusive, Bool.or_eq_true] at hex
  exact h.congr hf (pauseInv_pauseAll h.pauseInv hex) (fun _ _ hm => hm) (fun _ ha => ha)
    (fun _ _ => rfl) (fun _ _ _ ho => ho) (fun _ _ _ => rfl)

/-- The user resumes the scheduler while nobody needs the pause. -/
theorem ofUserResume (h : e.ExclusiveInv) (hf : Engine.Fresh { e with sched := e.sched.resumeAll })
    (hex : e.exclusive .userResume = true) : ExclusiveInv { e with sched := e.sched.resumeAll } := by
  have hno : e.needsPause none = false := by simpa [exclusive] using hex
  refine h.congr hf (pauseInv_resumeAll h.pauseInv) (fun _ _ hm => hm) (fun _ ha => ha)
    (fun hneed _ => ?_) (fun _ _ _ ho => ho) (fun _ _ _ => rfl)
  have hneed : e.Needed := hneed
  exact absurd hneed (not_needed h.toFresh hno)

/-- A manual start is called. -/
theorem ofCall (h : e.ExclusiveInv) (hf : e.addCall.Fresh) : e.addCall.ExclusiveInv := by
  refine h.congr hf h.pauseInv (fun m c hm => ?_) (fun _ ha => ha) (fun _ hp => hp)
    (fun _ _ _ ho => ho) (fun _ _ _ => rfl)
  rw [calls_addCall] at hm
  split at hm
  · cases hm
  · exact hm

/-- A call pauses the scheduler and waits for what it has cancelled: all runs that are there. -/
theorem ofPause (h : e.ExclusiveInv) {m : ℕ} {now : Time} {inp : Input} {hs : HuntState}
    {s' : SchedulerEngine} (hready : Ready e.host hs (e.calls m))
    (hrun : e.sched.pauseAndCancel now hs = some s')
    (hwaits : (s'.code e.sched.nextTask).isDone = false)
    (hf : (e.moved m s' (.cancelling e.sched.nextTask)).Fresh)
    (hpauses : e.pausesNow m inp = true) (hex : e.exclusive (.manual m now inp) = true) :
    (e.moved m s' (.cancelling e.sched.nextTask)).ExclusiveInv := by
  have hi := SchedulerEngine.pauseAndCancel_spec hrun
  have hk := (SchedulerEngine.pauseAndCancel_host hrun).huntsKept
  have hidle : e.sched.paused = true ∨ e.sched.drainsIdle = true := by
    simpa [exclusive, hpauses, or_assoc] using hex
  have hruns := runs_interrupting h.sched hi
  have hgather : s'.code e.sched.nextTask =
      .cancelAll "manual hunt" (.gather e.sched.runningTasks.items) := by
    rcases hi.outcome with ⟨-, hdone⟩ | ⟨-, hc⟩
    · rw [hdone] at hwaits
      cases hwaits
    · exact hc
  -- a call that waits already does so for an older task
  have hold : ∀ m' c, e.calls m' = .cancelling c → c < e.sched.nextTask :=
    fun m' c hm' => h.sched.lt (h.not_done hm')
  refine ⟨hf, pauseInv_pauseAndCancel h.pauseInv hidle hrun, fun _ => hi.paused, ?_, ?_, ?_⟩
  · intro m' c hm'
    rw [calls_moved] at hm'
    split at hm'
    · cases hm'
      refine ⟨_, _, hgather, fun o k ho => ?_⟩
      have ho : s'.runs scheduledRun o = some k := ho
      rw [hruns] at ho
      have hmem := Dict.get?_eq_some_iff.mp (h.pauseInv.covered o k ho)
      exact List.mem_map.mpr ⟨_, hmem, rfl⟩
    · obtain ⟨reason, running, hc, hall⟩ := h.waiting m' c hm'
      refine ⟨reason, running, (hi.code c (hold m' c hm').ne).trans hc, fun o k ho => ?_⟩
      have ho : s'.runs scheduledRun o = some k := ho
      rw [hruns] at ho
      exact hall o k ho
  · intro m₁ m₂ c h₁ h₂
    rw [calls_moved] at h₁ h₂
    split at h₁ <;> split at h₂
    · next hm₁ hm₂ => rw [hm₁, hm₂]
    · cases h₁
      exact absurd (hold m₂ _ h₂) (lt_irrefl _)
    · cases h₂
      exact absurd (hold m₁ _ h₁) (lt_irrefl _)
    · exact h.apart m₁ m₂ c h₁ h₂
  · rintro ⟨hn, ha⟩ o
    have ha : (s'.state.hunts hn).manualAlive = true := ha
    rw [hk.hunts, hready.hunts] at ha
    exact (hruns o).trans (h.quiet ⟨hn, ha⟩ o)

/-- A call pauses the scheduler, finds nothing to wait for and goes on. -/
theorem ofPauseBegin (h : e.ExclusiveInv) {m : ℕ} {now : Time} {inp : Input} {hs : HuntState}
    {s' : SchedulerEngine} {q : SchedulerEngine × ManualPc}
    (hrun : e.sched.pauseAndCancel now hs = some s')
    (hdone : (s'.code e.sched.nextTask).isDone = true) (hbegun : s'.Begun q)
    (hf : (e.moved m q.1 q.2).Fresh) (hpauses : e.pausesNow m inp = true)
    (hex : e.exclusive (.manual m now inp) = true) : (e.moved m q.1 q.2).ExclusiveInv := by
  have hi := SchedulerEngine.pauseAndCancel_spec hrun
  have hidle : e.sched.paused = true ∨ e.sched.drainsIdle = true := by
    simpa [exclusive, hpauses, or_assoc] using hex
  have hitems : e.sched.runningTasks.items = [] := Released.items_of_done hi hdone
  refine h.begun hf (pauseInv_pauseAndCancel h.pauseInv hidle hrun) hi.paused (fun o => ?_)
    (fun m' c _ hm' => ?_) hbegun
  · exact (runs_interrupting h.sched hi o).trans (runs_of_empty h.pauseInv.toCoverInv hitems o)
  · have hlt : c < e.sched.nextTask := h.sched.lt (h.not_done hm')
    exact hi.code c hlt.ne

/-- What a call has waited for has ended, and it goes on. -/
theorem ofWaitBegin (h : e.ExclusiveInv) {m : ℕ} {now : Time} {c : TaskId} {s' : SchedulerEngine}
    {q : SchedulerEngine × ManualPc} (hm : e.calls m = .cancelling c)
    (hrun : e.sched.resume now c .wake = some s') (hbegun : s'.Begun q)
    (hf : (e.moved m q.1 q.2).Fresh) : (e.moved m q.1 q.2).ExclusiveInv := by
  have hstep : e.sched.step (now, .resume c .wake) = some s' := hrun
  have hp := h.paused (.inl ⟨m, c, hm⟩)
  refine h.begun hf (h.pauseInv.step hstep (h.restful_waited hm hrun))
    ((resume_pause hrun).1.trans hp) (fun o => ?_) (fun m' c' hne hm' => ?_) hbegun
  · cases ho : s'.runs scheduledRun o with
    | none => rfl
    | some k =>
      have hold := h.pauseInv.no_start hp hstep ho
      rw [h.waited hm hrun] at hold
      cases hold
  · refine step_gather_all hstep h.sched (h.not_done hm') (fun inp' heq => ?_)
    cases heq
    exact hne (h.apart m' m c hm' hm)

/-- A hunt that is no manual one is started. -/
theorem ofStart (h : e.ExclusiveInv) {hs : HuntState} {base : ℕ → HuntTask}
    (hbase : base = e.host.hunts ∨ base = e.host.cancelTask.hunts)
    (hhunts : hs.hunts = Function.update base e.host.nextHunt ⟨.unstarted, false, false⟩)
    (hf : (e.setHost hs).Fresh) : (e.setHost hs).ExclusiveInv := by
  refine h.setHost hf (fun hn ha => ?_)
  rw [hhunts] at ha
  by_cases hnew : hn = e.host.nextHunt
  · rw [hnew, Function.update_self] at ha
    cases ha
  · rw [Function.update_of_ne hnew] at ha
    rcases hbase with rfl | rfl
    · exact ha
    · exact manualAlive_cancelTask ha

/-- A hunt ends, and releases the pause only when nobody else needs it. -/
theorem ofFinish (h : e.ExclusiveInv) {hn : ℕ} {inp : CycleInput} {hs : HuntState}
    (hending : (e.host.hunts hn).ending inp = true)
    (hhunts : hs.hunts =
      Function.update e.host.hunts hn { e.host.hunts hn with pc := .finished })
    (hflag : hs.schedulerPausedByHunt = e.host.schedulerPausedByHunt)
    (hf : Engine.Fresh { e with sched := (e.sched.setHost hs).endManualHunt })
    (hex : e.exclusive (.cycle hn inp) = true) :
    ExclusiveInv { e with sched := (e.sched.setHost hs).endManualHunt } := by
  have hk := endManualHunt_hunts (e.sched.setHost hs)
  have hup : ∀ hn', ((e.sched.setHost hs).endManualHunt.state.hunts hn').manualAlive = true →
      hn' ≠ hn ∧ (e.host.hunts hn').manualAlive = true := by
    intro hn' ha
    rw [hk.1] at ha
    have ha : (hs.hunts hn').manualAlive = true := ha
    rw [hhunts] at ha
    refine ⟨fun heq => ?_, manualAlive_update (h := hn) (.inr rfl) ha⟩
    rw [heq, Function.update_self] at ha
    cases ha
  have hsame : (e.sched.setHost hs).endManualHunt.tasks = e.sched.tasks := by
    rcases endManualHunt_cases (e.sched.setHost hs) with ⟨-, heq⟩ | ⟨-, heq⟩ <;> rw [heq] <;> rfl
  refine h.congr hf (pauseInv_endManualHunt (pauseInv_setHost h.pauseInv hs))
    (fun _ _ hm => hm) (fun hn' ha => (hup hn' ha).2) (fun hneed hp => ?_) (fun _ o k ho => ?_)
    (fun _ c _ => SchedulerEngine.code_congr hsame c)
  · rcases endManualHunt_cases (e.sched.setHost hs) with ⟨-, heq⟩ | ⟨hset, -⟩
    · rw [heq]
      exact hp
    · have hneeds : e.needsPause (some hn) = true := by
        refine needsPause_of_needed h.toFresh (hneed.imp_right ?_)
        rintro ⟨hn', ha⟩
        obtain ⟨hne, ha⟩ := hup hn' ha
        exact ⟨hn', fun heq => hne (Option.some.inj heq), ha⟩
      have hset : e.host.schedulerPausedByHunt = true := hflag.symm.trans hset
      simp [exclusive, hending, hset, hneeds] at hex
  · have ho : (e.sched.setHost hs).endManualHunt.runs scheduledRun o = some k := ho
    rwa [SchedulerEngine.runs, SchedulerEngine.code_congr hsame] at ho

/-- **Step lemma**: an exclusive event keeps the invariant. -/
theorem step {ev : Event} (h : e.ExclusiveInv) (hs : e.step ev = some e')
    (hex : e.exclusive ev = true) : e'.ExclusiveInv := by
  have hf := h.toFresh.step hs
  cases step_effect hs with
  | sched at_ offered step =>
    subst at_
    exact h.ofSched offered step hf hex
  | userPause at_ =>
    subst at_
    exact h.ofUserPause hf hex
  | userResume at_ =>
    subst at_
    exact h.ofUserResume hf hex
  | host kept => exact h.setHost hf (fun hn ha => kept.hunts ▸ ha)
  | called at_ => exact h.ofCall hf
  | call at_ before after kept =>
    refine h.moved hf ?_ (fun hn ha => kept.hunts ▸ ha)
    rcases after with rfl | ⟨k, rfl⟩ <;> rfl
  | interrupt at_ before task alive interrupted =>
    refine h.moved hf rfl (fun hn ha => manualAlive_cancelTask ?_)
    rw [← interrupted.hunts]
    exact ha
  | pause at_ ready pauses run waits =>
    subst at_
    exact h.ofPause ready run waits hf pauses hex
  | pauseBegin at_ ready pauses run done begun =>
    subst at_
    exact h.ofPauseBegin run done begun hf pauses hex
  | waitBegin at_ before run begun => exact h.ofWaitBegin before run begun hf
  | stop interrupted at_ =>
    refine h.setHost hf (fun hn ha => manualAlive_cancelTask ?_)
    rw [← interrupted.hunts]
    exact ha
  | start at_ idle hunts => exact h.ofStart (at_.imp And.right And.right) hunts hf
  | @advance hn inp hs' pc at_ alive clean hunts =>
    exact h.setHost hf (fun hn' ha => manualAlive_update (p := pc) (.inl alive) (hunts ▸ ha))
  | @vanish hn inp hs' at_ unstarted doomed hunts =>
    exact h.setHost hf (fun hn' ha => manualAlive_update (h := hn) (.inr rfl) (hunts ▸ ha))
  | finish at_ ending alive hunts nextHunt task flag =>
    subst at_
    exact h.ofFinish ending hunts flag hf hex

end ExclusiveInv

/-- The end of a hunt starts no run. -/
theorem runs_endManualHunt (s : SchedulerEngine) (o : TaskId) :
    s.endManualHunt.runs scheduledRun o = s.runs scheduledRun o := by
  rcases endManualHunt_cases s with ⟨-, heq⟩ | ⟨-, heq⟩
  · rw [heq]
  · rw [heq]
    rfl

theorem runs_begun {s : SchedulerEngine} {q : SchedulerEngine × ManualPc} (hq : s.Begun q)
    (o : TaskId) : q.1.runs scheduledRun o = s.runs scheduledRun o := by
  cases hq <;> rfl

/-- **A pause is effective**: while it is set no event starts a scheduled run. -/
theorem ExclusiveInv.no_start {e e' : Engine} {ev : Event} (h : e.ExclusiveInv)
    (hpaused : e.sched.paused = true) (hs : e.step ev = some e') {o : TaskId} {k : TaskType}
    (ho : e'.sched.runs scheduledRun o = some k) : e.sched.runs scheduledRun o = some k := by
  cases step_effect hs with
  | sched at_ offered step => exact h.pauseInv.no_start hpaused step ho
  | pause at_ ready pauses run waits =>
    exact (ExclusiveInv.runs_interrupting h.sched (SchedulerEngine.pauseAndCancel_spec run) o).symm.trans
      ho
  | pauseBegin at_ ready pauses run done begun =>
    rw [← ExclusiveInv.runs_interrupting h.sched (SchedulerEngine.pauseAndCancel_spec run),
      ← runs_begun begun]
    exact ho
  | @waitBegin m now inp c s' q at_ before run begun =>
    have hstep : e.sched.step (now, .resume c .wake) = some s' := run
    refine h.pauseInv.no_start hpaused hstep ?_
    rw [← runs_begun begun]
    exact ho
  | @finish hn inp hs' at_ ending alive hunts nextHunt task flag =>
    exact (runs_endManualHunt (e.sched.setHost hs') o).symm.trans ho
  | _ => exact ho

/-- The pause of the scheduler keeps scheduled runs from starting, and beside an unfinished
manual hunt there is none. -/
structure PauseEffective (e : Engine) : Prop where
  noStart : ∀ ev e', e.step ev = some e' → e.sched.paused = true → ∀ o k,
    e'.sched.runs scheduledRun o = some k → e.sched.runs scheduledRun o = some k
  exclusive : ∀ h, (e.host.hunts h).alive = true → (e.host.hunts h).manual = true →
    ∀ o, e.sched.runs scheduledRun o = none

/-- The condition of this module, as a guard on runs. -/
def Exclusive : Machine.Guard Engine Event := fun e ev _ => e.exclusive ev = true

/-- **A pause is effective and a manual hunt exclusive** in every run whose steps are all
exclusive. -/
theorem pause_effective {e e' : Engine} (h₀ : e.Initial) (h : machine.Reaches Exclusive e e') :
    e'.PauseEffective := by
  have hinv : e'.ExclusiveInv :=
    h.invariant h₀.exclusiveInv (fun _ _ _ hi hs hex => hi.step hs hex)
  refine ⟨fun ev e₁ hs hp o k ho => hinv.no_start hp hs ho, fun hn halive hmanual => ?_⟩
  exact hinv.quiet ⟨hn, by rw [HuntTask.manualAlive, halive, hmanual]; rfl⟩

/-- A tick launches the database maintenance; a manual start then cancels it and waits for its
end before the hunt starts. -/
theorem pause_effective_manual :
    ∃ e', machine.Reaches Exclusive (prepared [SchedulerEngine.maintenanceSchedule]) e' ∧
      (e'.host.hunts 0).manualAlive = true ∧ e'.PauseEffective := by
  have hrun : ∃ e', machine.Reaches Exclusive (prepared [SchedulerEngine.maintenanceSchedule]) e' ∧
      (e'.host.hunts 0).manualAlive = true :=
    Machine.exists_reaches_of_exec (g := fun e ev _ => e.exclusive ev)
      (l := [.scheduler 10 .startLoop, .scheduler 15 (.resume 0 .wake),
          .scheduler 15 (.resume 0 (.alive true)), .scheduler 15 (.resume 0 .wake),
          .scheduler 15 (.resume 0 .wake), .scheduler 15 (.resume 0 .wake),
          .scheduler 16 (.resume 1 .wake), .manualStart, .manual 0 17 (.alive true),
          .scheduler 18 (.resume 1 (.ended .cancelled)), .scheduler 18 (.resume 1 .wake),
          .manual 0 18 .wake])
      (fun e ev _ (h : e.exclusive ev = true) => h) (by decide +kernel)
  obtain ⟨e', he', halive⟩ := hrun
  exact ⟨e', he', halive, pause_effective (prepared_initial _) he'⟩

/-- The user pauses while a drain checks the internet for the launch of the health check;
the drain launches it all the same. -/
theorem drained_past_pause :
    ¬ ∀ e e' : Engine, e.Initial → machine.Reaches Machine.anyStep e e' → e'.PauseEffective := by
  intro hall
  have hrun : ∃ e', machine.Reaches Machine.anyStep (prepared SchedulerEngine.dueSchedules) e' ∧
      (e'.step (.scheduler 17 (.resume 0 (.alive true)))).any (fun e₁ =>
        decide (e'.sched.paused = true ∧ e'.sched.runs scheduledRun 1 = none ∧
          e₁.sched.runs scheduledRun 1 = some .healthCheck)) = true :=
    Machine.exists_reaches_of_exec (g := fun _ _ _ => true)
      (l := SchedulerEngine.firstTick.map (fun p => .scheduler p.1 p.2) ++ [.userPause])
      (fun _ _ _ _ => trivial) (by decide +kernel)
  obtain ⟨e', he', hend⟩ := hrun
  simp only [Option.any_eq_true, decide_eq_true_eq] at hend
  obtain ⟨e₁, hs, hpaused, hbefore, hafter⟩ := hend
  have hold := (hall _ e' (prepared_initial _) he').noStart _ e₁ hs hpaused 1 _ hafter
  rw [hbefore] at hold
  cases hold

end Engine

end HuntProxy
