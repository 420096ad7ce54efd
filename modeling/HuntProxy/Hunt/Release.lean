import HuntProxy.Hunt.Single

/-!
# The release of the exclusive pause

`manual_start_hunt` sets `_scheduler_paused_by_hunt` and the `finally` of the hunt it
starts clears it. The pause is handed over from the call to the hunt, and it is lost when
`start_hunt` refuses after the flag has been set, or when the hunt is cancelled before its
first step, so that its `finally` never runs.

In the runs whose steps are all `handedOver` the flag always has a holder: a call that
will start a hunt, or a hunt whose end clears it.

## Main results

- `Released.step` — such events keep a holder for the flag
- `exclusive_pause_released` — without a call in progress the holder is a hunt
- `pause_stuck`, `pause_stuck_stop` — a refused start and a stop before the first step
-/

namespace HuntProxy

/-- The hunt is unfinished and its `finally` will run. -/
def HuntTask.releases (t : HuntTask) : Bool :=
  t.alive && !(t.pc == .unstarted && t.cancelRequested)

/-- The call is past its internet check and will come to `start_hunt`. -/
def ManualPc.committed : ManualPc → Bool
  | .health _ => true
  | .hunt _ => true
  | .cancelling _ => true
  | _ => false

theorem ManualPc.inProgress_of_committed {pc : ManualPc} (h : pc.committed = true) :
    pc.inProgress = true := by
  cases pc <;> first | rfl | cases h

namespace Engine

/-- A call other than `m` will start a hunt, or a hunt other than `h` will release the
pause. -/
def holder (e : Engine) (m h : Option ℕ) : Bool :=
  (List.range e.nextCall).any (fun m' => decide (some m' ≠ m) && (e.calls m').committed) ||
    (List.range e.host.nextHunt).any
      (fun h' => decide (some h' ≠ h) && (e.host.hunts h').releases)

/-- The hunt in the slot has not taken its first step. -/
def slotUnstarted (e : Engine) : Bool :=
  match e.host.task with
  | none => false
  | some h => (e.host.hunts h).pc == .unstarted

/-- The events that leave a holder for the exclusive pause: no health check is running when
a call comes to `start_hunt`, and no hunt is stopped before its first step while the pause
is held, unless somebody else will release it. -/
def handedOver (e : Engine) : Event → Bool
  | .manual m _ _ =>
    match e.calls m with
    | .cancelling _ => !e.host.healthRunning || e.holder (some m) none
    | .hunt _ =>
      !e.host.healthRunning || !e.sched.runningTasks.items.isEmpty || e.holder (some m) none
    | _ => true
  | .control .stopHunt =>
    !e.host.schedulerPausedByHunt || !e.slotUnstarted || e.holder none e.host.task
  | .control .startupHunt =>
    !e.host.schedulerPausedByHunt || !e.slotUnstarted || !e.host.healthRunning ||
      e.holder none e.host.task
  | _ => true

/-- Somebody holds the exclusive pause. -/
def Held (e : Engine) : Prop :=
  (∃ m, (e.calls m).committed = true) ∨ ∃ h, (e.host.hunts h).releases = true

/-- While the flag is set somebody holds the exclusive pause. -/
def Released (e : Engine) : Prop := e.host.schedulerPausedByHunt = true → e.Held

theorem Initial.releasedInv {e : Engine} (h : e.Initial) : e.Released := by
  intro hflag
  rw [h.released] at hflag
  cases hflag

theorem held_of_holder {e : Engine} {m h : Option ℕ} (hh : e.holder m h = true) :
    (∃ m', some m' ≠ m ∧ (e.calls m').committed = true) ∨
      ∃ h', some h' ≠ h ∧ (e.host.hunts h').releases = true := by
  simp only [holder, Bool.or_eq_true, List.any_eq_true, Bool.and_eq_true, decide_eq_true_eq] at hh
  rcases hh with ⟨m', -, hm'⟩ | ⟨h', -, hh'⟩
  · exact .inl ⟨m', hm'⟩
  · exact .inr ⟨h', hh'⟩

/-- A hunt that has not been interrupted keeps its end. -/
theorem releases_cancelTask {hs : HuntState} {h : ℕ} (hr : (hs.hunts h).releases = true)
    (hstarted : hs.task = some h → (hs.hunts h).pc ≠ .unstarted) :
    (hs.cancelTask.hunts h).releases = true := by
  rcases hs.cancelTask_hunt h with heq | ⟨ht, -, heq⟩
  · rwa [heq]
  · rw [heq]
    have hpc := hstarted ht
    simp only [HuntTask.releases, Bool.and_eq_true] at hr ⊢
    refine ⟨hr.1, ?_⟩
    simp [hpc]

namespace Held

variable {e e' : Engine}

/-- Holders stay when neither calls nor hunts change. -/
theorem congr (h : e.Held) (hcalls : e'.calls = e.calls) (hhunts : e'.host.hunts = e.host.hunts) :
    e'.Held := by
  rw [Held, hcalls, hhunts]
  exact h

/-- A call that has come to a later await. -/
theorem moved {s : SchedulerEngine} {m : ℕ} {pc : ManualPc} (h : e.Held)
    (hpc : pc.committed = true ∨ (e.calls m).committed = false)
    (hhunts : s.state.hunts = e.host.hunts) : (e.moved m s pc).Held := by
  rcases h with ⟨m', hm'⟩ | ⟨hn, hr⟩
  · left
    by_cases hm : m' = m
    · rcases hpc with hpc | hpc
      · exact ⟨m, by simpa [Engine.moved] using hpc⟩
      · rw [hm, hpc] at hm'
        cases hm'
    · exact ⟨m', by simpa [Engine.moved, Function.update_of_ne hm] using hm'⟩
  · exact .inr ⟨hn, hhunts.symm ▸ hr⟩

end Held

/-- The hunts after one of them has got another program point. -/
theorem releases_update {hunts : ℕ → HuntTask} {h hn : ℕ} {t : HuntTask}
    (hr : (hunts hn).releases = true) (ht : h = hn → t.releases = true) :
    (Function.update hunts h t hn).releases = true := by
  by_cases hh : hn = h
  · rw [hh, Function.update_self]
    exact ht hh.symm
  · rwa [Function.update_of_ne hh]

namespace Released

variable {e e' : Engine}

/-- The start of a manual hunt hands the pause over to the hunt, unless a health check is
running. -/
theorem begun {s : SchedulerEngine} {hs : HuntState} {q : SchedulerEngine × ManualPc} {m : ℕ}
    (hhunts : hs.hunts = e.host.hunts)
    (hidle : hs.healthRunning = false ∨ e.holder (some m) none = true)
    (hhost : hs.Kept s.state) (hq : s.Begun q) : (e.moved m q.1 q.2).Held := by
  cases hq with
  | @refused hs' running hunts nextHunt task flag =>
    rw [hhost.healthRunning] at running
    have hhunts' : hs'.hunts = e.host.hunts :=
      hunts.trans (hhost.huntsKept.hunts.trans hhunts)
    rcases hidle with hidle | hholder
    · rw [hidle] at running
      cases running
    · rcases held_of_holder hholder with ⟨m', hne, hm'⟩ | ⟨hn, -, hr⟩
      · have hne : m' ≠ m := fun heq => hne (congrArg some heq)
        exact .inl ⟨m', by simpa [Engine.moved, Function.update_of_ne hne] using hm'⟩
      · exact .inr ⟨hn, hhunts'.symm ▸ hr⟩
  | @created hs' idle hunts nextHunt task flag =>
    refine .inr ⟨s.state.nextHunt, ?_⟩
    have hnew : hs'.hunts s.state.nextHunt = ⟨.unstarted, false, true⟩ := by
      rw [hunts, Function.update_self]
    exact congrArg HuntTask.releases hnew

/-- A `cancel_all` that has nothing to wait for found nothing registered. -/
theorem items_of_done {s s' : SchedulerEngine} (hi : s.Interrupting s')
    (hdone : (s'.code s.nextTask).isDone = true) : s.runningTasks.items = [] := by
  rcases hi.outcome with ⟨hitems, -⟩ | ⟨-, hcode⟩
  · exact hitems
  · rw [hcode] at hdone
    cases hdone

/-- The hunt in the slot is stopped, but not before its first step, or somebody else holds
the pause. -/
theorem stopped {hs : HuntState} (h : e.Held) (hstop : e.host.Interrupted hs)
    (hover : e.slotUnstarted = false ∨ e.holder none e.host.task = true) :
    (e.setHost hs).Held := by
  rcases hover with hslot | hholder
  · refine h.imp_right ?_
    rintro ⟨hn, hr⟩
    refine ⟨hn, ?_⟩
    rw [host_setHost, hstop.hunts]
    refine releases_cancelTask hr (fun ht hpc => ?_)
    simp [slotUnstarted, ht, hpc] at hslot
  · rcases held_of_holder hholder with ⟨m, -, hm⟩ | ⟨hn, hne, hr⟩
    · exact .inl ⟨m, hm⟩
    · refine .inr ⟨hn, ?_⟩
      rw [host_setHost, hstop.hunts]
      exact releases_cancelTask hr (fun ht => absurd ht.symm hne)

/-- **Step lemma**: the flag keeps a holder. -/
theorem step {ev : Event} (hf : e.Fresh) (h : e.Released) (hs : e.step ev = some e')
    (hover : e.handedOver ev = true) : e'.Released := by
  cases step_effect hs with
  | @sched now a s' at_ offered step =>
    have hk := (offered_host offered step).huntsKept
    exact fun hflag => (h (hk.flag.symm.trans hflag)).congr rfl hk.hunts
  | userPause => exact fun hflag => (h hflag).congr rfl rfl
  | userResume => exact fun hflag => (h hflag).congr rfl rfl
  | host kept => exact fun hflag => (h (kept.flag.symm.trans hflag)).congr rfl kept.hunts
  | called at_ =>
    intro hflag
    refine (h hflag).imp_left ?_
    rintro ⟨m, hm⟩
    -- the new call has a number of its own
    have hlt : m < e.nextCall := hf.call_lt (ManualPc.inProgress_of_committed hm)
    exact ⟨m, by rwa [calls_addCall, if_neg hlt.ne]⟩
  | @call m now inp pc hs' at_ before after kept =>
    intro hflag
    refine (h (kept.flag.symm.trans hflag)).moved (.inr ?_) kept.hunts
    rw [before]
    rfl
  | @interrupt m now inp hn hs' at_ before task alive interrupted =>
    exact fun _ => .inl ⟨m, by simp [Engine.moved, ManualPc.committed]⟩
  | @pause m now inp hs' s' at_ ready pauses run waits =>
    exact fun _ => .inl ⟨m, by simp [Engine.moved, ManualPc.committed]⟩
  | @pauseBegin m now inp hs' s' q at_ ready pauses run done begun =>
    subst at_
    refine fun _ => Released.begun ready.hunts ?_ (SchedulerEngine.pauseAndCancel_host run) begun
    rcases ready.waited with ⟨hn, hpc, -, hhealth⟩ | ⟨-, -, hhealth⟩
    · have hitems := items_of_done (SchedulerEngine.pauseAndCancel_spec run) done
      rw [hhealth]
      simpa [handedOver, hpc, hitems] using hover
    · exact .inl hhealth
  | @waitBegin m now inp c s' q at_ before run begun =>
    subst at_
    refine fun _ => Released.begun rfl ?_ (SchedulerEngine.resume_host run) begun
    simpa [handedOver, before] using hover
  | @stop hs' interrupted at_ =>
    intro hflag
    have hflag : e.host.schedulerPausedByHunt = true := interrupted.flag.symm.trans hflag
    have hover' : e.slotUnstarted = false ∨ e.holder none e.host.task = true := by
      rcases at_ with rfl | ⟨rfl, hrunning⟩
      · simpa [handedOver, hflag] using hover
      · simpa [handedOver, hflag, hrunning] using hover
    exact stopped (h hflag) interrupted hover'
  | @start hs' base at_ idle hunts nextHunt task flag accepted =>
    refine fun _ => .inr ⟨e.host.nextHunt, ?_⟩
    have hnew : hs'.hunts e.host.nextHunt = ⟨.unstarted, false, false⟩ := by
      rw [hunts, Function.update_self]
    exact congrArg HuntTask.releases hnew
  | @advance hn inp hs' pc at_ alive clean hunts pc_ nextHunt task flag =>
    intro hflag
    rcases h (flag.symm.trans hflag) with hcall | ⟨hn', hr⟩
    · exact .inl hcall
    · refine .inr ⟨hn', ?_⟩
      rw [host_setHost, hunts]
      refine releases_update hr (fun _ => ?_)
      simp [HuntTask.releases, HuntTask.alive, pc_.1, pc_.2]
  | @vanish hn inp hs' at_ unstarted doomed hunts nextHunt task flag =>
    intro hflag
    rcases h (flag.symm.trans hflag) with hcall | ⟨hn', hr⟩
    · exact .inl hcall
    · refine .inr ⟨hn', ?_⟩
      rw [host_setHost, hunts]
      -- the hunt that vanishes has been cancelled before its first step, so it held nothing
      refine releases_update hr (fun heq => ?_)
      rw [← heq] at hr
      simp [HuntTask.releases, unstarted, doomed] at hr
  | @finish hn inp hs' at_ ending alive hunts nextHunt task flag =>
    intro hflag
    -- the end of any hunt clears the flag
    have hclear : ((e.sched.setHost hs').endManualHunt).state.schedulerPausedByHunt = false := by
      rcases endManualHunt_cases (e.sched.setHost hs') with ⟨hno, heq⟩ | ⟨-, heq⟩ <;> rw [heq]
      · exact hno
      · rfl
    rw [Engine.host, hclear] at hflag
    cases hflag

end Released

/-- Without a call of `manual_start_hunt` in progress, a set flag has an unfinished hunt
whose end clears it. -/
def PauseReleased (e : Engine) : Prop :=
  e.host.schedulerPausedByHunt = true → (∀ m, (e.calls m).inProgress = false) →
    ∃ h, (e.host.hunts h).releases = true

/-- The condition of this module, as a guard on runs. -/
def HandedOver : Machine.Guard Engine Event := fun e ev _ => e.handedOver ev = true

/-- **The exclusive pause is released** in every run whose steps all hand it over. -/
theorem exclusive_pause_released {e e' : Engine} (h₀ : e.Initial)
    (h : machine.Reaches HandedOver e e') : e'.PauseReleased := by
  obtain ⟨-, hinv⟩ : e'.Fresh ∧ e'.Released :=
    h.invariant (I := fun e => e.Fresh ∧ e.Released) ⟨h₀.fresh, h₀.releasedInv⟩
      (fun _ _ _ hi hs hover => ⟨hi.1.step hs, hi.2.step hi.1 hs hover⟩)
  intro hflag hidle
  rcases hinv hflag with ⟨m, hm⟩ | hhunt
  · have hprogress := hidle m
    rw [ManualPc.inProgress_of_committed hm] at hprogress
    cases hprogress
  · exact hhunt

/-- The hunt of a manual start holds the pause. -/
theorem exclusive_pause_released_manual :
    ∃ e', machine.Reaches HandedOver (prepared [SchedulerEngine.maintenanceSchedule]) e' ∧
      e'.host.schedulerPausedByHunt = true ∧ e'.PauseReleased := by
  have hrun : ∃ e', machine.Reaches HandedOver (prepared [SchedulerEngine.maintenanceSchedule]) e' ∧
      e'.host.schedulerPausedByHunt = true :=
    Machine.exists_reaches_of_exec (g := fun e ev _ => e.handedOver ev)
      (l := maintaining ++ [.manualStart, .manual 0 11 (.alive true),
        .scheduler 12 (.resume 1 (.ended .cancelled)), .scheduler 12 (.resume 1 .wake),
        .manual 0 12 .wake])
      (fun e ev _ (h : e.handedOver ev = true) => h) (by decide +kernel)
  obtain ⟨e', he', hflag⟩ := hrun
  exact ⟨e', he', hflag, exclusive_pause_released (prepared_initial _) he'⟩

/-- A stuck pause: the flag is set, the only call has returned, and no hunt is there that
could clear it. -/
def stuck (e : Engine) : Bool :=
  e.host.schedulerPausedByHunt && decide (e.nextCall = 1) && !(e.calls 0).inProgress &&
    (List.range e.host.nextHunt).all (fun h => !(e.host.hunts h).releases)

theorem not_released_of_stuck {e : Engine} (hf : e.Fresh) (h : e.stuck = true) :
    ¬ e.PauseReleased := by
  simp only [stuck, Bool.and_eq_true, decide_eq_true_eq, Bool.not_eq_true', List.all_eq_true,
    List.mem_range] at h
  obtain ⟨⟨⟨hflag, hone⟩, hcall⟩, hhunts⟩ := h
  intro hreleased
  obtain ⟨hn, hr⟩ := hreleased hflag (fun m => by
    cases m with
    | zero => exact hcall
    | succ m => exact hf.calls _ (by omega))
  have halive : (e.host.hunts hn).alive = true := by
    simp only [HuntTask.releases, Bool.and_eq_true] at hr
    exact hr.1
  rw [hhunts hn (hf.hunt_lt halive)] at hr
  cases hr

/-- A health check is started while the call waits for `cancel_all`; `start_hunt` then
refuses, and nobody clears the flag. -/
theorem pause_stuck :
    ¬ ∀ e e' : Engine, e.Initial → machine.Reaches Machine.anyStep e e' → e'.PauseReleased := by
  intro hall
  have hrun : ∃ e', machine.Reaches Machine.anyStep (prepared [SchedulerEngine.maintenanceSchedule]) e' ∧
      e'.stuck = true :=
    Machine.exists_reaches_of_exec (g := fun _ _ _ => true)
      (l := maintaining ++ [.manualStart, .manual 0 11 (.alive true), .control .healthStart,
        .health 0 5, .scheduler 12 (.resume 1 (.ended .cancelled)),
        .scheduler 12 (.resume 1 .wake), .manual 0 12 .wake])
      (fun _ _ _ _ => trivial) (by decide +kernel)
  obtain ⟨e', he', hstuck⟩ := hrun
  have hf : e'.Fresh := he'.invariant (prepared_initial _).fresh (fun _ _ _ hi hs _ => hi.step hs)
  exact not_released_of_stuck hf hstuck (hall _ e' (prepared_initial _) he')

/-- The hunt is stopped before its first step and ends without its `finally`. -/
theorem pause_stuck_stop :
    ¬ ∀ e e' : Engine, e.Initial → machine.Reaches Machine.anyStep e e' → e'.PauseReleased := by
  intro hall
  have hrun : ∃ e', machine.Reaches Machine.anyStep (prepared [SchedulerEngine.maintenanceSchedule]) e' ∧
      e'.stuck = true :=
    Machine.exists_reaches_of_exec (g := fun _ _ _ => true)
      (l := [.manualStart, .manual 0 11 (.alive true), .control .stopHunt, .cycle 0 .raised])
      (fun _ _ _ _ => trivial) (by decide +kernel)
  obtain ⟨e', he', hstuck⟩ := hrun
  have hf : e'.Fresh := he'.invariant (prepared_initial _).fresh (fun _ _ _ hi hs _ => hi.step hs)
  exact not_released_of_stuck hf hstuck (hall _ e' (prepared_initial _) he')

end Engine

end HuntProxy
