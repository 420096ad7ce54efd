import HuntProxy.Scheduler.Cover

/-!
# The registry of running tasks

`_running_tasks` is written by whoever launches a run and erased in the `finally` of the
run itself, under the type that the entry has at that moment. The registry is sound when
its keys are exactly the types of the unfinished runs.

The code keeps the registry sound in the runs whose steps are all `calm`: besides being
covering, no step lets a run end without leaving the registry under its own key, as a
run does that is cancelled or loses its schedule before its first step, or whose
schedule gets another task type while it is executing.

## Main results

- `registry_sound` — calm runs keep the registry sound
- `registry_stuck` — a task type edited during a run leaves its key behind
-/

namespace HuntProxy.SchedulerEngine

/-- The steps that keep the registry sound. -/
def calm (s : SchedulerEngine) : Time × Action → Bool
  | (now, .resume i inp) =>
    match s.code i with
    | .run sid _ _ .unstarted => !(s.tasks i).cancelRequested && s.schedules.contains sid
    | .run _ key _ (.executing r _) => (s.entries r).taskType == key
    | _ => s.covering everyRun (now, .resume i inp)
  | _ => true

/-- At most one unfinished run per type, and the registered keys are exactly the types
of unfinished runs, each under its own task. -/
structure RegistrySound (s : SchedulerEngine) : Prop where
  single : ∀ k o o', s.live o = some k → s.live o' = some k → o = o'
  exact_ : ∀ k o, s.runningTasks.get? k = some o ↔ s.live o = some k

/-- The registry covers the unfinished runs and is backed by them. -/
structure RegistryInv (s : SchedulerEngine) : Prop extends s.CoverInv everyRun where
  backed : Slots.Backed s.runningTasks.get? s.live

theorem RegistryInv.sound {s : SchedulerEngine} (h : s.RegistryInv) : s.RegistrySound where
  single _ _ _ ho ho' := h.covers.unique ho ho'
  exact_ k o := ⟨h.backed k o, h.covers o k⟩

theorem Initial.registryInv {s : SchedulerEngine} (h : s.Initial) : s.RegistryInv := by
  refine ⟨h.coverInv everyRun, fun k o hk => ?_⟩
  rw [h.runningTasks] at hk
  cases hk

/-- A calm step is covering. -/
theorem covering_of_calm {s : SchedulerEngine} {a : Time × Action} (h : s.calm a = true) :
    s.covering everyRun a = true := by
  obtain ⟨now, a⟩ := a
  cases a with
  | resume i inp =>
    simp only [calm] at h
    split at h
    · next hc => simp only [covering, hc]
    · next hc =>
      simp only [covering, hc, everyRun, Bool.true_and, Bool.or_eq_true]
      exact .inl h
    · exact h
  | _ => rfl

namespace RegistryInv

variable {s s₁ : SchedulerEngine} {i : TaskId} {c' : Code}

/-- A calm turn keeps every registered key backed by its run. -/
theorem backed_turn (h : s.RegistryInv) {now : Time} {inp : Input}
    (hcalm : s.calm (now, .resume i inp) = true) (hturn : s.turn now i inp = some (s₁, c')) :
    Slots.Backed (s₁.setCode i c').runningTasks.get? (s₁.setCode i c').live := by
  have hi := turn_not_done hturn
  have hne := h.ne_nextTask hi
  have hnolive : s.live s.nextTask = none := liveKey_of_done (h.fresh _ le_rfl)
  have he := turn_effect hturn
  cases he with
  | quiet hstill hlock hlive hbefore hafter =>
    exact h.backed.congr hstill.held (live_still hstill.code hlive)
  | hold hstill hfree hlock hlive hlive' hbefore hafter hunreg hclear hrow =>
    exact h.backed.congr hstill.held (live_still hstill.code (unfinished_none hlive' hlive))
  | drop hstill hlock hlive hlive' hbefore hafter =>
    exact h.backed.congr hstill.held (live_still hstill.code (unfinished_none hlive' hlive))
  | launchFree hl hfree hlock hlive hlive' hbefore hafter hunreg hclear hrow habout horigin =>
    exact h.backed.acquire hnolive hl.held (live_launched hne hl hlive hlive')
  | launchWaited at_ hwake hl hfree hlock hlive' hafter hunreg =>
    have hlive : (s.code i).liveKey = none := by rw [at_]; rfl
    exact h.backed.acquire hnolive hl.held (live_launched hne hl hlive hlive')
  | launchHeld hl hverdict hlock hlive hlive' hbefore hafter =>
    exact h.backed.acquire hnolive hl.held (live_launched hne hl hlive hlive')
  | @finish _ sid key triggered r started at_ hheld hcode hnext hlock hframe =>
    simp only [calm, at_, beq_iff_eq] at hcalm
    rw [hcalm] at hheld
    have hlive : s.live i = some key := by rw [live_eq, at_]; rfl
    exact h.backed.release hlive hheld (live_finished hcode rfl)
  | vanish at_ why =>
    simp only [calm, at_, Bool.and_eq_true, Bool.not_eq_true'] at hcalm
    rcases why with why | why
    · rw [hcalm.1] at why
      cases why
    · rw [hcalm.2] at why
      cases why
  | clear hheld hcode hnext hlock hframe hlive hlive' hbefore hafter =>
    exact h.backed.clear hheld (live_still hcode (unfinished_none hlive' hlive))

/-- **Step lemma**: a calm step keeps the invariant. -/
theorem step {s' : SchedulerEngine} {a : Time × Action} (h : s.RegistryInv)
    (hs : s.step a = some s') (hcalm : s.calm a = true) : s'.RegistryInv := by
  refine ⟨h.toCoverInv.step hs (covering_of_calm hcalm), ?_⟩
  obtain ⟨now, a⟩ := a
  rcases step_effect hs with ⟨i, inp, s₁, c', rfl, hturn, rfl⟩ | ⟨-, ha⟩
  · exact h.backed_turn hcalm hturn
  · exact h.backed.congr ha.held (live_api h.fresh ha)

end RegistryInv

/-- The condition of this module, as a guard on runs. -/
def Calm : Machine.Guard SchedulerEngine (Time × Action) := fun s a _ => s.calm a = true

/-- **Registry soundness**: in every run whose steps are all calm, each type has at most
one unfinished run, and the registered keys are exactly the types of the unfinished
runs. -/
theorem registry_sound {s s' : SchedulerEngine} (h₀ : s.Initial)
    (h : machine.Reaches Calm s s') : s'.RegistrySound := by
  have hinv : s'.RegistryInv :=
    h.invariant h₀.registryInv (fun _ _ _ hi hs hcalm => hi.step hs hcalm)
  exact hinv.sound

/-- The schedule of the database maintenance, whose executor awaits a thread for each
database; its task type needs neither the internet nor a busy flag. -/
def maintenanceSchedule : ScheduleEntry :=
  { id := "db_maintenance", name := "DB maintenance", taskType := .dbMaintenance }

/-- A triggered run of the maintenance up to an await of its executor. -/
def maintenanceRun : List (Time × Action) :=
  [(10, .triggerNow "db_maintenance"), (10, .resume 0 .wake), (10, .resume 1 .wake)]

theorem registry_sound_maintenance :
    ∃ s', machine.Reaches Calm (prepared [maintenanceSchedule]) s' ∧
      s'.live 1 = some .dbMaintenance ∧ s'.RegistrySound := by
  have hrun : ∃ s', machine.Reaches Calm (prepared [maintenanceSchedule]) s' ∧
      decide (s'.live 1 = some .dbMaintenance) = true :=
    Machine.exists_reaches_of_exec (g := fun s a _ => s.calm a) (l := maintenanceRun)
      (fun s a _ (h : s.calm a = true) => h) (by decide +kernel)
  obtain ⟨s', hs', hlive⟩ := hrun
  exact ⟨s', hs', of_decide_eq_true hlive, registry_sound (prepared_initial _) hs'⟩

/-- The task type of a schedule is edited while its run is in the executor: the run
leaves the registry under the new type and the old key stays behind. -/
theorem registry_stuck :
    ¬ ∀ s s' : SchedulerEngine, s.Initial → machine.Reaches Machine.anyStep s s' →
      s'.RegistrySound := by
  intro hall
  have hrun : ∃ s', machine.Reaches Machine.anyStep (prepared [maintenanceSchedule]) s' ∧
      decide (s'.runningTasks.get? .dbMaintenance = some 1 ∧ s'.live 1 = none) = true :=
    Machine.exists_reaches_of_exec (g := fun _ _ _ => true)
      (l := maintenanceRun ++ [(20, .updateSchedule "db_maintenance" { taskType := some .backup }),
        (30, .resume 1 (.ended .ok)), (30, .resume 1 .wake)])
      (fun _ _ _ _ => trivial) (by decide +kernel)
  obtain ⟨s', hs', hend⟩ := hrun
  obtain ⟨hheld, hlive⟩ := of_decide_eq_true hend
  have hsound := hall _ s' (prepared_initial _) hs'
  rw [(hsound.exact_ .dbMaintenance 1).mp hheld] at hlive
  cases hlive

end HuntProxy.SchedulerEngine
