import HuntProxy.Scheduler.Edit

/-!
# Ticks, drains and runs between schedule edits

A tick evaluates the schedules one after the other; it only writes the status and the hint
of the entries that it queues, so every schedule is evaluated with the enabled flag and
the interval that it had when the tick began. A drain only launches, so the types of the
schedules stay as they were, and what it finds registered belongs to an unfinished run.

## Main definitions

- `SameSettings` — the entries have the same enabled flags, intervals and types
- `Unpoisoned` — what the edits of other schedules cannot spoil

## Main results

- `tick_ok` — a tick of a state with usable intervals raises nothing and queues what is due
- `drain_ok` — a drain launches what no unfinished run keeps back
- `Runnable.step`, `Backed.step` — what a step under the condition keeps
- `edits_sound` — atomic updates, complete ticks and drains in every run under the condition
- `edit_poisons` — an interval that is no number, sent for an enabled schedule
- `edit_blocks` — the same, sent for a disabled schedule while it runs
-/

namespace HuntProxy.ScheduleTable

variable {s s' s'' : ScheduleTable}

/-- What an edit sets and the rest of the scheduler leaves alone. -/
def settings (e : RawEntry) : Json × Json × TaskType := (e.enabled, e.intervalSec, e.taskType)

/-- The entries of the two states have the same settings. -/
def SameSettings (s s' : ScheduleTable) : Prop :=
  ∀ sid, (s'.schedules.get? sid).map settings = (s.schedules.get? sid).map settings

theorem SameSettings.of_schedules (h : s'.schedules = s.schedules) : s.SameSettings s' := by
  intro sid
  rw [h]

theorem SameSettings.refl (s : ScheduleTable) : s.SameSettings s := fun _ => rfl

theorem SameSettings.trans (h : s.SameSettings s') (h' : s'.SameSettings s'') :
    s.SameSettings s'' := fun sid => (h' sid).trans (h sid)

theorem SameSettings.symm (h : s.SameSettings s') : s'.SameSettings s := fun sid => (h sid).symm

/-- The entry that the other state has under the same identifier. -/
theorem SameSettings.entry (h : s.SameSettings s') {sid : Sid} {e : RawEntry}
    (he : s.schedules.get? sid = some e) :
    ∃ e', s'.schedules.get? sid = some e' ∧ e'.enabled = e.enabled ∧
      e'.intervalSec = e.intervalSec ∧ e'.taskType = e.taskType := by
  have hsame := h sid
  rw [he, Option.map_some, Option.map_eq_some_iff] at hsame
  obtain ⟨e', he', heq⟩ := hsame
  simp only [settings, Prod.mk.injEq] at heq
  exact ⟨e', he', heq⟩

theorem SameSettings.runnable (h : s.SameSettings s') (hs : s.Runnable) : s'.Runnable := by
  intro sid e he hon
  obtain ⟨e₀, he₀, henabled, hinterval, -⟩ := h.symm.entry he
  rw [← henabled] at hon
  rw [← hinterval]
  exact hs sid e₀ he₀ hon

/-- Writing other fields of an entry. -/
theorem withEntry_same {sid : Sid} {e e' : RawEntry} (he : s.schedules.get? sid = some e)
    (hsettings : settings e' = settings e) : s.SameSettings (s.withEntry sid e') := by
  intro other
  rw [withEntry, Dict.get?_insert]
  split
  · next heq =>
    subst heq
    rw [he, Option.map_some, Option.map_some, hsettings]
  · rfl

/-- The registry and the runs are the same. -/
structure SameRuns (s s' : ScheduleTable) : Prop where
  running : s'.running = s.running
  runs : s'.runs = s.runs

theorem SameRuns.refl (s : ScheduleTable) : s.SameRuns s := ⟨rfl, rfl⟩

theorem SameRuns.backed (h : s.SameRuns s') (hs : s.Backed) : s'.Backed := by
  intro t ht
  rw [h.running] at ht
  rw [h.runs]
  exact hs t ht

/-! ### Ticks -/

/-- An entry with a usable interval that is due is queued without an exception. -/
theorem enqueue_ok (now : Time) (stored : Bool) {sid : Sid} {e : RawEntry}
    (he : s.schedules.get? sid = some e) (husable : e.intervalSec.usable = true)
    (hpos : e.intervalSec.leZero = .ok false) :
    ∃ s', enqueue now sid stored s = .ok () s' ∧ s'.queue.contains sid = true ∧
      ∀ other, s.queue.contains other = true → s'.queue.contains other = true := by
  unfold enqueue
  rw [he]
  dsimp only
  split
  · next hqueued => exact ⟨s, rfl, hqueued, fun _ h => h⟩
  · obtain ⟨t, ht⟩ := Json.addTo_of_usable husable hpos now
    rw [ht]
    refine ⟨_, rfl, ?_, fun other hother => ?_⟩
    · exact Dict.contains_eq_true.mpr ⟨now, by simp [persist, withEntry]⟩
    · obtain ⟨t', ht'⟩ := Dict.contains_eq_true.mp hother
      refine Dict.contains_eq_true.mpr ?_
      simp only [persist, withEntry, Dict.get?_insert]
      split
      · exact ⟨now, rfl⟩
      · exact ⟨t', ht'⟩

/-- Queueing a schedule leaves the settings, the registry and the runs, also if it raises. -/
theorem enqueue_same (now : Time) (sid : Sid) (stored : Bool) (s : ScheduleTable) :
    s.SameSettings (stateOf (enqueue now sid stored s)) ∧
      s.SameRuns (stateOf (enqueue now sid stored s)) := by
  unfold enqueue
  split
  · exact ⟨.refl s, .refl s⟩
  · next e he =>
    split
    · exact ⟨.refl s, .refl s⟩
    · have h₁ : s.SameSettings (s.withEntry sid { e with lastStatus := .queued }) :=
        withEntry_same he rfl
      dsimp only
      split
      · exact ⟨h₁, ⟨rfl, rfl⟩⟩
      · refine ⟨h₁.trans (withEntry_same (e := { e with lastStatus := .queued }) ?_ rfl), ⟨rfl, rfl⟩⟩
        rw [withEntry, Dict.get?_insert, if_pos rfl]

/-- What the loop of a tick has established after some of the schedules: nothing has
changed that an evaluation reads, the due ones among them are queued. -/
structure Ticked (s : ScheduleTable) (now : Time) (done : List (Sid × RawEntry))
    (s' : ScheduleTable) : Prop where
  same : s.SameSettings s'
  runs : s.SameRuns s'
  queued : ∀ p ∈ done, s.Due now p.2 → s'.queue.contains p.1 = true

/-- The body of the loop raises nothing and queues its schedule if that is due. -/
theorem Ticked.entry {now : Time} {done : List (Sid × RawEntry)} {p : Sid × RawEntry}
    (h : s.Ticked now done s') (hs : s.Runnable) (hp : p ∈ s.schedules.items)
    (stored : Sid → Bool) :
    ∃ s'', tickEntry now stored p s' = .ok () s'' ∧ s.Ticked now (p :: done) s'' := by
  have he : s.schedules.get? p.1 = some p.2 := Dict.get?_eq_some_iff.mpr hp
  have hqueued : (s.Due now p.2 → s'.queue.contains p.1 = true) → s.Ticked now (p :: done) s' := by
    intro hdue
    refine ⟨h.same, h.runs, fun q hq => ?_⟩
    rcases List.mem_cons.mp hq with rfl | hq
    · exact hdue
    · exact h.queued q hq
  unfold tickEntry evaluate
  by_cases hon : p.2.enabled.truthy = true
  · have husable := hs p.1 p.2 he hon
    obtain ⟨b, hb⟩ := Json.compare_of_usable husable PyFloat.leZero
    have hb : p.2.intervalSec.leZero = .ok b := hb
    simp only [hon, Bool.not_true, Bool.false_eq_true, if_false, hb, h.runs.running]
    cases b with
    | true =>
      refine ⟨s', rfl, hqueued (fun hdue => ?_)⟩
      rw [hdue.2.1] at hb
      cases hb
    | false =>
      dsimp only
      by_cases hrun : p.2.taskType ∈ s.running
      · -- its type is registered, so it is left for a later tick
        rw [if_pos hrun]
        exact ⟨s', rfl, hqueued (fun hdue => absurd hrun hdue.2.2.1)⟩
      · rw [if_neg hrun]
        by_cases hin : s'.queue.contains p.1 = true
        · rw [if_pos hin]
          exact ⟨s', rfl, hqueued (fun _ => hin)⟩
        · rw [if_neg hin]
          have hdue : ∃ b, p.2.isDue now = .ok b := by
            unfold RawEntry.isDue
            split
            · exact Json.compare_of_usable husable _
            · exact ⟨_, rfl⟩
          obtain ⟨b, hdue⟩ := hdue
          rw [hdue]
          cases b with
          | false =>
            refine ⟨s', rfl, hqueued (fun hd => ?_)⟩
            rw [hd.2.2.2] at hdue
            cases hdue
          | true =>
            -- the loop has only written statuses so far, so the settings are those of `s`
            obtain ⟨e', he', -, hinterval, -⟩ := h.same.entry he
            rw [← hinterval] at husable hb
            obtain ⟨s'', hok, hnew, hgrow⟩ := enqueue_ok now (stored p.1) he' husable hb
            obtain ⟨hsame, hruns⟩ := enqueue_same now p.1 (stored p.1) s'
            rw [hok] at hsame hruns
            refine ⟨s'', hok, h.same.trans hsame,
              ⟨hruns.running.trans h.runs.running, hruns.runs.trans h.runs.runs⟩,
              fun q hq hd => ?_⟩
            rcases List.mem_cons.mp hq with rfl | hq
            · exact hnew
            · exact hgrow q.1 (h.queued q hq hd)
  · simp only [Bool.eq_false_iff.mpr hon, Bool.not_false, if_true]
    exact ⟨s', rfl, hqueued (fun hdue => absurd hdue.1 hon)⟩

/-- **A tick is complete**: in a state whose enabled schedules have usable intervals it
raises nothing, and everything that is due is queued. -/
theorem tick_ok (h : s.Runnable) (now : Time) (stored : Sid → Bool) :
    ∃ s', tick now stored s = .ok () s' ∧ s.SameSettings s' ∧ s.SameRuns s' ∧
      ∀ sid e, s.schedules.get? sid = some e → s.Due now e → s'.queue.contains sid = true := by
  have h₀ : s.Ticked now [] s := ⟨.refl s, .refl s, fun p hp => absurd hp List.not_mem_nil⟩
  obtain ⟨s', hok, hticked⟩ := forM_ok (I := s.Ticked now) (l := s.schedules.items) h₀
    (fun done p s' hp hi => hi.entry h hp stored)
  refine ⟨s', hok, hticked.same, hticked.runs, fun sid e he hdue => ?_⟩
  refine hticked.queued (sid, e) ?_ hdue
  rw [List.append_nil, List.mem_reverse]
  exact Dict.get?_eq_some_iff.mp he

/-! ### Launches and drains -/

/-- An unfinished run of the type, or of one that it excludes. -/
def Kept (s : ScheduleTable) (t : TaskType) : Prop :=
  ∃ r ∈ s.runs, r.key = t ∨ r.key ∈ (taskTypes t).mutexWith

/-- The schedule has left the queue for a run of its type. -/
def Launched (s : ScheduleTable) (sid : Sid) (t : TaskType) : Prop :=
  s.queue.contains sid = false ∧ ∃ r ∈ s.runs, r.sid = sid ∧ r.key = t

/-- What is registered blocks a type only while a run is unfinished. -/
theorem Backed.kept (h : s.Backed) {t : TaskType} (hblocks : s.blocks t = true) : s.Kept t := by
  simp only [blocks, Bool.or_eq_true, decide_eq_true_eq, List.any_eq_true] at hblocks
  rcases hblocks with ht | ⟨t', hmutex, ht'⟩
  · obtain ⟨r, hr, hkey⟩ := h t ht
    exact ⟨r, hr, .inl hkey⟩
  · obtain ⟨r, hr, hkey⟩ := h t' ht'
    exact ⟨r, hr, .inr (hkey ▸ hmutex)⟩

theorem Backed.register (h : s.Backed) (sid : Sid) (key : TaskType) : (s.register sid key).Backed := by
  intro t ht
  have hcase : t ∈ s.running ∨ t = key := by
    simp only [ScheduleTable.register] at ht
    split at ht
    · exact .inl ht
    · exact (List.mem_append.mp ht).imp_right List.mem_singleton.mp
  rcases hcase with ht | rfl
  · obtain ⟨r, hr, hkey⟩ := h t ht
    exact ⟨r, List.mem_append_left _ hr, hkey⟩
  · exact ⟨_, List.mem_append_right _ (List.mem_singleton_self _), rfl⟩

theorem Backed.launch (h : s.Backed) (now : Time) (sid : Sid) (stale : Option RawEntry)
    (stored : Bool) : (s.launch now sid stale stored).Backed := by
  unfold ScheduleTable.launch
  split
  · exact Backed.register (s := s.persist _ stored) h sid _
  · split
    · exact h
    · exact Backed.register (s := (s.withEntry sid _).persist _ stored) h sid _

theorem launch_same (s : ScheduleTable) (now : Time) (sid : Sid) (stale : Option RawEntry)
    (stored : Bool) : s.SameSettings (s.launch now sid stale stored) := by
  unfold launch
  split
  · exact .of_schedules rfl
  · split
    · exact .refl s
    · next e he =>
      have hsame : s.SameSettings (s.withEntry sid { e with lastStatus := .running, lastRun := now }) :=
        withEntry_same he rfl
      exact hsame.trans (.of_schedules rfl)

/-- What a turn of a drain does: it takes an unknown schedule off the queue, leaves one that
is not to be launched, or launches it. -/
inductive DrainTurn (s : ScheduleTable) (now : Time) (sid : Sid) (allowed stored : Bool) :
    ScheduleTable → Prop
  | unknown (missing : s.schedules.get? sid = none) :
      DrainTurn s now sid allowed stored (s.dequeueIf sid true)
  | left {e} (known : s.schedules.get? sid = some e)
      (why : s.blocks e.taskType = true ∨ allowed = false) : DrainTurn s now sid allowed stored s
  | launched {e} (known : s.schedules.get? sid = some e) :
      DrainTurn s now sid allowed stored ((s.launch now sid none stored).dequeueIf sid true)

theorem drainTurn_cases {now : Time} {sid : Sid} {allowed stored : Bool}
    (h : (s.drainTurn now sid allowed stored).1 = s') : s.DrainTurn now sid allowed stored s' := by
  subst h
  unfold drainTurn
  split
  · next hnone => exact .unknown hnone
  · next e he =>
    split
    · next hkeep =>
      rw [Bool.or_eq_true, Bool.not_eq_true'] at hkeep
      exact .left he hkeep
    · exact .launched he

theorem drainTurn_same (s : ScheduleTable) (now : Time) (sid : Sid) (allowed stored : Bool) :
    s.SameSettings (s.drainTurn now sid allowed stored).1 := by
  generalize hturn : (s.drainTurn now sid allowed stored).1 = s'
  cases drainTurn_cases hturn with
  | unknown => exact .of_schedules rfl
  | left => exact .refl s
  | launched => exact (s.launch_same now sid none stored).trans (.of_schedules rfl)

theorem Backed.drainTurn (h : s.Backed) (now : Time) (sid : Sid) (allowed stored : Bool) :
    (s.drainTurn now sid allowed stored).1.Backed := by
  generalize hturn : (s.drainTurn now sid allowed stored).1 = s'
  cases drainTurn_cases hturn with
  | unknown => exact h
  | left => exact h
  | launched => exact h.launch now sid none stored

/-- A run that is there stays, and what is off the queue stays off. -/
structure Grows (s s' : ScheduleTable) : Prop where
  runs : ∀ r ∈ s.runs, r ∈ s'.runs
  queue : ∀ sid, s.queue.contains sid = false → s'.queue.contains sid = false

theorem Grows.refl (s : ScheduleTable) : s.Grows s := ⟨fun _ h => h, fun _ h => h⟩

theorem Grows.trans (h : s.Grows s') (h' : s'.Grows s'') : s.Grows s'' :=
  ⟨fun r hr => h'.runs r (h.runs r hr), fun sid hsid => h'.queue sid (h.queue sid hsid)⟩

theorem Kept.grow {t : TaskType} (h : s.Kept t) (hgrow : s.Grows s') : s'.Kept t := by
  obtain ⟨r, hr, hkey⟩ := h
  exact ⟨r, hgrow.runs r hr, hkey⟩

theorem Launched.grow {sid : Sid} {t : TaskType} (h : s.Launched sid t) (hgrow : s.Grows s') :
    s'.Launched sid t := by
  obtain ⟨hqueue, r, hr, hrun⟩ := h
  exact ⟨hgrow.queue sid hqueue, r, hgrow.runs r hr, hrun⟩

theorem contains_dequeue (s : ScheduleTable) (sid other : Sid) :
    (s.dequeueIf sid true).queue.contains other =
      (decide (other ≠ sid) && s.queue.contains other) := by
  simp only [dequeueIf, if_true, Dict.contains, Dict.get?_erase]
  by_cases h : other = sid
  · simp [h]
  · simp [h]

theorem launch_grows (s : ScheduleTable) (now : Time) (sid : Sid) (stale : Option RawEntry)
    (stored : Bool) : s.Grows (s.launch now sid stale stored) := by
  unfold launch
  split
  · exact ⟨fun r hr => List.mem_append_left _ hr, fun _ h => h⟩
  · split
    · exact .refl s
    · exact ⟨fun r hr => List.mem_append_left _ hr, fun _ h => h⟩

theorem dequeue_grows (s : ScheduleTable) (sid : Sid) : s.Grows (s.dequeueIf sid true) := by
  refine ⟨fun _ h => h, fun other h => ?_⟩
  rw [contains_dequeue, h, Bool.and_false]

theorem drainTurn_grows (s : ScheduleTable) (now : Time) (sid : Sid) (allowed stored : Bool) :
    s.Grows (s.drainTurn now sid allowed stored).1 := by
  generalize hturn : (s.drainTurn now sid allowed stored).1 = s'
  cases drainTurn_cases hturn with
  | unknown => exact s.dequeue_grows sid
  | left => exact .refl s
  | launched => exact (s.launch_grows now sid none stored).trans (dequeue_grows _ sid)

/-- A schedule whose turn comes is launched, unless a run keeps it back or it is not allowed. -/
theorem Backed.turn (h : s.Backed) (now : Time) {sid : Sid} {e : RawEntry} {allowed : Bool}
    (stored : Bool) (he : s.schedules.get? sid = some e) (hallowed : allowed = true) :
    (s.drainTurn now sid allowed stored).1.Launched sid e.taskType ∨
      (s.drainTurn now sid allowed stored).1.Kept e.taskType := by
  generalize hturn : (s.drainTurn now sid allowed stored).1 = s'
  cases drainTurn_cases hturn with
  | unknown hnone =>
    rw [he] at hnone
    cases hnone
  | left hknown why =>
    obtain rfl := Option.some.inj (he.symm.trans hknown)
    rcases why with hblocks | hoff
    · exact .inr (h.kept hblocks)
    · rw [hallowed] at hoff
      cases hoff
  | launched =>
    refine .inl ⟨by rw [contains_dequeue, decide_eq_false (fun hne => hne rfl), Bool.false_and], ?_⟩
    simp only [dequeueIf, ScheduleTable.launch, he]
    exact ⟨_, List.mem_append_right _ (List.mem_singleton_self _), rfl, rfl⟩

/-- **A drain is complete**: of the schedules that it finds queued it launches every one that
is allowed, unless an unfinished run keeps it back. -/
theorem drain_ok (h : s.Backed) (now : Time) {allowed : Sid → Bool} (stored : Sid → Bool) {sid : Sid}
    {e : RawEntry} (he : s.schedules.get? sid = some e) (hqueued : s.queue.contains sid = true)
    (hallowed : allowed sid = true) :
    (s.drain now allowed stored).Launched sid e.taskType ∨
      (s.drain now allowed stored).Kept e.taskType := by
  -- by induction on the queue as it was; what has been launched or kept back stays so
  have hloop : ∀ (sids : List Sid) (s : ScheduleTable) (e' : RawEntry), s.Backed →
      s.schedules.get? sid = some e' → e'.taskType = e.taskType →
      s.Grows (sids.foldl (fun s sid => (s.drainTurn now sid (allowed sid) (stored sid)).1) s) ∧
      (sid ∈ sids →
        (sids.foldl (fun s sid => (s.drainTurn now sid (allowed sid) (stored sid)).1) s).Launched sid
            e.taskType ∨
          (sids.foldl (fun s sid => (s.drainTurn now sid (allowed sid) (stored sid)).1) s).Kept
            e.taskType) := by
    intro sids
    induction sids with
    | nil => exact fun s _ _ _ _ => ⟨.refl s, fun hmem => absurd hmem List.not_mem_nil⟩
    | cons first rest ih =>
      intro s e' hbacked he' htype
      obtain ⟨e₁, he₁, -, -, htype₁⟩ :=
        (s.drainTurn_same now first (allowed first) (stored first)).entry he'
      obtain ⟨hgrow, hrest⟩ := ih _ e₁ (hbacked.drainTurn now first (allowed first) (stored first))
        he₁ (htype₁.trans htype)
      refine ⟨(s.drainTurn_grows now first _ _).trans hgrow, fun hmem => ?_⟩
      rcases List.mem_cons.mp hmem with rfl | hmem
      · rw [← htype]
        rcases hbacked.turn now (stored sid) he' hallowed with hlaunched | hkept
        · exact .inl (hlaunched.grow hgrow)
        · exact .inr (hkept.grow hgrow)
      · exact hrest hmem
  refine (hloop s.queue.keys s e h he rfl).2 ?_
  obtain ⟨t, ht⟩ := Dict.contains_eq_true.mp hqueued
  exact Dict.mem_keys.mpr ⟨t, ht⟩

/-! ### The ends of runs -/

/-- The end of a run leaves the settings of its entry, also if it raises. -/
theorem finish_same (now started : Time) (outcome : Outcome) (e : RawEntry) :
    settings (stateOf (RawEntry.finish now started outcome e)) = settings e := by
  unfold RawEntry.finish
  cases outcome <;> (dsimp only [RawEntry.record]; split <;> rfl)

/-- The end of a run whose entry has an addable interval raises nothing. -/
theorem finish_ok (now started : Time) (outcome : Outcome) {e : RawEntry}
    (h : e.intervalSec.addable = true) : ∃ e', RawEntry.finish now started outcome e = .ok () e' := by
  obtain ⟨t, ht⟩ := Json.addTo_of_addable h now
  exact ⟨_, RawEntry.finish_of_addTo started outcome ht⟩

/-- What a run holds of the table. -/
theorem held_stored {r : RawRun} {started₀ : Time} {p : Time × RawEntry}
    (hhold : r.hold = .stored started₀) (h : s.held r = some p) :
    s.schedules.get? r.sid = some p.2 := by
  simp only [held, hhold, Option.map_eq_some_iff] at h
  obtain ⟨e, he, rfl⟩ := h
  exact he

/-- Writing other fields of the entry that a run holds. -/
theorem withHeld_same {r : RawRun} {p : Time × RawEntry} {e' : RawEntry} (h : s.held r = some p)
    (hsettings : settings e' = settings p.2) (runs : List RawRun) :
    s.SameSettings (({ s with runs := runs } : ScheduleTable).withHeld r e') := by
  unfold withHeld
  split
  · next started hhold =>
    exact withEntry_same (s := { s with runs := runs }) (held_stored hhold h) hsettings
  · exact .of_schedules rfl

/-- Writing the entry that a run holds leaves the registry and the runs. -/
theorem withHeld_runs (s : ScheduleTable) (r : RawRun) (e : RawEntry) : s.SameRuns (s.withHeld r e) := by
  unfold withHeld
  split
  · exact ⟨rfl, rfl⟩
  · exact .refl s

/-- What the end of a run does. -/
inductive RunEnd (s : ScheduleTable) (now : Time) (i : ℕ) (outcome : Outcome) (stored : Bool) :
    EStateM.Result PyError ScheduleTable Unit → Prop
  /-- There is no such run, or it has not begun. -/
  | absent : RunEnd s now i outcome stored (.ok () s)
  | raised {r p err e} (run : s.runs[i]? = some r) (held : s.held r = some p)
      (ended : RawEntry.finish now p.1 outcome p.2 = .error err e) :
      RunEnd s now i outcome stored
        (.error err (({ s with runs := s.runs.eraseIdx i } : ScheduleTable).withHeld r e))
  | ended {r p e} (run : s.runs[i]? = some r) (held : s.held r = some p)
      (ended : RawEntry.finish now p.1 outcome p.2 = .ok () e) :
      RunEnd s now i outcome stored
        (.ok () (({ ({ s with runs := s.runs.eraseIdx i } : ScheduleTable).withHeld r e with
          running := s.running.filter (· ≠ e.taskType) } : ScheduleTable).persist e stored))

theorem endRun_cases {now : Time} {i : ℕ} {outcome : Outcome} {stored : Bool}
    {d : EStateM.Result PyError ScheduleTable Unit} (h : endRun now i outcome stored s = d) :
    s.RunEnd now i outcome stored d := by
  subst h
  unfold endRun
  split
  · exact .absent
  · next r started e hfound =>
    obtain ⟨r', hr, hheld⟩ := Option.bind_eq_some_iff.mp hfound
    obtain ⟨p, hp, heq⟩ := Option.map_eq_some_iff.mp hheld
    cases heq
    dsimp only
    split
    · next err e' hend => exact .raised hr hp hend
    · next e' hend => exact .ended hr hp hend

theorem endRun_same (s : ScheduleTable) (now : Time) (i : ℕ) (outcome : Outcome) (stored : Bool) :
    s.SameSettings (stateOf (endRun now i outcome stored s)) := by
  generalize hend : endRun now i outcome stored s = d
  cases endRun_cases hend with
  | absent => exact .refl s
  | @raised r p err e hrun hheld hfinish =>
    have hsettings := finish_same now p.1 outcome p.2
    rw [hfinish] at hsettings
    exact withHeld_same hheld hsettings _
  | @ended r p e hrun hheld hfinish =>
    have hsettings := finish_same now p.1 outcome p.2
    rw [hfinish] at hsettings
    exact (withHeld_same hheld hsettings (s.runs.eraseIdx i)).trans (.of_schedules rfl)

/-- A run whose key is no longer registered may go. -/
theorem Backed.eraseRun (h : s.Backed) {i : ℕ} {r : RawRun} (hr : s.runs[i]? = some r)
    {running : List TaskType} (hsub : running ⊆ s.running) (hkey : r.key ∉ running) :
    ({ s with runs := s.runs.eraseIdx i, running := running } : ScheduleTable).Backed := by
  intro t ht
  obtain ⟨r', hr', hkey'⟩ := h t (hsub ht)
  obtain ⟨j, hj⟩ := List.mem_iff_getElem?.mp hr'
  refine ⟨r', List.mem_eraseIdx_iff_getElem?.mpr ⟨j, ?_, hj⟩, hkey'⟩
  rintro rfl
  obtain rfl := Option.some.inj (hr.symm.trans hj)
  exact hkey (hkey' ▸ ht)

/-- The end of a run that the condition admits takes its type off the registry. -/
theorem Backed.endRun (h : s.Backed) (now : Time) {i : ℕ} {outcome : Outcome} {stored : Bool}
    (hsound : s.sound (.ended i outcome stored) = true) :
    (stateOf (ScheduleTable.endRun now i outcome stored s)).Backed := by
  simp only [sound] at hsound
  generalize hend : ScheduleTable.endRun now i outcome stored s = d
  cases endRun_cases hend with
  | absent => exact h
  | @raised r p err e hrun hheld hfinish =>
    simp only [hrun, soundEnd, hheld, Option.all_some, Bool.and_eq_true] at hsound
    -- the interval can be added, so the end does not raise in front of the pop
    obtain ⟨e', hok⟩ := finish_ok now p.1 outcome hsound.2
    rw [hok] at hfinish
    cases hfinish
  | @ended r p e hrun hheld hfinish =>
    simp only [hrun, soundEnd, hheld, Option.all_some, Bool.and_eq_true, decide_eq_true_eq] at hsound
    have hsettings := finish_same now p.1 outcome p.2
    rw [hfinish] at hsettings
    have htype : e.taskType = r.key := by
      have htype : e.taskType = p.2.taskType := congrArg (fun x => x.2.2) hsettings
      rw [htype, hsound.1]
    have hruns := withHeld_runs { s with runs := s.runs.eraseIdx i } r e
    -- the type that is popped is the one it was registered under
    have hgone : r.key ∉ s.running.filter (· ≠ e.taskType) := by
      rw [htype]
      simp
    have hback := h.eraseRun hrun (List.filter_subset_self _) hgone
    intro t ht
    obtain ⟨r', hr', hkey'⟩ := hback t ht
    refine ⟨r', ?_, hkey'⟩
    have hmem : r' ∈ (({ s with runs := s.runs.eraseIdx i } : ScheduleTable).withHeld r e).runs := by
      rw [hruns.runs]
      exact hr'
    exact hmem

/-! ### Bulk cancellations -/

/-- Marking an entry leaves the settings, the registry and the runs. -/
theorem markCancelled_same (now : Time) (reason : String) (stored : Sid → Bool) (sid : Sid)
    (s : ScheduleTable) :
    s.SameSettings (stateOf (markCancelled now reason stored sid s)) ∧
      s.SameRuns (stateOf (markCancelled now reason stored sid s)) := by
  unfold markCancelled
  split
  · exact ⟨.refl s, .refl s⟩
  · next e he =>
    split
    · dsimp only
      split
      · exact ⟨withEntry_same he rfl, ⟨rfl, rfl⟩⟩
      · next t _ =>
        have hsame : s.SameSettings (s.withEntry sid
            { e with lastStatus := .cancelled, lastError := reason, nextRun := t }) :=
          withEntry_same he rfl
        exact ⟨hsame.trans (.of_schedules rfl), ⟨rfl, rfl⟩⟩
    · exact ⟨.refl s, .refl s⟩

theorem cancelAll_same (now : Time) (reason : String) (stored : Sid → Bool) (s : ScheduleTable) :
    s.SameSettings (stateOf (cancelAll now reason stored s)) ∧
      (stateOf (cancelAll now reason stored s)).running = [] := by
  refine stateOf_forM (I := fun t => s.SameSettings t ∧ t.running = [])
    (s := { s with running := [] }) ⟨.of_schedules rfl, rfl⟩ (fun sid t ht => ?_) s.schedules.keys
  obtain ⟨hsame, hruns⟩ := markCancelled_same now reason stored sid t
  exact ⟨ht.1.trans hsame, hruns.running.trans ht.2⟩

/-- The intervals of the entries that a `cancel_all` marks can be added to a time. -/
def MarkedAddable (s : ScheduleTable) : Prop :=
  ∀ sid e, s.schedules.get? sid = some e → marked e = true → e.intervalSec.addable = true

/-- One entry is marked, and the others stay as they are. -/
theorem MarkedAddable.markCancelled {t : ScheduleTable} (ht : t.MarkedAddable) (now : Time)
    (reason : String) (stored : Sid → Bool) (sid : Sid) :
    ∃ t', ScheduleTable.markCancelled now reason stored sid t = .ok ⟨⟩ t' ∧ t'.MarkedAddable := by
  unfold ScheduleTable.markCancelled
  split
  · exact ⟨t, rfl, ht⟩
  · next e he =>
    by_cases hmarked : marked e = true
    · obtain ⟨x, hx⟩ := Json.addTo_of_addable (ht sid e he hmarked) now
      rw [if_pos hmarked]
      simp only [hx]
      refine ⟨_, rfl, fun other e' he' hmarked' => ?_⟩
      simp only [persist, withEntry, Dict.get?_insert] at he'
      split at he'
      · cases he'
        simp [marked] at hmarked'
      · exact ht other e' he' hmarked'
    · rw [if_neg hmarked]
      exact ⟨t, rfl, ht⟩

/-- A `cancel_all` that the condition admits comes to its end. -/
theorem cancelAll_ok (now : Time) {reason : String} {stored : Sid → Bool}
    (hsound : s.sound (.cancelAll reason stored) = true) :
    ∃ s', cancelAll now reason stored s = .ok () s' := by
  have h₀ : MarkedAddable { s with running := [] } := by
    intro sid e he hmarked
    have hall := List.all_eq_true.mp hsound e
      (List.mem_map.mpr ⟨(sid, e), Dict.get?_eq_some_iff.mp he, rfl⟩)
    rw [hmarked] at hall
    exact hall
  obtain ⟨s', hok, -⟩ := @forM_ok _ _ _ _ (fun _ t => MarkedAddable t) s.schedules.keys [] _ h₀
    (fun _ sid _ _ ht => ht.markCancelled now reason stored sid)
  exact ⟨s', hok⟩

/-! ### Steps -/

/-- The entries of a state with one new entry. -/
theorem Runnable.withEntry (h : s.Runnable) {sid : Sid} {e : RawEntry}
    (he : e.enabled.truthy = true → e.intervalSec.usable = true) : (s.withEntry sid e).Runnable := by
  intro other e' he'
  rw [ScheduleTable.withEntry, Dict.get?_insert] at he'
  split at he'
  · cases he'
    exact he
  · exact h other e' he'

theorem Initial.runnable (h : s.Initial) : s.Runnable := by
  intro sid e he _
  obtain ⟨n, hn, hlt⟩ := h.interval sid e he
  rw [hn]
  exact decide_eq_true hlt

/-- An enabled schedule with an interval that is not usable is not added. -/
theorem Runnable.addSchedule (h : s.Runnable) (now : Time) (sid : Sid) (name taskType : Json)
    (interval : ℤ) (config enabled : Json) (stored : Bool) :
    (stateOf (addSchedule now sid name taskType interval config enabled stored s)).Runnable := by
  unfold ScheduleTable.addSchedule
  split
  · exact h
  · next t _ =>
    split
    · exact h
    · split
      · exact h
      · next b e hok =>
        refine h.withEntry ?_
        cases husable : (Json.int interval).usable with
        | true =>
          obtain ⟨_, _, hx⟩ := RawEntry.reschedule_of_usable
            (e := .fresh sid name t interval config enabled) now (fun _ => husable)
          rw [hx] at hok
          cases hok
          exact fun _ => husable
        | false =>
          cases henabled : enabled.truthy with
          | true =>
            obtain ⟨err, herr⟩ := RawEntry.reschedule_raises
              (e := .fresh sid name t interval config enabled) now henabled husable
            rw [herr] at hok
            cases hok
          | false =>
            obtain ⟨_, _, hx⟩ := RawEntry.reschedule_of_usable
              (e := .fresh sid name t interval config enabled) now
              (fun hon => absurd (henabled.symm.trans hon) Bool.false_ne_true)
            rw [hx] at hok
            cases hok
            exact fun hon => absurd (henabled.symm.trans hon) Bool.false_ne_true

/-- An admitted update of a schedule with a usable interval leaves it so. -/
theorem Runnable.updateSchedule (h : s.Runnable) (now : Time) {sid : Sid} {f : RawFields}
    {stored : Bool} (hsound : s.sound (.updateSchedule sid f stored) = true) :
    (stateOf (updateSchedule now sid f stored s)).Runnable := by
  unfold ScheduleTable.updateSchedule
  split
  · exact h
  · next e he =>
    simp only [sound, he, Option.all_some] at hsound
    have hfound : ∀ t, e.FoundType f t → ∃ b e', RawEntry.update now f e = .ok b e' ∧
        (e'.enabled.truthy = true → e'.intervalSec.usable = true) := by
      intro t ht
      obtain ⟨hold, hnew⟩ := (soundUpdate_found ht).mp hsound
      obtain ⟨b, e', hok, henabled, hinterval⟩ := RawEntry.update_accepted now ht hold hnew
      refine ⟨b, e', hok, fun hon => ?_⟩
      rw [henabled] at hon
      rw [hinterval]
      cases hv : f.enabled with
      | some v =>
        rw [hv, Option.getD_some] at hon
        exact hnew (by rw [hv, Option.any_some, hon])
      | none =>
        rw [hv, Option.getD_none] at hon
        have hall := hold hon
        cases hi : f.intervalSec with
        | none => exact h sid e he hon
        | some v => rwa [hi, Option.all_some] at hall
    rcases e.found_or_refused f with ⟨t, ht⟩ | ⟨err, hrefused⟩
    · obtain ⟨b, e', hok, husable⟩ := hfound t ht
      rw [hok]
      exact h.withEntry husable
    · rw [RawEntry.update_refused now hrefused]
      exact h.withEntry (h sid e he)

/-- An admitted toggle leaves the schedule with a usable interval, or disabled. -/
theorem Runnable.toggleSchedule (h : s.Runnable) (now : Time) {sid : Sid} {stored : Bool}
    (hsound : s.sound (.toggleSchedule sid stored) = true) :
    (stateOf (toggleSchedule now sid stored s)).Runnable := by
  unfold ScheduleTable.toggleSchedule
  split
  · exact h
  · next e he =>
    simp only [sound, he, Option.all_some, Bool.or_eq_true] at hsound
    obtain ⟨b, e', hok, hinterval, henabled⟩ := RawEntry.toggle_ok now hsound
    rw [hok]
    refine h.withEntry (fun hon => ?_)
    rw [henabled, Json.truthy, Bool.not_eq_true'] at hon
    rw [hinterval]
    exact hsound.resolve_left (by rw [hon]; exact Bool.false_ne_true)

/-- Deleting a schedule leaves the other entries. -/
theorem Runnable.deleteSchedule (h : s.Runnable) (sid : Sid) :
    (stateOf (deleteSchedule sid s)).Runnable := by
  unfold ScheduleTable.deleteSchedule
  split
  · exact h
  · intro other e he
    simp only [stateOf, Dict.get?_erase] at he
    split at he
    · cases he
    · exact h other e he

/-- The first step of a run, and a cancellation before it, leave the entries. -/
theorem beginRun_schedules (s : ScheduleTable) (now : Time) (i : ℕ) :
    (s.beginRun now i).schedules = s.schedules := by
  unfold beginRun
  split
  · split <;> rfl
  · rfl

theorem abandonRun_schedules (s : ScheduleTable) (i : ℕ) :
    (s.abandonRun i).schedules = s.schedules := by
  unfold abandonRun
  split <;> rfl

theorem cancelQueued_same (s : ScheduleTable) (sid : Sid) (stored : Bool) :
    s.SameSettings (s.cancelQueued sid stored) ∧ s.SameRuns (s.cancelQueued sid stored) := by
  unfold cancelQueued
  split
  · exact ⟨.refl s, .refl s⟩
  · next e he =>
    split
    · have hsame : s.SameSettings
          (s.withEntry sid { e with lastStatus := if 0 < e.lastOk then .ok else .never }) :=
        withEntry_same he rfl
      exact ⟨hsame.trans (.of_schedules rfl), ⟨rfl, rfl⟩⟩
    · exact ⟨.refl s, .refl s⟩

/-- **Step lemma**: a step under the condition leaves every enabled schedule with a usable
interval. -/
theorem Runnable.step (h : s.Runnable) {a : Time × EditAction} (hs : s.step a = some s')
    (hsound : s.sound a.2 = true) : s'.Runnable := by
  obtain ⟨now, a⟩ := a
  cases a with
  | addSchedule sid name taskType interval config enabled stored =>
    cases hs
    exact h.addSchedule now sid name taskType interval config enabled stored
  | updateSchedule sid f stored =>
    cases hs
    exact h.updateSchedule now hsound
  | toggleSchedule sid stored =>
    cases hs
    exact h.toggleSchedule now hsound
  | deleteSchedule sid =>
    cases hs
    exact h.deleteSchedule sid
  | tick stored =>
    cases hs
    obtain ⟨s', hok, hsame, -⟩ := tick_ok h now stored
    rw [hok]
    exact hsame.runnable h
  | enqueue sid stored =>
    cases hs
    exact (enqueue_same now sid stored s).1.runnable h
  | drainTurn sid allowed stored =>
    cases hs
    exact (s.drainTurn_same now sid allowed stored).runnable h
  | launch sid stale stored =>
    cases hs
    exact (s.launch_same now sid stale stored).runnable h
  | begin i =>
    cases hs
    exact (SameSettings.of_schedules (s.beginRun_schedules now i)).runnable h
  | ended i outcome stored =>
    cases hs
    exact (s.endRun_same now i outcome stored).runnable h
  | abandon i =>
    cases hs
    exact (SameSettings.of_schedules (s.abandonRun_schedules i)).runnable h
  | cancelQueued sid stored =>
    cases hs
    exact (s.cancelQueued_same sid stored).1.runnable h
  | cancelAll reason stored =>
    cases hs
    exact (cancelAll_same now reason stored s).1.runnable h
  | dequeue sid =>
    cases hs
    exact h
  | clearQueue =>
    cases hs
    exact h
  | unregister types =>
    cases hs
    exact h

/-! ### The registry -/

theorem addSchedule_runs (now : Time) (sid : Sid) (name taskType : Json) (interval : ℤ)
    (config enabled : Json) (stored : Bool) (s : ScheduleTable) :
    s.SameRuns (stateOf (addSchedule now sid name taskType interval config enabled stored s)) := by
  unfold addSchedule
  split
  · exact .refl s
  · split
    · exact .refl s
    · split
      · exact .refl s
      · exact ⟨rfl, rfl⟩

theorem updateSchedule_runs (now : Time) (sid : Sid) (f : RawFields) (stored : Bool)
    (s : ScheduleTable) : s.SameRuns (stateOf (updateSchedule now sid f stored s)) := by
  unfold updateSchedule
  split
  · exact .refl s
  · split <;> exact ⟨rfl, rfl⟩

theorem toggleSchedule_runs (now : Time) (sid : Sid) (stored : Bool) (s : ScheduleTable) :
    s.SameRuns (stateOf (toggleSchedule now sid stored s)) := by
  unfold toggleSchedule
  split
  · exact .refl s
  · split <;> exact ⟨rfl, rfl⟩

theorem detach_key (sid : Sid) (e : RawEntry) (r : RawRun) : (r.detach sid e).key = r.key := by
  unfold RawRun.detach
  split
  · split <;> rfl
  · rfl

/-- The runs of a deleted schedule keep their types. -/
theorem Backed.deleteSchedule (h : s.Backed) (sid : Sid) :
    (stateOf (deleteSchedule sid s)).Backed := by
  unfold ScheduleTable.deleteSchedule
  split
  · exact h
  · next e _ =>
    intro t ht
    obtain ⟨r, hr, hkey⟩ := h t ht
    exact ⟨r.detach sid e, List.mem_map_of_mem hr, (detach_key sid e r).trans hkey⟩

/-- A run begins, or its key is no longer registered. -/
theorem Backed.beginRun (h : s.Backed) (now : Time) {i : ℕ} (hsound : s.sound (.begin i) = true) :
    (s.beginRun now i).Backed := by
  unfold ScheduleTable.beginRun
  split
  · next sid key hr =>
    split
    · intro t ht
      obtain ⟨r, hmem, hkey⟩ := h t ht
      obtain ⟨j, hj⟩ := List.mem_iff_getElem?.mp hmem
      by_cases hij : i = j
      · subst hij
        obtain rfl := Option.some.inj (hr.symm.trans hj)
        exact ⟨_, List.mem_set (List.getElem?_eq_some_iff.mp hr).1 _, hkey⟩
      · exact ⟨r, List.mem_iff_getElem?.mpr ⟨j, by rw [List.getElem?_set_ne hij]; exact hj⟩, hkey⟩
    · next hgone =>
      simp only [sound, hr, Option.all_some, Bool.or_eq_true, decide_eq_true_eq] at hsound
      exact h.eraseRun hr (List.Subset.refl _) (hsound.resolve_left hgone)
  · exact h

theorem Backed.abandonRun (h : s.Backed) {i : ℕ} (hsound : s.sound (.abandon i) = true) :
    (s.abandonRun i).Backed := by
  unfold ScheduleTable.abandonRun
  split
  · next hr =>
    simp only [sound, hr, Option.all_some, decide_eq_true_eq] at hsound
    exact h.eraseRun hr (List.Subset.refl _) hsound
  · exact h

/-- **Step lemma**: a step under the condition leaves every registered type with an
unfinished run. -/
theorem Backed.step (h : s.Backed) (hrunnable : s.Runnable) {a : Time × EditAction}
    (hs : s.step a = some s') (hsound : s.sound a.2 = true) : s'.Backed := by
  obtain ⟨now, a⟩ := a
  cases a with
  | addSchedule sid name taskType interval config enabled stored =>
    cases hs
    exact (addSchedule_runs now sid name taskType interval config enabled stored s).backed h
  | updateSchedule sid f stored =>
    cases hs
    exact (updateSchedule_runs now sid f stored s).backed h
  | toggleSchedule sid stored =>
    cases hs
    exact (toggleSchedule_runs now sid stored s).backed h
  | deleteSchedule sid =>
    cases hs
    exact h.deleteSchedule sid
  | tick stored =>
    cases hs
    obtain ⟨s', hok, -, hruns, -⟩ := tick_ok hrunnable now stored
    rw [hok]
    exact hruns.backed h
  | enqueue sid stored =>
    cases hs
    exact (enqueue_same now sid stored s).2.backed h
  | drainTurn sid allowed stored =>
    cases hs
    exact h.drainTurn now sid allowed stored
  | launch sid stale stored =>
    cases hs
    exact h.launch now sid stale stored
  | begin i =>
    cases hs
    exact h.beginRun now hsound
  | ended i outcome stored =>
    cases hs
    exact h.endRun now hsound
  | abandon i =>
    cases hs
    exact h.abandonRun hsound
  | cancelQueued sid stored =>
    cases hs
    exact (s.cancelQueued_same sid stored).2.backed h
  | cancelAll reason stored =>
    cases hs
    intro t ht
    rw [(cancelAll_same now reason stored s).2] at ht
    cases ht
  | dequeue sid =>
    cases hs
    exact h
  | clearQueue =>
    cases hs
    exact h
  | unregister types =>
    cases hs
    exact fun t ht => h t (List.mem_of_mem_filter ht)

theorem Initial.backed (h : s.Initial) : s.Backed := by
  intro t ht
  rw [h.running] at ht
  cases ht

/-- What the edits of other schedules cannot spoil: an update that raises changes nothing
exactly when the condition admits it; a tick evaluates all schedules without an exception
and queues those that are due; a drain launches those that are queued, unless an unfinished
run keeps them back; and only unfinished runs are registered. -/
structure Unpoisoned (s : ScheduleTable) : Prop where
  atomic : ∀ now sid f stored, Atomic (updateSchedule now sid f stored) s ↔
    s.sound (.updateSchedule sid f stored) = true
  ticked : ∀ now stored, ∃ s', tick now stored s = .ok () s' ∧
    ∀ sid e, s.schedules.get? sid = some e → s.Due now e → s'.queue.contains sid = true
  drained : ∀ now allowed stored sid e, s.schedules.get? sid = some e →
    s.queue.contains sid = true → allowed sid = true →
      (s.drain now allowed stored).Launched sid e.taskType ∨
        (s.drain now allowed stored).Kept e.taskType
  backed : s.Backed
  cancelled : ∀ now reason stored, s.sound (.cancelAll reason stored) = true →
    ∃ s', cancelAll now reason stored s = .ok () s'

/-- **Edits cannot poison the scheduler** in the runs under the condition. -/
theorem edits_sound (h₀ : s.Initial) (h : machine.Reaches Sound s s') : s'.Unpoisoned := by
  obtain ⟨hrunnable, hbacked⟩ : s'.Runnable ∧ s'.Backed :=
    h.invariant (I := fun s => s.Runnable ∧ s.Backed) ⟨h₀.runnable, h₀.backed⟩
      (fun _ _ _ hi hs hg => ⟨hi.1.step hs hg, hi.2.step hi.1 hs hg⟩)
  refine ⟨update_atomic_iff hrunnable, fun now stored => ?_, ?_, hbacked, ?_⟩
  · obtain ⟨s'', hok, -, -, hdue⟩ := tick_ok hrunnable now stored
    exact ⟨s'', hok, hdue⟩
  · exact fun now allowed stored sid e he hqueued hallowed =>
      drain_ok hbacked now stored he hqueued hallowed
  · exact fun now reason stored hsound => cancelAll_ok now hsound

/-- The default schedules of two task types, as they are seeded. -/
def seeded : ScheduleTable where
  schedules := (Dict.empty.insert "backup"
    { id := "backup", name := .str "Auto-backup", taskType := .backup }).insert "history"
    { id := "history", name := .str "History recording", taskType := .history,
      intervalSec := .int 60 }
  queue := .empty
  rows := .empty
  running := []
  runs := []

theorem seeded_initial : seeded.Initial := by
  refine ⟨fun sid e he => ?_, rfl, rfl⟩
  simp only [seeded, Dict.get?_insert, Dict.get?_empty] at he
  have hlimit : (3600 : ℤ) < floatLimit := by
    unfold floatLimit
    decide +kernel
  split at he
  · cases he
    exact ⟨60, rfl, (by decide : (60 : ℤ) < 3600).trans hlimit⟩
  · split at he
    · cases he
      exact ⟨3600, rfl, hlimit⟩
    · cases he

/-- A schedule is renamed and gets a fractional interval, runs once, is cancelled in its
second run and queued again; another one is disabled together with an interval that is no
number, and a third one is refused for its task type. -/
theorem edits_sound_seeded :
    ∃ s', machine.Reaches Sound seeded s' ∧ s'.queue.contains "history" = true ∧ s'.Unpoisoned := by
  have hrun : ∃ s', machine.Reaches Sound seeded s' ∧ s'.queue.contains "history" = true :=
    Machine.exists_reaches_of_exec (g := fun s a _ => s.sound a.2)
      (l := [(10, .updateSchedule "history"
          { name := some (.str "Snapshots"), intervalSec := some (.float (.finite (1 / 2))) } true),
        (11, .toggleSchedule "backup" true),
        (12, .updateSchedule "backup" { intervalSec := some (.str "daily") } false),
        (13, .addSchedule "mirror" (.str "Mirror") (.str "mirror") 60 .null (.bool true) true),
        (14, .tick (fun _ => true)), (14, .drainTurn "history" true true), (14, .begin 0),
        (15, .ended 0 .ok true), (16, .launch "history" none true), (16, .begin 0),
        (17, .ended 0 .cancelled true), (18, .tick (fun _ => true))])
      (fun s a _ (h : s.sound a.2 = true) => h) (by decide +kernel)
  obtain ⟨s', hs', hqueued⟩ := hrun
  exact ⟨s', hs', hqueued, edits_sound seeded_initial hs'⟩

/-- An interval that is no number, sent for an enabled schedule: the update raises, the
interval stays in memory while the row keeps the old one, and the next tick raises before
it comes to the other schedule. -/
theorem edit_poisons :
    ¬ ∀ s s' : ScheduleTable, s.Initial → machine.Reaches Machine.anyStep s s' →
      (∀ now sid f stored, Atomic (updateSchedule now sid f stored) s') ∧
        ∀ now stored, ∃ s'', tick now stored s' = .ok () s'' := by
  intro hall
  have hrun : ∃ s', machine.Reaches Machine.anyStep seeded s' ∧
      (match tick 20 (fun _ => true) s' with
        | .ok _ _ => false
        | .error err s'' => decide (err = .notOrdered ∧ s''.queue.contains "history" = false)) =
          true :=
    Machine.exists_reaches_of_exec (g := fun _ _ _ => true)
      (l := [(10, .updateSchedule "backup" { intervalSec := some (.str "daily") } true)])
      (fun _ _ _ _ => trivial) (by decide +kernel)
  obtain ⟨s', hs', hraised⟩ := hrun
  obtain ⟨s'', hok⟩ := (hall seeded s' seeded_initial hs').2 20 (fun _ => true)
  rw [hok] at hraised
  cases hraised

/-- The same interval, sent for a schedule that is disabled and run by hand: the end of the
run raises in front of the line that takes the type off the registry. -/
theorem edit_blocks :
    ¬ ∀ s s' : ScheduleTable, s.Initial → machine.Reaches Machine.anyStep s s' → s'.Backed := by
  intro hall
  have hrun : ∃ s', machine.Reaches Machine.anyStep seeded s' ∧
      decide (TaskType.backup ∈ s'.running ∧ s'.runs.length = 0) = true :=
    Machine.exists_reaches_of_exec (g := fun _ _ _ => true)
      (l := [(10, .updateSchedule "backup" { enabled := some (.bool false) } true),
        (11, .updateSchedule "backup" { intervalSec := some (.str "daily") } true),
        (12, .launch "backup" none true), (12, .begin 0), (13, .ended 0 .ok true)])
      (fun _ _ _ _ => trivial) (by decide +kernel)
  obtain ⟨s', hs', hend⟩ := hrun
  obtain ⟨hregistered, hnone⟩ := of_decide_eq_true hend
  obtain ⟨r, hr, -⟩ := hall seeded s' seeded_initial hs' .backup hregistered
  rw [List.eq_nil_of_length_eq_zero hnone] at hr
  cases hr

end HuntProxy.ScheduleTable
