import HuntProxy.Scheduler.Edit
import HuntProxy.Scheduler.Step

/-!
# Well-typed edits

The rest of the scheduler is modelled with typed entries, whose interval is an integer and
whose enabled flag is a boolean. On such entries and on well-typed requests the edits with
raw JSON values do what the typed operations do, provided that the intervals fit into a
float.

## Main definitions

- `RawEntry.ofEntry`, `RawFields.ofFields` — typed entries and requests as raw ones

## Main results

- `isDue_ofEntry`, `update_ofEntry`, `toggle_ofEntry`, `finish_ofEntry` — the operations agree
-/

namespace HuntProxy

/-- A typed entry as a raw one; `parse` reads the configuration from its JSON text. -/
def RawEntry.ofEntry (parse : String → Json) (e : ScheduleEntry) : RawEntry where
  id := e.id
  name := .str e.name
  taskType := e.taskType
  enabled := .bool e.enabled
  intervalSec := .int e.intervalSec
  config := parse e.config
  lastRun := e.lastRun
  lastOk := e.lastOk
  nextRun := .finite e.nextRun
  lastStatus := e.lastStatus
  lastDurationS := e.lastDurationS
  lastError := e.lastError

/-- A well-typed request as a raw one. -/
def RawFields.ofFields (parse : String → Json) (f : ScheduleFields) : RawFields where
  name := f.name.map .str
  taskType := f.taskType.map (fun t => .str t.key)
  intervalSec := f.intervalSec.map .int
  config := f.config.map parse
  enabled := f.enabled.map .bool

namespace RawEntry

variable (parse : String → Json) (now : Time) {e : ScheduleEntry} {f : ScheduleFields}

theorem gtZero_int (n : ℤ) : (Json.int n).gtZero = .ok (decide (0 < n)) := by
  change Except.ok (decide ((0 : ℚ) < n)) = _
  simp only [Int.cast_pos]

theorem addTo_int {n : ℤ} (hpos : 0 < n) (h : n < floatLimit) (t : Time) :
    (Json.int n).addTo t = .ok (.finite (t + n)) := by
  refine if_pos ?_
  rwa [Int.natAbs_of_nonneg hpos.le]

theorem isDue_ofEntry (e : ScheduleEntry) :
    (ofEntry parse e).isDue now = .ok (e.isDue now) := by
  unfold isDue ScheduleEntry.isDue
  have hlast : (ofEntry parse e).lastOk = e.lastOk := rfl
  have hnext : (ofEntry parse e).nextRun = .finite e.nextRun := rfl
  rw [hlast, hnext]
  split
  · rfl
  · simp only [PyFloat.gtZero, PyFloat.leTime, decide_eq_true_eq]

/-- The hint of a typed entry. -/
theorem reschedule_ofEntry (h : e.intervalSec < floatLimit) :
    reschedule now (ofEntry parse e) =
      .ok (e.enabled && decide (0 < e.intervalSec))
        (ofEntry parse { e with
          nextRun := if e.enabled = true ∧ 0 < e.intervalSec then e.base now + e.intervalSec
            else e.nextRun }) := by
  have hgt : (ofEntry parse e).intervalSec.gtZero = .ok (decide (0 < e.intervalSec)) :=
    gtZero_int e.intervalSec
  cases hon : e.enabled with
  | false =>
    rw [reschedule_off (e := ofEntry parse e) now hon]
    simp [ofEntry, hon]
  | true =>
    by_cases hpos : 0 < e.intervalSec
    · rw [decide_eq_true hpos] at hgt
      rw [reschedule_gt (e := ofEntry parse e) now hon hgt (addTo_int hpos h _)]
      simp [ofEntry, hon, hpos, base, ScheduleEntry.base]
    · rw [decide_eq_false hpos] at hgt
      rw [reschedule_le (e := ofEntry parse e) now hon hgt]
      simp [ofEntry, hon, hpos]

/-- The stage of `interval_sec` on a typed entry. -/
theorem assignInterval_ofEntry (hf : ∀ n, f.intervalSec = some n → n < floatLimit) :
    ∃ b, assignInterval now (f.intervalSec.map .int) (ofEntry parse e) =
      .ok b (ofEntry parse (match f.intervalSec with
        | none => e
        | some interval => e.setInterval now interval)) := by
  cases hi : f.intervalSec with
  | none => exact ⟨false, rfl⟩
  | some n =>
    exact ⟨_, reschedule_ofEntry parse now (e := { e with intervalSec := n }) (hf n hi)⟩

/-- The stage of `enabled` on a typed entry. -/
theorem assignEnabled_ofEntry (he : e.intervalSec < floatLimit) :
    assignEnabled now (f.enabled.map .bool) (ofEntry parse e) =
      .ok (decide (f.enabled = some false)) (ofEntry parse (match f.enabled with
        | none => e
        | some enabled => e.setEnabled now enabled)) := by
  cases hv : f.enabled with
  | none => rfl
  | some b =>
    have hhint := reschedule_ofEntry parse now (e := { e with enabled := b }) he
    refine (bind_of_ok (m := reschedule now) hhint).trans ?_
    cases b with
    | false => rfl
    | true => rfl

/-- **Updates agree**: a well-typed request with intervals in range is accepted, with the
typed result; the schedule comes off the queue exactly when it is being disabled. -/
theorem update_ofEntry (he : e.intervalSec < floatLimit)
    (hf : ∀ n, f.intervalSec = some n → n < floatLimit) :
    update now (.ofFields parse f) (ofEntry parse e) =
      .ok (decide (f.enabled = some false)) (ofEntry parse (e.update now f)) := by
  have hfound : (ofEntry parse e).FoundType (.ofFields parse f) (f.taskType.getD e.taskType) := by
    cases ht : f.taskType with
    | none =>
      refine .inl ⟨?_, rfl⟩
      simp only [RawFields.ofFields, ht, Option.map_none]
    | some t =>
      refine .inr ?_
      simp only [RawFields.ofFields, ht, Option.map_some, Json.lookupTaskType_key,
        Option.getD_some]
  let e₁ : ScheduleEntry :=
    { e with name := f.name.getD e.name, taskType := f.taskType.getD e.taskType }
  let e₂ : ScheduleEntry := match f.intervalSec with
    | none => e₁
    | some interval => e₁.setInterval now interval
  have hnamed : (ofEntry parse e).named (.ofFields parse f) (f.taskType.getD e.taskType) =
      ofEntry parse e₁ := by
    simp only [named, ofEntry, e₁, RawFields.ofFields]
    cases f.name <;> rfl
  obtain ⟨b, hb⟩ := assignInterval_ofEntry parse now (e := e₁) hf
  have hconfig : assignConfig (f.config.map parse) (ofEntry parse e₂) =
      .ok () (ofEntry parse { e₂ with config := f.config.getD e₂.config }) := by
    cases f.config <;> rfl
  have hrange : e₂.intervalSec < floatLimit := by
    cases hi : f.intervalSec with
    | none => simpa only [e₂, hi] using he
    | some n => simpa only [e₂, hi, ScheduleEntry.setInterval] using hf n hi
  rw [update_found now hfound, hnamed]
  refine (bind_of_ok (m := assignInterval now (f.intervalSec.map .int)) hb).trans ?_
  refine (bind_of_ok hconfig).trans ?_
  exact assignEnabled_ofEntry parse now (e := { e₂ with config := f.config.getD e₂.config }) hrange

/-- **Toggles agree**, when the interval is in range. -/
theorem toggle_ofEntry (he : e.intervalSec < floatLimit) :
    toggle now (ofEntry parse e) =
      .ok (!e.enabled && decide (0 < e.intervalSec)) (ofEntry parse (e.toggle now)) := by
  have hhint := reschedule_ofEntry parse now (e := { e with enabled := !e.enabled }) he
  refine (bind_of_ok (m := reschedule now) hhint).trans ?_
  change EStateM.Result.ok _ _ = EStateM.Result.ok _ _
  cases hon : e.enabled with
  | true => simp [ofEntry, ScheduleEntry.toggle, hon]
  | false =>
    by_cases hpos : 0 < e.intervalSec
    · simp [ofEntry, ScheduleEntry.toggle, ScheduleEntry.base, hon, hpos]
    · simp [ofEntry, ScheduleEntry.toggle, hon, hpos]

/-- **Ends of runs agree**, when the interval is in range. -/
theorem finish_ofEntry (started : Time) (outcome : Outcome) (h : e.intervalSec.natAbs < floatLimit) :
    finish now started outcome (ofEntry parse e) =
      .ok () (ofEntry parse { e.record now outcome with
        lastDurationS := pyRound (now - started), nextRun := now + e.intervalSec }) := by
  have hsum : (ofEntry parse e).intervalSec.addTo now = .ok (.finite (now + e.intervalSec)) := by
    change (Json.int e.intervalSec).addTo now = _
    rw [Json.addTo, if_pos h]
  have hrecord : (ofEntry parse e).record now outcome = ofEntry parse (e.record now outcome) := by
    cases outcome <;> rfl
  rw [finish_of_addTo started outcome hsum, hrecord]
  rfl

end RawEntry

end HuntProxy
