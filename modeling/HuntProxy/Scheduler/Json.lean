import HuntProxy.Scheduler.Entry

/-!
# JSON values as Python handles them

The schedule API passes the values of a JSON request on as they are, so an attribute of a
schedule may hold any of them. This module has the operations that the scheduler applies
to such values: truth, comparison with numbers, and addition to a clock reading. Two kinds
of values make them raise: what is no number has no order and no sum, and an integer
beyond the range of floats cannot be added to a float. Booleans count as numbers.

## Main definitions

- `PyFloat`, `Json` — what `json.loads` returns
- `PyError` — the exceptions of these operations and of the schedule API
- `Json.truthy`, `Json.gtZero`, `Json.leZero`, `Json.leTime`, `Json.addTo`
- `Json.usable` — neither comparing the value with zero raises nor adding it when positive
- `Json.addable` — adding the value does not raise
-/

namespace HuntProxy

/-- A Python float. Finite floats are exact rationals here. -/
inductive PyFloat
  | nan
  | inf (negative : Bool)
  | finite (q : ℚ)
  deriving DecidableEq

namespace PyFloat

/-- `x > 0`. -/
def gtZero : PyFloat → Bool
  | nan => false
  | inf negative => !negative
  | finite q => decide (0 < q)

/-- `x <= 0`. -/
def leZero : PyFloat → Bool
  | nan => false
  | inf negative => negative
  | finite q => decide (q ≤ 0)

/-- `t >= x`. -/
def leTime (x : PyFloat) (t : Time) : Bool :=
  match x with
  | nan => false
  | inf negative => negative
  | finite q => decide (q ≤ t)

/-- `t + x`. -/
def addTo (x : PyFloat) (t : Time) : PyFloat :=
  match x with
  | finite q => finite (t + q)
  | x => x

end PyFloat

mutual

/-- A JSON value. -/
inductive Json
  | null
  | bool (b : Bool)
  | int (n : ℤ)
  | float (x : PyFloat)
  | str (s : String)
  | arr (items : JsonArray)
  | obj (members : JsonObject)
  deriving DecidableEq

/-- The items of an array. -/
inductive JsonArray
  | nil
  | cons (v : Json) (rest : JsonArray)
  deriving DecidableEq

/-- The members of an object. -/
inductive JsonObject
  | nil
  | cons (key : String) (v : Json) (rest : JsonObject)
  deriving DecidableEq

end

/-- What the API and the tick may raise. `notOrdered`, `noSum` and `unhashable` are
`TypeError`s, `overflow` is an `OverflowError`, the others are `ValueError`s with the
value that they quote. -/
inductive PyError
  | notOrdered
  | noSum
  | unhashable
  | overflow
  | unknownTaskType (v : Json)
  | alreadyExists (sid : Sid)
  deriving DecidableEq

/-- The least positive integer that does not fit into a float: halfway between the largest
float and the next power of two. -/
@[irreducible] def floatLimit : ℤ := (Nat.pow 2 1024 - Nat.pow 2 970 : ℕ)

theorem floatLimit_pos : 0 < floatLimit := by
  have hlt : Nat.pow 2 970 < Nat.pow 2 1024 := Nat.pow_lt_pow_right Nat.one_lt_two (by norm_num)
  unfold floatLimit
  exact Int.natCast_pos.mpr (Nat.sub_pos_of_lt hlt)

namespace Json

/-- `bool(v)`. -/
def truthy : Json → Bool
  | null => false
  | bool b => b
  | int n => n ≠ 0
  | float x => x ≠ .finite 0
  | str s => s ≠ ""
  | arr items => items ≠ .nil
  | obj members => members ≠ .nil

/-- The value of a number, for comparisons. -/
def number : Json → Option PyFloat
  | bool b => some (.finite (if b then 1 else 0))
  | int n => some (.finite n)
  | float x => some x
  | _ => none

/-- A comparison raises when the value is no number. -/
def compare (p : PyFloat → Bool) (v : Json) : Except PyError Bool :=
  match v.number with
  | none => .error .notOrdered
  | some x => .ok (p x)

/-- `v > 0`. -/
def gtZero (v : Json) : Except PyError Bool := v.compare PyFloat.gtZero

/-- `v <= 0`. -/
def leZero (v : Json) : Except PyError Bool := v.compare PyFloat.leZero

/-- `t >= v`. -/
def leTime (v : Json) (t : Time) : Except PyError Bool := v.compare (fun x => x.leTime t)

/-- `t + v`. -/
def addTo (v : Json) (t : Time) : Except PyError PyFloat :=
  match v with
  | bool b => .ok (.finite (t + if b then 1 else 0))
  | int n => if n.natAbs < floatLimit then .ok (.finite (t + n)) else .error .overflow
  | float x => .ok (x.addTo t)
  | _ => .error .noSum

/-- Neither comparing the value with zero raises, nor adding it when it is positive. -/
def usable : Json → Bool
  | bool _ => true
  | int n => n < floatLimit
  | float _ => true
  | _ => false

/-- Adding the value to a clock reading does not raise. -/
def addable : Json → Bool
  | bool _ => true
  | int n => n.natAbs < floatLimit
  | float _ => true
  | _ => false

theorem addTo_of_addable {v : Json} (h : v.addable = true) (t : Time) : ∃ x, v.addTo t = .ok x := by
  cases v with
  | bool b => exact ⟨_, rfl⟩
  | int n => exact ⟨.finite (t + n), if_pos (of_decide_eq_true h)⟩
  | float x => exact ⟨x.addTo t, rfl⟩
  | _ => cases h

theorem number_of_usable {v : Json} (h : v.usable = true) : ∃ x, v.number = some x := by
  cases v with
  | bool b => exact ⟨_, rfl⟩
  | int n => exact ⟨_, rfl⟩
  | float x => exact ⟨x, rfl⟩
  | _ => cases h

theorem compare_of_usable {v : Json} (h : v.usable = true) (p : PyFloat → Bool) :
    ∃ b, v.compare p = .ok b := by
  obtain ⟨x, hx⟩ := number_of_usable h
  rw [compare, hx]
  exact ⟨p x, rfl⟩

theorem leZero_of_gtZero {v : Json} (h : v.gtZero = .ok true) : v.leZero = .ok false := by
  unfold gtZero leZero compare at *
  cases hx : v.number with
  | none => rw [hx] at h; cases h
  | some x =>
    rw [hx] at h
    have hpos : x.gtZero = true := Except.ok.inj h
    cases x with
    | nan => rfl
    | inf negative => simpa [PyFloat.gtZero, PyFloat.leZero] using hpos
    | finite q => simpa [PyFloat.gtZero, PyFloat.leZero] using hpos

/-- A usable value that is not below or equal to zero can be added to a clock reading. -/
theorem addTo_of_usable {v : Json} (h : v.usable = true) (hpos : v.leZero = .ok false) (t : Time) :
    ∃ x, v.addTo t = .ok x := by
  cases v with
  | bool b => exact ⟨_, rfl⟩
  | int n =>
    have hn : 0 < n := by
      have hq : decide ((n : ℚ) ≤ 0) = false := Except.ok.inj hpos
      exact_mod_cast not_le.mp (of_decide_eq_false hq)
    have hlt : n < floatLimit := of_decide_eq_true h
    refine ⟨.finite (t + n), if_pos ?_⟩
    rwa [Int.natAbs_of_nonneg hn.le]
  | float x => exact ⟨x.addTo t, rfl⟩
  | _ => cases h

/-- A value that is not usable raises in the comparison, or is positive and raises in the
addition. -/
theorem raises_of_not_usable {v : Json} (h : v.usable = false) :
    (∃ err, v.gtZero = .error err) ∨
      v.gtZero = .ok true ∧ ∀ t, ∃ err, v.addTo t = .error err := by
  cases v with
  | bool b => cases h
  | int n =>
    have hle : floatLimit ≤ n := not_lt.mp (of_decide_eq_false h)
    have hn : 0 < n := floatLimit_pos.trans_le hle
    refine .inr ⟨?_, fun t => ⟨.overflow, if_neg ?_⟩⟩
    · have hq : (0 : ℚ) < n := by exact_mod_cast hn
      exact congrArg Except.ok (decide_eq_true hq)
    · rw [Int.natAbs_of_nonneg hn.le]
      exact not_lt.mpr hle
  | float x => cases h
  | _ => exact .inl ⟨_, rfl⟩

end Json

/-- The keys of `TASK_TYPES`. -/
def TaskType.key : TaskType → String
  | .proxyCheck => "proxy_check"
  | .sourceRefresh => "source_refresh"
  | .ipBlacklist => "ip_blacklist"
  | .blocklist => "blocklist"
  | .healthCheck => "health_check"
  | .history => "history"
  | .clearDead => "clear_dead"
  | .backup => "backup"
  | .dbMaintenance => "db_maintenance"

/-- All task types, in the order of the table. -/
def allTaskTypes : List TaskType :=
  [.proxyCheck, .sourceRefresh, .ipBlacklist, .blocklist, .healthCheck, .history, .clearDead,
    .backup, .dbMaintenance]

/-- The look-up of a value in `TASK_TYPES`. Containers cannot be looked up at all. -/
def Json.lookupTaskType (v : Json) : Except PyError TaskType :=
  match v with
  | .str s =>
    match allTaskTypes.find? (fun t => t.key = s) with
    | some t => .ok t
    | none => .error (.unknownTaskType v)
  | .arr _ => .error .unhashable
  | .obj _ => .error .unhashable
  | _ => .error (.unknownTaskType v)

/-- Every key is found under its own type. -/
theorem Json.lookupTaskType_key (t : TaskType) : (Json.str t.key).lookupTaskType = .ok t := by
  cases t <;> rfl

end HuntProxy
