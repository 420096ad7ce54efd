import HuntProxy.Lib.Stream
import Mathlib.Algebra.BigOperators.Group.List.Basic
import Mathlib.Algebra.Ring.Nat

/-!
# A stream reader with waits that can run out

A reader has a buffer. A read for which the buffer does not suffice waits: something arrives,
or the wait runs out. Behind all waits the stream ends, or stays silent. A read up to a mark
gives up when it has seen more than a limit without the mark; a read of a line then drops what
it has seen.

## Main definitions

- `Incoming` — a buffer, and what the further waits bring
- `Incoming.readUntil`, `Incoming.readLine`, `Incoming.readExactly` — the reads
- `Incoming.Holds` — a stream that ends, and arrives without a wait that runs out

## Main results

- `Incoming.readUntil_size`, `Incoming.readExactly_size` — a read that succeeds takes letters
- `Incoming.Holds.readLine`, `Incoming.Holds.readExactly` — what is read does not depend on the
  pieces in which the stream arrives
-/

namespace HuntProxy

variable {α : Type*}

/-- What a wait for letters comes to. -/
inductive Wait (α : Type*)
  | letters (l : List α)
  | timeout
  deriving DecidableEq

/-- What has arrived, what the waits to come bring, and whether the stream ends behind them. -/
structure Incoming (α : Type*) where
  buf : List α
  waits : List (Wait α)
  ends : Bool
  deriving DecidableEq

/-- How a read fails: the wait ran out, the stream ended after some letters, or more letters
than the limit have been seen. -/
inductive ReadError (α : Type*)
  | timeout
  | incomplete (part : List α)
  | overrun (consumed : ℕ)
  deriving DecidableEq

/-- The letters that a wait brings. -/
def Wait.text : Wait α → List α
  | .letters l => l
  | .timeout => []

/-- The number of the letters of a wait. -/
def Wait.size : Wait α → ℕ
  | .letters l => l.length
  | .timeout => 0

namespace Incoming

/-- The letters that have not been read. -/
def size (r : Incoming α) : ℕ := r.buf.length + (r.waits.map Wait.size).sum

/-- A wait that runs out at the end of all waits, or the end of the stream, which empties the
buffer. -/
def last (buf : List α) (ends : Bool) : ReadError α × Incoming α :=
  if ends then (.incomplete buf, ⟨[], [], true⟩) else (.timeout, ⟨buf, [], false⟩)

section

variable [DecidableEq α] (limit : ℕ) (mark : List α)

/-- `readuntil`, with a buffer and what the waits bring. -/
def readUntilFrom (ends : Bool) : List α → List (Wait α) → Except (ReadError α) (List α) × Incoming α
  | buf, waits =>
    match readThrough mark buf with
    | some (piece, rest) =>
      if limit < piece.length - mark.length then
        (.error (.overrun (piece.length - mark.length)), ⟨buf, waits, ends⟩)
      else (.ok piece, ⟨rest, waits, ends⟩)
    | none =>
      if limit < buf.length + 1 - mark.length then
        (.error (.overrun (buf.length + 1 - mark.length)), ⟨buf, waits, ends⟩)
      else
        match waits with
        | [] => (.error (last buf ends).1, (last buf ends).2)
        | .timeout :: rest => (.error .timeout, ⟨buf, rest, ends⟩)
        | .letters l :: rest => readUntilFrom ends (buf ++ l) rest

/-- `readuntil`. -/
def readUntil (r : Incoming α) : Except (ReadError α) (List α) × Incoming α :=
  readUntilFrom limit mark r.ends r.buf r.waits

/-- `readline`: the stream may end without a line end, and a line that is too long is dropped. -/
def readLine (r : Incoming α) : Except (ReadError α) (List α) × Incoming α :=
  match readUntil limit mark r with
  | (.error (.incomplete part), r) => (.ok part, r)
  | (.error (.overrun consumed), r) =>
    (.error (.overrun consumed),
      if mark.isPrefixOf (r.buf.drop consumed) then
        { r with buf := r.buf.drop (consumed + mark.length) }
      else { r with buf := [] })
  | reply => reply

end

/-- `readexactly`, with a buffer and what the waits bring. -/
def readExactlyFrom (n : ℕ) (ends : Bool) :
    List α → List (Wait α) → Except (ReadError α) (List α) × Incoming α
  | buf, waits =>
    if n ≤ buf.length then (.ok (buf.take n), ⟨buf.drop n, waits, ends⟩)
    else
      match waits with
      | [] => (.error (last buf ends).1, (last buf ends).2)
      | .timeout :: rest => (.error .timeout, ⟨buf, rest, ends⟩)
      | .letters l :: rest => readExactlyFrom n ends (buf ++ l) rest

/-- `readexactly`. -/
def readExactly (n : ℕ) (r : Incoming α) : Except (ReadError α) (List α) × Incoming α :=
  readExactlyFrom n r.ends r.buf r.waits

/-! ### What a read takes -/

section

variable {limit n : ℕ} {mark buf line : List α} {waits : List (Wait α)} {ends : Bool}
  {r r' : Incoming α}

theorem size_letters (buf l : List α) (waits : List (Wait α)) (ends : Bool) :
    size ⟨buf ++ l, waits, ends⟩ = size ⟨buf, .letters l :: waits, ends⟩ := by
  simp only [size, List.length_append, List.map_cons, List.sum_cons, Wait.size]
  omega

theorem readExactlyFrom_size
    (h : readExactlyFrom n ends buf waits = (.ok line, r')) :
    r'.size + line.length = size ⟨buf, waits, ends⟩ := by
  fun_induction readExactlyFrom n ends buf waits with
  | case1 buf waits hle =>
    cases h
    simp only [size, List.length_take, List.length_drop]
    omega
  | case2 | case3 => cases h
  | case4 buf hle l rest ih =>
    rw [ih h]
    exact size_letters buf l rest ends

/-- What is read exactly is taken away. -/
theorem readExactly_size (h : readExactly n r = (.ok line, r')) :
    r'.size + line.length = r.size := readExactlyFrom_size h

variable [DecidableEq α]

theorem readUntilFrom_size
    (h : readUntilFrom limit mark ends buf waits = (.ok line, r')) :
    r'.size + line.length = size ⟨buf, waits, ends⟩ := by
  fun_induction readUntilFrom limit mark ends buf waits with
  | case1 | case3 | case4 | case5 => cases h
  | case2 buf waits piece rest hread hle =>
    cases h
    rw [(readThrough_eq_some hread).1]
    simp only [size, List.length_append]
    omega
  | case6 buf hread hle l rest ih =>
    rw [ih h]
    exact size_letters buf l rest ends

/-- What is read up to a mark is taken away. -/
theorem readUntil_size (h : readUntil limit mark r = (.ok line, r')) :
    r'.size + line.length = r.size := readUntilFrom_size h

theorem readUntilFrom_incomplete {part : List α}
    (h : readUntilFrom limit mark ends buf waits = (.error (.incomplete part), r')) :
    r'.size + part.length = size ⟨buf, waits, ends⟩ := by
  fun_induction readUntilFrom limit mark ends buf waits with
  | case1 | case2 | case3 | case5 => cases h
  | case4 buf hread hle =>
    cases ends with
    | false => cases h
    | true =>
      cases h
      simp [size, last]
  | case6 buf hread hle l rest ih =>
    rw [ih h]
    exact size_letters buf l rest ends

/-- A line that has been read is taken away. -/
theorem readLine_size (h : readLine limit mark r = (.ok line, r')) :
    r'.size + line.length = r.size := by
  unfold readLine at h
  split at h
  · next part s hread =>
    cases h
    exact readUntilFrom_incomplete hread
  · cases h
  · next hread => exact readUntil_size h

end

/-! ### Streams that arrive without a pause -/

/-- The stream has these letters to its end, and no wait for them runs out. -/
structure Holds (r : Incoming α) (l : List α) : Prop where
  steady : ∀ w ∈ r.waits, w ≠ .timeout
  content : r.buf ++ r.waits.flatMap Wait.text = l
  ends : r.ends = true

section

variable {r : Incoming α} {piece l rest : List α} {a : α}

/-- A stream that has arrived as a whole. -/
theorem holds_buf (l : List α) : Holds ⟨l, [], true⟩ l := ⟨by simp, by simp, rfl⟩

/-- The next piece has arrived as well. -/
theorem Holds.letters {buf : List α} {waits : List (Wait α)} {ends : Bool}
    (h : Holds ⟨buf, .letters piece :: waits, ends⟩ l) : Holds ⟨buf ++ piece, waits, ends⟩ l :=
  ⟨fun w hw => h.steady w (List.mem_cons_of_mem _ hw), by
    have hcontent := h.content
    rw [List.flatMap_cons] at hcontent
    rw [← hcontent, List.append_assoc]
    rfl, h.ends⟩

theorem Holds.readExactlyFrom {buf : List α} {waits : List (Wait α)} {ends : Bool}
    (h : Holds ⟨buf, waits, ends⟩ (piece ++ rest)) :
    ∃ r', readExactlyFrom piece.length ends buf waits = (.ok piece, r') ∧ r'.Holds rest := by
  induction waits generalizing buf with
  | nil =>
    have hbuf : buf = piece ++ rest := by simpa using h.content
    subst hbuf
    refine ⟨⟨rest, [], ends⟩, ?_, by simp, by simp, h.ends⟩
    rw [Incoming.readExactlyFrom, if_pos (by simp), List.take_left', List.drop_left'] <;> rfl
  | cons w waits ih =>
    unfold Incoming.readExactlyFrom
    split
    · next hle =>
      have hprefix : piece <+: buf := by
        have hcontent := h.content
        exact List.prefix_of_prefix_length_le (hcontent ▸ List.prefix_append piece rest)
          (List.prefix_append buf _) hle
      obtain ⟨tail, rfl⟩ := hprefix
      refine ⟨⟨tail, w :: waits, ends⟩, ?_, h.steady, ?_, h.ends⟩
      · rw [List.take_left' rfl, List.drop_left' rfl]
      · have hcontent := h.content
        rw [List.append_assoc] at hcontent
        exact List.append_cancel_left hcontent
    · cases w with
      | timeout => exact absurd rfl (h.steady _ List.mem_cons_self)
      | letters l => exact ih h.letters

/-- **A number of letters** is read. -/
theorem Holds.readExactly (h : r.Holds (piece ++ rest)) :
    ∃ r', r.readExactly piece.length = (.ok piece, r') ∧ r'.Holds rest :=
  Holds.readExactlyFrom h

variable [DecidableEq α]

theorem Holds.readUntilFrom {buf : List α} {waits : List (Wait α)} {ends : Bool}
    (h : Holds ⟨buf, waits, ends⟩ (piece ++ rest)) {limit : ℕ} (hpiece : Ends a piece)
    (hlimit : piece.length ≤ limit + 1) :
    ∃ r', readUntilFrom limit [a] ends buf waits = (.ok piece, r') ∧ r'.Holds rest := by
  induction waits generalizing buf with
  | nil =>
    have hbuf : buf = piece ++ rest := by simpa using h.content
    subst hbuf
    refine ⟨⟨rest, [], ends⟩, ?_, by simp, by simp, h.ends⟩
    rw [Incoming.readUntilFrom, readThrough_append hpiece]
    dsimp only
    rw [if_neg (by simp only [List.length_singleton]; omega)]
  | cons w waits ih =>
    unfold Incoming.readUntilFrom
    cases hread : readThrough [a] buf with
    | some q =>
      obtain ⟨p, rest'⟩ := q
      obtain ⟨rfl, hrest⟩ := readThrough_first hpiece h.content hread
      dsimp only
      rw [if_neg (by simp only [List.length_singleton]; omega)]
      exact ⟨_, rfl, h.steady, hrest, h.ends⟩
    | none =>
      have hlt : buf.length < piece.length := by
        have hall : readThrough [a] (buf ++ (w :: waits).flatMap Wait.text) = some (piece, rest) := by
          rw [h.content, readThrough_append hpiece]
        exact length_lt_of_readThrough hread hall
      dsimp only
      rw [if_neg (by simp only [List.length_singleton]; omega)]
      cases w with
      | timeout => exact absurd rfl (h.steady _ List.mem_cons_self)
      | letters l => exact ih h.letters

/-- **A line** is read. -/
theorem Holds.readLine (h : r.Holds (piece ++ rest)) (limit : ℕ) (hpiece : Ends a piece)
    (hlimit : piece.length ≤ limit + 1) :
    ∃ r', r.readLine limit [a] = (.ok piece, r') ∧ r'.Holds rest := by
  obtain ⟨r', hread, hholds⟩ := Holds.readUntilFrom h hpiece hlimit
  refine ⟨r', ?_, hholds⟩
  rw [Incoming.readLine, readUntil, hread]

/-- At the end of the stream an empty line is read. -/
theorem Holds.readLine_nil (h : r.Holds []) (limit : ℕ) (a : α) : ∃ r', r.readLine limit [a] = (.ok [], r') := by
  have hfrom : ∀ (waits : List (Wait α)), Holds ⟨[], waits, r.ends⟩ [] →
      ∃ r', Incoming.readUntilFrom limit [a] r.ends [] waits = (.error (.incomplete []), r') := by
    intro waits
    induction waits with
    | nil =>
      intro h'
      refine ⟨⟨[], [], true⟩, ?_⟩
      rw [Incoming.readUntilFrom, readThrough_nil (by simp)]
      dsimp only
      rw [if_neg (by simp), h'.ends]
      rfl
    | cons w waits ih =>
      intro h'
      cases w with
      | timeout => exact absurd rfl (h'.steady _ List.mem_cons_self)
      | letters l =>
        have hl : l = [] := (List.append_eq_nil_iff.mp (List.append_eq_nil_iff.mp h'.content).2).1
        subst hl
        rw [Incoming.readUntilFrom, readThrough_nil (by simp)]
        dsimp only
        rw [if_neg (by simp)]
        exact ih h'.letters
  have hbuf : r.buf = [] := (List.append_eq_nil_iff.mp h.content).1
  obtain ⟨r', hread⟩ := hfrom r.waits ⟨h.steady, hbuf ▸ h.content, h.ends⟩
  refine ⟨r', ?_⟩
  rw [Incoming.readLine, readUntil, hbuf, hread]

end

end Incoming

end HuntProxy
