import HuntProxy.Lib.Split
import HuntProxy.Lib.Stream
import HuntProxy.Proxy.Http
import Mathlib.Algebra.Order.Ring.Rat

/-!
# The speed reader

`_read_speed_stream` downloads a file of a known size and divides the bytes of the body by
the time. It looks for the end of the head in each chunk by itself. A head that arrives in
several chunks is therefore counted as a part of the body, and its status is not seen.

## Main definitions

- `SpeedRead`, `readSpeedStream` — the reads of a download, and the loop over them
- `firstBlank` — the first blank line inside a chunk
- `Metered` — the status and the total are those of the response

## Main results

- `speed_metered_iff` — when they are
- `bytewise_unmetered` — no response survives every segmentation
-/

namespace HuntProxy

/-- A chunk that a read returns; an empty one would be the end of the stream. -/
abbrev Chunk := { c : Bytes // c ≠ [] }

/-- A turn of the loop: the time at its beginning, the chunk unless the read times out, and
the time behind it. -/
structure SpeedRead where
  before : ℚ
  chunk : Option Chunk
  after : ℚ

/-- What ends the loop: the end of the stream, the expected size, the hard cap, a read that
times out, or a download that is hopelessly slow. -/
inductive SpeedEnd
  | eof
  | full
  | hardCap
  | timedOut
  | slow
  deriving DecidableEq

/-- The loop has not been ended by the clock. -/
def SpeedEnd.Untimed (e : SpeedEnd) : Prop := e = .eof ∨ e = .full

/-- The variables of the loop. -/
structure SpeedMeter where
  total : ℕ
  httpOk : Bool
  headersDone : Bool
  deriving DecidableEq

/-- Where the first blank line of the bytes begins. -/
def blankAt (l : Bytes) : Option ℕ := (readThrough headEnd l).map (fun p => p.1.length - 4)

/-- The status in the first line of a head, and 0 if there is none. -/
def statusCode (head : Bytes) : ℤ :=
  let line := firstPiece 13 10 head
  if 32 ∈ line then (pyInt ((line.dropWhile (· ≠ 32)).tail.takeWhile (· ≠ 32))).getD 0 else 0

/-- The status is one of success or of redirection. -/
def statusOk (head : Bytes) : Bool := decide (200 ≤ statusCode head ∧ statusCode head < 400)

namespace SpeedMeter

/-- The meter before the first read. -/
def start : SpeedMeter := ⟨0, true, false⟩

/-- A chunk has come. -/
def add (m : SpeedMeter) (c : Bytes) : SpeedMeter :=
  if m.headersDone then { m with total := m.total + c.length }
  else
    match blankAt c with
    | none => { m with total := m.total + c.length }
    | some e =>
      { total := m.total + (c.drop (e + 4)).length
        httpOk := m.httpOk && statusOk (c.take e)
        headersDone := true }

end SpeedMeter

/-- The download is below the floor of 5 KB/s after the grace of 3 seconds. -/
def Hopeless (m : SpeedMeter) (elapsed : ℚ) : Prop :=
  3 < elapsed ∧ 0 < m.total ∧ (m.total : ℚ) / elapsed / 1024 < 5

instance (m : SpeedMeter) (elapsed : ℚ) : Decidable (Hopeless m elapsed) :=
  inferInstanceAs (Decidable (_ ∧ _))

/-- The loop of `_read_speed_stream`; the end of the list is the end of the stream. -/
def speedLoop (expectedSize : ℕ) : List SpeedRead → SpeedMeter → SpeedMeter × SpeedEnd
  | [], m => (m, .eof)
  | r :: reads, m =>
    if 20 ≤ r.before then (m, .hardCap)
    else
      match r.chunk with
      | none => (m, .timedOut)
      | some c =>
        let m' := m.add c.val
        if expectedSize ≤ m'.total then (m', .full)
        else if Hopeless m' r.after then (m', .slow)
        else speedLoop expectedSize reads m'

/-- `_read_speed_stream`, with the time that has elapsed at its end. -/
def readSpeedStream (expectedSize : ℕ) (reads : List SpeedRead) (elapsed : ℚ) : ℚ :=
  let m := (speedLoop expectedSize reads .start).1
  if m.httpOk ∧ 0 < m.total ∧ 0 < elapsed then (m.total : ℚ) / elapsed / 1024 else 0

/-! ### The chunks -/

/-- The chunks of the reads. -/
def chunksOf (reads : List SpeedRead) : List Bytes := reads.filterMap (fun r => r.chunk.map Subtype.val)

/-- The first blank line that is inside of a chunk: where it begins there, and whether the
chunk begins with a good status. -/
def firstBlank : List Bytes → Option (ℕ × Bool)
  | [] => none
  | c :: cs =>
    match blankAt c with
    | none => firstBlank cs
    | some e => some (e, statusOk (c.take e))

/-- A blank line ends inside the bytes. -/
theorem blankAt_le {l : Bytes} {e : ℕ} (h : blankAt l = some e) : e + 4 ≤ l.length := by
  obtain ⟨⟨piece, rest⟩, hread, heq⟩ := Option.map_eq_some_iff.mp h
  obtain ⟨hsplit, before, hpiece⟩ := readThrough_eq_some hread
  have hfour : headEnd.length = 4 := rfl
  rw [hsplit, List.length_append]
  simp only [hpiece, List.length_append, hfour] at heq ⊢
  omega

/-- A chunk never makes the total smaller. -/
theorem le_add_total (m : SpeedMeter) (c : Bytes) : m.total ≤ (m.add c).total := by
  unfold SpeedMeter.add
  split
  · exact Nat.le_add_right _ _
  · split
    · exact Nat.le_add_right _ _
    · exact Nat.le_add_right _ _

theorem le_foldl_total (cs : List Bytes) (m : SpeedMeter) : m.total ≤ (cs.foldl SpeedMeter.add m).total := by
  induction cs generalizing m with
  | nil => exact Nat.le_refl _
  | cons c cs ih => exact (le_add_total m c).trans (ih (m.add c))

/-- Behind the head every byte counts. -/
theorem foldl_add_of_done (cs : List Bytes) {m : SpeedMeter} (h : m.headersDone = true) :
    cs.foldl SpeedMeter.add m = { m with total := m.total + cs.flatten.length } := by
  induction cs generalizing m with
  | nil => rfl
  | cons c cs ih =>
    have hadd : m.add c = { m with total := m.total + c.length } := if_pos h
    rw [List.foldl_cons, hadd, ih (m := { m with total := m.total + c.length }) h, List.flatten_cons,
      List.length_append, ← Nat.add_assoc]

/-- **What the chunks come to.** Only the first blank line inside of a chunk is seen; what is
in front of its chunk counts in full. -/
theorem foldl_add (cs : List Bytes) {m : SpeedMeter} (h : m.headersDone = false) :
    (firstBlank cs = none → (cs.foldl SpeedMeter.add m).total = m.total + cs.flatten.length) ∧
    ∀ e ok, firstBlank cs = some (e, ok) →
      (cs.foldl SpeedMeter.add m).total + (e + 4) = m.total + cs.flatten.length ∧
        (cs.foldl SpeedMeter.add m).httpOk = (m.httpOk && ok) := by
  induction cs generalizing m with
  | nil => exact ⟨fun _ => rfl, nofun⟩
  | cons c cs ih =>
    rw [List.foldl_cons, List.flatten_cons, List.length_append, firstBlank]
    cases hblank : blankAt c with
    | none =>
      have hadd : m.add c = { m with total := m.total + c.length } := by
        rw [SpeedMeter.add, if_neg (Bool.eq_false_iff.mp h), hblank]
      rw [hadd, ← Nat.add_assoc]
      exact ih h
    | some e =>
      have hadd : m.add c = ⟨m.total + (c.drop (e + 4)).length, m.httpOk && statusOk (c.take e), true⟩ := by
        rw [SpeedMeter.add, if_neg (Bool.eq_false_iff.mp h), hblank]
      rw [hadd, foldl_add_of_done cs rfl]
      refine ⟨nofun, fun e' ok heq => ?_⟩
      cases heq
      have hle := blankAt_le hblank
      refine ⟨?_, rfl⟩
      show m.total + (c.drop (e + 4)).length + cs.flatten.length + (e + 4) = _
      rw [List.length_drop]
      omega

/-- A loop that the clock does not end has seen every chunk, or more bytes than expected. -/
theorem speedLoop_cases (expectedSize : ℕ) (reads : List SpeedRead) (m : SpeedMeter) :
    ((speedLoop expectedSize reads m).2 = .eof →
      (speedLoop expectedSize reads m).1 = (chunksOf reads).foldl SpeedMeter.add m) ∧
    ((speedLoop expectedSize reads m).2 = .full →
      expectedSize ≤ (speedLoop expectedSize reads m).1.total ∧
        expectedSize ≤ ((chunksOf reads).foldl SpeedMeter.add m).total) := by
  induction reads generalizing m with
  | nil => exact ⟨fun _ => rfl, nofun⟩
  | cons r reads ih =>
    rw [speedLoop]
    split
    · exact ⟨nofun, nofun⟩
    · cases hchunk : r.chunk with
      | none => exact ⟨nofun, nofun⟩
      | some c =>
        have hchunks : chunksOf (r :: reads) = c.val :: chunksOf reads := by
          rw [chunksOf, List.filterMap_cons, hchunk]
          rfl
        rw [hchunks, List.foldl_cons]
        dsimp only
        split
        · next hfull =>
          exact ⟨nofun, fun _ => ⟨hfull, hfull.trans (le_foldl_total _ _)⟩⟩
        · split
          · exact ⟨nofun, nofun⟩
          · exact ih (m.add c.val)

/-! ### The response -/

/-- The status and the total are those of the response whose head ends at `h`, and the speed
is 0 when the response is none of success or has no body. -/
structure Metered (expectedSize : ℕ) (reads : List SpeedRead) (elapsed : ℚ) (h : ℕ) : Prop where
  status : (speedLoop expectedSize reads .start).1.httpOk = statusOk ((chunksOf reads).flatten.take h)
  total : (speedLoop expectedSize reads .start).1.total = ((chunksOf reads).flatten.drop (h + 4)).length
  nothing : statusOk ((chunksOf reads).flatten.take h) = false ∨
    (chunksOf reads).flatten.drop (h + 4) = [] → readSpeedStream expectedSize reads elapsed = 0

/-- The first chunk with a blank line has it behind as many bytes as the head of the response
has, and they have the same verdict. -/
def HeadWhole (cs : List Bytes) (h : ℕ) : Prop :=
  firstBlank cs = some (h, statusOk (cs.flatten.take h))

/-- A head that arrives in the first chunk is seen as a whole. -/
theorem headWhole_of_first {c : Bytes} {cs : List Bytes} {h : ℕ} (hblank : blankAt c = some h) :
    HeadWhole (c :: cs) h := by
  have hle := blankAt_le hblank
  rw [HeadWhole, firstBlank, hblank, List.flatten_cons, List.take_append_of_le_length (by omega)]

/-- **The response is metered just when its head is seen as a whole.** -/
theorem speed_metered_iff {expectedSize : ℕ} {reads : List SpeedRead} {elapsed : ℚ} {h : ℕ}
    (htime : (speedLoop expectedSize reads .start).2.Untimed)
    (hhead : blankAt (chunksOf reads).flatten = some h)
    (hshort : ((chunksOf reads).flatten.drop (h + 4)).length < expectedSize) :
    Metered expectedSize reads elapsed h ↔ HeadWhole (chunksOf reads) h := by
  obtain ⟨heof, hfull⟩ := speedLoop_cases expectedSize reads .start
  obtain ⟨hnone, hsome⟩ := foldl_add (chunksOf reads) (m := .start) rfl
  have hle := blankAt_le hhead
  have hbody := List.length_drop (i := h + 4) (l := (chunksOf reads).flatten)
  constructor
  · rintro ⟨hstatus, htotal, -⟩
    rcases htime with hend | hend
    · rw [heof hend] at hstatus htotal
      cases hfirst : firstBlank (chunksOf reads) with
      | none =>
        have hall := hnone hfirst
        rw [htotal, hbody] at hall
        change _ = 0 + _ at hall
        omega
      | some p =>
        obtain ⟨e, ok⟩ := p
        obtain ⟨hall, hok⟩ := hsome e ok hfirst
        rw [htotal, hbody] at hall
        change _ = 0 + _ at hall
        have he : e = h := by omega
        rw [hstatus] at hok
        rw [HeadWhole, hfirst, he, hok]
        rfl
    · -- the loop has been left for the size, which the body does not reach
      have hmany := (hfull hend).1
      rw [htotal] at hmany
      omega
  · intro hwhole
    obtain ⟨hall, hok⟩ := hsome _ _ hwhole
    change _ = 0 + _ at hall
    have heq : speedLoop expectedSize reads .start =
        ((chunksOf reads).foldl SpeedMeter.add .start, .eof) := by
      rcases htime with hend | hend
      · exact Prod.ext (heof hend) hend
      · have hmany := (hfull hend).2
        omega
    have htotal : (speedLoop expectedSize reads .start).1.total =
        ((chunksOf reads).flatten.drop (h + 4)).length := by
      rw [heq, hbody]
      dsimp only
      omega
    have hstatus : (speedLoop expectedSize reads .start).1.httpOk =
        statusOk ((chunksOf reads).flatten.take h) := by
      rw [heq]
      exact hok
    refine ⟨hstatus, htotal, fun hno => ?_⟩
    unfold readSpeedStream
    dsimp only
    rw [htotal, hstatus]
    refine if_neg ?_
    rintro ⟨hgood, hpos, -⟩
    rcases hno with hbad | hempty
    · rw [hbad] at hgood
      cases hgood
    · rw [hempty] at hpos
      exact Nat.lt_irrefl 0 hpos

/-- A single byte holds no blank line. -/
theorem firstBlank_bytewise (l : Bytes) : firstBlank (l.map (fun b => [b])) = none := by
  induction l with
  | nil => rfl
  | cons b l ih =>
    have hblank : blankAt [b] = none := by
      cases hblank : blankAt [b] with
      | none => rfl
      | some e =>
        have hle := blankAt_le hblank
        rw [List.length_singleton] at hle
        omega
    rw [List.map_cons, firstBlank, hblank]
    exact ih

/-- **No response is metered when it arrives byte by byte.** -/
theorem bytewise_unmetered {expectedSize : ℕ} {reads : List SpeedRead} {elapsed : ℚ} {h : ℕ}
    {response : Bytes} (hbytes : chunksOf reads = response.map (fun b => [b]))
    (htime : (speedLoop expectedSize reads .start).2.Untimed)
    (hhead : blankAt (chunksOf reads).flatten = some h)
    (hshort : ((chunksOf reads).flatten.drop (h + 4)).length < expectedSize) :
    ¬ Metered expectedSize reads elapsed h := by
  rw [speed_metered_iff htime hhead hshort, HeadWhole, hbytes, firstBlank_bytewise]
  nofun

/-- Quick reads of an error page of two bytes, cut at a place in its blank line or not at all. -/
def errorPage (cut : Bool) : List SpeedRead :=
  if cut then
    [⟨0, some ⟨ascii "HTTP/1.1 404 N\r\n", by decide⟩, 0⟩, ⟨0, some ⟨ascii "\r\nab", by decide⟩, 0⟩]
  else [⟨0, some ⟨ascii "HTTP/1.1 404 N\r\n\r\nab", by decide⟩, 0⟩]

theorem speed_metered_uncut :
    Metered 100 (errorPage false) 1 14 ↔ HeadWhole (chunksOf (errorPage false)) 14 :=
  speed_metered_iff (.inl (by decide)) (by decide) (by decide)

/-- **An error page counts as throughput**, head and all, when its blank line is cut. -/
theorem error_page_measured :
    (chunksOf (errorPage true)).flatten = (chunksOf (errorPage false)).flatten ∧
      (speedLoop 100 (errorPage true) .start).2 = .eof ∧
      (speedLoop 100 (errorPage true) .start).1 = ⟨20, true, false⟩ ∧
      (speedLoop 100 (errorPage false) .start).1 = ⟨2, false, true⟩ ∧
      0 < readSpeedStream 100 (errorPage true) 1 ∧ readSpeedStream 100 (errorPage false) 1 = 0 := by
  decide +kernel

end HuntProxy
