import AnyCable.Source.Clock
import Mathlib.Data.List.Nodup
import Mathlib.Tactic.IntervalCases

/-!
# A stream's history record

Source: `broker/memory.go:16-153`. Every method runs under the record's own lock,
so each is one step here. An index out of range panics in Go; such an operation
returns `none`. Offsets are `uint64` and the counter of `add` wraps around.
-/

set_option autoImplicit false

namespace AnyCable.Source

structure Entry where
  timestamp : Int
  offset : Nat
  data : String
  deriving DecidableEq, Repr

structure Memstream where
  offset : Nat := 0
  deadline : Int := 0
  /-- The lowest available offset in the stream. -/
  low : Nat := 0
  data : List Entry := []
  ttl : Int64
  limit : Int
  deriving DecidableEq, Repr

namespace Memstream

/-- How long an append keeps the record alive: `time.Duration(ms.ttl*10) * time.Second`,
both multiplications in wrapping `int64` arithmetic. -/
def keepAlive (ttl : Int64) : Int := (ttl * 10 * 1000000000).toInt

/-- The times to live, in seconds, that an append keeps the record alive for. Longer ones than the
first range make the product of `keepAlive` wrap around, and the others are those for which it is
still long enough. -/
def lastingRanges : List (Int × Int) :=
  [(0, 922337203), (2049638231, 2767011611), (4099276461, 4611686018), (6148914692, 6456360425),
   (8198552922, 8301034833)]

def Lasting (ttl : Int64) : Prop := ∃ r ∈ lastingRanges, r.1 ≤ ttl.toInt ∧ ttl.toInt ≤ r.2

instance (ttl : Int64) : Decidable (Lasting ttl) :=
  inferInstanceAs (Decidable (∃ r ∈ lastingRanges, r.1 ≤ ttl.toInt ∧ ttl.toInt ≤ r.2))

/-- Drop the oldest entry once the limit is exceeded. With a limit below 1 nothing
is left and `ms.data[0]` panics. -/
def trim (limit : Int) (data : List Entry) (low : Nat) : Option (List Entry × Nat) :=
  if limit < data.length then
    match data.tail with
    | [] => none
    | first :: rest => some (first :: rest, first.offset)
  else some (data, low)

def appendEntry (ms : Memstream) (e : Entry) (now : Instant) : Option Memstream := do
  let (data, low) ← trim ms.limit (ms.data ++ [e]) ms.low
  let first ← data.head?
  return { ms with
    data := data
    low := if low = 0 then first.offset else low
    deadline := unix (now + keepAlive ms.ttl) }

/-- Returns the record and the offset given to the new entry. -/
def add (ms : Memstream) (data : String) (now : Instant) : Option (Memstream × Nat) := do
  let offset := (ms.offset + 1) % uint64Size
  let ms ← appendEntry { ms with offset := offset } ⟨unix now, offset, data⟩ now
  return (ms, offset)

/-- The zero `time.Time` asks for the current time and is `none` here. A taken
offset is refused and leaves the record as it was. -/
def insert (ms : Memstream) (data : String) (offset : Nat) (t : Option Instant)
    (now : Instant) : Option (Memstream × Except String Nat) :=
  let ts := unix (t.getD now)
  if ms.offset ≥ offset then
    some (ms, .error ("offset " ++ toString offset ++ " is already taken"))
  else do
    let ms ← appendEntry { ms with offset := offset } ⟨ts, offset, data⟩ now
    return (ms, .ok offset)

/-- `ms.data[0].offset`, and 0 for an empty slice. -/
def lowest : List Entry → Nat
  | [] => 0
  | first :: _ => first.offset

/-- Cut the leading entries that are older than the time to live. -/
def expire (ms : Memstream) (now : Instant) : Memstream :=
  let deadline := int64 (unix now - ms.ttl.toInt)
  let data := ms.data.dropWhile fun e => e.timestamp < deadline
  { ms with data := data, low := lowest data }

/-- The entries after position `offset - low` of the slice. The subtraction and the
increment cannot wrap: the first check has `low ≤ offset` and the second `low ≠ 0`. -/
def filterByOffset (ms : Memstream) (offset : Nat) : Option (Except String (List Entry)) :=
  if ms.low > offset then
    some (.error ("requested offset couldn't be found: " ++ toString offset ++
      ", lowest: " ++ toString ms.low))
  else if ms.low = 0 then
    some (.error "stream is empty")
  else
    let start := offset - ms.low + 1
    if start > ms.data.length then do
      let latest ← ms.data.getLast?
      return .error ("requested offset couldn't be found: " ++ toString offset ++
        ", latest: " ++ toString latest.offset)
    else
      some (.ok (ms.data.drop start))

def filterByTime (ms : Memstream) (since : Int) : List Entry :=
  ms.data.filter fun e => e.timestamp ≥ since

section Lasting

variable {ttl : Int64}

theorem keepAlive_wraps (ttl : Int64) :
    ∃ wraps : Int, keepAlive ttl = ttl.toInt * 10 ^ 10 - wraps * 2 ^ 64 ∧
      -2 ^ 63 ≤ keepAlive ttl ∧ keepAlive ttl < 2 ^ 63 := by
  have product : keepAlive ttl = (ttl.toInt * 10 ^ 10).bmod (2 ^ 64) := by
    have ten : (10 : Int64).toInt = 10 := rfl
    have billion : (1000000000 : Int64).toInt = 1000000000 := rfl
    rw [keepAlive, Int64.toInt_mul, Int64.toInt_mul, ten, billion, Int.bmod_mul_bmod, Int.mul_assoc]
    rfl
  refine ⟨(ttl.toInt * 10 ^ 10 + 2 ^ 63) / 2 ^ 64, ?_, Int64.le_toInt _, Int64.toInt_lt _⟩
  rw [product, Int.bmod_def]
  omega

theorem lasting_cases : Lasting ttl ↔ (0 ≤ ttl.toInt ∧ ttl.toInt ≤ 922337203) ∨
    (2049638231 ≤ ttl.toInt ∧ ttl.toInt ≤ 2767011611) ∨
    (4099276461 ≤ ttl.toInt ∧ ttl.toInt ≤ 4611686018) ∨
    (6148914692 ≤ ttl.toInt ∧ ttl.toInt ≤ 6456360425) ∨
    (8198552922 ≤ ttl.toInt ∧ ttl.toInt ≤ 8301034833) := by
  simp [Lasting, lastingRanges]

/-- The ranges are exactly where the record is kept no shorter than its entries. -/
theorem lasting_iff (nonneg : 0 ≤ ttl.toInt) :
    Lasting ttl ↔ ttl.toInt * second ≤ keepAlive ttl := by
  obtain ⟨wraps, product, low, high⟩ := keepAlive_wraps ttl
  rw [lasting_cases, second, product]
  rw [product] at low high
  clear product
  generalize ttl.toInt = t at *
  constructor
  · intro ranges
    have few : 0 ≤ wraps ∧ wraps ≤ 4 := by omega
    obtain ⟨none, four⟩ := few
    interval_cases wraps <;> omega
  · intro lasts
    have few : 0 ≤ wraps ∧ wraps ≤ 5 := by omega
    obtain ⟨none, five⟩ := few
    interval_cases wraps <;> omega

theorem unix_add_seconds (t : Instant) (n : Int) : unix (t + n * second) = unix t + n :=
  Int.add_mul_ediv_right t n (by decide)

theorem le_deadline (lasting : Lasting ttl) (now : Instant) :
    unix now + ttl.toInt ≤ unix (now + keepAlive ttl) := by
  have nonneg : 0 ≤ ttl.toInt := by
    rw [lasting_cases] at lasting
    omega
  rw [← unix_add_seconds]
  exact unix_mono (Int.add_le_add_left ((lasting_iff nonneg).mp lasting) now)

end Lasting

end Memstream

end AnyCable.Source
