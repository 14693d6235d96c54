import AnyCable.Source.Common
import AnyCable.Source.StreamLog
import Mathlib.Logic.Function.Basic

/-!
# Streams history of the memory broker

Source: `broker/memory.go:294-407,593-645` and `broker/config.go`. A `*memstream`
is a pointer: a call that has looked a record up keeps using it after the
background expiry has dropped it from the map. A record is therefore named by its
stream and by how many records that stream had before it; `streams` holds the
record the map points to, `records` the contents of all of them.

`add` and `Store` take two locks one after the other. `lookup` is the section under
`streamsMu`, `appendTo` and `insertTo` are the sections under the record's lock.
-/

set_option autoImplicit false

namespace AnyCable.Source

structure Config where
  historyTTL : Int64 := 5 * 60
  historyLimit : Int := 100
  sessionsTTL : Int64 := 5 * 60
  presenceTTL : Int64 := 15
  deriving DecidableEq, Repr

/-- The part of `Memory` that `streamsMu` and `epochMu` protect. -/
structure History where
  config : Config
  epoch : String
  streams : String → Option Nat
  records : String → Nat → Memstream
  created : String → Nat

namespace History

def newRecord (config : Config) : Memstream :=
  { ttl := config.historyTTL, limit := config.historyLimit }

/-- The streams part of `NewMemoryBroker`. -/
def new (config : Config) (epoch : String) : History :=
  { config, epoch, streams := fun _ => none, records := fun _ _ => newRecord config,
    created := fun _ => 0 }

def setRecord (b : History) (name : String) (r : Nat) (ms : Memstream) : History :=
  { b with records := Function.update b.records name (Function.update (b.records name) r ms) }

/-- `b.get(name)`. -/
def get (b : History) (name : String) : Option Nat := b.streams name

/-- The first section of `add` and `Store`: look the record up, create it if missing. -/
def lookup (b : History) (name : String) : History × Nat :=
  match b.streams name with
  | some r => (b, r)
  | none =>
    let r := b.created name
    ({ b.setRecord name r (newRecord b.config) with
        streams := Function.update b.streams name (some r)
        created := Function.update b.created name (r + 1) }, r)

/-- The second section of `add`. -/
def appendTo (b : History) (name : String) (r : Nat) (data : String) (now : Instant) :
    Option (History × Nat) := do
  let (ms, offset) ← (b.records name r).add data now
  return (b.setRecord name r ms, offset)

/-- The second section of `Store`. -/
def insertTo (b : History) (name : String) (r : Nat) (data : String) (offset : Nat)
    (t : Option Instant) (now : Instant) : Option (History × Except String Nat) := do
  let (ms, res) ← (b.records name r).insert data offset t now
  return (b.setRecord name r ms, res)

def add (b : History) (name data : String) (now : Instant) : Option (History × Nat) :=
  let (b, r) := b.lookup name
  b.appendTo name r data now

def store (b : History) (name data : String) (offset : Nat) (t : Option Instant)
    (now : Instant) : Option (History × Except String Nat) :=
  let (b, r) := b.lookup name
  b.insertTo name r data offset t now

/-- `msg.Epoch = b.GetEpoch(); msg.Offset = offset`. -/
def stamp (b : History) (msg : StreamMessage) (offset : Nat) : StreamMessage :=
  { msg with epoch := b.epoch, offset := offset }

/-- Returns the message that is handed to the Broadcaster. -/
def handleBroadcast (b : History) (msg : StreamMessage) (now : Instant) :
    Option (History × StreamMessage) :=
  if msg.isTransient then some (b, msg)
  else do
    let (b, offset) ← b.add msg.stream msg.data now
    return (b, b.stamp msg offset)

def toMessage (name epoch : String) (e : Entry) : StreamMessage :=
  { stream := name, data := e.data, offset := e.offset, epoch := epoch }

/-- `HistoryFrom` up to the record's lock: the epoch check and the map lookup. -/
def historyGet (b : History) (name epoch : String) : Except String Nat :=
  if b.epoch ≠ epoch then
    .error ("unknown epoch: " ++ epoch ++ ", current: " ++ b.epoch)
  else match b.get name with
    | none => .error "stream not found"
    | some r => .ok r

/-- `HistoryFrom` under the record's lock. -/
def historyRead (b : History) (name epoch : String) (r : Nat) (offset : Nat) :
    Option (Except String (List StreamMessage)) := do
  let res ← (b.records name r).filterByOffset offset
  return res.map fun entries => entries.map (toMessage name epoch)

def historyFrom (b : History) (name epoch : String) (offset : Nat) :
    Option (Except String (List StreamMessage)) :=
  match b.historyGet name epoch with
  | .error err => some (.error err)
  | .ok r => b.historyRead name epoch r offset

/-- A missing stream has an empty history (`nil, nil`). -/
def historySince (b : History) (name : String) (ts : Int) : List StreamMessage :=
  match b.get name with
  | none => []
  | some r => ((b.records name r).filterByTime ts).map (toMessage name b.epoch)

/-- The streams part of `Memory.expire`: every record of the map cuts its old entries,
and the records whose deadline has passed leave the map. -/
def expire (b : History) (now : Instant) : History :=
  { b with
    records := fun name r =>
      if b.streams name = some r then (b.records name r).expire now else b.records name r
    streams := fun name =>
      (b.streams name).filter fun r => !decide ((b.records name r).deadline < unix now) }

section Lemmas

variable (b : History)

@[simp] theorem setRecord_streams (name : String) (r : Nat) (ms : Memstream) :
    (b.setRecord name r ms).streams = b.streams := rfl

@[simp] theorem setRecord_created (name : String) (r : Nat) (ms : Memstream) :
    (b.setRecord name r ms).created = b.created := rfl

@[simp] theorem setRecord_config (name : String) (r : Nat) (ms : Memstream) :
    (b.setRecord name r ms).config = b.config := rfl

@[simp] theorem setRecord_epoch (name : String) (r : Nat) (ms : Memstream) :
    (b.setRecord name r ms).epoch = b.epoch := rfl

@[simp] theorem setRecord_same (name : String) (r : Nat) (ms : Memstream) :
    (b.setRecord name r ms).records name r = ms := by
  simp [setRecord]

theorem setRecord_other {name other : String} {r r' : Nat} (ms : Memstream)
    (different : other ≠ name ∨ r' ≠ r) :
    (b.setRecord name r ms).records other r' = b.records other r' := by
  by_cases same : other = name
  · subst same
    have : r' ≠ r := by simpa using different
    simp [setRecord, this]
  · simp [setRecord, same]

theorem setRecord_apply (name st : String) (r r' : Nat) (ms : Memstream) :
    (b.setRecord name r ms).records st r' =
      if st = name ∧ r' = r then ms else b.records st r' := by
  split
  next same => rw [same.1, same.2, setRecord_same]
  next other => exact setRecord_other b ms (not_and_or.mp other)

end Lemmas

/-- What the lookup section does: it returns the mapped record, or maps a fresh one. -/
theorem lookup_cases (b : History) (name : String) :
    (∃ r, b.streams name = some r ∧ b.lookup name = (b, r)) ∨
    (b.streams name = none ∧ b.lookup name =
      ({ b.setRecord name (b.created name) (newRecord b.config) with
          streams := Function.update b.streams name (some (b.created name))
          created := Function.update b.created name (b.created name + 1) }, b.created name)) := by
  unfold lookup
  cases mapped : b.streams name with
  | some r => exact Or.inl ⟨r, rfl, rfl⟩
  | none => exact Or.inr ⟨rfl, rfl⟩

theorem lookup_epoch (b : History) (name : String) : (b.lookup name).1.epoch = b.epoch := by
  rcases lookup_cases b name with ⟨r, -, eq⟩ | ⟨-, eq⟩ <;> rw [eq]
  rfl

theorem lookup_frame (b : History) {name st : String} (other : st ≠ name) :
    (b.lookup name).1.streams st = b.streams st ∧
    (b.lookup name).1.created st = b.created st ∧
    ∀ r, (b.lookup name).1.records st r = b.records st r := by
  rcases lookup_cases b name with ⟨r, -, eq⟩ | ⟨-, eq⟩
  · rw [eq]
    exact ⟨rfl, rfl, fun _ => rfl⟩
  · rw [eq]
    refine ⟨by simp [other], by simp [other], fun r => ?_⟩
    exact setRecord_other b _ (Or.inl other)

theorem appendTo_eq_some {b after : History} {name data : String} {r offset : Nat} {now : Instant}
    (ran : b.appendTo name r data now = some (after, offset)) :
    offset = ((b.records name r).offset + 1) % uint64Size ∧
    ∃ ms, Memstream.appendEntry { b.records name r with offset := offset }
        ⟨unix now, offset, data⟩ now = some ms ∧ after = b.setRecord name r ms := by
  simp only [appendTo, Memstream.add, Option.bind_eq_bind, Option.bind_eq_some_iff, pure,
    Option.some.injEq, Prod.mk.injEq] at ran
  obtain ⟨⟨ms, o⟩, ⟨ms', appended, rfl, rfl⟩, rfl, rfl⟩ := ran
  exact ⟨rfl, _, appended, rfl⟩

/-- A refused offset changes nothing; an accepted one is above the counter. -/
theorem insertTo_cases {b after : History} {name data : String} {r offset : Nat}
    {t : Option Instant} {now : Instant} {res : Except String Nat}
    (ran : b.insertTo name r data offset t now = some (after, res)) :
    ((b.records name r).offset ≥ offset ∧ after = b.setRecord name r (b.records name r) ∧
      ∃ err, res = .error err) ∨
    ((b.records name r).offset < offset ∧ res = .ok offset ∧
      ∃ ms, Memstream.appendEntry { b.records name r with offset := offset }
        ⟨unix (t.getD now), offset, data⟩ now = some ms ∧ after = b.setRecord name r ms) := by
  simp only [insertTo, Memstream.insert, Option.bind_eq_bind, Option.bind_eq_some_iff, pure,
    Option.some.injEq, Prod.mk.injEq] at ran
  obtain ⟨⟨ms, o⟩, inserted, rfl, rfl⟩ := ran
  split at inserted
  next taken =>
    simp only [Option.some.injEq, Prod.mk.injEq] at inserted
    obtain ⟨rfl, rfl⟩ := inserted
    exact Or.inl ⟨taken, rfl, _, rfl⟩
  next free =>
    simp only [Option.bind_eq_some_iff, Option.some.injEq, Prod.mk.injEq] at inserted
    obtain ⟨ms', appended, rfl, rfl⟩ := inserted
    exact Or.inr ⟨by omega, rfl, _, appended, rfl⟩

theorem historyGet_ok {b : History} {name epoch : String} {r : Nat}
    (got : b.historyGet name epoch = .ok r) : b.epoch = epoch ∧ b.streams name = some r := by
  unfold historyGet get at got
  split at got
  · cases got
  next current =>
    split at got
    · cases got
    next mapped =>
      cases got
      exact ⟨by simpa using current, mapped⟩

theorem historyFrom_ok {b : History} {name epoch : String} {offset : Nat}
    {history : List StreamMessage} (read : b.historyFrom name epoch offset = some (.ok history)) :
    ∃ r, b.historyGet name epoch = .ok r ∧
      b.historyRead name epoch r offset = some (.ok history) := by
  unfold historyFrom at read
  split at read
  · cases read
  next r got => exact ⟨r, got, read⟩

theorem historyRead_ok {b : History} {name epoch : String} {r offset : Nat}
    {history : List StreamMessage} (read : b.historyRead name epoch r offset = some (.ok history)) :
    ∃ entries, (b.records name r).filterByOffset offset = some (.ok entries) ∧
      history = entries.map (toMessage name epoch) := by
  simp only [historyRead, Option.bind_eq_bind, Option.bind_eq_some_iff, pure,
    Option.some.injEq] at read
  obtain ⟨res, filtered, eq⟩ := read
  cases res with
  | error err => cases eq
  | ok entries =>
    cases eq
    exact ⟨entries, filtered, rfl⟩

/-- Expiry keeps exactly the mapped records whose deadline has not passed. -/
theorem expire_streams {b : History} {now : Instant} {name : String} {r : Nat} :
    (b.expire now).streams name = some r ↔
      b.streams name = some r ∧ unix now ≤ (b.records name r).deadline := by
  simp [expire, Option.filter_eq_some_iff]

end History

end AnyCable.Source
