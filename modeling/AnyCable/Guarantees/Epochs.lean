import AnyCable.Lib.Pending
import AnyCable.Lib.Run
import AnyCable.Source.History

/-!
# History and its epoch

The memory broker keeps its epoch beside the streams (`broker/memory.go:270-306`): `SetEpoch`
replaces the value and leaves the records, their counters and their entries as they are. The NATS
broker uses the memory broker as its local store and sets the epoch when it starts, when asked to,
and when its watcher sees another value (`broker/nats.go:284-312,680-707`).

`HistoryFrom` compares the epoch before it looks the record up, `HandleBroadcast` reads it after
the append, and `Store` asks only the counter (`broker/memory.go:334-407`). Hence messages of an
older epoch are served under the new one, and the first offsets of the new one are refused
(`old_history_served`). If the epoch changes only while no stream is kept and no call is on its
way, every message belongs to the epoch its offset was given in (`history_of_epoch`).

The sections of each call are steps of their own; `given` and the other lists are logs of the run.
-/

set_option autoImplicit false

namespace AnyCable.Guarantees.Epochs
open AnyCable.Lib AnyCable.Source

/-- An offset that a record has given to a message, and the epoch at that time. -/
structure Given where
  stream : String
  record : Nat
  data : String
  offset : Nat
  epoch : String
  deriving DecidableEq

/-- The message is the one that was given its offset. -/
def Given.Of (g : Given) (msg : StreamMessage) : Prop :=
  g.stream = msg.stream ∧ g.data = msg.data ∧ g.offset = msg.offset

/-- A call after its first section. -/
inductive Call where
  /-- `HandleBroadcast` with its record. -/
  | broadcast (msg : StreamMessage) (record : Nat)
  /-- `HandleBroadcast` with its offset, before it reads the epoch. -/
  | added (msg : StreamMessage) (g : Given)
  /-- `Store` with its record. -/
  | store (name data : String) (offset : Nat) (t : Option Instant) (record : Nat)
  /-- `HistoryFrom` after the check of the epoch. -/
  | asked (name epoch : String) (offset : Nat)
  /-- `HistoryFrom` with its record. -/
  | reading (name epoch : String) (offset record : Nat)

/-- A successful `HistoryFrom`, with the record it has read. -/
structure Answer where
  epoch : String
  record : Nat
  history : List StreamMessage

/-- A `Store` that failed, and the epoch at that time. -/
structure Refusal where
  stream : String
  offset : Nat
  epoch : String
  deriving DecidableEq

structure State where
  broker : History
  calls : List Call := []
  given : List Given := []
  sent : List (StreamMessage × Given) := []
  served : List Answer := []
  refused : List Refusal := []

def State.start (config : Config) (epoch : String) : State := { broker := .new config epoch }

inductive Act where
  | broadcast (msg : StreamMessage)
  | append (i : Nat) (now : Instant)
  | stamp (i : Nat)
  | store (name data : String) (offset : Nat) (t : Option Instant)
  | insert (i : Nat) (now : Instant)
  | ask (name epoch : String) (offset : Nat)
  | get (i : Nat)
  | read (i : Nat)
  /-- `SetEpoch`, or what the watcher of the NATS broker writes. -/
  | setEpoch (epoch : String)
  | expire (now : Instant)

def step (x : State) : Act → Option State
  | .broadcast msg =>
    if msg.isTransient then some x
    else
      let (broker, record) := x.broker.lookup msg.stream
      some { x with broker, calls := x.calls ++ [.broadcast msg record] }
  | .append i now =>
    match x.calls[i]? with
    | some (.broadcast msg record) => do
      let (broker, offset) ← x.broker.appendTo msg.stream record msg.data now
      let g : Given := ⟨msg.stream, record, msg.data, offset, x.broker.epoch⟩
      return { x with broker, calls := x.calls.eraseIdx i ++ [.added msg g]
                      given := x.given ++ [g] }
    | _ => none
  | .stamp i =>
    match x.calls[i]? with
    | some (.added msg g) =>
      some { x with calls := x.calls.eraseIdx i
                    sent := x.sent ++ [(x.broker.stamp msg g.offset, g)] }
    | _ => none
  | .store name data offset t =>
    let (broker, record) := x.broker.lookup name
    some { x with broker, calls := x.calls ++ [.store name data offset t record] }
  | .insert i now =>
    match x.calls[i]? with
    | some (.store name data offset t record) => do
      let (broker, res) ← x.broker.insertTo name record data offset t now
      let x' := { x with broker, calls := x.calls.eraseIdx i }
      match res with
      | .ok offset =>
        return { x' with given := x.given ++ [⟨name, record, data, offset, x.broker.epoch⟩] }
      | .error _ => return { x' with refused := x.refused ++ [⟨name, offset, x.broker.epoch⟩] }
    | _ => none
  | .ask name epoch offset =>
    if x.broker.epoch ≠ epoch then some x
    else some { x with calls := x.calls ++ [.asked name epoch offset] }
  | .get i =>
    match x.calls[i]? with
    | some (.asked name epoch offset) =>
      match x.broker.get name with
      | none => some { x with calls := x.calls.eraseIdx i }
      | some record =>
        some { x with calls := x.calls.eraseIdx i ++ [.reading name epoch offset record] }
    | _ => none
  | .read i =>
    match x.calls[i]? with
    | some (.reading name epoch offset record) => do
      let res ← x.broker.historyRead name epoch record offset
      let x' := { x with calls := x.calls.eraseIdx i }
      match res with
      | .ok history => return { x' with served := x.served ++ [⟨epoch, record, history⟩] }
      | .error _ => return x'
    | _ => none
  | .setEpoch epoch => some { x with broker := { x.broker with epoch := epoch } }
  | .expire now => some { x with broker := x.broker.expire now }

/-- What was sent out belongs to its epoch, and an epoch starts with free offsets. -/
structure Belongs (x : State) : Prop where
  served : ∀ answer ∈ x.served, ∀ msg ∈ answer.history, msg.epoch = answer.epoch ∧
    (∃ g ∈ x.given, g.record = answer.record ∧ g.Of msg) ∧
    ∀ g ∈ x.given, g.record = answer.record → g.Of msg → g.epoch = answer.epoch
  sent : ∀ s ∈ x.sent, s.2 ∈ x.given ∧ s.2.Of s.1 ∧ s.1.epoch = s.2.epoch
  refused : ∀ r ∈ x.refused, 0 < r.offset →
    ∃ g ∈ x.given, g.stream = r.stream ∧ g.epoch = r.epoch ∧ r.offset ≤ g.offset

/-- The epoch changes only while there is no stream and no call. -/
def Orderly (x : State) : Act → Prop
  | .setEpoch epoch => epoch = x.broker.epoch ∨
    x.calls = [] ∧ ∀ name, x.broker.streams name = none
  | _ => True

section Sections

variable {x : State} {now : Instant} {b : History}

/-- `HandleBroadcast` without other calls in between. -/
theorem undisturbed_broadcast {msg stamped : StreamMessage} (kept : msg.isTransient = false)
    (ran : x.broker.handleBroadcast msg now = some (b, stamped)) :
    ∃ g, Run.exec step x [.broadcast msg, .append x.calls.length now, .stamp x.calls.length] =
      some { x with broker := b, given := x.given ++ [g], sent := x.sent ++ [(stamped, g)] } := by
  simp only [History.handleBroadcast, kept, Bool.false_eq_true, if_false, History.add,
    Option.bind_eq_bind, Option.bind_eq_some_iff, pure, Option.some.injEq, Prod.mk.injEq] at ran
  obtain ⟨⟨after, offset⟩, appended, rfl, rfl⟩ := ran
  refine ⟨⟨msg.stream, (x.broker.lookup msg.stream).2, msg.data, offset,
    (x.broker.lookup msg.stream).1.epoch⟩, ?_⟩
  simp [Run.exec, step, kept, appended, List.eraseIdx_append_of_length_le]

/-- `Store` without other calls in between. -/
theorem undisturbed_store {name data : String} {offset : Nat} {t : Option Instant}
    {res : Except String Nat} (ran : x.broker.store name data offset t now = some (b, res)) :
    ∃ y, Run.exec step x [.store name data offset t, .insert x.calls.length now] = some y ∧
      y.broker = b ∧ y.calls = x.calls ∧ (y.refused = x.refused ↔ res.isOk = true) := by
  unfold History.store at ran
  have inserted : (x.broker.lookup name).1.insertTo name (x.broker.lookup name).2 data offset t
      now = some (b, res) := ran
  cases res <;> simp [Run.exec, step, inserted, List.eraseIdx_append_of_length_le, Except.isOk,
    Except.toBool]

/-- `HistoryFrom` without other calls in between. -/
theorem undisturbed_historyFrom {name epoch : String} {offset : Nat}
    {history : List StreamMessage}
    (ran : x.broker.historyFrom name epoch offset = some (.ok history)) :
    ∃ record, Run.exec step x [.ask name epoch offset, .get x.calls.length,
      .read x.calls.length] =
        some { x with served := x.served ++ [⟨epoch, record, history⟩] } := by
  obtain ⟨record, got, read⟩ := History.historyFrom_ok ran
  obtain ⟨current, mapped⟩ := History.historyGet_ok got
  refine ⟨record, ?_⟩
  simp [Run.exec, step, current, History.get, mapped, read, List.eraseIdx_append_of_length_le]

end Sections

section Invariant

/-- The record that a call works on. -/
def Call.holds : Call → Option (String × Nat)
  | .broadcast msg record => some (msg.stream, record)
  | .store name _ _ _ record => some (name, record)
  | .reading name _ _ record => some (name, record)
  | .added .. | .asked .. => none

/-- What a call has noted is of the current epoch. -/
def Call.Current (b : History) (given : List Given) : Call → Prop
  | .added msg g => g ∈ given ∧ g.Of { msg with offset := g.offset } ∧ g.epoch = b.epoch
  | .asked _ epoch _ | .reading _ epoch _ _ => epoch = b.epoch
  | .broadcast .. | .store .. => True

/-- A record that can be reached: by the map or by a call. -/
def Live (x : State) (name : String) (r : Nat) : Prop :=
  x.broker.streams name = some r ∨ ∃ c ∈ x.calls, c.holds = some (name, r)

/-- What the records hold, and what is known of the log. -/
structure Recorded (b : History) (given : List Given) : Prop where
  created : ∀ g ∈ given, g.record < b.created g.stream
  entries : ∀ name r, ∀ e ∈ (b.records name r).data,
    ∃ g ∈ given, g.stream = name ∧ g.record = r ∧ g.data = e.data ∧ g.offset = e.offset
  counter : ∀ name r, (b.records name r).offset = 0 ∨
    ∃ g ∈ given, g.stream = name ∧ g.record = r ∧ g.offset = (b.records name r).offset
  /-- A record is used in one epoch only. -/
  uniform : ∀ g ∈ given, ∀ g' ∈ given, g.stream = g'.stream → g.record = g'.record →
    g.epoch = g'.epoch

structure Inv (x : State) : Prop where
  recorded : Recorded x.broker x.given
  live : ∀ name r, Live x name r → r < x.broker.created name ∧
    ∀ g ∈ x.given, g.stream = name → g.record = r → g.epoch = x.broker.epoch
  calls : ∀ c ∈ x.calls, c.Current x.broker x.given
  belongs : Belongs x

variable {x y : State}

theorem inv_start (config : Config) (epoch : String) : Inv (.start config epoch) where
  recorded := by
    refine ⟨?_, ?_, ?_, ?_⟩ <;> simp [State.start, History.new, History.newRecord]
  live := by simp [Live, State.start, History.new]
  calls := by simp [State.start]
  belongs := by refine ⟨?_, ?_, ?_⟩ <;> simp [State.start]

/-- Calls come, go on and return. -/
theorem Inv.recalled (inv : Inv x) {calls : List Call}
    (each : ∀ c ∈ calls, c ∈ x.calls ∨ (∀ k ∈ c.holds, Live x k.1 k.2) ∧
      c.Current x.broker x.given) : Inv { x with calls := calls } where
  recorded := inv.recorded
  live name r reached := by
    apply inv.live name r
    rcases reached with mapped | ⟨c, member, holds⟩
    · exact Or.inl mapped
    · rcases each c member with old | ⟨new, -⟩
      · exact Or.inr ⟨c, old, holds⟩
      · exact new (name, r) holds
  calls c member := by
    rcases each c member with old | ⟨-, new⟩
    · exact inv.calls c old
    · exact new
  belongs := ⟨inv.belongs.served, inv.belongs.sent, inv.belongs.refused⟩

theorem Inv.dropped (inv : Inv x) (i : Nat) : Inv { x with calls := x.calls.eraseIdx i } :=
  inv.recalled fun _ member => Or.inl (List.mem_of_mem_eraseIdx member)

theorem Inv.added (inv : Inv x) {c : Call} (i : Nat) (holds : ∀ k ∈ c.holds, Live x k.1 k.2)
    (current : c.Current x.broker x.given) :
    Inv { x with calls := x.calls.eraseIdx i ++ [c] } := by
  apply inv.recalled
  intro c' member
  rcases List.mem_append.mp member with old | new
  · exact Or.inl (List.mem_of_mem_eraseIdx old)
  · rw [List.mem_singleton.mp new]
    exact Or.inr ⟨holds, current⟩

/-- Records lose entries, and streams lose their records or get fresh ones. -/
structure Refreshes (b b' : History) : Prop where
  epoch : b'.epoch = b.epoch
  created : ∀ name, b.created name ≤ b'.created name
  streams : ∀ name r, b'.streams name = some r →
    b.streams name = some r ∨ b.created name ≤ r ∧ r < b'.created name
  data : ∀ name r, ∀ e ∈ (b'.records name r).data, e ∈ (b.records name r).data
  offset : ∀ name r, (b'.records name r).offset = (b.records name r).offset ∨
    (b'.records name r).offset = 0

theorem refreshes_lookup (b : History) (name : String) : Refreshes b (b.lookup name).1 := by
  rcases History.lookup_cases b name with ⟨r, -, eq⟩ | ⟨-, eq⟩
  · rw [eq]
    exact ⟨rfl, fun _ => le_rfl, fun _ _ => Or.inl, fun _ _ _ => id, fun _ _ => Or.inl rfl⟩
  · rw [eq]
    refine ⟨rfl, ?_, ?_, ?_, ?_⟩
    · intro st
      by_cases same : st = name
      · subst same
        simp
      · simp [same]
    · intro st r mapped
      by_cases same : st = name
      · subst same
        obtain rfl : b.created st = r := by simpa using mapped
        exact Or.inr ⟨le_rfl, by simp⟩
      · exact Or.inl (by simpa [same] using mapped)
    · intro st r e member
      by_cases same : st = name ∧ r = b.created name
      · obtain ⟨rfl, rfl⟩ := same
        simp [History.newRecord] at member
      · exact History.setRecord_other b _ (not_and_or.mp same) ▸ member
    · intro st r
      by_cases same : st = name ∧ r = b.created name
      · obtain ⟨rfl, rfl⟩ := same
        exact Or.inr (by simp [History.newRecord])
      · exact Or.inl (by rw [← History.setRecord_other b _ (not_and_or.mp same)])

theorem refreshes_expire (b : History) (now : Instant) : Refreshes b (b.expire now) where
  epoch := rfl
  created _ := le_rfl
  streams name r mapped := Or.inl (History.expire_streams.mp mapped).1
  data name r e member := by
    simp only [History.expire] at member
    split at member
    · exact (List.dropWhile_suffix _).mem member
    · exact member
  offset name r := by
    simp only [History.expire]
    split
    · exact Or.inl rfl
    · exact Or.inl rfl

theorem refreshes_same (b : History) (name : String) (r : Nat) :
    Refreshes b (b.setRecord name r (b.records name r)) := by
  have same : b.setRecord name r (b.records name r) = b := by
    simp [History.setRecord]
  rw [same]
  exact ⟨rfl, fun _ => le_rfl, fun _ _ => Or.inl, fun _ _ _ => id, fun _ _ => Or.inl rfl⟩

theorem Inv.refreshed (inv : Inv x) {b : History} (refreshes : Refreshes x.broker b) :
    Inv { x with broker := b } where
  recorded := {
    created := fun g member =>
      Nat.lt_of_lt_of_le (inv.recorded.created g member) (refreshes.created g.stream)
    entries := fun name r e member =>
      inv.recorded.entries name r e (refreshes.data name r e member)
    counter := by
      intro name r
      rcases refreshes.offset name r with same | zero
      · rw [same]
        exact inv.recorded.counter name r
      · exact Or.inl zero
    uniform := inv.recorded.uniform }
  live := by
    intro name r reached
    rw [refreshes.epoch]
    have old : Live x name r → r < b.created name ∧
        ∀ g ∈ x.given, g.stream = name → g.record = r → g.epoch = x.broker.epoch := by
      intro live
      obtain ⟨below, epoch⟩ := inv.live name r live
      exact ⟨Nat.lt_of_lt_of_le below (refreshes.created name), epoch⟩
    rcases reached with mapped | called
    · rcases refreshes.streams name r mapped with before | ⟨fresh, below⟩
      · exact old (Or.inl before)
      · -- nobody has used a fresh record
        refine ⟨below, fun g member own used => ?_⟩
        have := inv.recorded.created g member
        rw [own, used] at this
        omega
    · exact old (Or.inr called)
  calls c member := by
    have current := inv.calls c member
    cases c with
    | added msg g => exact ⟨current.1, current.2.1, current.2.2.trans refreshes.epoch.symm⟩
    | asked name epoch offset => exact Eq.trans current refreshes.epoch.symm
    | reading name epoch offset r => exact Eq.trans current refreshes.epoch.symm
    | broadcast msg r => trivial
    | store name data offset t r => trivial
  belongs := ⟨inv.belongs.served, inv.belongs.sent, inv.belongs.refused⟩

/-- A call begins with the record of its stream. -/
theorem Inv.looked (inv : Inv x) {name : String} {c : Call}
    (holds : c.holds = some (name, (x.broker.lookup name).2))
    (current : ∀ b given, c.Current b given) :
    Inv { x with broker := (x.broker.lookup name).1, calls := x.calls ++ [c] } := by
  have mapped : (x.broker.lookup name).1.streams name = some (x.broker.lookup name).2 := by
    rcases History.lookup_cases x.broker name with ⟨r, found, eq⟩ | ⟨-, eq⟩
    · rw [eq]
      exact found
    · rw [eq]
      simp
  apply (inv.refreshed (refreshes_lookup x.broker name)).recalled
  intro c' member
  rcases List.mem_append.mp member with old | new
  · exact Or.inl old
  · rw [List.mem_singleton.mp new]
    refine Or.inr ⟨fun k held => ?_, current _ _⟩
    cases holds.symm.trans held
    exact Or.inl mapped

/-- The entries of a record after an append. -/
theorem mem_appendEntry {ms ms' : Memstream} {e old : Entry} {now : Instant}
    (appended : Memstream.appendEntry ms e now = some ms') (member : old ∈ ms'.data) :
    old ∈ ms.data ∨ old = e := by
  obtain ⟨data, -, -⟩ := Memstream.appendEntry_spec appended
  rcases data with ⟨all, -⟩ | ⟨all, -⟩
  · rw [all] at member
    simpa using member
  · rw [all] at member
    rcases List.mem_append.mp member with kept | last
    · exact Or.inl (List.mem_of_mem_tail kept)
    · exact Or.inr (List.mem_singleton.mp last)

/-- A record that was used in the current epoch only gives its next offset. -/
theorem Recorded.gave {b : History} {given : List Given} (recorded : Recorded b given)
    {name : String} {r : Nat} {e : Entry} {ms : Memstream} {now : Instant}
    (below : r < b.created name)
    (epoch : ∀ g ∈ given, g.stream = name → g.record = r → g.epoch = b.epoch)
    (appended : Memstream.appendEntry { b.records name r with offset := e.offset } e now =
      some ms) :
    Recorded (b.setRecord name r ms) (given ++ [⟨name, r, e.data, e.offset, b.epoch⟩]) := by
  obtain ⟨-, offset, -⟩ := Memstream.appendEntry_spec appended
  constructor
  · intro g member
    rcases List.mem_append.mp member with old | new
    · exact recorded.created g old
    · rw [List.mem_singleton.mp new]
      exact below
  · intro st r' old member
    by_cases same : st = name ∧ r' = r
    · obtain ⟨rfl, rfl⟩ := same
      rw [History.setRecord_same] at member
      rcases mem_appendEntry appended member with before | rfl
      · obtain ⟨g, found, rest⟩ := recorded.entries st r' old before
        exact ⟨g, List.mem_append_left _ found, rest⟩
      · exact ⟨_, List.mem_append_right _ (List.mem_singleton_self _), rfl, rfl, rfl, rfl⟩
    · rw [History.setRecord_other _ _ (not_and_or.mp same)] at member
      obtain ⟨g, found, rest⟩ := recorded.entries st r' old member
      exact ⟨g, List.mem_append_left _ found, rest⟩
  · intro st r'
    by_cases same : st = name ∧ r' = r
    · obtain ⟨rfl, rfl⟩ := same
      rw [History.setRecord_same, offset]
      exact Or.inr ⟨_, List.mem_append_right _ (List.mem_singleton_self _), rfl, rfl, rfl⟩
    · rw [History.setRecord_other _ _ (not_and_or.mp same)]
      apply (recorded.counter st r').imp_right
      intro ⟨g, found, rest⟩
      exact ⟨g, List.mem_append_left _ found, rest⟩
  · intro g member g' member' stream record
    rcases List.mem_append.mp member with old | new <;>
      rcases List.mem_append.mp member' with old' | new'
    · exact recorded.uniform g old g' old' stream record
    · rw [List.mem_singleton.mp new'] at stream record ⊢
      exact epoch g old stream record
    · rw [List.mem_singleton.mp new] at stream record ⊢
      exact (epoch g' old' stream.symm record.symm).symm
    · rw [List.mem_singleton.mp new, List.mem_singleton.mp new']

/-- What was sent out before a record gives an offset in the epoch that it was used in. -/
theorem Belongs.gave (belongs : Belongs x) {b : History} {given : Given}
    (epoch : ∀ g ∈ x.given, g.stream = given.stream → g.record = given.record →
      g.epoch = given.epoch) : Belongs { x with broker := b, given := x.given ++ [given] } := by
  constructor
  · intro answer member msg listed
    obtain ⟨same, ⟨g, found, record, of⟩, all⟩ := belongs.served answer member msg listed
    refine ⟨same, ⟨g, List.mem_append_left _ found, record, of⟩, ?_⟩
    intro g' member' record' of'
    rcases List.mem_append.mp member' with old | new
    · exact all g' old record' of'
    · -- the record of the answer is in use, hence of the current epoch
      rw [List.mem_singleton.mp new] at record' of' ⊢
      rw [← all g found record of]
      exact (epoch g found (of.1.trans of'.1.symm) (record.trans record'.symm)).symm
  · intro s member
    obtain ⟨found, rest⟩ := belongs.sent s member
    exact ⟨List.mem_append_left _ found, rest⟩
  · intro refusal member positive
    obtain ⟨g, found, rest⟩ := belongs.refused refusal member positive
    exact ⟨g, List.mem_append_left _ found, rest⟩

/-- A record that is in use gives its next offset. -/
theorem Inv.gave (inv : Inv x) {name : String} {r : Nat} {e : Entry} {ms : Memstream}
    {now : Instant} (live : Live x name r)
    (appended : Memstream.appendEntry { x.broker.records name r with offset := e.offset } e now =
      some ms) :
    Inv { x with broker := x.broker.setRecord name r ms
                 given := x.given ++ [⟨name, r, e.data, e.offset, x.broker.epoch⟩] } := by
  obtain ⟨below, epoch⟩ := inv.live name r live
  refine ⟨inv.recorded.gave below epoch appended, ?_, ?_, inv.belongs.gave epoch⟩
  · intro st r' reached
    obtain ⟨created, all⟩ := inv.live st r' reached
    refine ⟨created, fun g member => ?_⟩
    rcases List.mem_append.mp member with old | new
    · exact all g old
    · rw [List.mem_singleton.mp new]
      exact fun _ _ => rfl
  · intro c member
    have current := inv.calls c member
    cases c with
    | added msg g => exact ⟨List.mem_append_left _ current.1, current.2⟩
    | asked name epoch offset => exact current
    | reading name epoch offset r => exact current
    | broadcast msg r => trivial
    | store name data offset t r => trivial

/-- `HandleBroadcast` sends the message with the epoch that it reads last. -/
theorem Inv.stamped (inv : Inv x) {i : Nat} {msg : StreamMessage} {g : Given}
    (found : x.calls[i]? = some (.added msg g)) :
    Inv { x with calls := x.calls.eraseIdx i
                 sent := x.sent ++ [(x.broker.stamp msg g.offset, g)] } := by
  obtain ⟨given, of, epoch⟩ := inv.calls _ (List.mem_of_getElem? found)
  have rest := inv.dropped i
  refine ⟨rest.recorded, rest.live, rest.calls, rest.belongs.served, ?_, rest.belongs.refused⟩
  intro s member
  rcases List.mem_append.mp member with old | new
  · exact inv.belongs.sent s old
  · rw [List.mem_singleton.mp new]
    exact ⟨given, of, epoch.symm⟩

/-- `HistoryFrom` returns entries of a record in use. -/
theorem Inv.answered (inv : Inv x) {i : Nat} {name epoch : String} {offset record : Nat}
    {history : List StreamMessage} (found : x.calls[i]? = some (.reading name epoch offset record))
    (read : x.broker.historyRead name epoch record offset = some (.ok history)) :
    Inv { x with calls := x.calls.eraseIdx i
                 served := x.served ++ [⟨epoch, record, history⟩] } := by
  have member := List.mem_of_getElem? found
  have current : epoch = x.broker.epoch := inv.calls _ member
  obtain ⟨-, all⟩ := inv.live name record (Or.inr ⟨_, member, rfl⟩)
  have rest := inv.dropped i
  refine ⟨rest.recorded, rest.live, rest.calls, ?_, rest.belongs.sent, rest.belongs.refused⟩
  intro answer member msg listed
  rcases List.mem_append.mp member with old | new
  · exact inv.belongs.served answer old msg listed
  · rw [List.mem_singleton.mp new] at listed ⊢
    obtain ⟨entries, filtered, rfl⟩ := History.historyRead_ok read
    obtain ⟨e, inside, rfl⟩ := List.mem_map.mp listed
    obtain ⟨g, given, stream, own, data, offset⟩ := inv.recorded.entries name record e
      (Memstream.filterByOffset_subset filtered inside)
    refine ⟨rfl, ⟨g, given, own, stream, data, offset⟩, ?_⟩
    intro g' given' own' of
    rw [current]
    exact all g' given' of.1 own'

/-- `Store` refuses an offset only because of the counter. -/
theorem Inv.refused (inv : Inv x) {i : Nat} {name data : String} {offset record : Nat}
    {t : Option Instant} (found : x.calls[i]? = some (.store name data offset t record))
    (taken : offset ≤ (x.broker.records name record).offset) :
    Inv { x with calls := x.calls.eraseIdx i
                 refused := x.refused ++ [⟨name, offset, x.broker.epoch⟩] } := by
  obtain ⟨-, all⟩ := inv.live name record (Or.inr ⟨_, List.mem_of_getElem? found, rfl⟩)
  have rest := inv.dropped i
  refine ⟨rest.recorded, rest.live, rest.calls, rest.belongs.served, rest.belongs.sent, ?_⟩
  intro refusal member positive
  rcases List.mem_append.mp member with old | new
  · exact inv.belongs.refused refusal old positive
  · rw [List.mem_singleton.mp new] at positive ⊢
    rcases inv.recorded.counter name record with zero | ⟨g, given, stream, own, last⟩
    · simp only at positive
      omega
    · exact ⟨g, given, stream, all g given stream own, by simp only; omega⟩

/-- Nothing that was stored before can be reached after the change. -/
theorem Inv.renamed (inv : Inv x) {epoch : String} (none : x.calls = [])
    (empty : ∀ name, x.broker.streams name = Option.none) :
    Inv { x with broker := { x.broker with epoch := epoch } } where
  recorded := ⟨inv.recorded.created, inv.recorded.entries, inv.recorded.counter,
    inv.recorded.uniform⟩
  live name r reached := by
    rcases reached with mapped | ⟨c, member, -⟩
    · exact absurd ((empty name).symm.trans mapped) (by simp)
    · exact absurd (none ▸ member) (by simp)
  calls c member := absurd (none ▸ member) (by simp)
  belongs := ⟨inv.belongs.served, inv.belongs.sent, inv.belongs.refused⟩

end Invariant

theorem step_inv {x y : State} {a : Act} (inv : Inv x) (orderly : Orderly x a)
    (stepped : step x a = some y) : Inv y := by
  cases a with
  | broadcast msg =>
    simp only [step] at stepped
    split at stepped
    · cases stepped
      exact inv
    · cases stepped
      exact inv.looked rfl fun _ _ => trivial
  | append i now =>
    simp only [step] at stepped
    split at stepped
    next msg record found =>
      obtain ⟨⟨b, offset⟩, ran, stepped⟩ := Option.bind_eq_some_iff.mp stepped
      cases stepped
      obtain ⟨-, ms, appended, rfl⟩ := History.appendTo_eq_some ran
      have live : Live x msg.stream record := Or.inr ⟨_, List.mem_of_getElem? found, rfl⟩
      apply (inv.gave live appended).added i
      · intro k held
        cases held
      · exact ⟨List.mem_append_right _ (List.mem_singleton_self _), ⟨rfl, rfl, rfl⟩, rfl⟩
    · cases stepped
  | stamp i =>
    simp only [step] at stepped
    split at stepped
    next msg g found =>
      cases stepped
      exact inv.stamped found
    · cases stepped
  | store name data offset t =>
    cases stepped
    exact inv.looked rfl fun _ _ => trivial
  | insert i now =>
    simp only [step] at stepped
    split at stepped
    next name data offset t record found =>
      obtain ⟨⟨b, res⟩, ran, stepped⟩ := Option.bind_eq_some_iff.mp stepped
      rcases History.insertTo_cases ran with ⟨taken, rfl, err, rfl⟩ | ⟨-, rfl, ms, appended, rfl⟩
      · cases stepped
        exact (inv.refused found taken).refreshed (refreshes_same x.broker name record)
      · cases stepped
        have live : Live x name record := Or.inr ⟨_, List.mem_of_getElem? found, rfl⟩
        exact (inv.gave live appended).dropped i
    · cases stepped
  | ask name epoch offset =>
    simp only [step] at stepped
    split at stepped
    · cases stepped
      exact inv
    next current =>
      cases stepped
      apply inv.recalled
      intro c member
      rcases List.mem_append.mp member with old | new
      · exact Or.inl old
      · rw [List.mem_singleton.mp new]
        exact Or.inr ⟨fun _ held => (by cases held), (not_not.mp current).symm⟩
  | get i =>
    simp only [step] at stepped
    split at stepped
    next name epoch offset found =>
      split at stepped
      · cases stepped
        exact inv.dropped i
      next record mapped =>
        cases stepped
        apply inv.added i
        · intro k held
          cases held
          exact Or.inl mapped
        · have current := inv.calls _ (List.mem_of_getElem? found)
          exact current
    · cases stepped
  | read i =>
    simp only [step] at stepped
    split at stepped
    next name epoch offset record found =>
      obtain ⟨res, read, stepped⟩ := Option.bind_eq_some_iff.mp stepped
      cases res with
      | ok history =>
        cases stepped
        exact inv.answered found read
      | error err =>
        cases stepped
        exact inv.dropped i
    · cases stepped
  | setEpoch epoch =>
    cases stepped
    rcases orderly with same | ⟨none, empty⟩
    · rw [same]
      exact inv
    · exact inv.renamed none empty
  | expire now =>
    cases stepped
    exact inv.refreshed (refreshes_expire x.broker now)

/-- Every run in which the epoch changes only while there is no stream and no call. -/
theorem history_of_epoch (config : Config) (epoch : String) (schedule : List Act) (x : State)
    (orderly : Run.Meets step Orderly (.start config epoch) schedule)
    (ran : Run.exec step (.start config epoch) schedule = some x) : Belongs x :=
  (Run.invariant_of_meets (fun _ _ _ inv met stepped => step_inv inv met stepped)
    (inv_start config epoch) orderly ran).belongs

/-- A message of the first epoch is served, one of the second epoch is stored and served. -/
def handover : List Act :=
  [.setEpoch "first", .broadcast { stream := "chat", data := "a" }, .append 0 0, .stamp 0,
   .expire 4000000000000, .setEpoch "second", .store "chat" "b" 1 none, .insert 0 4000000000000,
   .broadcast { stream := "chat", data := "c" }, .append 0 4000000000000, .stamp 0,
   .ask "chat" "second" 1, .get 0, .read 0]

theorem handover_belongs :
    ∃ x, Run.exec step (.start {} "none") handover = some x ∧
      x.sent.map (fun s => (s.1.data, s.1.epoch, s.1.offset)) =
        [("a", "first", 1), ("c", "second", 2)] ∧
      x.served.map (·.history.map (·.data)) = [["c"]] ∧ x.refused = [] ∧ Belongs x := by
  refine ⟨_, rfl, by decide, by decide, by decide, history_of_epoch {} "none" handover _ ?_ rfl⟩
  refine ⟨Or.inr ⟨rfl, fun _ => rfl⟩, ?_⟩
  rintro _ ⟨⟩
  iterate 4
    refine ⟨trivial, ?_⟩
    rintro _ ⟨⟩
  refine ⟨Or.inr ⟨rfl, fun name => ?_⟩, ?_⟩
  · -- the only stream is past its deadline
    by_cases same : name = "chat"
    · subst same
      decide
    · simp [State.start, History.expire, History.new, same]
  · rintro _ ⟨⟩
    iterate 8
      refine ⟨trivial, ?_⟩
      rintro _ ⟨⟩
    trivial

/-- Two messages of the first epoch; the second one is served as one of the next epoch, and the
first offset of that epoch is refused. -/
theorem old_history_served :
    ∃ x, Run.exec step (.start {} "first")
        [.broadcast { stream := "chat", data := "a" }, .append 0 0, .stamp 0,
         .broadcast { stream := "chat", data := "b" }, .append 0 0, .stamp 0,
         .setEpoch "second", .ask "chat" "second" 1, .get 0, .read 0,
         .store "chat" "c" 1 none, .insert 0 0] = some x ∧
      x.given = [⟨"chat", 0, "a", 1, "first"⟩, ⟨"chat", 0, "b", 2, "first"⟩] ∧
      x.served.map (fun answer => (answer.epoch, answer.history)) =
        [("second", [{ stream := "chat", data := "b", offset := 2, epoch := "second" }])] ∧
      x.refused = [⟨"chat", 1, "second"⟩] ∧ ¬Belongs x := by
  refine ⟨_, rfl, by decide, by decide, by decide, fun belongs => ?_⟩
  have epoch := (belongs.served _ (List.mem_singleton_self _) _ (List.mem_singleton_self _)).2.2
    ⟨"chat", 0, "b", 2, "first"⟩ (by decide) rfl ⟨rfl, rfl, rfl⟩
  exact absurd epoch (by decide)

end AnyCable.Guarantees.Epochs
