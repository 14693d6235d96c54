import AnyCable.Lib.Run
import AnyCable.Source.HistoryLog

/-!
# Does a position identify one message?

A run of `HandleBroadcast`, `Store`, `HistoryFrom` and `expire` on the memory broker
(`broker/memory.go:34-95,334-407,593-645`), one call after another, under a clock
that never goes back and without `SetEpoch`. `issued` lists every message that was
given an offset, oldest first; transient messages get none and are not part of it.

The counter lives in the record. `expire` drops a record ten times its time to live
after its last append, and the next broadcast starts a new record at offset 1 under
the old epoch (`position_reused`). Two more inputs break a position: a counter that
`Store` has pushed to the last `uint64` wraps to 0, and a gap left by `Store` shifts
the slice index `filterByOffset` computes. Apart from these three, positions identify
messages and a successful `HistoryFrom` omits nothing
(`positions_identify_unless_dropped`).
-/

set_option autoImplicit false

namespace AnyCable.Guarantees.Positions
open AnyCable.Lib AnyCable.Source AnyCable.Source.History

structure Ledger where
  broker : History
  clock : Instant
  issued : List StreamMessage

/-- A broker that has just been created at time `clock`. -/
def Ledger.start (config : Config) (epoch : String) (clock : Nat) : Ledger :=
  { broker := History.new config epoch, clock, issued := [] }

inductive Op where
  | handleBroadcast (msg : StreamMessage) (now : Instant)
  | store (name data : String) (offset : Nat) (t : Option Instant) (now : Instant)
  | historyFrom (name epoch : String) (offset : Nat)
  | expire (now : Instant)

/-- One call. A clock that goes back, an offset that is no `uint64` and a panic of the
append are not steps. -/
def step (s : Ledger) : Op → Option Ledger
  | .handleBroadcast msg now =>
    if s.clock ≤ now then do
      let (broker, sent) ← s.broker.handleBroadcast msg now
      return { broker, clock := now,
               issued := if msg.isTransient then s.issued else s.issued ++ [sent] }
    else none
  | .store name data offset t now =>
    if s.clock ≤ now ∧ offset < uint64Size then do
      let (broker, res) ← s.broker.store name data offset t now
      return { broker, clock := now,
               issued := match res with
                 | .ok o => s.issued ++
                     [{ stream := name, data, offset := o, epoch := broker.epoch }]
                 | .error _ => s.issued }
    else none
  | .historyFrom name epoch offset => (s.broker.historyFrom name epoch offset).map fun _ => s
  | .expire now =>
    if s.clock ≤ now then some { s with broker := s.broker.expire now, clock := now } else none

/-- The property of one state: offsets of a stream grow from message to message, and a
client at the position of one message is not cheated of any later one. -/
structure PositionsIdentify (s : Ledger) : Prop where
  increasing : ∀ name,
    ((s.issued.filter (·.stream == name)).map (·.offset)).Pairwise (· < ·)
  complete : ∀ before m after, s.issued = before ++ m :: after →
    ∀ later ∈ after, later.stream = m.stream → ∀ history,
      s.broker.historyFrom m.stream m.epoch m.offset = some (.ok history) →
      ∃ found ∈ history, found.offset = later.offset ∧ found.data = later.data

/-- The condition on a call and the state it is made in. -/
def Careful (s : Ledger) : Op → Prop
  | .handleBroadcast msg _ => msg.isTransient = false →
      NotDropped s.broker msg.stream ∧
      ∀ r ∈ s.broker.streams msg.stream,
        (s.broker.records msg.stream r).offset + 1 < uint64Size
  | .store name _ offset _ _ =>
      NotDropped s.broker name ∧
      ∀ r ∈ s.broker.streams name, (s.broker.records name r).data ≠ [] →
        offset ≤ (s.broker.records name r).offset + 1
  | _ => True

instance (s : Ledger) : (op : Op) → Decidable (Careful s op)
  | .handleBroadcast msg _ => inferInstanceAs (Decidable (msg.isTransient = false →
      NotDropped s.broker msg.stream ∧ ∀ r ∈ s.broker.streams msg.stream,
        (s.broker.records msg.stream r).offset + 1 < uint64Size))
  | .store name _ offset _ _ => inferInstanceAs (Decidable (NotDropped s.broker name ∧
      ∀ r ∈ s.broker.streams name, (s.broker.records name r).data ≠ [] →
        offset ≤ (s.broker.records name r).offset + 1))
  | .historyFrom .. => isTrue trivial
  | .expire _ => isTrue trivial

structure Inv (s : Ledger) : Prop where
  streams : ∀ name, Logged s.broker s.issued name
  epochs : ∀ m ∈ s.issued, m.epoch = s.broker.epoch

theorem inv_start (config : Config) (epoch : String) (clock : Nat) :
    Inv (Ledger.start config epoch clock) :=
  ⟨fun _ => Or.inl ⟨rfl, rfl, rfl⟩, by simp [Ledger.start]⟩

/-- A message is issued after a lookup and a write to the record of its stream. -/
theorem issue_inv {s : Ledger} {m : StreamMessage} {ms : Memstream} {now : Instant}
    (inv : Inv s) (epoch : m.epoch = s.broker.epoch)
    (own : Logged ((s.broker.lookup m.stream).1.setRecord m.stream 0 ms) (s.issued ++ [m])
      m.stream) :
    Inv { broker := (s.broker.lookup m.stream).1.setRecord m.stream 0 ms, clock := now,
          issued := s.issued ++ [m] } := by
  refine ⟨fun st => ?_, fun other member => ?_⟩
  · by_cases same : st = m.stream
    · subst same
      exact own
    · exact (((inv.streams st).lookup_other same).setRecord_other same 0 ms).issue_other same
  · simp only [setRecord_epoch, lookup_epoch]
    rcases List.mem_append.mp member with old | new
    · exact inv.epochs other old
    · rw [List.mem_singleton.mp new]
      exact epoch

theorem step_inv {s next : Ledger} {op : Op} (inv : Inv s) (careful : Careful s op)
    (stepped : step s op = some next) : Inv next := by
  cases op with
  | handleBroadcast msg now =>
    simp only [step] at stepped
    split at stepped
    · by_cases transient : msg.isTransient
      · simp only [History.handleBroadcast, transient, if_true, Option.bind_eq_bind,
          Option.bind_some, pure, Option.some.injEq] at stepped
        subst stepped
        exact ⟨inv.streams, inv.epochs⟩
      · simp only [History.handleBroadcast, transient, Bool.false_eq_true, if_false, History.add,
          Option.bind_eq_bind, Option.bind_eq_some_iff, pure, Option.some.injEq] at stepped
        obtain ⟨⟨b, sent⟩, ⟨⟨b', offset⟩, ran, pair⟩, rfl⟩ := stepped
        simp only [Prod.mk.injEq] at pair
        obtain ⟨rfl, rfl⟩ := pair
        obtain ⟨fresh, room⟩ := careful (by simpa using transient)
        obtain ⟨zero, looked, mapped, which⟩ := (inv.streams msg.stream).lookup fresh
        obtain ⟨offsetEq, ms, appended, rfl⟩ := appendTo_eq_some ran
        rw [zero] at offsetEq appended ⊢
        have small : ((s.broker.lookup msg.stream).1.records msg.stream 0).offset + 1
            < uint64Size := by
          rcases which with ⟨same, was⟩ | ⟨new, -⟩
          · rw [same]; exact room 0 was
          · rw [new]; exact (by decide : 0 + 1 < uint64Size)
        rw [Nat.mod_eq_of_lt small] at offsetEq
        refine issue_inv inv (m := stamp _ msg offset) (lookup_epoch _ _) ?_
        exact looked.append (m := stamp _ msg offset) mapped (by simp only [stamp]; omega)
          (fun _ => offsetEq) appended
    · cases stepped
  | store name data offset t now =>
    simp only [step] at stepped
    split at stepped
    · simp only [History.store, Option.bind_eq_bind, Option.bind_eq_some_iff, pure,
        Option.some.injEq] at stepped
      obtain ⟨⟨b, res⟩, ran, rfl⟩ := stepped
      obtain ⟨fresh, gapless⟩ := careful
      obtain ⟨zero, looked, mapped, which⟩ := (inv.streams name).lookup fresh
      rcases insertTo_cases ran with ⟨-, rfl, err, rfl⟩ | ⟨larger, rfl, ms, appended, rfl⟩
      · rw [zero]
        refine ⟨fun st => ?_, fun m member => ?_⟩
        · by_cases same : st = name
          · subst same
            unfold Logged at looked ⊢
            simpa using looked
          · exact ((inv.streams st).lookup_other same).setRecord_other same _ _
        · simpa [lookup_epoch] using inv.epochs m member
      · rw [zero] at larger appended ⊢
        refine issue_inv inv (m := ⟨name, data, none, offset, _⟩) (lookup_epoch _ _) ?_
        refine looked.append (m := ⟨name, data, none, offset, _⟩) mapped larger ?_ appended
        intro nonempty
        rcases which with ⟨same, was⟩ | ⟨new, -⟩
        · rw [same] at nonempty larger ⊢
          have := gapless 0 was nonempty
          simp only
          omega
        · rw [new] at nonempty
          exact absurd rfl nonempty
    · cases stepped
  | historyFrom name epoch offset =>
    simp only [step, Option.map_eq_some_iff] at stepped
    obtain ⟨-, -, rfl⟩ := stepped
    exact inv
  | expire now =>
    simp only [step] at stepped
    split at stepped
    · cases stepped
      exact ⟨fun st => (inv.streams st).expire now, inv.epochs⟩
    · cases stepped

/-- The property follows from the invariant. -/
theorem Inv.positionsIdentify {s : Ledger} (inv : Inv s) : PositionsIdentify s := by
  constructor
  · intro name
    exact List.pairwise_map.mpr (inv.streams name).increasing
  · intro before m after split later member same history read
    have issued : later ∈ s.issued := by simp [split, member]
    have above : m.offset < later.offset := by
      have order := (inv.streams m.stream).increasing
      rw [split] at order
      simp only [List.filter_append, List.filter_cons, beq_self_eq_true, if_true] at order
      have tail := (List.pairwise_append.mp order).2.1
      exact (List.pairwise_cons.mp tail).1 later (List.mem_filter.mpr ⟨member, by simpa using same⟩)
    obtain ⟨r, got, read⟩ := historyFrom_ok read
    exact (inv.streams m.stream).read_complete (historyGet_ok got).2 read issued same above

/-- In every run in which no call goes to a stream that `expire` has dropped, no
broadcast finds the counter at its last value and no `Store` skips an offset of a
record that holds entries, a position identifies one message in every state reached. -/
theorem positions_identify_unless_dropped (config : Config) (epoch : String) (clock : Nat)
    (schedule : List Op) (s : Ledger)
    (careful : Run.Meets step Careful (Ledger.start config epoch clock) schedule)
    (ran : Run.exec step (Ledger.start config epoch clock) schedule = some s) :
    PositionsIdentify s :=
  (Run.invariant_of_meets (fun _ _ _ inv ok stepped => step_inv inv ok stepped)
    (inv_start config epoch clock) careful ran).positionsIdentify

/-- Two broadcasts an hour apart, with an expiry run before the second one: it is
dropped from the map in between and stays the same stream under the same epoch. -/
def idleHour : List Op :=
  [.handleBroadcast ⟨"chat", "before", none, 0, ""⟩ (1700000000 * second),
   .expire (1700003600 * second),
   .handleBroadcast ⟨"chat", "after", none, 0, ""⟩ (1700003600 * second)]

/-- With the default configuration both messages of `idleHour` get offset 1. -/
theorem position_reused :
    ¬ ∀ (config : Config) (epoch : String) (clock : Nat) (schedule : List Op) (s : Ledger),
      Run.exec step (Ledger.start config epoch clock) schedule = some s → PositionsIdentify s := by
  intro always
  have identified := always {} "vRXl" 0 idleHour _ rfl
  exact absurd (identified.increasing "chat") (by decide)

/-- Three broadcasts within the time to live, with a store to another stream and an
expiry run in between. -/
def busyStream : List Op :=
  [.handleBroadcast ⟨"chat", "a", none, 0, ""⟩ (100 * second),
   .store "other" "x" 7 none (100 * second),
   .handleBroadcast ⟨"chat", "b", none, 0, ""⟩ (200 * second),
   .expire (300 * second),
   .handleBroadcast ⟨"chat", "c", none, 0, ""⟩ (300 * second),
   .historyFrom "chat" "vRXl" 1]

theorem busyStream_identified :
    ∃ s, Run.exec step (Ledger.start {} "vRXl" 0) busyStream = some s ∧
      s.issued.map (·.offset) = [1, 7, 2, 3] ∧ PositionsIdentify s :=
  ⟨_, rfl, rfl, positions_identify_unless_dropped {} "vRXl" 0 busyStream _ (by decide) rfl⟩

end AnyCable.Guarantees.Positions
