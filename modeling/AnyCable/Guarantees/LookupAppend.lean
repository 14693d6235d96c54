import AnyCable.Lib.Run
import AnyCable.Source.History
import Mathlib.Data.List.TakeWhile

/-!
# Broadcasts between the lookup and the append

`Memory.add` and `Memory.Store` (`broker/memory.go:391-407,593-609`) look the record of
a stream up under `streamsMu`, release it, and append under the record's own lock. Any
number of calls may be between the two sections while the background `expire`
(`broker/memory.go:625-645`) runs under `streamsMu`.

A record is published with deadline 0 before its first append, so an expiry in
between detaches it and the message goes to a record no reader finds
(`append_after_expire_lost`). If no expiry meets a passed deadline of a record that is
about to be appended to, and the deadline an append sets is not earlier than the end
of the message's own time to live, every completed append stays readable until it is
evicted or too old (`nothing_lost_unless_detached`). For a message that is stamped when it
is appended the second condition is one on `HistoryTTL` (`Memstream.lastingRanges`).
-/

set_option autoImplicit false

namespace AnyCable.Guarantees.LookupAppend
open AnyCable.Lib AnyCable.Source

/-- What a call does in its second section. -/
inductive Kind where
  | add (data : String)
  | insert (data : String) (offset : Nat) (t : Option Instant)
  deriving DecidableEq

/-- A call between its two sections, with the record it has looked up. -/
structure Call where
  name : String
  record : Nat
  kind : Kind
  deriving DecidableEq

/-- A completed append. -/
structure Appended where
  stream : String
  entry : Entry
  deriving DecidableEq

structure State where
  broker : History
  clock : Instant
  calls : List Call
  done : List Appended

def State.start (config : Config) (epoch : String) (clock : Nat) : State :=
  { broker := History.new config epoch, clock, calls := [], done := [] }

inductive Act where
  | lookup (name : String) (kind : Kind)
  | append (i : Nat) (now : Instant)
  | expire (now : Instant)

/-- The timestamp the second section gives its entry. -/
def Kind.timestamp (now : Instant) : Kind → Int
  | .add _ => unix now
  | .insert _ _ t => unix (t.getD now)

/-- The second section: the broker afterwards, and the entry unless it was refused. -/
def appendCall (b : History) (c : Call) (now : Instant) : Option (History × Option Entry) :=
  match c.kind with
  | .add data => do
    let (b, offset) ← b.appendTo c.name c.record data now
    return (b, some ⟨c.kind.timestamp now, offset, data⟩)
  | .insert data offset t => do
    let (b, res) ← b.insertTo c.name c.record data offset t now
    return (b, match res with
      | .ok o => some ⟨c.kind.timestamp now, o, data⟩
      | .error _ => none)

def step (s : State) : Act → Option State
  | .lookup name kind =>
    let (broker, record) := s.broker.lookup name
    some { s with broker, calls := s.calls ++ [⟨name, record, kind⟩] }
  | .append i now =>
    match s.calls[i]? with
    | none => none
    | some c =>
      if s.clock ≤ now then do
        let (broker, entry) ← appendCall s.broker c now
        return { broker, clock := now, calls := s.calls.eraseIdx i,
                 done := s.done ++ (entry.map (Appended.mk c.name)).toList }
      else none
  | .expire now =>
    if s.clock ≤ now then some { s with broker := s.broker.expire now, clock := now } else none

/-- The property of one state: an append that is neither evicted by the limit nor older
than the time to live is returned by `HistorySince`. -/
def Retrievable (s : State) : Prop :=
  ∀ before d after, s.done = before ++ d :: after →
    ((after.filter (·.stream == d.stream)).length : Int) < s.broker.config.historyLimit →
    unix s.clock - d.entry.timestamp ≤ s.broker.config.historyTTL.toInt →
    ∀ since ≤ d.entry.timestamp,
      History.toMessage d.stream s.broker.epoch d.entry ∈ s.broker.historySince d.stream since

/-- No broadcast is lost: completed appends are readable, and those still to come go to
the record their stream is mapped to. -/
structure NothingLost (s : State) : Prop where
  retrievable : Retrievable s
  attached : ∀ c ∈ s.calls, s.broker.streams c.name = some c.record

/-- The record outlives a message that is stamped at `now`, or at the time it was stored with; or
the message is too old from the start. -/
def Outlives (ttl : Int64) (now : Instant) : Kind → Prop
  | .add _ | .insert _ _ none => Memstream.Lasting ttl ∨ ttl.toInt < 0
  | .insert _ _ (some t) => unix t + ttl.toInt ≤ unix (now + Memstream.keepAlive ttl) ∨
      unix t + ttl.toInt < unix now

/-- The condition on a step and the state it is taken in. -/
def Undisturbed (s : State) : Act → Prop
  | .lookup .. => True
  | .append i now => ∀ c ∈ s.calls[i]?, Outlives s.broker.config.historyTTL now c.kind
  | .expire now => ∀ c ∈ s.calls, unix now ≤ (s.broker.records c.name c.record).deadline

instance (ttl : Int64) (now : Instant) : (kind : Kind) → Decidable (Outlives ttl now kind)
  | .add _ | .insert _ _ none => inferInstanceAs (Decidable (Memstream.Lasting ttl ∨ _ < _))
  | .insert _ _ (some _) => inferInstanceAs (Decidable (_ ≤ _ ∨ _ < _))

instance (s : State) : (a : Act) → Decidable (Undisturbed s a)
  | .lookup .. => isTrue trivial
  | .append i now => inferInstanceAs (Decidable (∀ c ∈ s.calls[i]?,
      Outlives s.broker.config.historyTTL now c.kind))
  | .expire now => inferInstanceAs (Decidable
      (∀ c ∈ s.calls, unix now ≤ (s.broker.records c.name c.record).deadline))

/-- The entries appended to a stream. -/
def entriesOf (done : List Appended) (name : String) : List Entry :=
  (done.filter (·.stream == name)).map (·.entry)

/-- `data` is the end of the log, and each entry before it was evicted by the limit or
is past its time to live. -/
def Kept (config : Config) (clock : Instant) (log data : List Entry) : Prop :=
  ∃ gone, log = gone ++ data ∧ ∀ (i : Nat) (e : Entry), gone[i]? = some e →
    config.historyLimit + i + 1 ≤ log.length ∨
      e.timestamp + config.historyTTL.toInt < unix clock

theorem Kept.nil (config : Config) (clock : Instant) : Kept config clock [] [] :=
  ⟨[], rfl, by simp⟩

theorem Kept.later {config : Config} {clock now : Instant} {log data : List Entry}
    (kept : Kept config clock log data) (forward : clock ≤ now) : Kept config now log data := by
  obtain ⟨gone, split, why⟩ := kept
  refine ⟨gone, split, fun i e found => (why i e found).imp_right fun old => ?_⟩
  have := unix_mono forward
  omega

/-- Entries at the front of the retained part may go once they are too old. -/
theorem Kept.drop {config : Config} {clock : Instant} {log cut data : List Entry}
    (kept : Kept config clock log (cut ++ data))
    (old : ∀ e ∈ cut, e.timestamp + config.historyTTL.toInt < unix clock) :
    Kept config clock log data := by
  obtain ⟨gone, split, why⟩ := kept
  refine ⟨gone ++ cut, by rw [split, List.append_assoc], fun i e found => ?_⟩
  by_cases inside : i < gone.length
  · rw [List.getElem?_append_left inside] at found
    exact why i e found
  · rw [List.getElem?_append_right (by omega)] at found
    exact Or.inr (old e (List.mem_of_getElem? found))

/-- An append adds to the end and evicts the first retained entry of a full record. -/
theorem Kept.append {config : Config} {clock : Instant} {log data : List Entry} {e : Entry}
    {after : List Entry} (kept : Kept config clock log data)
    (shape : after = data ++ [e] ∨
      after = data.tail ++ [e] ∧ data ≠ [] ∧ config.historyLimit ≤ data.length) :
    Kept config clock (log ++ [e]) after := by
  obtain ⟨gone, split, why⟩ := kept
  have longer : ∀ (i : Nat) (old : Entry), gone[i]? = some old →
      config.historyLimit + i + 1 ≤ (log ++ [e]).length ∨
        old.timestamp + config.historyTTL.toInt < unix clock := by
    intro i old found
    refine (why i old found).imp_left fun evicted => ?_
    simp only [List.length_append, List.length_singleton]
    omega
  rcases shape with rfl | ⟨rfl, nonempty, full⟩
  · exact ⟨gone, by rw [split, List.append_assoc], longer⟩
  · obtain ⟨first, rest, rfl⟩ := List.exists_cons_of_ne_nil nonempty
    refine ⟨gone ++ [first], by simp [split], fun i old found => ?_⟩
    by_cases inside : i < gone.length
    · rw [List.getElem?_append_left inside] at found
      exact longer i old found
    · have len := (List.getElem?_eq_some_iff.mp found).1
      simp only [List.length_append, List.length_cons, List.length_nil] at len full
      refine Or.inl ?_
      simp only [split, List.length_append, List.length_cons, List.length_nil]
      omega

/-- The state of one stream. -/
structure StreamInv (s : State) (name : String) : Prop where
  missing : s.broker.streams name = none →
    Kept s.broker.config s.clock (entriesOf s.done name) []
  mapped : ∀ r, s.broker.streams name = some r →
    Kept s.broker.config s.clock (entriesOf s.done name) (s.broker.records name r).data
  settings : ∀ r, s.broker.streams name = some r →
    (s.broker.records name r).ttl = s.broker.config.historyTTL ∧
      (s.broker.records name r).limit = s.broker.config.historyLimit
  deadline : ∀ r, s.broker.streams name = some r → ∀ e ∈ (s.broker.records name r).data,
    e.timestamp + s.broker.config.historyTTL.toInt ≤ (s.broker.records name r).deadline ∨
      e.timestamp + s.broker.config.historyTTL.toInt < unix s.clock
  /-- No later append lowers the deadline. -/
  bounded : ∀ r, s.broker.streams name = some r → (s.broker.records name r).data ≠ [] →
    (s.broker.records name r).deadline ≤
      unix (s.clock + Memstream.keepAlive s.broker.config.historyTTL)

structure Inv (s : State) : Prop where
  now : 0 ≤ s.clock
  streams : ∀ name, StreamInv s name
  attached : ∀ c ∈ s.calls, s.broker.streams c.name = some c.record

theorem inv_start (config : Config) (epoch : String) (clock : Nat) :
    Inv (State.start config epoch clock) where
  now := Int.natCast_nonneg clock
  streams name :=
    ⟨fun _ => Kept.nil _ _, by simp [State.start, History.new], by simp [State.start, History.new],
      by simp [State.start, History.new], by simp [State.start, History.new]⟩
  attached := by simp [State.start]

theorem appendCall_cases {b after : History} {c : Call} {now : Instant} {entry : Option Entry}
    (ran : appendCall b c now = some (after, entry)) :
    (entry = none ∧ after = b.setRecord c.name c.record (b.records c.name c.record)) ∨
    ∃ e ms, entry = some e ∧ e.timestamp = c.kind.timestamp now ∧
      Memstream.appendEntry { b.records c.name c.record with offset := e.offset } e now = some ms ∧
      after = b.setRecord c.name c.record ms := by
  unfold appendCall at ran
  split at ran
  next data kind =>
    simp only [Option.bind_eq_bind, Option.bind_eq_some_iff, pure, Option.some.injEq,
      Prod.mk.injEq] at ran
    obtain ⟨⟨b', offset⟩, added, rfl, rfl⟩ := ran
    obtain ⟨-, ms, appended, rfl⟩ := History.appendTo_eq_some added
    exact Or.inr ⟨_, ms, rfl, rfl, by simpa [kind, Kind.timestamp] using appended, rfl⟩
  next data offset t kind =>
    simp only [Option.bind_eq_bind, Option.bind_eq_some_iff, pure, Option.some.injEq,
      Prod.mk.injEq] at ran
    obtain ⟨⟨b', res⟩, inserted, rfl, rfl⟩ := ran
    rcases History.insertTo_cases inserted with ⟨-, rfl, err, rfl⟩ | ⟨-, rfl, ms, appended, rfl⟩
    · exact Or.inl ⟨rfl, rfl⟩
    · exact Or.inr ⟨_, ms, rfl, rfl, by simpa [kind, Kind.timestamp] using appended, rfl⟩

theorem entriesOf_append (done more : List Appended) (name : String) :
    entriesOf (done ++ more) name = entriesOf done name ++ entriesOf more name := by
  simp [entriesOf]

/-- Time passes without touching the broker. -/
theorem StreamInv.later {s : State} {name : String} (inv : StreamInv s name) {now : Instant}
    (forward : s.clock ≤ now) : StreamInv { s with clock := now } name where
  missing none := (inv.missing none).later forward
  mapped r mapped := (inv.mapped r mapped).later forward
  settings := inv.settings
  deadline r mapped e member := (inv.deadline r mapped e member).imp_right fun old =>
    Int.lt_of_lt_of_le old (unix_mono forward)
  bounded r mapped nonempty := Int.le_trans (inv.bounded r mapped nonempty)
    (unix_mono (Int.add_le_add_right forward _))

/-- A stream whose record, mapping and log did not change keeps its invariant. -/
theorem StreamInv.frame {s t : State} {name : String} (inv : StreamInv s name)
    (config : t.broker.config = s.broker.config) (clock : t.clock = s.clock)
    (streams : t.broker.streams name = s.broker.streams name)
    (records : ∀ r, s.broker.streams name = some r →
      t.broker.records name r = s.broker.records name r)
    (log : entriesOf t.done name = entriesOf s.done name) : StreamInv t name where
  missing none := by
    rw [config, clock, log]
    exact inv.missing (streams ▸ none)
  mapped r mapped := by
    rw [streams] at mapped
    rw [config, clock, log, records r mapped]
    exact inv.mapped r mapped
  settings r mapped := by
    rw [streams] at mapped
    rw [config, records r mapped]
    exact inv.settings r mapped
  deadline r mapped := by
    rw [streams] at mapped
    rw [config, clock, records r mapped]
    exact inv.deadline r mapped
  bounded r mapped := by
    rw [streams] at mapped
    rw [config, clock, records r mapped]
    exact inv.bounded r mapped

theorem lookup_inv {s : State} (inv : Inv s) (name : String) (kind : Kind) :
    Inv { s with
      broker := (s.broker.lookup name).1
      calls := s.calls ++ [⟨name, (s.broker.lookup name).2, kind⟩] } := by
  rcases History.lookup_cases s.broker name with ⟨r, mapped, eq⟩ | ⟨missing, eq⟩
  · rw [eq]
    refine ⟨inv.now, fun st => (inv.streams st).frame rfl rfl rfl (fun _ _ => rfl) rfl, ?_⟩
    intro c member
    rcases List.mem_append.mp member with old | new
    · exact inv.attached c old
    · rw [List.mem_singleton.mp new]
      exact mapped
  · rw [eq]
    refine ⟨inv.now, fun st => ?_, ?_⟩
    · by_cases same : st = name
      · subst same
        constructor
        · intro none
          simp at none
        all_goals
          intro r mapped
          simp only [Function.update_self, Option.some.injEq] at mapped
          subst mapped
        · simpa [History.newRecord] using (inv.streams st).missing missing
        · simp [History.newRecord]
        · simp [History.newRecord]
        · simp [History.newRecord]
      · refine (inv.streams st).frame rfl rfl (by simp [same]) (fun r _ => ?_) rfl
        exact History.setRecord_other _ _ (Or.inl same)
    · intro c member
      rcases List.mem_append.mp member with old | new
      · have kept := inv.attached c old
        have different : c.name ≠ name := by
          intro same
          rw [same, missing] at kept
          cases kept
        simpa [different] using kept
      · rw [List.mem_singleton.mp new]
        simp

/-- The deadline set at `now` does not precede the end of the message's time to live, or the
message is too old from the start. -/
theorem Outlives.deadline {ttl : Int64} {now : Instant} {kind : Kind}
    (outlives : Outlives ttl now kind) :
    kind.timestamp now + ttl.toInt ≤ unix (now + Memstream.keepAlive ttl) ∨
      kind.timestamp now + ttl.toInt < unix now := by
  have stamped : Memstream.Lasting ttl ∨ ttl.toInt < 0 →
      unix now + ttl.toInt ≤ unix (now + Memstream.keepAlive ttl) ∨
        unix now + ttl.toInt < unix now := by
    rintro (lasting | negative)
    · exact Or.inl (Memstream.le_deadline lasting now)
    · exact Or.inr (by omega)
  match kind with
  | .add _ | .insert _ _ none => exact stamped outlives
  | .insert _ _ (some t) => exact outlives

/-- A completed append to the mapped record of its stream. -/
theorem append_streamInv {s : State} {name : String} {r : Nat} {e : Entry} {ms : Memstream}
    {now : Instant} {calls : List Call} (inv : StreamInv s name)
    (mapped : s.broker.streams name = some r) (forward : s.clock ≤ now)
    (outlives : e.timestamp + s.broker.config.historyTTL.toInt ≤
        unix (now + Memstream.keepAlive s.broker.config.historyTTL) ∨
      e.timestamp + s.broker.config.historyTTL.toInt < unix now)
    (appended : Memstream.appendEntry { s.broker.records name r with offset := e.offset } e now
      = some ms) :
    StreamInv { broker := s.broker.setRecord name r ms, clock := now, calls := calls,
                done := s.done ++ [⟨name, e⟩] } name := by
  obtain ⟨shape, -, ttl, limit, deadline, -⟩ := Memstream.appendEntry_spec appended
  simp only at shape ttl limit deadline
  have settings := inv.settings r mapped
  have log : entriesOf (s.done ++ [⟨name, e⟩]) name = entriesOf s.done name ++ [e] := by
    simp [entriesOf]
  have later := inv.later forward
  rw [settings.1] at deadline
  constructor
  · intro none
    simp [mapped] at none
  all_goals
    intro r' mapped'
    have same : r' = r := by simpa [mapped] using mapped'.symm
    subst same
    simp only [History.setRecord_same, History.setRecord_config]
  · rw [log]
    refine (later.mapped r' mapped).append ?_
    rcases shape with ⟨grown, -⟩ | ⟨moved, nonempty, full⟩
    · exact Or.inl grown
    · exact Or.inr ⟨moved, nonempty, by rw [← settings.2]; exact full⟩
  · exact ⟨ttl.trans settings.1, limit.trans settings.2⟩
  · intro old member
    rw [deadline]
    have origin : old ∈ (s.broker.records name r').data ∨ old = e := by
      rcases shape with ⟨grown, -⟩ | ⟨moved, -, -⟩
      · simpa [grown] using member
      · rw [moved] at member
        rcases List.mem_append.mp member with tail | new
        · exact Or.inl (List.mem_of_mem_tail tail)
        · exact Or.inr (List.mem_singleton.mp new)
    rcases origin with before | rfl
    · have nonempty : (s.broker.records name r').data ≠ [] := List.ne_nil_of_mem before
      have bound := later.bounded r' mapped nonempty
      exact (later.deadline r' mapped old before).imp_left fun kept => Int.le_trans kept bound
    · exact outlives
  · intro _
    exact Int.le_of_eq deadline

theorem append_inv {s : State} {i : Nat} {c : Call} {now : Instant} {after : History}
    {entry : Option Entry} (inv : Inv s) (found : s.calls[i]? = some c)
    (forward : s.clock ≤ now)
    (outlives : Outlives s.broker.config.historyTTL now c.kind)
    (ran : appendCall s.broker c now = some (after, entry)) :
    Inv { broker := after, clock := now, calls := s.calls.eraseIdx i,
          done := s.done ++ (entry.map (Appended.mk c.name)).toList } := by
  have mapped := inv.attached c (List.mem_of_getElem? found)
  have attached : ∀ other ∈ s.calls.eraseIdx i, s.broker.streams other.name = some other.record :=
    fun other member => inv.attached other (List.mem_of_mem_eraseIdx member)
  rcases appendCall_cases ran with ⟨rfl, rfl⟩ | ⟨e, ms, rfl, stamped, appended, rfl⟩
  · refine ⟨Int.le_trans inv.now forward, fun st => ?_, attached⟩
    refine ((inv.streams st).later forward).frame rfl rfl rfl (fun r _ => ?_) (by simp)
    by_cases same : st = c.name ∧ r = c.record
    · obtain ⟨rfl, rfl⟩ := same
      simp
    · exact History.setRecord_other _ _ (by tauto)
  · refine ⟨Int.le_trans inv.now forward, fun st => ?_, attached⟩
    by_cases same : st = c.name
    · subst same
      exact append_streamInv (inv.streams c.name) mapped forward (stamped ▸ outlives.deadline) appended
    · refine ((inv.streams st).later forward).frame rfl rfl rfl (fun r _ => ?_) ?_
      · exact History.setRecord_other _ _ (Or.inl same)
      · have : (c.name == st) = false := by simpa using Ne.symm same
        simp [entriesOf, this]

theorem expire_streamInv {s : State} {name : String} {now : Instant} (inv : StreamInv s name)
    (started : 0 ≤ s.clock) (forward : s.clock ≤ now) :
    StreamInv { s with broker := s.broker.expire now, clock := now } name := by
  have later := inv.later forward
  have nonneg : 0 ≤ unix now := Int.ediv_nonneg (Int.le_trans started forward) (by decide)
  constructor
  · intro none
    cases was : s.broker.streams name with
    | none => exact later.missing was
    | some r =>
      -- the record was dropped, so its deadline and with it every entry has passed
      have passed : (s.broker.records name r).deadline < unix now := by
        by_contra alive
        have mapped : (s.broker.expire now).streams name = some r :=
          History.expire_streams.mpr ⟨was, Int.not_lt.mp alive⟩
        simp only at none
        rw [mapped] at none
        cases none
      have kept := later.mapped r was
      rw [← List.append_nil (s.broker.records name r).data] at kept
      refine kept.drop fun e member => ?_
      rcases later.deadline r was e member with before | old
      · exact Int.lt_of_le_of_lt before passed
      · exact old
  all_goals
    intro r mapped
    obtain ⟨was, alive⟩ := History.expire_streams.mp mapped
    simp only [History.expire, was, if_true, Memstream.expire]
  · have kept := later.mapped r was
    rw [← List.takeWhile_append_dropWhile (l := (s.broker.records name r).data)
      (p := fun e => decide (e.timestamp < int64 (unix now - (s.broker.records name r).ttl.toInt)))]
      at kept
    refine kept.drop fun e member => ?_
    have old := List.mem_takeWhile_imp member
    have wraps := int64_le (x := unix now - (s.broker.records name r).ttl.toInt)
      (by have := Int64.toInt_lt (s.broker.records name r).ttl; omega)
    have ttl := (later.settings r was).1
    simp only [decide_eq_true_eq] at old
    simp only at ttl
    rw [ttl] at old wraps
    simp only
    omega
  · exact later.settings r was
  · intro e member
    exact later.deadline r was e ((List.dropWhile_sublist _).subset member)
  · intro nonempty
    refine later.bounded r was fun empty => nonempty ?_
    simp only at empty
    simp [empty]

theorem step_inv {s next : State} {a : Act} (inv : Inv s) (undisturbed : Undisturbed s a)
    (stepped : step s a = some next) : Inv next := by
  cases a with
  | lookup name kind =>
    simp only [step, Option.some.injEq] at stepped
    subst stepped
    exact lookup_inv inv name kind
  | append i now =>
    simp only [step] at stepped
    split at stepped
    · cases stepped
    next c found =>
      split at stepped
      next forward =>
        simp only [Option.bind_eq_bind, Option.bind_eq_some_iff, pure, Option.some.injEq] at stepped
        obtain ⟨⟨after, entry⟩, ran, rfl⟩ := stepped
        exact append_inv inv found forward (undisturbed c found) ran
      · cases stepped
  | expire now =>
    simp only [step] at stepped
    split at stepped
    next forward =>
      cases stepped
      refine ⟨Int.le_trans inv.now forward,
        fun name => expire_streamInv (inv.streams name) inv.now forward, ?_⟩
      intro c member
      exact History.expire_streams.mpr ⟨inv.attached c member, undisturbed c member⟩
    · cases stepped

theorem Inv.retrievable {s : State} (inv : Inv s) : Retrievable s := by
  intro before d after split evicted old since early
  have log : entriesOf s.done d.stream =
      entriesOf before d.stream ++ d.entry :: entriesOf after d.stream := by
    rw [split, entriesOf_append]
    simp [entriesOf]
  have count : (entriesOf after d.stream).length =
      (after.filter (·.stream == d.stream)).length := by simp [entriesOf]
  -- the position of the entry in its stream's log decides whether it is retained
  have retained : ∀ data, Kept s.broker.config s.clock (entriesOf s.done d.stream) data →
      d.entry ∈ data := by
    rintro data ⟨gone, shape, why⟩
    have place : (entriesOf s.done d.stream)[(entriesOf before d.stream).length]? =
        some d.entry := by rw [log]; simp
    by_cases inside : (entriesOf before d.stream).length < gone.length
    · have found := place
      rw [shape, List.getElem?_append_left inside] at found
      rcases why _ _ found with byLimit | byAge
      · rw [log] at byLimit
        simp only [List.length_append, List.length_cons] at byLimit
        omega
      · omega
    · rw [shape, List.getElem?_append_right (by omega)] at place
      exact List.mem_of_getElem? place
  unfold History.historySince History.get
  cases mapped : s.broker.streams d.stream with
  | none => exact absurd (retained [] ((inv.streams d.stream).missing mapped)) (by simp)
  | some r =>
    have member := retained _ ((inv.streams d.stream).mapped r mapped)
    refine List.mem_map.mpr ⟨d.entry, ?_, rfl⟩
    exact List.mem_filter.mpr ⟨member, by simpa using early⟩

/-- In every interleaving in which no expiry detaches a record that a call is about to
append to, and no append sets a deadline before the end of its message's time to live,
nothing is lost in any state reached. -/
theorem nothing_lost_unless_detached (config : Config) (epoch : String) (clock : Nat)
    (schedule : List Act) (s : State)
    (undisturbed : Run.Meets step Undisturbed (State.start config epoch clock) schedule)
    (ran : Run.exec step (State.start config epoch clock) schedule = some s) :
    NothingLost s := by
  have inv := Run.invariant_of_meets (fun _ _ _ inv ok stepped => step_inv inv ok stepped)
    (inv_start config epoch clock) undisturbed ran
  exact ⟨inv.retrievable, inv.attached⟩

/-- A broadcast to a new stream with an expiry between its two sections. -/
def expiredBetween : List Act :=
  [.lookup "chat" (.add "hi"), .expire (1700000000 * second), .append 0 (1700000000 * second)]

theorem append_after_expire_lost :
    ¬ ∀ (config : Config) (epoch : String) (clock : Nat) (schedule : List Act) (s : State),
      Run.exec step (State.start config epoch clock) schedule = some s → NothingLost s := by
  intro always
  have retrievable := (always {} "vRXl" 0 expiredBetween _ rfl).retrievable
  exact absurd (retrievable [] ⟨"chat", ⟨1700000000, 1, "hi"⟩⟩ [] rfl (by decide) (by decide) 0
    (by decide)) (by decide)

/-- Two overlapping broadcasts and a store; the expiry runs only on records in use. -/
def overlapping : List Act :=
  [.lookup "chat" (.add "a"), .lookup "chat" (.add "b"), .append 1 (100 * second),
   .lookup "chat" (.insert "c" 9 none), .expire (101 * second), .append 0 (102 * second),
   .append 0 (103 * second), .expire (104 * second)]

theorem overlapping_nothing_lost :
    ∃ s, Run.exec step (State.start {} "vRXl" 0) overlapping = some s ∧
      s.done.map (·.entry.offset) = [1, 2, 9] ∧ NothingLost s :=
  ⟨_, rfl, rfl, nothing_lost_unless_detached {} "vRXl" 0 overlapping _ (by decide) rfl⟩

end AnyCable.Guarantees.LookupAppend
