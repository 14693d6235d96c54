import AnyCable.Lib.Run
import AnyCable.Source.History
import AnyCable.Source.Lru
import AnyCable.Source.Tracker

/-!
# Consumers of tracked streams

The NATS broker creates a JetStream consumer for a stream when its first subscriber comes
(`broker/nats.go:344-363,522-587`), and keeps it in a cache whose entries expire while it is written
to for some other stream (`broker/nats.go:787-835`). Nothing refreshes an entry, and the tracker
reports a stream as new once: `HistoryTTL` after its first subscriber came, the next new stream
takes the consumer away (`consumer_deleted`).

Every tracked stream has a consumer, in every state of a run, if and only if no write to the cache
expires the only consumer of a tracked stream (`consumed_iff_spared`). A stream has another one if
its entry was replaced after it had become stale, since a replaced entry is not cleaned up.

No JetStream call fails. The calls come one after the other, and time passes between them and
within them.
-/

set_option autoImplicit false

namespace AnyCable.Guarantees.StreamConsumers
open AnyCable.Lib AnyCable.Source

/-- What `NATS` knows of streams and consumers, and the consumers that exist. A consumer has a
stream and a name of its own. -/
structure State where
  interest : Interest := ⟨.new, {}⟩
  jstreams : Lru String
  jconsumers : Lru Nat
  consumers : List (String × Nat) := []
  created : Nat := 0
  clock : Instant

/-- `time.Duration(c.HistoryTTL * int64(time.Second))`. -/
def historyTTL (config : Config) : Int := (config.historyTTL * 1000000000).toInt

/-- The part of `NewNATSBroker`. -/
def State.start (config : Config) (clock : Instant) : State :=
  { jstreams := { ttl := historyTTL config }, jconsumers := { ttl := historyTTL config }
    clock := clock }

/-- How long the two fetches of a `Subscribe` take. -/
structure Timing where
  streams : Pace := {}
  consumers : Pace := {}

/-- The cleanup deletes the consumer. -/
def addStreamConsumer (x : State) (stream : String) (now : Instant) (timing : Timing) : State :=
  let x := { x with jstreams := (x.jstreams.fetch stream (.ok stream) now timing.streams).cache }
  let f := x.jconsumers.fetch stream (.ok x.created) now timing.consumers
  if f.called then
    { x with jconsumers := f.cache, created := x.created + 1
             consumers := (x.consumers ++ [(stream, x.created)]).filter (· ∉ f.gone) }
  else x

inductive Act where
  | subscribe (stream : String) (now : Instant) (timing : Timing)
  | unsubscribe (stream : String) (now : Instant)

def step (x : State) : Act → Option State
  | .subscribe stream now timing =>
    if x.clock ≤ now then
      let x' := { x with interest := x.interest.subscribe stream, clock := now }
      some (if (x.interest.tracker.add stream).2 then addStreamConsumer x' stream now timing
        else x')
    else none
  | .unsubscribe stream now =>
    if x.clock ≤ now then
      some { x with interest := x.interest.unsubscribe stream, clock := now }
    else none

/-- Every tracked stream has a consumer. -/
def Consumed (x : State) : Prop :=
  ∀ stream, x.interest.tracker.has stream = true → ∃ name, (stream, name) ∈ x.consumers

/-- The cache when the entries are looked at. -/
def written (x : State) (stream : String) (now : Instant) (timing : Timing) : Lru Nat :=
  x.jconsumers.put stream x.created (timing.consumers.written now)

/-- A tracked stream whose entry expires has another consumer. -/
def Spares (x : State) : Act → Prop
  | .subscribe stream now timing => x.interest.tracker.has stream = false →
    x.jconsumers.read stream (now + timing.consumers.read) = none →
    ∀ p ∈ (written x stream now timing).entries.toPairs,
      (p.1 = stream ∨ x.interest.tracker.has p.1 = true) →
      x.jconsumers.isStale p.2 (timing.consumers.expired now p.1) = true →
      ∃ c ∈ x.consumers, c.1 = p.1 ∧ c.2 ≠ p.2.value
  | .unsubscribe .. => True

instance (x : State) : (a : Act) → Decidable (Spares x a)
  | .subscribe stream now timing => inferInstanceAs (Decidable
      (x.interest.tracker.has stream = false →
        x.jconsumers.read stream (now + timing.consumers.read) = none →
        ∀ p ∈ (written x stream now timing).entries.toPairs,
          (p.1 = stream ∨ x.interest.tracker.has p.1 = true) →
          x.jconsumers.isStale p.2 (timing.consumers.expired now p.1) = true →
          ∃ c ∈ x.consumers, c.1 = p.1 ∧ c.2 ≠ p.2.value))
  | .unsubscribe .. => isTrue trivial

section Steps

variable {x y : State} {stream : String} {now : Instant} {timing : Timing}

/-- A consumer from the cache. -/
theorem addStreamConsumer_hit {name : Nat}
    (hit : x.jconsumers.read stream (now + timing.consumers.read) = some name) :
    addStreamConsumer x stream now timing =
      { x with jstreams := (x.jstreams.fetch stream (.ok stream) now timing.streams).cache } := by
  simp [addStreamConsumer, Lru.fetch_hit hit]

/-- A new consumer; entries that have become stale take theirs with them. -/
theorem addStreamConsumer_miss
    (miss : x.jconsumers.read stream (now + timing.consumers.read) = none) :
    addStreamConsumer x stream now timing = { x with
      jstreams := (x.jstreams.fetch stream (.ok stream) now timing.streams).cache
      jconsumers := ((written x stream now timing).expire (timing.consumers.expired now)).1
      created := x.created + 1
      consumers := (x.consumers ++ [(stream, x.created)]).filter
        (· ∉ ((written x stream now timing).expire (timing.consumers.expired now)).2) } := by
  simp only [addStreamConsumer, Lru.fetch_create miss, if_true, written]
  rfl

/-- Cached consumers exist, and names are used once. -/
structure Cached (x : State) : Prop where
  alive : ∀ key entry, x.jconsumers.entries.lookup key = some entry →
    (key, entry.value) ∈ x.consumers
  named : ∀ c ∈ x.consumers, c.2 < x.created

/-- Entries at the time of the write. -/
theorem Cached.written (cached : Cached x) {key : String} {entry : LruEntry Nat}
    (found : (written x stream now timing).entries.lookup key = some entry) :
    (key, entry.value) ∈ x.consumers ++ [(stream, x.created)] := by
  simp only [StreamConsumers.written, Lru.put, GoMap.lookup_insert_apply] at found
  split at found
  next same =>
    cases found
    rw [same]
    exact List.mem_append_right _ (List.mem_singleton_self _)
  next other => exact List.mem_append_left _ (cached.alive key entry found)

/-- A consumer goes with its entry only. -/
theorem mem_left {key : String} {name : Nat} :
    (key, name) ∈ (addStreamConsumer x stream now timing).consumers ↔
      if x.jconsumers.read stream (now + timing.consumers.read) = none then
        (key, name) ∈ x.consumers ++ [(stream, x.created)] ∧
          ∀ entry, (written x stream now timing).entries.lookup key = some entry →
            x.jconsumers.isStale entry (timing.consumers.expired now key) = true →
            entry.value ≠ name
      else (key, name) ∈ x.consumers := by
  split
  next miss =>
    rw [addStreamConsumer_miss miss, List.mem_filter, decide_eq_true_iff, Lru.mem_expired]
    refine and_congr_right fun _ => ?_
    simp only [not_exists, not_and]
    rfl
  next hit =>
    obtain ⟨name', hit⟩ := Option.ne_none_iff_exists'.mp hit
    rw [addStreamConsumer_hit hit]

theorem cached_addStreamConsumer (cached : Cached x) :
    Cached (addStreamConsumer x stream now timing) := by
  cases read : x.jconsumers.read stream (now + timing.consumers.read) with
  | some name =>
    rw [addStreamConsumer_hit read]
    exact ⟨cached.alive, cached.named⟩
  | none =>
    constructor
    · intro key entry found
      rw [mem_left, if_pos read]
      rw [addStreamConsumer_miss read] at found
      obtain ⟨there, fresh⟩ := Lru.lookup_expire.mp found
      refine ⟨cached.written there, ?_⟩
      intro entry' there' stale
      cases there.symm.trans there'
      exact absurd (stale.symm.trans fresh) (by decide)
    · intro c member
      rw [addStreamConsumer_miss read] at member ⊢
      rcases List.mem_append.mp (List.mem_of_mem_filter member) with old | new
      · exact Nat.lt_succ_of_lt (cached.named c old)
      · rw [List.mem_singleton.mp new]
        exact Nat.lt_succ_self _

theorem tracker_addStreamConsumer :
    (addStreamConsumer x stream now timing).interest = x.interest := by
  cases read : x.jconsumers.read stream (now + timing.consumers.read) with
  | some name => rw [addStreamConsumer_hit read]
  | none => rw [addStreamConsumer_miss read]

end Steps

structure Inv (x : State) : Prop where
  cached : Cached x
  consumed : Consumed x

theorem inv_start (config : Config) (clock : Instant) : Inv (.start config clock) where
  cached := ⟨by simp [State.start], by simp [State.start]⟩
  consumed := by simp [Consumed, State.start, StreamsTracker.has, StreamsTracker.new]

section Runs

variable {x y : State} {a : Act}

/-- The first subscriber of a stream. -/
def entered (x : State) (stream : String) (now : Instant) (timing : Timing) : State :=
  addStreamConsumer { x with interest := x.interest.subscribe stream, clock := now }
    stream now timing

theorem has_entered {stream key : String} {now : Instant} {timing : Timing} :
    (entered x stream now timing).interest.tracker.has key = true ↔
      key = stream ∨ x.interest.tracker.has key = true := by
  rw [entered, tracker_addStreamConsumer]
  exact StreamsTracker.add_has

section Entered

variable {stream : String} {now : Instant} {timing : Timing}

theorem spares_of_entered (consumed : Consumed (entered x stream now timing)) :
    Spares x (.subscribe stream now timing) := by
  rintro - miss ⟨key, entry⟩ listed tracked stale
  have found := GoMap.lookup_of_mem_toPairs listed
  obtain ⟨name, member⟩ := consumed key (has_entered.mpr tracked)
  rw [entered, mem_left, if_pos (by exact miss)] at member
  obtain ⟨there, other⟩ := member
  have different := other entry found stale
  -- the consumer that is left is not the one just created, whose entry is the stale one
  rcases List.mem_append.mp there with old | new
  · exact ⟨(key, name), old, rfl, fun same => different same.symm⟩
  · obtain ⟨rfl, rfl⟩ := Prod.mk.inj (List.mem_singleton.mp new)
    simp only [written, Lru.put, GoMap.lookup_insert_apply, if_true, Option.some.injEq] at found
    rw [← found] at different
    exact absurd rfl different

/-- With a cached consumer for the stream nothing is written. -/
theorem consumed_of_hit (inv : Inv x) {name : Nat}
    (read : x.jconsumers.read stream (now + timing.consumers.read) = some name) :
    Consumed (entered x stream now timing) := by
  intro key tracked
  have kept : ∃ name, (key, name) ∈ x.consumers := by
    rcases has_entered.mp tracked with rfl | before
    · unfold Lru.read at read
      split at read
      · cases read
      next entry found => exact ⟨entry.value, inv.cached.alive key entry found⟩
    · exact inv.consumed key before
  obtain ⟨name', member⟩ := kept
  refine ⟨name', ?_⟩
  rw [entered, mem_left, if_neg (by rw [read]; simp)]
  exact member

/-- A consumer is created for the stream, and stale ones are deleted. -/
theorem consumed_of_miss (inv : Inv x) (first : x.interest.tracker.has stream = false)
    (read : x.jconsumers.read stream (now + timing.consumers.read) = none)
    (spares : Spares x (.subscribe stream now timing)) :
    Consumed (entered x stream now timing) := by
  intro key tracked
  rw [has_entered] at tracked
  have left : ∀ name, (key, name) ∈ (entered x stream now timing).consumers ↔
      (key, name) ∈ x.consumers ++ [(stream, x.created)] ∧
        ∀ entry, (written x stream now timing).entries.lookup key = some entry →
          x.jconsumers.isStale entry (timing.consumers.expired now key) = true →
          entry.value ≠ name := by
    intro name
    rw [entered, mem_left, if_pos (by exact read)]
    rfl
  simp only [left]
  cases found : (written x stream now timing).entries.lookup key with
  | none =>
    rcases tracked with rfl | before
    · simp [written, Lru.put] at found
    · obtain ⟨name, member⟩ := inv.consumed key before
      exact ⟨name, List.mem_append_left _ member, by simp⟩
  | some entry =>
    cases stale : x.jconsumers.isStale entry (timing.consumers.expired now key) with
    | false =>
      refine ⟨entry.value, inv.cached.written found, ?_⟩
      intro entry' same stale'
      cases same
      exact absurd (stale'.symm.trans stale) (by decide)
    | true =>
      obtain ⟨⟨_, name⟩, member, rfl, other⟩ := spares first read (key, entry)
        (GoMap.mem_toPairs_iff.mpr found) tracked stale
      refine ⟨name, List.mem_append_left _ member, ?_⟩
      intro entry' same _
      cases same
      exact fun equal => other equal.symm

/-- The consumers that a first subscriber leaves are enough exactly if it spares them. -/
theorem consumed_entered_iff (inv : Inv x) (first : x.interest.tracker.has stream = false) :
    Consumed (entered x stream now timing) ↔ Spares x (.subscribe stream now timing) := by
  constructor
  · exact spares_of_entered
  · intro spares
    cases read : x.jconsumers.read stream (now + timing.consumers.read) with
    | some name => exact consumed_of_hit inv read
    | none => exact consumed_of_miss inv first read spares

end Entered

/-- What a step does. -/
theorem step_cases (stepped : step x a = some y) :
    (∃ stream now timing, a = .subscribe stream now timing ∧
      x.interest.tracker.has stream = false ∧ y = entered x stream now timing) ∨
    (Spares x a ∧ ∃ interest clock, y = { x with interest := interest, clock := clock } ∧
      ∀ key, interest.tracker.has key = true → x.interest.tracker.has key = true) := by
  cases a with
  | subscribe stream now timing =>
    simp only [step] at stepped
    split at stepped
    · rw [StreamsTracker.add_isNew] at stepped
      cases first : x.interest.tracker.has stream with
      | false =>
        rw [first] at stepped
        cases stepped
        exact Or.inl ⟨stream, now, timing, rfl, first, rfl⟩
      | true =>
        rw [first] at stepped
        cases stepped
        refine Or.inr ⟨fun missing => absurd (first.symm.trans missing) (by decide), _, _, rfl, ?_⟩
        intro key tracked
        rcases StreamsTracker.add_has.mp tracked with rfl | before
        · exact first
        · exact before
    · cases stepped
  | unsubscribe stream now =>
    simp only [step] at stepped
    split at stepped
    · cases stepped
      exact Or.inr ⟨trivial, _, _, rfl, fun key tracked => (StreamsTracker.remove_has.mp tracked).1⟩
    · cases stepped

theorem step_inv (inv : Inv x) (spares : Spares x a) (stepped : step x a = some y) : Inv y := by
  rcases step_cases stepped with ⟨stream, now, timing, rfl, first, rfl⟩ | ⟨-, _, _, rfl, fewer⟩
  · refine ⟨cached_addStreamConsumer ⟨inv.cached.alive, inv.cached.named⟩, ?_⟩
    exact (consumed_entered_iff inv first).mpr spares
  · refine ⟨⟨inv.cached.alive, inv.cached.named⟩, fun key tracked => ?_⟩
    exact inv.consumed key (fewer key tracked)

theorem spares_of_consumed (inv : Inv x) (stepped : step x a = some y) (consumed : Consumed y) :
    Spares x a := by
  rcases step_cases stepped with ⟨stream, now, timing, rfl, first, rfl⟩ | ⟨spares, -⟩
  · exact (consumed_entered_iff inv first).mp consumed
  · exact spares

end Runs

/-- Tracked streams keep their consumers exactly if no write expires the only one of them. -/
theorem consumed_iff_spared (config : Config) (clock : Instant) (schedule : List Act) (x : State)
    (ran : Run.exec step (.start config clock) schedule = some x) :
    Run.Always step Consumed (.start config clock) schedule ↔
      Run.Meets step Spares (.start config clock) schedule :=
  Run.always_iff_meets (fun _ _ _ inv spares stepped => step_inv inv spares stepped)
    (fun _ _ _ inv stepped consumed => spares_of_consumed inv stepped consumed)
    (fun _ inv => inv.consumed) (inv_start config clock) ran

/-- The consumer of a stream without subscribers expires, and the stream gets another one. -/
def visits : List Act :=
  [.subscribe "a" 0 {}, .unsubscribe "a" 1, .subscribe "b" 301000000000 {},
   .subscribe "a" 302000000000 {}]

theorem visits_consumed :
    ∃ x, Run.exec step (.start {} 0) visits = some x ∧ x.consumers = [("b", 1), ("a", 2)] ∧
      Run.Always step Consumed (.start {} 0) visits :=
  ⟨_, rfl, by decide, (consumed_iff_spared {} 0 visits _ rfl).mpr (by decide)⟩

/-- Five minutes after the first subscriber of one stream, another stream gets its first one. -/
theorem consumer_deleted :
    ∃ x, Run.exec step (.start {} 0)
        [.subscribe "a" 0 {}, .subscribe "b" 301000000000 {}] = some x ∧
      x.interest.tracker.has "a" = true ∧ x.consumers = [("b", 1)] ∧ ¬Consumed x := by
  obtain ⟨x, ran, tracked, only⟩ : ∃ x, Run.exec step (.start {} 0)
        [.subscribe "a" 0 {}, .subscribe "b" 301000000000 {}] = some x ∧
      x.interest.tracker.has "a" = true ∧ x.consumers = [("b", 1)] :=
    ⟨_, rfl, by decide, by decide⟩
  refine ⟨x, ran, tracked, only, fun consumed => ?_⟩
  obtain ⟨name, member⟩ := consumed "a" tracked
  rw [only] at member
  simp at member

end AnyCable.Guarantees.StreamConsumers
