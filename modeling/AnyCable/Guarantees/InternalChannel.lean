import AnyCable.Guarantees.NatsSubscriptions
import AnyCable.Guarantees.RedisSubscriptions
import AnyCable.Source.Tracker

/-!
# The channel of remote commands

Source: `pubsub/redis.go:103-163`, `pubsub/nats.go:62-137` and `broker/memory.go:314-332`. `Start`
writes `config.Channel` to the table that the streams of clients are written to as well. Nothing
keeps the two apart: a stream of that name is subscribed to and unsubscribed from like any other,
and the broker passes on the last `Unsubscribe` for it (`last_reader_unsubscribes`).

For both adapters the channel is in the table in every state of a run exactly if `Unsubscribe` is
never called with its name (`channel_kept_iff`).
-/

set_option autoImplicit false

namespace AnyCable.Guarantees.InternalChannel
open AnyCable.Lib AnyCable.Source

/-- `config.Channel` as `NewRedisConfig` and `NewNATSConfig` set it. -/
def defaultChannel : String := "__anycable_internal__"

/-- The broker has been asked for a stream once and is asked to leave it. -/
theorem last_reader_unsubscribes {i : Interest} {stream : String}
    (absent : i.tracker.has stream = false) :
    ((i.subscribe stream).unsubscribe stream).broadcaster.calls =
      .unsubscribe stream :: .subscribe stream :: i.broadcaster.calls := by
  have empty : i.tracker.store stream = none := by simpa [StreamsTracker.has] using absent
  have one : (i.tracker.add stream).1.store stream = some 1 := by
    simp [StreamsTracker.store_add, empty]
  have last := StreamsTracker.remove_isLast.mpr one
  simp [Interest.subscribe, Interest.unsubscribe, StreamsTracker.add_isNew, absent, last,
    Broadcaster.record]

section Redis
open RedisSubscriptions

variable {x y : RedisSubscriber} {a : Act}

/-- Calls change the table, each at its own stream. -/
theorem mem_redis_step (stepped : step x a = some y) (stream : String) :
    stream ∈ y.subscriptions ↔
      a = .subscribe stream ∨ stream ∈ x.subscriptions ∧ a ≠ .unsubscribe stream := by
  have silent : y.subscriptions = x.subscriptions → (∀ st, a ≠ .subscribe st) →
      (∀ st, a ≠ .unsubscribe st) → (stream ∈ y.subscriptions ↔
        a = .subscribe stream ∨ stream ∈ x.subscriptions ∧ a ≠ .unsubscribe stream) := by
    intro table other another
    simp [table, other, another]
  cases a with
  | subscribe st =>
    cases stepped
    simp only [AList.mem_insert, Act.subscribe.injEq, ne_eq, reduceCtorEq, not_false_eq_true,
      and_true, eq_comm]
  | unsubscribe st =>
    simp only [step] at stepped
    split at stepped
    next present =>
      cases stepped
      simp only [AList.mem_erase, reduceCtorEq, ne_eq, Act.unsubscribe.injEq, false_or, eq_comm]
      tauto
    next missing =>
      cases stepped
      have other : stream ∈ x.subscriptions → st ≠ stream := by
        rintro present rfl
        exact missing present
      simpa using other
  | send i =>
    refine silent ?_ (by simp) (by simp)
    simp only [step] at stepped
    split at stepped
    · split at stepped <;> cases stepped
      rfl
    · cases stepped
  | connect order => exact silent (silent_connect stepped).table (by simp) (by simp)
  | batch => exact silent (silent_batch stepped).table (by simp) (by simp)
  | take => exact silent (silent_take stepped).table (by simp) (by simp)
  | execute => exact silent (silent_execute stepped).table (by simp) (by simp)
  | lose => exact silent (silent_lose stepped).table (by simp) (by simp)
  | notice | giveUp | shutdown =>
    refine silent ?_ (by simp) (by simp)
    simp only [step] at stepped
    split at stepped <;> cases stepped
    rfl

end Redis

section Nats
open NatsSubscriptions

variable {x y : NATSSubscriber} {a : Act}

theorem mem_nats_step (stepped : step x a = some y) (stream : String) :
    stream ∈ y.subscriptions ↔
      (∃ i, a = .create i ∧ x.calls[i]? = some stream) ∨
        stream ∈ x.subscriptions ∧ a ≠ .unsubscribe stream := by
  obtain ⟨same, missing, other⟩ | ⟨i, st, rfl, waiting, rfl⟩ | ⟨st, sub, rfl, found, rfl⟩ :=
    step_cases stepped
  · have kept : stream ∈ x.subscriptions → a ≠ .unsubscribe stream := by
      rintro present rfl
      exact AList.lookup_eq_none.mp (missing stream rfl) present
    rw [(Prod.mk.inj same).1]
    simpa [other] using kept
  · simp only [store, AList.mem_insert, Act.create.injEq, exists_eq_left', waiting,
      Option.some.injEq, ne_eq, reduceCtorEq, not_false_eq_true, and_true, eq_comm]
  · simp only [AList.mem_erase, reduceCtorEq, false_and, exists_false, ne_eq,
      Act.unsubscribe.injEq, false_or, eq_comm]
    tauto

end Nats

/-- A table that only `leave` takes the channel from, and always does. -/
theorem kept_iff {σ α : Type} {step : σ → α → Option σ} {Has : σ → Prop} {leave : α}
    (drops : ∀ x a y, step x a = some y → Has x → (Has y ↔ a ≠ leave)) {x final : σ}
    {acts : List α} (start : Has x) (ran : Run.exec step x acts = some final) :
    Run.Always step Has x acts ↔ leave ∉ acts := by
  have exact : Run.Always step Has x acts ↔ Run.Meets step (fun _ a => a ≠ leave) x acts :=
    Run.always_iff_meets (fun x a y has stays stepped => (drops x a y stepped has).mpr stays)
      (fun x a y has stepped later => (drops x a y stepped has).mp later) (fun _ has => has)
      start ran
  rw [exact, Run.meets_label_iff ran]
  exact ⟨fun all member => all leave member rfl, fun never a member same => never (same ▸ member)⟩

theorem channel_kept_iff (channel : String) :
    (∀ acts final,
      Run.exec RedisSubscriptions.step (RedisSubscriptions.start channel) acts = some final →
      (Run.Always RedisSubscriptions.step (fun x => channel ∈ x.subscriptions)
          (RedisSubscriptions.start channel) acts ↔
        RedisSubscriptions.Act.unsubscribe channel ∉ acts)) ∧
    ∀ acts final,
      Run.exec NatsSubscriptions.step (NatsSubscriptions.start channel) acts = some final →
      (Run.Always NatsSubscriptions.step (fun x => channel ∈ x.subscriptions)
          (NatsSubscriptions.start channel) acts ↔
        NatsSubscriptions.Act.unsubscribe channel ∉ acts) := by
  constructor
  · intro acts final ran
    refine kept_iff (fun x a y stepped present => ?_) ?_ ran
    · rw [mem_redis_step stepped]
      constructor
      · rintro (rfl | ⟨-, other⟩)
        · exact nofun
        · exact other
      · exact fun other => Or.inr ⟨present, other⟩
    · exact (AList.mem_insert _).mpr (Or.inl rfl)
  · intro acts final ran
    refine kept_iff (fun x a y stepped present => ?_) ?_ ran
    · rw [mem_nats_step stepped]
      constructor
      · rintro (⟨i, rfl, -⟩ | ⟨-, other⟩)
        · exact nofun
        · exact other
      · exact fun other => Or.inr ⟨present, other⟩
    · exact (AList.mem_insert _).mpr (Or.inl rfl)

/-- The channels stay while clients come and go on other streams. -/
theorem channel_kept_beside_stream :
    Run.Always RedisSubscriptions.step (fun x => defaultChannel ∈ x.subscriptions)
        (RedisSubscriptions.start defaultChannel)
        [.subscribe "a", .send 0, .subscribe defaultChannel, .unsubscribe "a"] ∧
      Run.Always NatsSubscriptions.step (fun x => defaultChannel ∈ x.subscriptions)
        (NatsSubscriptions.start defaultChannel)
        [.check "a", .create 0, .check defaultChannel, .unsubscribe "a"] :=
  ⟨((channel_kept_iff defaultChannel).1 _ _ rfl).mpr (by decide),
    ((channel_kept_iff defaultChannel).2 _ _ rfl).mpr (by decide)⟩

/-- A client reads a public stream named like the channel and leaves it: the broker tells the
adapter, and the node is not subscribed to its commands any more. -/
theorem channel_dropped :
    (((⟨.new, {}⟩ : Interest).subscribe defaultChannel).unsubscribe
        defaultChannel).broadcaster.calls =
      [.unsubscribe defaultChannel, .subscribe defaultChannel] ∧
    (∃ x, Run.exec RedisSubscriptions.step (RedisSubscriptions.start defaultChannel)
        [.connect [defaultChannel], .batch, .batch, .subscribe defaultChannel, .send 0, .take,
          .execute, .unsubscribe defaultChannel, .send 0, .take, .execute] = some x ∧
      defaultChannel ∉ x.subscriptions ∧ defaultChannel ∉ x.channels) ∧
    ∃ x, Run.exec NatsSubscriptions.step (NatsSubscriptions.start defaultChannel)
        [.check defaultChannel, .unsubscribe defaultChannel] = some x ∧
      defaultChannel ∉ x.subscriptions ∧ NatsSubscriptions.handlers x defaultChannel = [] :=
  ⟨last_reader_unsubscribes rfl, ⟨_, rfl, by decide, by decide⟩, _, rfl, by decide, by decide⟩

end AnyCable.Guarantees.InternalChannel
