import AnyCable.Lib.GoMap
import AnyCable.Lib.Pending
import AnyCable.Lib.Run
import Mathlib.Data.Finset.Basic
import Mathlib.Data.List.Perm.Basic

/-!
# Channels of the Redis connection

Source: `pubsub/redis.go:102-163,210-350`. `Subscribe` and `Unsubscribe` change the table under its
lock and then send a command to the loop of `runPubSub`, which executes the commands in order. After
a loss of the connection the loop makes a new one and subscribes to the keys of the table, while
commands may still be queued. The lock and the send are two steps: the commands of two calls on one
stream can be queued in the opposite order of their updates, and then the connection keeps a channel
that no one wants, or lacks one that is wanted (`crossed_calls`).

`believed` is what the connection will have of a stream once the queue is executed. It agrees with
the table for every stream without a call on its way, as long as the last call to send for a stream
sends what the table has (`quiet_agrees`). When all calls have returned and the connection is up,
the loop comes to a state where nothing is queued, and the connection is right there exactly if it
is believed to be (`drained`); so a last call that sends something else does harm
(`disorderly_diverges`).

Redis applies the commands of a connection in order; a command on a lost connection has no effect.
The limit of reconnect attempts is a choice of the environment, and so is the order of the keys of a
map.
-/

set_option autoImplicit false

namespace AnyCable.Guarantees.RedisSubscriptions
open AnyCable.Lib

inductive SubscriptionCmd where
  | subscribeCmd | unsubscribeCmd
  deriving DecidableEq, Repr

structure ClientCommand where
  cmd : SubscriptionCmd
  id : String
  deriving DecidableEq, Repr

/-- The command asks for the channel. -/
def ClientCommand.wants (c : ClientCommand) : Bool := c.cmd == .subscribeCmd

/-- What Redis does with a command. -/
def ClientCommand.apply (c : ClientCommand) (channels : Finset String) : Finset String :=
  match c.cmd with
  | .subscribeCmd => insert c.id channels
  | .unsubscribeCmd => channels.erase c.id

structure SubscriptionEntry where
  id : String
  deriving DecidableEq, Repr

def batchSubscribeSize : Nat := 256

/-- The batches of `resubscribe`, from the key with index `i` on. -/
def batches : Nat → List String → List String → List (List String)
  | _, batch, [] => if batch.length > 0 then [batch] else []
  | i, batch, id :: rest =>
    if i > 0 ∧ i % batchSubscribeSize = 0 then batch :: batches (i + 1) [id] rest
    else batches (i + 1) (batch ++ [id]) rest

theorem flatten_batches (i : Nat) (batch ids : List String) :
    (batches i batch ids).flatten = batch ++ ids := by
  induction ids generalizing i batch with
  | nil =>
    cases batch <;> simp [batches]
  | cons id rest ih =>
    rw [batches]
    split
    · rw [List.flatten_cons, ih]
      rfl
    · rw [ih]
      simp

/-- Where `runPubSub` is. -/
inductive Loop where
  /-- Before a connection, in `maybeReconnect` or at the start. -/
  | waiting
  | resubscribing (rest : List (List String))
  | selecting
  | executing (c : ClientCommand)
  | stopped
  deriving DecidableEq, Repr

structure RedisSubscriber where
  subscriptions : GoMap String SubscriptionEntry
  /-- Calls after their update of the table, before the send. -/
  calls : List ClientCommand := []
  commandsCh : List ClientCommand := []
  loop : Loop := .waiting
  /-- The connection of the loop is up, with these channels. -/
  alive : Bool := false
  channels : Finset String := ∅

/-- `Start`: the internal channel is in the table. -/
def start (channel : String) : RedisSubscriber where
  subscriptions := (∅ : GoMap String SubscriptionEntry).insert channel ⟨channel⟩

inductive Act where
  | subscribe (stream : String)
  | unsubscribe (stream : String)
  /-- The call at the position sends its command. -/
  | send (i : Nat)
  /-- A new connection, and the keys for `resubscribe` in some order. -/
  | connect (order : List String)
  | batch
  | take
  | execute
  /-- The connection is lost, and the loop gets to know. -/
  | lose
  | notice
  | giveUp
  | shutdown
  deriving DecidableEq, Repr

/-- `make(chan *clientCommand, 2)`. -/
def capacity : Nat := 2

def step (x : RedisSubscriber) : Act → Option RedisSubscriber
  | .subscribe stream =>
    some { x with subscriptions := x.subscriptions.insert stream ⟨stream⟩
                  calls := x.calls ++ [⟨.subscribeCmd, stream⟩] }
  | .unsubscribe stream =>
    if stream ∈ x.subscriptions then
      some { x with subscriptions := x.subscriptions.erase stream
                    calls := x.calls ++ [⟨.unsubscribeCmd, stream⟩] }
    else some x
  | .send i =>
    match x.calls[i]? with
    | some c =>
      if x.commandsCh.length < capacity then
        some { x with calls := x.calls.eraseIdx i, commandsCh := x.commandsCh ++ [c] }
      else none
    | none => none
  | .connect order =>
    if x.loop = .waiting ∧ order.Perm x.subscriptions.keys then
      some { x with loop := .resubscribing (batches 0 [] order), alive := true, channels := ∅ }
    else none
  | .batch =>
    match x.loop with
    | .resubscribing [] => some { x with loop := .selecting }
    | .resubscribing (ids :: rest) =>
      if x.alive then
        some { x with channels := x.channels ∪ ids.toFinset, loop := .resubscribing rest }
      else some { x with loop := .selecting }
    | _ => none
  | .take =>
    match x.loop, x.commandsCh with
    | .selecting, c :: rest => some { x with loop := .executing c, commandsCh := rest }
    | _, _ => none
  | .execute =>
    match x.loop with
    | .executing c =>
      some { x with loop := .selecting
                    channels := if x.alive then c.apply x.channels else x.channels }
    | _ => none
  | .lose => if x.alive then some { x with alive := false, channels := ∅ } else none
  | .notice =>
    if x.loop = .selecting ∧ x.alive = false then some { x with loop := .waiting } else none
  | .giveUp => if x.loop = .waiting then some { x with loop := .stopped } else none
  | .shutdown => if x.loop = .selecting then some { x with loop := .stopped } else none

/-- All calls have returned, nothing is queued or under way, and there is a connection. -/
def Quiet (x : RedisSubscriber) : Prop :=
  x.calls = [] ∧ x.commandsCh = [] ∧ x.loop = .selecting ∧ x.alive = true

instance (x : RedisSubscriber) : Decidable (Quiet x) :=
  inferInstanceAs (Decidable (x.calls = [] ∧ x.commandsCh = [] ∧ x.loop = .selecting ∧
    x.alive = true))

/-- The connection has the channels of the table. -/
def Agrees (x : RedisSubscriber) : Prop := ∀ s, s ∈ x.channels ↔ s ∈ x.subscriptions

/-- A call that sends while no other call on the stream is on its way sends what the table has. -/
def Orderly (x : RedisSubscriber) : Act → Prop
  | .send i => ∀ c ∈ x.calls[i]?,
      (∃ d ∈ x.calls.eraseIdx i, d.id = c.id) ∨ c.wants = decide (c.id ∈ x.subscriptions)
  | _ => True

instance (x : RedisSubscriber) : (a : Act) → Decidable (Orderly x a)
  | .send i => inferInstanceAs (Decidable (∀ c ∈ x.calls[i]?,
      (∃ d ∈ x.calls.eraseIdx i, d.id = c.id) ∨ c.wants = decide (c.id ∈ x.subscriptions)))
  | .subscribe _ | .unsubscribe _ | .connect _ | .batch | .take | .execute | .lose | .notice
  | .giveUp | .shutdown => isTrue trivial

/-! ### What the connection will have -/

/-- The commands not executed yet. -/
def queue (x : RedisSubscriber) : List ClientCommand :=
  (match x.loop with
    | .executing c => [c]
    | _ => []) ++ x.commandsCh

/-- The keys that `resubscribe` still has to send. -/
def unsent : Loop → List String
  | .resubscribing rest => rest.flatten
  | _ => []

/-- What a stream is after the commands: as the last command for it says. -/
def settle (s : String) (before : Option Bool) (commands : List ClientCommand) : Option Bool :=
  commands.foldl (fun b c => if c.id = s then some c.wants else b) before

/-- Whether the connection has the stream, once `resubscribe` is done. -/
def held (x : RedisSubscriber) (s : String) : Option Bool :=
  if x.alive then some (decide (s ∈ x.channels ∨ s ∈ unsent x.loop)) else none

def believed (x : RedisSubscriber) (s : String) : Option Bool := settle s (held x s) (queue x)

section Settle

variable {s : String} {before : Option Bool} {commands : List ClientCommand} {c : ClientCommand}
  {b t : Bool}

theorem settle_cons :
    settle s before (c :: commands) =
      settle s (if c.id = s then some c.wants else before) commands :=
  rfl

theorem settle_concat :
    settle s before (commands ++ [c]) =
      if c.id = s then some c.wants else settle s before commands := by
  simp [settle]

/-- The state before counts only if no command is about the stream. -/
theorem settle_eq_or : settle s before commands = (settle s none commands).or before := by
  induction commands generalizing before with
  | nil => rfl
  | cons c commands ih =>
    rw [settle_cons, settle_cons]
    split
    · rw [ih]
      cases settle s none commands <;> rfl
    · exact ih

theorem settle_of_none (known : b ∈ settle s none commands) : b ∈ settle s before commands := by
  rw [settle_eq_or, Option.mem_def.mp known]
  rfl

theorem settle_of_some (known : b ∈ settle s (some t) commands) :
    b ∈ settle s none commands ∨ b = t := by
  rw [settle_eq_or] at known
  cases last : settle s none commands with
  | none =>
    rw [last] at known
    exact Or.inr (Option.some.inj known).symm
  | some v =>
    rw [last] at known
    exact Or.inl known

theorem mem_apply (c : ClientCommand) (channels : Finset String) :
    s ∈ c.apply channels ↔ if c.id = s then c.wants = true else s ∈ channels := by
  obtain ⟨cmd, id⟩ := c
  by_cases same : id = s
  · subst same
    cases cmd <;> simp [ClientCommand.apply, ClientCommand.wants]
  · have other : s ≠ id := Ne.symm same
    cases cmd <;> simp [ClientCommand.apply, same, other]

end Settle

section Steps

variable {x y : RedisSubscriber} {a : Act} {s : String}

/-- `resubscribe` asks for the keys of the table. -/
theorem held_connect {order : List String} (keys : order.Perm x.subscriptions.keys) (s : String) :
    held { x with loop := .resubscribing (batches 0 [] order), alive := true, channels := ∅ } s =
      some (decide (s ∈ x.subscriptions)) := by
  have listed : s ∈ order ↔ s ∈ x.subscriptions := keys.mem_iff
  simp [held, unsent, flatten_batches, listed]

theorem held_batch {ids : List String} {rest : List (List String)}
    (at_batch : x.loop = .resubscribing (ids :: rest)) (s : String) :
    held { x with channels := x.channels ∪ ids.toFinset, loop := .resubscribing rest } s =
      held x s := by
  simp [held, unsent, at_batch, or_assoc]

theorem held_apply {c : ClientCommand} (up : x.alive = true) (upAfter : y.alive = true)
    (done : unsent x.loop = []) (doneAfter : unsent y.loop = [])
    (applied : y.channels = c.apply x.channels) (s : String) :
    held y s = if c.id = s then some c.wants else held x s := by
  by_cases same : c.id = s <;>
    simp [held, up, upAfter, done, doneAfter, applied, mem_apply, same]

/-- Executing the first command on a connection that is up. -/
theorem believed_apply {c : ClientCommand} (up : x.alive = true) (upAfter : y.alive = true)
    (done : unsent x.loop = []) (doneAfter : unsent y.loop = [])
    (applied : y.channels = c.apply x.channels) (queued : queue x = c :: queue y) (s : String) :
    believed y s = believed x s := by
  rw [believed, believed, queued, settle_cons, held_apply up upAfter done doneAfter applied]

/-- A command on a lost connection is given up; otherwise nothing changes that is believed. -/
theorem believed_execute {c : ClientCommand} (executing : x.loop = .executing c) {b : Bool}
    (known : b ∈ believed
      { x with loop := .selecting
               channels := if x.alive then c.apply x.channels else x.channels } s) :
    b ∈ believed x s := by
  have queued : queue x = c :: x.commandsCh := by simp [queue, executing]
  cases up : x.alive with
  | true =>
    have same := believed_apply (x := x)
      (y := { x with loop := .selecting
                     channels := if x.alive then c.apply x.channels else x.channels })
      up up (by simp [unsent, executing]) rfl (if_pos up) queued s
    rwa [same] at known
  | false =>
    rw [believed, queued, settle_cons]
    refine settle_of_none ?_
    simpa [believed, held, up, queue] using known

/-- A step that leaves calls and table alone, and believes nothing new but what the table has. -/
structure Silent (x y : RedisSubscriber) : Prop where
  calls : y.calls = x.calls
  table : y.subscriptions = x.subscriptions
  believes : ∀ s, ∀ b ∈ believed y s, b ∈ believed x s ∨ b = decide (s ∈ x.subscriptions)

theorem silent_of_believed (calls : y.calls = x.calls)
    (table : y.subscriptions = x.subscriptions)
    (less : ∀ s, ∀ b ∈ believed y s, b ∈ believed x s) : Silent x y :=
  ⟨calls, table, fun s b known => Or.inl (less s b known)⟩

theorem silent_connect {order : List String} (stepped : step x (.connect order) = some y) :
    Silent x y := by
  simp only [step] at stepped
  split at stepped
  next ready =>
    cases stepped
    refine ⟨rfl, rfl, ?_⟩
    intro s b known
    rw [believed, held_connect ready.2] at known
    apply (settle_of_some known).imp_left
    intro last
    apply settle_of_none
    simpa [queue, ready.1] using last
  · cases stepped

theorem silent_batch (stepped : step x .batch = some y) : Silent x y := by
  simp only [step] at stepped
  split at stepped
  next empty =>
    cases stepped
    refine silent_of_believed rfl rfl ?_
    intro s b known
    simpa [believed, held, unsent, queue, empty] using known
  next ids rest at_batch =>
    split at stepped
    · cases stepped
      refine silent_of_believed rfl rfl ?_
      intro s b known
      rw [believed, held_batch at_batch] at known
      simpa [believed, queue, at_batch] using known
    next down =>
      cases stepped
      refine silent_of_believed rfl rfl ?_
      intro s b known
      simpa [believed, held, down, queue, at_batch] using known
  · cases stepped

theorem silent_take (stepped : step x .take = some y) : Silent x y := by
  simp only [step] at stepped
  split at stepped
  next c rest selecting queued =>
    cases stepped
    refine silent_of_believed rfl rfl ?_
    intro s b known
    simpa [believed, held, unsent, queue, selecting, queued] using known
  · cases stepped

theorem silent_execute (stepped : step x .execute = some y) : Silent x y := by
  simp only [step] at stepped
  split at stepped
  next c executing =>
    cases stepped
    refine silent_of_believed rfl rfl ?_
    intro s b known
    exact believed_execute executing known
  · cases stepped

theorem silent_lose (stepped : step x .lose = some y) : Silent x y := by
  simp only [step] at stepped
  split at stepped
  · cases stepped
    refine silent_of_believed rfl rfl ?_
    intro s b known
    apply settle_of_none
    simpa [believed, held, queue] using known
  · cases stepped

/-- Between loops, and at its end, nothing happens to the connection. -/
theorem silent_loop {loop : Loop} (before : x.loop = .selecting ∨ x.loop = .waiting)
    (after : loop = .waiting ∨ loop = .stopped) : Silent x { x with loop } := by
  refine silent_of_believed rfl rfl ?_
  intro s b known
  rcases before with before | before <;> rcases after with rfl | rfl <;>
    simpa [believed, held, unsent, queue, before] using known

/-- An update of the table by a call, a send, or a step of the loop. -/
theorem step_cases (stepped : step x a = some y) :
    (∃ stream, y = { x with subscriptions := x.subscriptions.insert stream ⟨stream⟩
                            calls := x.calls ++ [⟨.subscribeCmd, stream⟩] }) ∨
    (∃ stream, y = { x with subscriptions := x.subscriptions.erase stream
                            calls := x.calls ++ [⟨.unsubscribeCmd, stream⟩] }) ∨
    (∃ i c, a = .send i ∧ x.calls[i]? = some c ∧
      y = { x with calls := x.calls.eraseIdx i, commandsCh := x.commandsCh ++ [c] }) ∨
    Silent x y := by
  cases a with
  | subscribe stream =>
    cases stepped
    exact Or.inl ⟨stream, rfl⟩
  | unsubscribe stream =>
    simp only [step] at stepped
    split at stepped
    · cases stepped
      exact Or.inr (Or.inl ⟨stream, rfl⟩)
    · cases stepped
      exact Or.inr (Or.inr (Or.inr (silent_of_believed rfl rfl fun _ _ known => known)))
  | send i =>
    simp only [step] at stepped
    split at stepped
    next c found =>
      split at stepped
      · cases stepped
        exact Or.inr (Or.inr (Or.inl ⟨i, c, rfl, found, rfl⟩))
      · cases stepped
    · cases stepped
  | connect order => exact Or.inr (Or.inr (Or.inr (silent_connect stepped)))
  | batch => exact Or.inr (Or.inr (Or.inr (silent_batch stepped)))
  | take => exact Or.inr (Or.inr (Or.inr (silent_take stepped)))
  | execute => exact Or.inr (Or.inr (Or.inr (silent_execute stepped)))
  | lose => exact Or.inr (Or.inr (Or.inr (silent_lose stepped)))
  | notice =>
    simp only [step] at stepped
    split at stepped
    next lost =>
      cases stepped
      exact Or.inr (Or.inr (Or.inr (silent_loop (Or.inl lost.1) (Or.inl rfl))))
    · cases stepped
  | giveUp =>
    simp only [step] at stepped
    split at stepped
    next waiting =>
      cases stepped
      exact Or.inr (Or.inr (Or.inr (silent_loop (Or.inr waiting) (Or.inr rfl))))
    · cases stepped
  | shutdown =>
    simp only [step] at stepped
    split at stepped
    next selecting =>
      cases stepped
      exact Or.inr (Or.inr (Or.inr (silent_loop (Or.inl selecting) (Or.inr rfl))))
    · cases stepped

/-- What is believed of a stream without a call on its way is what the table has. -/
def Settled (x : RedisSubscriber) : Prop :=
  ∀ s, (∀ c ∈ x.calls, c.id ≠ s) → ∀ b ∈ believed x s, b = decide (s ∈ x.subscriptions)

theorem settled_start (channel : String) : Settled (start channel) := by
  intro s _ b known
  simp [believed, held, queue, settle, start] at known

theorem settled_step (settled : Settled x) (orderly : Orderly x a) (stepped : step x a = some y) :
    Settled y := by
  rcases step_cases stepped with ⟨stream, rfl⟩ | ⟨stream, rfl⟩ | ⟨i, c, rfl, found, rfl⟩ | silent
  · intro s returned b known
    obtain ⟨others, different⟩ := List.forall_mem_append.mp returned
    have other : s ≠ stream := Ne.symm (different _ List.mem_cons_self)
    simpa [other] using settled s others b known
  · intro s returned b known
    obtain ⟨others, different⟩ := List.forall_mem_append.mp returned
    have other : s ≠ stream := Ne.symm (different _ List.mem_cons_self)
    simpa [other] using settled s others b known
  · intro s returned b known
    have queued : queue { x with calls := x.calls.eraseIdx i, commandsCh := x.commandsCh ++ [c] } =
        queue x ++ [c] := by
      simp [queue]
    rw [believed, queued, settle_concat] at known
    split at known
    next same =>
      rcases orderly c found with ⟨d, waiting, alike⟩ | right
      · exact absurd (alike.trans same) (returned d waiting)
      · rw [← Option.some.inj known, right, same]
    next different =>
      refine settled s ?_ b known
      intro d member
      rcases mem_eraseIdx_or_eq found member with rfl | waiting
      · exact different
      · exact returned d waiting
  · intro s returned b known
    rw [silent.calls] at returned
    rw [silent.table]
    rcases silent.believes s b known with before | right
    · exact settled s returned b before
    · exact right

theorem Settled.agrees (settled : Settled x) (quiet : Quiet x) : Agrees x := by
  obtain ⟨returned, empty, selecting, up⟩ := quiet
  intro s
  have known : believed x s = some (decide (s ∈ x.channels)) := by
    simp [believed, held, queue, settle, unsent, empty, selecting, up]
  have right := settled s (by simp [returned]) _ known
  simpa using right

end Steps

/-- In every state of a run in which all calls have returned and nothing is queued, the connection
has the channels of the table, if the calls of a stream send in an order in which the last one sends
what the table has. -/
theorem quiet_agrees (channel : String) (schedule : List Act) (x : RedisSubscriber)
    (ran : Run.exec step (start channel) schedule = some x)
    (orderly : Run.Meets step Orderly (start channel) schedule) (quiet : Quiet x) : Agrees x := by
  have settled : Settled x :=
    Run.invariant_of_meets (fun _ _ _ settled ok stepped => settled_step settled ok stepped)
      (settled_start channel) orderly ran
  exact settled.agrees quiet

/-- A connection is lost while a command is under way and another call is about to send; later one
of the streams is given up. -/
def outage : List Act :=
  [.connect ["c"], .batch, .batch, .subscribe "s", .send 0, .subscribe "t", .take, .lose, .execute,
   .send 0, .notice, .connect ["c", "s", "t"], .batch, .batch, .take, .execute, .unsubscribe "s",
   .send 0, .take, .execute]

theorem outage_agrees :
    ∃ x, Run.exec step (start "c") outage = some x ∧ Quiet x ∧ x.channels = {"t", "c"} ∧
      Agrees x :=
  ⟨_, rfl, by decide, by decide, quiet_agrees "c" outage _ rfl (by decide) (by decide)⟩

/-- `Unsubscribe` overtakes `Subscribe` on the way to the queue, and the other way round. -/
theorem crossed_calls :
    (∃ x, Run.exec step (start "c")
        [.connect ["c"], .batch, .batch, .subscribe "s", .unsubscribe "s", .send 1, .send 0,
         .take, .execute, .take, .execute] = some x ∧
      Quiet x ∧ "s" ∈ x.channels ∧ "s" ∉ x.subscriptions) ∧
    ∃ x, Run.exec step (start "c")
        [.connect ["c"], .batch, .batch, .subscribe "s", .send 0, .take, .execute,
         .unsubscribe "s", .subscribe "s", .send 1, .send 0, .take, .execute, .take, .execute] =
          some x ∧
      Quiet x ∧ "s" ∉ x.channels ∧ "s" ∈ x.subscriptions :=
  ⟨⟨_, rfl, by decide, by decide, by decide⟩, ⟨_, rfl, by decide, by decide, by decide⟩⟩

section Drain

variable {x : RedisSubscriber} {c : ClientCommand}

/-- The loop takes a command and executes it. -/
theorem exec_command {rest : List ClientCommand} (selecting : x.loop = .selecting)
    (up : x.alive = true) (queued : x.commandsCh = c :: rest) :
    Run.exec step x [.take, .execute] =
      some { x with commandsCh := rest, channels := c.apply x.channels } := by
  simp [Run.exec, step, selecting, queued, up]

/-- With the connection up, the loop executes what is queued, and then the connection has the
channels of the table exactly if that was believed. -/
theorem drained (returned : x.calls = []) (selecting : x.loop = .selecting)
    (up : x.alive = true) :
    ∃ schedule y, Run.exec step x schedule = some y ∧ Quiet y ∧
      y.subscriptions = x.subscriptions ∧
      (Agrees y ↔ ∀ s, believed x s = some (decide (s ∈ x.subscriptions))) := by
  obtain ⟨commands, queued⟩ : ∃ commands, x.commandsCh = commands := ⟨_, rfl⟩
  induction commands generalizing x with
  | nil =>
    refine ⟨[], x, rfl, ⟨returned, queued, selecting, up⟩, rfl, ?_⟩
    simp [Agrees, believed, held, queue, settle, unsent, queued, selecting, up]
  | cons c rest ih =>
    have ran := exec_command selecting up queued
    obtain ⟨schedule, y, further, quiet, table, agrees⟩ :=
      ih (x := { x with commandsCh := rest, channels := c.apply x.channels }) returned selecting
        up rfl
    refine ⟨[Act.take, Act.execute] ++ schedule, y, ?_, quiet, table, ?_⟩
    · rw [Run.exec_append, ran]
      exact further
    · have done : unsent x.loop = [] := by simp [unsent, selecting]
      have same := believed_apply (x := x)
        (y := { x with commandsCh := rest, channels := c.apply x.channels }) up up done done rfl
        (by simp [queue, selecting, queued])
      simp only [same] at agrees
      exact agrees

/-- The last call to send decides: if it sends what the table does not have, the loop comes to rest
with the wrong channels. -/
theorem disorderly_diverges (selecting : x.loop = .selecting) (up : x.alive = true)
    (last : x.calls = [c]) (room : x.commandsCh.length < capacity)
    (wrong : c.wants ≠ decide (c.id ∈ x.subscriptions)) :
    ∃ schedule y, Run.exec step x (.send 0 :: schedule) = some y ∧ Quiet y ∧ ¬Agrees y := by
  have sent : step x (.send 0) =
      some { x with calls := [], commandsCh := x.commandsCh ++ [c] } := by
    simp [step, last, room]
  obtain ⟨schedule, y, ran, quiet, -, agrees⟩ :=
    drained (x := { x with calls := [], commandsCh := x.commandsCh ++ [c] }) rfl selecting up
  refine ⟨schedule, y, by simpa [Run.exec, sent] using ran, quiet, ?_⟩
  intro right
  have known := agrees.mp right c.id
  have queued : queue { x with calls := [], commandsCh := x.commandsCh ++ [c] } =
      queue x ++ [c] := by
    simp [queue]
  rw [believed, queued, settle_concat, if_pos rfl] at known
  exact wrong (Option.some.inj known)

end Drain

end AnyCable.Guarantees.RedisSubscriptions
