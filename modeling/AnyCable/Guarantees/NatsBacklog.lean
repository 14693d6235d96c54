import AnyCable.Lib.Pending
import AnyCable.Lib.Run
import AnyCable.Source.Common
import Mathlib.Data.List.Perm.Basic

/-!
# The backlog of the NATS broker

JetStream is set up by a goroutine of its own (`broker/nats.go:105-180`). A `HandleBroadcast` that
waits for it longer than a second puts its message into a backlog (`broker/nats.go:314-338`), which
that goroutine is to flush when it is done. It does so only if the setup has failed: after a
successful one the backlog stays as it is (`backlog_not_flushed`), and a message is published and
broadcast exactly if it was not put there (`flushed_iff_no_backlog`).

After a failed setup `backlogFlush` (`broker/nats.go:972-988`) holds the lock of the backlog while
`HandleBroadcast` wants to add to it: a flush of anything never ends (`flush_never_ends`).

Publishing to JetStream succeeds, as it is assumed to once the setup has; `Ready` returns an error
whenever its timer fires first, also where JetStream is ready in the same moment.
-/

set_option autoImplicit false

namespace AnyCable.Guarantees.NatsBacklog
open AnyCable.Lib AnyCable.Source

/-- A call of `HandleBroadcast`, with its message. -/
structure Item where
  id : Nat
  msg : StreamMessage
  deriving DecidableEq

/-- Where `HandleBroadcast` is. -/
inductive Phase where
  /-- In `Ready`. -/
  | waiting
  /-- In `backlogAdd`. -/
  | adding
  /-- About to publish. -/
  | ready
  | published (offset : Nat)
  deriving DecidableEq

/-- An error that `errorx.Decorate` has put a text before. -/
structure Failure where
  err : String
  text : String

/-- Where the goroutine of `Start` is. -/
inductive Init where
  /-- In `initJetStreamWithRetry`. -/
  | trying (attempt : Nat)
  /-- Before `readyFn(err)`. -/
  | returned (err : Option Failure)
  | readied (err : Option Failure)
  /-- After `done <- err`. -/
  | reported (err : Failure)
  /-- In the loop of `backlogFlush`, with the call that it makes. -/
  | flushing (err : Failure) (current : Option (Item × Phase)) (rest : List Item)
  | finished (err : Option Failure)

structure State where
  init : Init := .trying 0
  /-- `readyCtx`: not done, or done with the error or without one. -/
  readyCtx : Option (Option Failure) := none
  epoch : String := ""
  broadcastBacklog : List Item := []
  /-- `backlogMu` is held by the flush. -/
  backlogMu : Bool := false
  calls : List (Item × Phase) := []
  /-- The calls with a message that is not transient. -/
  started : List Item := []
  /-- What was put into the backlog. -/
  backlogged : List Item := []
  published : List Item := []
  /-- What was handed to the Broadcaster, with an offset. -/
  sent : List (Item × StreamMessage) := []
  transient : List StreamMessage := []

/-- What a section meets: its timer fires, and the sequence number that JetStream returns. -/
structure Event where
  timeout : Bool := false
  sequence : Nat := 0

/-- A section of `HandleBroadcast`; no phase is left when it returns. -/
def advance (x : State) (item : Item) (phase : Phase) (event : Event) :
    Option (State × Option Phase) :=
  match phase with
  | .waiting =>
    if event.timeout then some (x, some .adding)
    else match x.readyCtx with
      | none => none
      | some none => some (x, some .ready)
      | some (some _) => some (x, some .adding)
  | .adding =>
    if x.backlogMu then none
    else some ({ x with broadcastBacklog := x.broadcastBacklog ++ [item]
                        backlogged := x.backlogged ++ [item] }, none)
  | .ready => some ({ x with published := x.published ++ [item] }, some (.published event.sequence))
  | .published offset =>
    some ({ x with sent := x.sent ++
      [(item, { item.msg with epoch := x.epoch, offset := offset })] }, none)

inductive Act where
  | call (msg : StreamMessage)
  | proceed (i : Nat) (event : Event)
  /-- `initJetStream` returns, with the epoch. -/
  | attempt (res : Except String String)
  | readyFn
  /-- The error is taken from the `done` channel. -/
  | report
  /-- `backlogFlush` takes the lock. -/
  | lock
  /-- The loop of `backlogFlush`, and its end. -/
  | flush (event : Event)
  /-- The goroutine ends without a flush. -/
  | finish

def step (x : State) : Act → Option State
  | .call msg =>
    if msg.isTransient then some { x with transient := x.transient ++ [msg] }
    else
      let item := ⟨x.started.length, msg⟩
      some { x with started := x.started ++ [item], calls := x.calls ++ [(item, .waiting)] }
  | .proceed i event =>
    match x.calls[i]? with
    | none => none
    | some (item, phase) => do
      let (x, phase) ← advance x item phase event
      return { x with calls := x.calls.eraseIdx i ++ (phase.map (item, ·)).toList }
  | .attempt res =>
    match x.init, res with
    | .trying _, .ok epoch => some { x with init := .returned none, epoch := epoch }
    | .trying attempt, .error err =>
      if attempt + 1 > 5 then
        some { x with init := .returned (some ⟨err, "JetStream is unavailable"⟩) }
      else some { x with init := .trying (attempt + 1) }
    | _, _ => none
  | .readyFn =>
    match x.init with
    | .returned err => some { x with init := .readied err, readyCtx := some err }
    | _ => none
  | .report =>
    match x.init with
    | .readied (some err) => some { x with init := .reported err }
    | _ => none
  | .lock =>
    match x.init with
    | .reported err =>
      if x.backlogMu then none
      else some { x with init := .flushing err none x.broadcastBacklog, backlogMu := true }
    | _ => none
  | .flush event =>
    match x.init with
    | .flushing err (some (item, phase)) rest => do
      let (x, phase) ← advance x item phase event
      return { x with init := .flushing err (phase.map (item, ·)) rest }
    | .flushing err none (item :: rest) =>
      some { x with init := .flushing err (some (item, .waiting)) rest }
    | .flushing err none [] =>
      some { x with init := .finished (some err), broadcastBacklog := [], backlogMu := false }
    | _ => none
  | .finish =>
    match x.init with
    | .readied none => some { x with init := .finished none }
    | _ => none

/-- Every message of the backlog was published and broadcast once, in the order of the backlog. -/
structure Flushed (x : State) : Prop where
  published : ∀ item ∈ x.backlogged, x.published.count item = 1
  sent : ∀ item ∈ x.backlogged, (x.sent.map (·.1)).count item = 1
  order : ∀ stream,
    x.published.filter (fun item => item.msg.stream = stream ∧ item ∈ x.backlogged) =
      x.backlogged.filter fun item => item.msg.stream = stream

/-- The flush wants the lock that it holds. -/
def Blocked (x : State) : Prop :=
  x.backlogMu = true ∧ ∃ err item rest, x.init = .flushing err (some (item, .adding)) rest

section Invariant

/-- The message of a call that has not published it. -/
def unpublished : Item × Phase → List Item
  | (_, .published _) => []
  | (item, _) => [item]

/-- The message of a call that has published it and not sent it yet. -/
def unsent : Item × Phase → List Item
  | (item, .published _) => [item]
  | (_, _) => []

theorem item_of_unpublished {a : Item} {c : Item × Phase} (member : a ∈ unpublished c) :
    a = c.1 := by
  obtain ⟨item, phase⟩ := c
  cases phase <;> simp_all [unpublished]

theorem item_of_unsent {a : Item} {c : Item × Phase} (member : a ∈ unsent c) : a = c.1 := by
  obtain ⟨item, phase⟩ := c
  cases phase <;> simp_all [unsent]

/-- The flush runs with the lock and after a failed setup, so its calls end in `backlogAdd`. -/
def Settled (x : State) : Prop :=
  match x.init with
  | .trying _ | .returned _ => x.readyCtx = none ∧ x.backlogMu = false
  | .readied err | .finished err => x.readyCtx = some err ∧ x.backlogMu = false
  | .reported err => x.readyCtx = some (some err) ∧ x.backlogMu = false
  | .flushing err current _ => x.readyCtx = some (some err) ∧ x.backlogMu = true ∧
    ∀ c ∈ current, c.2 = .waiting ∨ c.2 = .adding

/-- Where each message is. -/
structure Inv (x : State) : Prop where
  started : ∀ a, x.started.count a =
    (x.calls.flatMap unpublished).count a + x.backlogged.count a + x.published.count a
  published : ∀ a, x.published.count a =
    (x.calls.flatMap unsent).count a + (x.sent.map (·.1)).count a
  ids : ∀ a ∈ x.started, a.id < x.started.length
  unique : x.started.Nodup
  settled : Settled x

theorem inv_start : Inv {} := by
  refine ⟨?_, ?_, ?_, ?_, ?_⟩ <;> simp [Settled]

variable {x y : State} {item : Item} {phase : Phase} {event : Event}

/-- What a section does to the logs. -/
theorem advance_spec {left : Option Phase}
    (advanced : advance x item phase event = some (y, left)) :
    (∃ backlog backlogged published sent, y = { x with
      broadcastBacklog := backlog, backlogged := backlogged, published := published
      sent := sent }) ∧ ∀ a,
    ((unpublished (item, phase)).count a + x.backlogged.count a + x.published.count a =
      ((left.map (item, ·)).toList.flatMap unpublished).count a + y.backlogged.count a +
        y.published.count a) ∧
    ((left.map (item, ·)).toList.flatMap unsent).count a + (y.sent.map (·.1)).count a +
        x.published.count a =
      (unsent (item, phase)).count a + (x.sent.map (·.1)).count a + y.published.count a := by
  cases phase with
  | waiting =>
    simp only [advance] at advanced
    split at advanced
    · cases advanced
      exact ⟨⟨_, _, _, _, rfl⟩, fun a => by simp [unpublished, unsent]⟩
    · split at advanced
      · cases advanced
      · cases advanced
        exact ⟨⟨_, _, _, _, rfl⟩, fun a => by simp [unpublished, unsent]⟩
      · cases advanced
        exact ⟨⟨_, _, _, _, rfl⟩, fun a => by simp [unpublished, unsent]⟩
  | adding =>
    simp only [advance] at advanced
    split at advanced
    · cases advanced
    · cases advanced
      refine ⟨⟨_, _, _, _, rfl⟩, fun a => ?_⟩
      simp only [unpublished, unsent, Option.map_none, Option.toList_none, List.flatMap_nil,
        List.count_append, List.count_nil]
      exact ⟨by omega, trivial⟩
  | ready =>
    cases advanced
    refine ⟨⟨_, _, _, _, rfl⟩, fun a => ?_⟩
    simp only [unpublished, unsent, Option.map_some, Option.toList_some, List.flatMap_cons,
      List.flatMap_nil, List.append_nil, List.count_append, List.count_nil]
    constructor <;> omega
  | published offset =>
    cases advanced
    refine ⟨⟨_, _, _, _, rfl⟩, fun a => ?_⟩
    simp only [unpublished, unsent, Option.map_none, Option.toList_none, List.flatMap_nil,
      List.map_append, List.map_cons, List.map_nil, List.count_append, List.count_nil]
    exact ⟨trivial, by omega⟩

/-- A call of the flush gets as far as the lock that the flush holds. -/
theorem flush_advance {err : Failure} {left : Option Phase}
    (failed : x.readyCtx = some (some err)) (held : x.backlogMu = true)
    (early : phase = .waiting ∨ phase = .adding)
    (advanced : advance x item phase event = some (y, left)) :
    y = x ∧ left = some .adding := by
  rcases early with rfl | rfl
  · simp only [advance, failed] at advanced
    split at advanced <;> cases advanced <;> exact ⟨rfl, rfl⟩
  · simp [advance, held] at advanced

/-- What a step does. -/
inductive Took (x : State) : State → Prop where
  | transient (msg : StreamMessage) : Took x { x with transient := x.transient ++ [msg] }
  | called (msg : StreamMessage) : Took x
      { x with started := x.started ++ [⟨x.started.length, msg⟩]
               calls := x.calls ++ [(⟨x.started.length, msg⟩, .waiting)] }
  | proceeded {i : Nat} {item : Item} {phase : Phase} {event : Event} {z : State}
      {left : Option Phase} (found : x.calls[i]? = some (item, phase))
      (advanced : advance x item phase event = some (z, left)) :
      Took x { z with calls := z.calls.eraseIdx i ++ (left.map (item, ·)).toList }
  | ready {attempt : Nat} (epoch : String) (now : x.init = .trying attempt) :
      Took x { x with init := .returned none, epoch }
  | unavailable {attempt : Nat} (err : Failure) (now : x.init = .trying attempt) :
      Took x { x with init := .returned (some err) }
  | retried {attempt : Nat} (now : x.init = .trying attempt) :
      Took x { x with init := .trying (attempt + 1) }
  | readied {err : Option Failure} (now : x.init = .returned err) :
      Took x { x with init := .readied err, readyCtx := some err }
  | reported {err : Failure} (now : x.init = .readied (some err)) :
      Took x { x with init := .reported err }
  | locked {err : Failure} (now : x.init = .reported err) :
      Took x { x with init := .flushing err none x.broadcastBacklog, backlogMu := true }
  | flushCall {err : Failure} {item : Item} {phase : Phase} {rest : List Item} {event : Event}
      {z : State} {left : Option Phase} (now : x.init = .flushing err (some (item, phase)) rest)
      (advanced : advance x item phase event = some (z, left)) :
      Took x { z with init := .flushing err (left.map (item, ·)) rest }
  | flushNext {err : Failure} {item : Item} {rest : List Item}
      (now : x.init = .flushing err none (item :: rest)) :
      Took x { x with init := .flushing err (some (item, .waiting)) rest }
  | flushEnd {err : Failure} (now : x.init = .flushing err none []) :
      Took x { x with init := .finished (some err), broadcastBacklog := [], backlogMu := false }
  | finished (now : x.init = .readied none) : Took x { x with init := .finished none }

theorem took_of_step {a : Act} (stepped : step x a = some y) : Took x y := by
  cases a with
  | call msg =>
    simp only [step] at stepped
    split at stepped
    · cases stepped
      exact .transient msg
    · cases stepped
      exact .called msg
  | proceed i event =>
    simp only [step] at stepped
    split at stepped
    · cases stepped
    next item phase found =>
      obtain ⟨⟨z, left⟩, advanced, stepped⟩ := Option.bind_eq_some_iff.mp stepped
      cases stepped
      exact .proceeded found advanced
  | attempt res =>
    simp only [step] at stepped
    split at stepped
    next attempt epoch now =>
      cases stepped
      exact .ready epoch now
    next attempt err now =>
      split at stepped
      · cases stepped
        exact .unavailable _ now
      · cases stepped
        exact .retried now
    · cases stepped
  | readyFn =>
    simp only [step] at stepped
    split at stepped
    next err now =>
      cases stepped
      exact .readied now
    · cases stepped
  | report =>
    simp only [step] at stepped
    split at stepped
    next err now =>
      cases stepped
      exact .reported now
    · cases stepped
  | lock =>
    simp only [step] at stepped
    split at stepped
    next err now =>
      split at stepped
      · cases stepped
      · cases stepped
        exact .locked now
    · cases stepped
  | flush event =>
    simp only [step] at stepped
    split at stepped
    next err item phase rest now =>
      obtain ⟨⟨z, left⟩, advanced, stepped⟩ := Option.bind_eq_some_iff.mp stepped
      cases stepped
      exact .flushCall now advanced
    next err item rest now =>
      cases stepped
      exact .flushNext now
    next err now =>
      cases stepped
      exact .flushEnd now
    · cases stepped
  | finish =>
    simp only [step] at stepped
    split at stepped
    next now =>
      cases stepped
      exact .finished now
    · cases stepped

/-- A new call has a message of its own. -/
theorem Inv.called (inv : Inv x) (msg : StreamMessage) : Inv
    { x with started := x.started ++ [⟨x.started.length, msg⟩]
             calls := x.calls ++ [(⟨x.started.length, msg⟩, .waiting)] } := by
  refine ⟨?_, ?_, ?_, ?_, inv.settled⟩
  · intro a
    have before := inv.started a
    simp only [List.count_append, List.flatMap_append, List.flatMap_cons, List.flatMap_nil,
      List.append_nil, unpublished]
    omega
  · intro a
    have before := inv.published a
    simp only [List.flatMap_append, List.flatMap_cons, List.flatMap_nil, List.append_nil,
      unsent]
    exact before
  · intro a member
    rw [List.length_append, List.length_singleton]
    rcases List.mem_append.mp member with old | new
    · have := inv.ids a old
      omega
    · rw [List.mem_singleton.mp new]
      exact Nat.lt_succ_self _
  · refine List.nodup_append.mpr ⟨inv.unique, List.nodup_singleton _, ?_⟩
    intro a old b new same
    have below := inv.ids a old
    rw [same, List.mem_singleton.mp new] at below
    exact absurd below (Nat.lt_irrefl _)

/-- A section of a call moves its message on. -/
theorem Inv.proceeded (inv : Inv x) {i : Nat} {left : Option Phase}
    (found : x.calls[i]? = some (item, phase))
    (advanced : advance x item phase event = some (y, left)) :
    Inv { y with calls := y.calls.eraseIdx i ++ (left.map (item, ·)).toList } := by
  obtain ⟨⟨backlog, backlogged, published, sent, rfl⟩, counts⟩ := advance_spec advanced
  refine ⟨?_, ?_, inv.ids, inv.unique, inv.settled⟩
  · intro a
    have before := inv.started a
    have split := count_flatMap_eraseIdx unpublished found a
    have moved := (counts a).1
    simp only [List.flatMap_append, List.count_append] at moved ⊢
    omega
  · intro a
    have before := inv.published a
    have split := count_flatMap_eraseIdx unsent found a
    have moved := (counts a).2
    simp only [List.flatMap_append, List.count_append] at moved ⊢
    omega

/-- A step of the setup leaves the messages where they are. -/
theorem Inv.setup (inv : Inv x) {init : Init} {readyCtx : Option (Option Failure)}
    {epoch : String} {backlog : List Item} {backlogMu : Bool}
    (settled : Settled { x with init, readyCtx, epoch, broadcastBacklog := backlog, backlogMu }) :
    Inv { x with init, readyCtx, epoch, broadcastBacklog := backlog, backlogMu } :=
  ⟨inv.started, inv.published, inv.ids, inv.unique, settled⟩

theorem step_inv {a : Act} (inv : Inv x) (stepped : step x a = some y) : Inv y := by
  have settled := inv.settled
  cases took_of_step stepped with
  | transient msg => exact ⟨inv.started, inv.published, inv.ids, inv.unique, inv.settled⟩
  | called msg => exact inv.called msg
  | proceeded found advanced => exact inv.proceeded found advanced
  | ready epoch now | unavailable err now | retried now | reported now | finished now =>
    simp only [Settled, now] at settled
    exact inv.setup settled
  | readied now =>
    simp only [Settled, now] at settled
    exact inv.setup ⟨rfl, settled.2⟩
  | locked now =>
    simp only [Settled, now] at settled
    exact inv.setup ⟨settled.1, rfl, by simp⟩
  | flushCall now advanced =>
    simp only [Settled, now] at settled
    obtain ⟨rfl, rfl⟩ := flush_advance settled.1 settled.2.1 (settled.2.2 _ rfl) advanced
    exact inv.setup ⟨settled.1, settled.2.1, by simp⟩
  | flushNext now =>
    simp only [Settled, now] at settled
    exact inv.setup ⟨settled.1, settled.2.1, by simp⟩
  | flushEnd now =>
    simp only [Settled, now] at settled
    exact inv.setup ⟨settled.1, rfl⟩

end Invariant

section Setup

variable {x y : State} {schedule : List Act}

/-- The setup has failed for good. -/
def Init.failed : Init → Bool
  | .returned err | .readied err | .finished err => err.isSome
  | .reported _ | .flushing .. => true
  | .trying _ => false

theorem advance_init {item : Item} {phase : Phase} {event : Event} {left : Option Phase}
    (advanced : advance x item phase event = some (y, left)) : y.init = x.init := by
  obtain ⟨⟨backlog, backlogged, published, sent, rfl⟩, -⟩ := advance_spec advanced
  rfl

theorem failed_step {a : Act} (failed : x.init.failed = true) (stepped : step x a = some y) :
    y.init.failed = true := by
  cases took_of_step stepped with
  | transient | called => exact failed
  | proceeded found advanced => rwa [← advance_init advanced] at failed
  | ready epoch now | unavailable err now | retried now | finished now =>
    rw [now] at failed
    cases failed
  | readied now => rwa [now] at failed
  | reported | locked | flushCall | flushNext | flushEnd => rfl

/-- A setup that ends well was never about to flush. -/
theorem never_blocked (ran : Run.exec step x schedule = some y)
    (succeeded : y.init = .finished none) :
    Run.Always step (fun z => ¬Blocked z) x schedule := by
  induction schedule generalizing x with
  | nil =>
    cases ran
    rintro ⟨-, err, item, rest, now⟩
    exact absurd (succeeded.symm.trans now) (by simp)
  | cons a rest ih =>
    refine ⟨?_, ?_⟩
    · rintro ⟨-, err, item, more, now⟩
      have failed := Run.invariant (fun _ _ _ failed stepped => failed_step failed stepped)
        (show x.init.failed = true by rw [now]; rfl) ran
      rw [succeeded] at failed
      cases failed
    · intro next stepped
      obtain ⟨middle, stepped', ran⟩ := Run.exec_cons_some ran
      cases stepped'.symm.trans stepped
      exact ih ran

/-- A flush with something to do. -/
def Init.busy (err : Failure) (init : Init) : Prop :=
  ∃ current rest, init = .flushing err current rest ∧ (current.isSome = true ∨ rest ≠ [])

theorem busy_step {err : Failure} {a : Act} (inv : Inv x) (busy : x.init.busy err)
    (stepped : step x a = some y) : y.init.busy err := by
  obtain ⟨current, rest, flushing, work⟩ := busy
  cases took_of_step stepped with
  | transient | called => exact ⟨current, rest, flushing, work⟩
  | proceeded found advanced =>
    exact ⟨current, rest, (advance_init advanced).trans flushing, work⟩
  | ready epoch now | unavailable err now | retried now | readied now | reported now | locked now
  | finished now => cases flushing.symm.trans now
  | flushCall now advanced =>
    have settled := inv.settled
    simp only [Settled, now] at settled
    obtain ⟨-, rfl⟩ := flush_advance settled.1 settled.2.1 (settled.2.2 _ rfl) advanced
    cases flushing.symm.trans now
    exact ⟨_, rest, rfl, Or.inl rfl⟩
  | flushNext now =>
    cases flushing.symm.trans now
    exact ⟨_, _, rfl, Or.inl rfl⟩
  | flushEnd now =>
    cases flushing.symm.trans now
    simp at work

/-- A flush of anything never ends: its first call waits for the lock. -/
theorem flush_never_ends {err : Failure} (inv : Inv x) (busy : x.init.busy err)
    (ran : Run.exec step x schedule = some y) : y.init.busy err := by
  have keeps : ∀ s a next, Inv s ∧ s.init.busy err → step s a = some next →
      Inv next ∧ next.init.busy err := by
    intro s a next ⟨inv, busy⟩ stepped
    exact ⟨step_inv inv stepped, busy_step inv busy stepped⟩
  exact (Run.invariant keeps ⟨inv, busy⟩ ran).2

end Setup

/-- After a setup that ended well, and at the end of its goroutine: the backlog is flushed only if
it is empty, every other message goes out once, and the flush was never stuck. -/
theorem flushed_iff_no_backlog (schedule : List Act) (x : State)
    (ran : Run.exec step {} schedule = some x) (succeeded : x.init = .finished none) :
    (Flushed x ↔ x.backlogged = []) ∧
    (∀ item ∈ x.started, (∀ c ∈ x.calls, c.1 ≠ item) → item ∉ x.backlogged →
      x.published.count item = 1 ∧ (x.sent.map (·.1)).count item = 1) ∧
    Run.Always step (fun z => ¬Blocked z) {} schedule := by
  have inv := Run.invariant (fun _ _ _ inv stepped => step_inv inv stepped) inv_start ran
  refine ⟨⟨?_, ?_⟩, ?_, never_blocked ran succeeded⟩
  · intro flushed
    apply List.eq_nil_iff_forall_not_mem.mpr
    intro item member
    -- a started message is in one place only
    have once := List.nodup_iff_count_le_one.mp inv.unique item
    have account := inv.started item
    have twice := flushed.published item member
    have there := List.count_pos_iff.mpr member
    omega
  · intro none
    exact ⟨by simp [none], by simp [none], by simp [none]⟩
  · intro item started returned other
    have once := List.nodup_iff_count_le_one.mp inv.unique item
    have there := List.count_pos_iff.mpr started
    have account := inv.started item
    have published := inv.published item
    have none := List.count_eq_zero.mpr other
    have early : (x.calls.flatMap unpublished).count item = 0 := by
      apply List.count_eq_zero.mpr
      intro member
      obtain ⟨c, called, own⟩ := List.mem_flatMap.mp member
      exact returned c called (item_of_unpublished own).symm
    have late : (x.calls.flatMap unsent).count item = 0 := by
      apply List.count_eq_zero.mpr
      intro member
      obtain ⟨c, called, own⟩ := List.mem_flatMap.mp member
      exact returned c called (item_of_unsent own).symm
    constructor <;> omega

/-- JetStream is ready at the second attempt; two calls are made before, and both wait. -/
def slowStart : List Act :=
  [.call { stream := "chat", data := "a" }, .call { stream := "chat", data := "b" },
   .attempt (.error "no responders"), .attempt (.ok "epoch"), .readyFn, .finish,
   .proceed 0 {}, .proceed 1 { sequence := 1 }, .proceed 1 {}, .proceed 0 {},
   .proceed 0 { sequence := 2 }, .proceed 0 {}]

theorem slowStart_flushed :
    ∃ x, Run.exec step {} slowStart = some x ∧
      x.sent.map (fun s => (s.2.data, s.2.offset)) = [("a", 1), ("b", 2)] ∧ Flushed x ∧
      Run.Always step (fun z => ¬Blocked z) {} slowStart := by
  refine ⟨_, rfl, by decide, ?_, ?_⟩
  · exact (flushed_iff_no_backlog slowStart _ rfl rfl).1.mpr rfl
  · exact (flushed_iff_no_backlog slowStart _ rfl rfl).2.2

/-- The same start, but the first call gives up waiting. -/
theorem backlog_not_flushed :
    ∃ x, Run.exec step {}
        [.call { stream := "chat", data := "a" }, .attempt (.error "no responders"),
         .proceed 0 { timeout := true }, .proceed 0 {}, .attempt (.ok "epoch"), .readyFn,
         .finish] = some x ∧
      x.init = .finished none ∧ x.calls = [] ∧
      x.backlogged.map (·.msg.data) = ["a"] ∧ x.published = [] ∧ x.sent = [] ∧ ¬Flushed x := by
  refine ⟨_, rfl, rfl, rfl, by decide, rfl, rfl, fun flushed => ?_⟩
  exact absurd (flushed.published _ (List.mem_singleton_self _)) (by decide)

end AnyCable.Guarantees.NatsBacklog
