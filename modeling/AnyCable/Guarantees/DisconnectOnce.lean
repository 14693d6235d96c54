import AnyCable.Lib.Run
import AnyCable.Source.Node

/-!
# One `Disconnect` call for every session

`Node.Disconnect` (`node/node.go:804-828`) makes the controller call itself during a shutdown and
leaves it to the disconnect queue otherwise. `DisconnectQueue.Run` and `DisconnectQueue.Shutdown`
(`node/disconnect_queue.go:75-131`) both take sessions out of the queue; `Enqueue` (134-149) looks
at `isStopped` first and sends into the channel after that, with no lock held.

Any number of `Disconnect` calls, the loop and one `Node.Shutdown` (252-292) run side by side. The
calls that `disconnectAll` makes are among them: they start while the shutdown is at `closing`.

A session is lost if its call has seen an open node and comes to the queue too late: the queue is
stopped, or the shutdown is past its last look at the channel (`late_sessions_lost`). Otherwise
every session is called exactly once (`once_unless_late`). A call that nothing interrupts does what
`Node.disconnect` does (`undisturbed_disconnect`).
-/

set_option autoImplicit false

namespace AnyCable.Guarantees.DisconnectOnce
open AnyCable.Lib AnyCable.Source

/-- A `Node.Disconnect` call, named by what comes next. -/
inductive Call where
  | idle
  | check
  /-- The node is shutting down: `hub.RemoveSession`, then `DisconnectNow`. -/
  | remove
  | now
  /-- The node is open: `hub.RemoveSessionLater`, then `Enqueue` with its two parts. -/
  | removeLater
  | enqueue
  | push
  | returned
  deriving DecidableEq

/-- `DisconnectQueue.Run`. -/
inductive Loop where
  | waiting
  | holding (session : SessionRef)
  | stopped
  deriving DecidableEq

/-- `Node.Shutdown`: `count` and what follows belong to `DisconnectQueue.Shutdown`. -/
inductive Shutdown where
  | idle
  | closing
  | count
  | draining
  | holding (session : SessionRef)
  | returned
  deriving DecidableEq

structure State where
  node : Node
  calls : SessionRef → Call := fun _ => .idle
  run : Loop := .waiting
  /-- The channel `shutdown` of the queue. -/
  signal : Bool := false
  shutdown : Shutdown := .idle
  /-- The sessions of the `controller.Disconnect` calls so far. -/
  called : List SessionRef := []

/-- A running node, before the first `Disconnect`. -/
def State.start (n : Node) : State := { node := { n with disconnector := {}, closed := false } }

inductive Act where
  | disconnect (session : SessionRef) (now : Instant)
  /-- The call of the session goes on. -/
  | call (session : SessionRef)
  /-- The loop takes a session out of the channel, or right out of the hand of a sender. -/
  | take
  | hand (session : SessionRef)
  | runCall
  | runStop
  | shutdown
  /-- The hub loop takes a registration. -/
  | register

namespace State

def move (x : State) (r : SessionRef) (c : Call) : State :=
  { x with calls := Function.update x.calls r c }

def queue (x : State) : List SessionRef := x.node.disconnector.queue

def setQueue (x : State) (queue : List SessionRef) : State :=
  { x with node := { x.node with disconnector := { x.node.disconnector with queue := queue } } }

def setHub (x : State) (hub : Hub) : State := { x with node := { x.node with hub := hub } }

end State

section Step

variable (people : SessionRef → Session) (backlog : Nat)

/-- `DisconnectNow`. -/
def disconnectNow (x : State) (r : SessionRef) : State :=
  { x with node := x.node.disconnectNow (people r), called := x.called ++ [r] }

/-- Where the call goes on after the session is removed. -/
def afterRemove (r : SessionRef) (next : Call) : Call :=
  if (people r).disconnectInterest then next else .returned

def callStep (x : State) (r : SessionRef) : Call → Option State
  | .check => some (x.move r (if x.node.closed then .remove else .removeLater))
  | .remove =>
    some ((x.setHub (x.node.hub.removeSession (people r).toHub)).move r (afterRemove people r .now))
  | .now => some ((disconnectNow people x r).move r .returned)
  | .removeLater =>
    if x.node.hub.register.length < Hub.registerCap then
      let hub := { x.node.hub with register := x.node.hub.register ++ [.remove r] }
      some ((x.setHub hub).move r (afterRemove people r .enqueue))
    else none
  | .enqueue => some (x.move r (if x.node.disconnector.isStopped then .returned else .push))
  | .push =>
    if x.queue.length < backlog then some ((x.setQueue (x.queue ++ [r])).move r .returned)
    else none
  | .idle | .returned => none

def shutdownStep (x : State) : Option State :=
  match x.shutdown with
  | .idle => some { x with node := { x.node with closed := true }, shutdown := .closing }
  | .closing =>
    if x.node.disconnector.isStopped then some { x with shutdown := .returned }
    else
      let disconnector := { x.node.disconnector with isStopped := true }
      some { x with node := { x.node with disconnector := disconnector }
                    signal := true
                    shutdown := .count }
  | .count => some { x with shutdown := if x.queue.length = 0 then .returned else .draining }
  | .draining =>
    match x.queue with
    | [] => some { x with shutdown := .returned }
    | r :: rest => some { x.setQueue rest with shutdown := .holding r }
  | .holding r => some { disconnectNow people x r with shutdown := .draining }
  | .returned => none

def step (x : State) : Act → Option State
  | .disconnect r now =>
    if x.calls r = .idle then
      let node := { x.node with broker := Node.finish x.node.broker (people r) now }
      some ({ x with node := node }.move r .check)
    else none
  | .call r => callStep people backlog x r (x.calls r)
  | .take =>
    match x.run, x.queue with
    | .waiting, r :: rest => some { x.setQueue rest with run := .holding r }
    | _, _ => none
  | .hand r =>
    if x.run = .waiting ∧ x.queue = [] ∧ x.calls r = .push then
      some ({ x with run := .holding r }.move r .returned)
    else none
  | .runCall =>
    match x.run with
    | .holding r => some { disconnectNow people x r with run := .waiting }
    | _ => none
  | .runStop =>
    if x.run = .waiting ∧ x.signal = true then some { x with run := .stopped, signal := false }
    else none
  | .shutdown => shutdownStep people x
  | .register =>
    match x.node.hub.register with
    | [] => none
    | .add r :: rest =>
      some (x.setHub ({ x.node.hub with register := rest }.addSession (people r).toHub))
    | .remove r :: rest =>
      some (x.setHub ({ x.node.hub with register := rest }.removeSession (people r).toHub))

end Step

/-- The sessions that the loop and the shutdown have in hand. -/
def Loop.held : Loop → List SessionRef
  | .holding r => [r]
  | .waiting | .stopped => []

def Shutdown.held : Shutdown → List SessionRef
  | .holding r => [r]
  | .idle | .closing | .count | .draining | .returned => []

/-- The shutdown and all calls have returned, and the loop has finished its item. -/
structure Done (x : State) : Prop where
  shutdown : x.shutdown = .returned
  run : x.run.held = []
  calls : ∀ r, x.calls r = .idle ∨ x.calls r = .returned

/-- The property of one state: one controller call for each disconnectable session whose
`Disconnect` has returned, and no other call. -/
def CalledOnce (people : SessionRef → Session) (x : State) : Prop :=
  Done x → ∀ r, x.called.count r =
    if x.calls r = .returned ∧ (people r).disconnectInterest = true then 1 else 0

/-- The condition on a step: `Enqueue` finds the queue running, and its send comes before the
shutdown has taken its last look at the channel. -/
def InTime (x : State) : Act → Prop
  | .call r => (x.calls r = .enqueue → x.node.disconnector.isStopped = false) ∧
      (x.calls r = .push → x.shutdown ≠ .returned)
  | _ => True

instance (x : State) : (a : Act) → Decidable (InTime x a)
  | .call r => inferInstanceAs (Decidable ((x.calls r = .enqueue → _) ∧ (x.calls r = .push → _)))
  | .disconnect .. | .take | .hand _ | .runCall | .runStop | .shutdown | .register => isTrue trivial

/-- Every place a session can be in between its `Enqueue` and its call. -/
def places (x : State) : List SessionRef := x.queue ++ x.run.held ++ x.shutdown.held ++ x.called

def Call.wantsCall : Call → Bool
  | .now | .enqueue | .push => true
  | .idle | .check | .remove | .removeLater | .returned => false

/-- How far the shutdown is. -/
structure Ordered (x : State) : Prop where
  running : x.shutdown = .idle ∨ x.shutdown = .closing → x.node.disconnector.isStopped = false
  drained : x.shutdown = .returned → x.queue = []

structure Inv (people : SessionRef → Session) (x : State) : Prop where
  /-- No session is lost or doubled. -/
  conserved : ∀ r, (places x).count r =
    if x.calls r = .returned ∧ (people r).disconnectInterest = true then 1 else 0
  wanted : ∀ r, (x.calls r).wantsCall = true → (people r).disconnectInterest = true
  ordered : Ordered x

variable {people : SessionRef → Session} {backlog : Nat} {x y : State}

theorem inv_start (people : SessionRef → Session) (n : Node) : Inv people (State.start n) where
  conserved := by simp [places, State.start, State.queue, Loop.held, Shutdown.held]
  wanted := by simp [State.start, Call.wantsCall]
  ordered := ⟨fun _ => rfl, fun _ => rfl⟩

theorem calledOnce_of_inv (inv : Inv people x) : CalledOnce people x := by
  intro done r
  have conserved := inv.conserved r
  have drained := inv.ordered.drained done.shutdown
  simpa [places, drained, done.run, done.shutdown, Shutdown.held] using conserved

/-- A step of the loops: sessions change their place and no call moves. -/
theorem Inv.carry (inv : Inv people x) (calls : y.calls = x.calls)
    (perm : (places y).Perm (places x)) (ordered : Ordered y) :
    Inv people y where
  conserved := fun r => by rw [perm.count_eq, calls, inv.conserved]
  wanted := by rw [calls]; exact inv.wanted
  ordered := ordered

/-- A step of a call that does not end it with a session to be called. -/
theorem Inv.advance {r : SessionRef} {c : Call} (inv : Inv people x)
    (busy : x.calls r ≠ .returned) (calls : y.calls = Function.update x.calls r c)
    (same : places y = places x) (ends : c = .returned → (people r).disconnectInterest = false)
    (wanted : c.wantsCall = true → (people r).disconnectInterest = true)
    (ordered : Ordered y) : Inv people y where
  conserved := by
    intro r'
    rw [same, inv.conserved, calls]
    by_cases own : r' = r
    · subst own
      simp only [busy, false_and, if_false, Function.update_self]
      rw [if_neg]
      rintro ⟨returned, interest⟩
      rw [ends returned] at interest
      cases interest
    · rw [Function.update_of_ne own]
  wanted := by
    intro r'
    rw [calls]
    by_cases own : r' = r
    · subst own
      rw [Function.update_self]
      exact wanted
    · rw [Function.update_of_ne own]
      exact inv.wanted r'
  ordered := ordered

/-- A step that ends a call and puts its session into one place. -/
theorem Inv.place {r : SessionRef} (inv : Inv people x) (waits : (x.calls r).wantsCall = true)
    (calls : y.calls = Function.update x.calls r .returned)
    (perm : (places y).Perm (r :: places x)) (ordered : Ordered y) :
    Inv people y where
  conserved := by
    intro r'
    rw [perm.count_eq, List.count_cons, inv.conserved, calls]
    by_cases own : r' = r
    · subst own
      have busy : x.calls r' ≠ .returned := by
        intro returned
        rw [returned] at waits
        cases waits
      simp [busy, inv.wanted r' waits]
    · simp [Function.update_of_ne own, Ne.symm own]
  wanted := by
    intro r'
    rw [calls]
    by_cases own : r' = r
    · subst own
      simp [Call.wantsCall]
    · rw [Function.update_of_ne own]
      exact inv.wanted r'
  ordered := ordered

theorem afterRemove_returned {r : SessionRef} {next : Call} (more : next ≠ .returned) :
    afterRemove people r next = .returned → (people r).disconnectInterest = false := by
  unfold afterRemove
  split
  · exact fun returned => absurd returned more
  next none => simpa using none

theorem afterRemove_wanted {r : SessionRef} {next : Call} :
    (afterRemove people r next).wantsCall = true → (people r).disconnectInterest = true := by
  unfold afterRemove
  split
  next wanted => exact fun _ => wanted
  · simp [Call.wantsCall]

theorem callStep_inv {r : SessionRef} (inv : Inv people x) (inTime : InTime x (.call r))
    (stepped : callStep people backlog x r (x.calls r) = some y) : Inv people y := by
  obtain ⟨running, drained⟩ := inv.ordered
  cases phase : x.calls r with
  | idle | returned =>
    rw [phase] at stepped
    cases stepped
  | check =>
    rw [phase] at stepped
    cases stepped
    refine inv.advance (by simp [phase]) rfl rfl ?_ ?_ ⟨running, drained⟩ <;> split <;>
      simp [Call.wantsCall]
  | remove =>
    rw [phase] at stepped
    cases stepped
    exact inv.advance (by simp [phase]) rfl rfl (afterRemove_returned (by simp))
      afterRemove_wanted ⟨running, drained⟩
  | now =>
    rw [phase] at stepped
    cases stepped
    refine inv.place (r := r) (by simp [phase, Call.wantsCall]) rfl ?_ ⟨running, drained⟩
    change (x.queue ++ x.run.held ++ x.shutdown.held ++ (x.called ++ [r])).Perm (r :: places x)
    rw [← List.append_assoc]
    exact List.perm_append_singleton r (places x)
  | removeLater =>
    rw [phase] at stepped
    simp only [callStep] at stepped
    split at stepped
    · cases stepped
      exact inv.advance (by simp [phase]) rfl rfl (afterRemove_returned (by simp))
        afterRemove_wanted ⟨running, drained⟩
    · cases stepped
  | enqueue =>
    rw [phase] at stepped
    simp only [callStep, inTime.1 phase] at stepped
    cases stepped
    have interest := inv.wanted r (by simp [phase, Call.wantsCall])
    exact inv.advance (by simp [phase]) rfl rfl (by simp) (fun _ => interest) ⟨running, drained⟩
  | push =>
    rw [phase] at stepped
    simp only [callStep] at stepped
    split at stepped
    · cases stepped
      refine inv.place (r := r) (by simp [phase, Call.wantsCall]) rfl ?_
        ⟨running, fun returned => absurd returned (inTime.2 phase)⟩
      change (x.queue ++ [r] ++ x.run.held ++ x.shutdown.held ++ x.called).Perm (r :: places x)
      simp only [places, List.append_assoc, List.singleton_append]
      exact List.perm_middle
    · cases stepped

theorem shutdownStep_inv (inv : Inv people x) (stepped : shutdownStep people x = some y) :
    Inv people y := by
  have same : ∀ next : Shutdown, x.shutdown.held = next.held →
      (places { x with shutdown := next }).Perm (places x) := by
    intro next held
    unfold places
    rw [held]
    exact .refl _
  unfold shutdownStep at stepped
  split at stepped
  next phase =>
    cases stepped
    refine inv.carry rfl (same .closing (by rw [phase]; rfl)) ⟨fun _ => ?_, by simp⟩
    exact inv.ordered.running (Or.inl phase)
  next phase =>
    rw [if_neg (by simp [inv.ordered.running (Or.inr phase)])] at stepped
    cases stepped
    exact inv.carry rfl (same .count (by rw [phase]; rfl)) ⟨by simp, by simp⟩
  next phase =>
    cases stepped
    split
    next empty =>
      exact inv.carry rfl (same .returned (by rw [phase]; rfl))
        ⟨by simp, fun _ => List.eq_nil_of_length_eq_zero empty⟩
    · exact inv.carry rfl (same .draining (by rw [phase]; rfl)) ⟨by simp, by simp⟩
  next phase =>
    split at stepped
    next empty =>
      cases stepped
      exact inv.carry rfl (same .returned (by rw [phase]; rfl)) ⟨by simp, fun _ => empty⟩
    next r rest taken =>
      cases stepped
      refine inv.carry rfl ?_ ⟨by simp, by simp⟩
      change (rest ++ x.run.held ++ [r] ++ x.called).Perm (places x)
      rw [places, taken, phase, Shutdown.held, List.append_nil]
      exact (List.perm_append_singleton r (rest ++ x.run.held)).append_right x.called
  next r phase =>
    cases stepped
    refine inv.carry rfl ?_ ⟨by simp, by simp⟩
    change (x.queue ++ x.run.held ++ [] ++ (x.called ++ [r])).Perm (places x)
    rw [places, phase, List.append_nil, Shutdown.held, List.append_assoc (x.queue ++ x.run.held)]
    exact List.perm_append_comm.append_left _
  next => cases stepped

theorem step_inv (a : Act) (inv : Inv people x) (inTime : InTime x a)
    (stepped : step people backlog x a = some y) : Inv people y := by
  obtain ⟨running, drained⟩ := inv.ordered
  cases a with
  | disconnect r now =>
    simp only [step] at stepped
    split at stepped
    next idle =>
      cases stepped
      exact inv.advance (by simp [idle]) rfl rfl (by simp) (by simp [Call.wantsCall])
        ⟨running, drained⟩
    · cases stepped
  | call r => exact callStep_inv inv inTime stepped
  | take =>
    simp only [step] at stepped
    split at stepped
    next r rest waiting taken =>
      cases stepped
      refine inv.carry rfl ?_ ⟨running, fun returned => ?_⟩
      · change (rest ++ [r] ++ x.shutdown.held ++ x.called).Perm (places x)
        rw [places, waiting, taken, Loop.held, List.append_nil]
        exact ((List.perm_append_singleton r rest).append_right _).append_right _
      · rw [drained returned] at taken
        cases taken
    · cases stepped
  | hand r =>
    simp only [step] at stepped
    split at stepped
    next handed =>
      obtain ⟨waiting, empty, phase⟩ := handed
      cases stepped
      refine inv.place (r := r) (by simp [phase, Call.wantsCall]) rfl ?_ ⟨running, drained⟩
      change (x.queue ++ [r] ++ x.shutdown.held ++ x.called).Perm (r :: places x)
      rw [places, waiting, empty]
      exact .refl _
    · cases stepped
  | runCall =>
    simp only [step] at stepped
    split at stepped
    next r holding =>
      cases stepped
      refine inv.carry rfl ?_ ⟨running, drained⟩
      change (x.queue ++ [] ++ x.shutdown.held ++ (x.called ++ [r])).Perm (places x)
      rw [places, holding, Loop.held, List.append_nil, ← List.append_assoc]
      refine (List.perm_append_singleton r _).trans ?_
      exact (((List.perm_append_singleton r x.queue).append_right _).append_right _).symm
    · cases stepped
  | runStop =>
    simp only [step] at stepped
    split at stepped
    next ends =>
      cases stepped
      refine inv.carry rfl ?_ ⟨running, drained⟩
      change (x.queue ++ [] ++ x.shutdown.held ++ x.called).Perm (places x)
      rw [places, ends.1, Loop.held]
    · cases stepped
  | shutdown => exact shutdownStep_inv inv stepped
  | register =>
    simp only [step] at stepped
    split at stepped
    · cases stepped
    · cases stepped
      exact inv.carry rfl (.refl _) ⟨running, drained⟩
    · cases stepped
      exact inv.carry rfl (.refl _) ⟨running, drained⟩

/-- In every run in which no `Disconnect` call comes to the queue too late, every state reached
has the property. -/
theorem once_unless_late (people : SessionRef → Session) (backlog : Nat) (n : Node)
    (schedule : List Act) (x : State)
    (inTime : Run.Meets (step people backlog) InTime (State.start n) schedule)
    (ran : Run.exec (step people backlog) (State.start n) schedule = some x) :
    CalledOnce people x :=
  calledOnce_of_inv (Run.invariant_of_meets
    (fun _ a _ inv met stepped => step_inv a inv met stepped) (inv_start people n) inTime ran)

/-- With room in both channels. -/
theorem undisturbed_disconnect {r : SessionRef} (now : Instant) (idle : x.calls r = .idle)
    (own : (people r).ref = r) (room : x.node.hub.register.length < Hub.registerCap)
    (space : x.queue.length < backlog) :
    ∃ steps y, Run.exec (step people backlog) x
        (.disconnect r now :: List.replicate steps (.call r)) = some y ∧
      y.calls r = .returned ∧ y.node = x.node.disconnect (people r) now := by
  have inside : x.node.disconnector.queue.length < backlog := space
  -- one case per return of the source
  cases closed : x.node.closed <;> cases interest : (people r).disconnectInterest
  · refine ⟨2, ?_⟩
    simp [Run.exec, step, callStep, afterRemove, State.move, State.setHub, Node.disconnect, idle,
      closed, interest, room, own]
  · cases stopped : x.node.disconnector.isStopped
    · refine ⟨4, ?_⟩
      simp [Run.exec, step, callStep, afterRemove, State.move, State.setHub, State.queue,
        State.setQueue, Node.disconnect, Disconnector.enqueue, idle, closed, interest, room, own,
        stopped, inside]
    · refine ⟨3, ?_⟩
      simp [Run.exec, step, callStep, afterRemove, State.move, State.setHub, Node.disconnect,
        Disconnector.enqueue, idle, closed, interest, room, own, stopped]
  · refine ⟨2, ?_⟩
    simp [Run.exec, step, callStep, afterRemove, State.move, State.setHub, Node.disconnect, idle,
      closed, interest]
  · refine ⟨3, ?_⟩
    simp [Run.exec, step, callStep, afterRemove, State.move, State.setHub, disconnectNow,
      Node.disconnect, idle, closed, interest]

/-- Ids are made from the references. -/
def everyone (r : SessionRef) : Session :=
  { ref := r, uid := toString r, disconnectInterest := true }

def empty : Node := { codec := .blank, hub := { gatesNum := 1 } }

/-- The steps of a call up to `Enqueue`, and all of a queued one. -/
def toQueue (r : SessionRef) : List Act := [.disconnect r 0, .call r, .call r]

def queued (r : SessionRef) : List Act := toQueue r ++ [.call r, .call r]

/-- The first session is called by the loop, the second by the shutdown, and the third calls by
itself. -/
def orderly : List Act :=
  queued 1 ++ [.take] ++ queued 2 ++ [.shutdown, .runCall, .shutdown, .shutdown] ++
  [.disconnect 3 0, .call 3, .call 3, .call 3, .runStop, .shutdown, .shutdown, .shutdown]

theorem orderly_once :
    ∃ x, Run.exec (step everyone 4) (State.start empty) orderly = some x ∧
      x.called = [1, 3, 2] ∧ CalledOnce everyone x :=
  ⟨_, rfl, rfl, once_unless_late everyone 4 empty orderly _ (by decide +kernel) rfl⟩

/-- The queue is stopped between the look at the node and the look at the queue, or between the
look at the queue and the send. Nobody will ever call the session. -/
theorem late_sessions_lost :
    (∃ x, Run.exec (step everyone 4) (State.start empty)
        (toQueue 1 ++ [.shutdown, .shutdown, .shutdown, .call 1, .runStop]) = some x ∧
      x.called = [] ∧ x.queue = [] ∧ ¬ CalledOnce everyone x) ∧
    ∃ x, Run.exec (step everyone 4) (State.start empty)
        (toQueue 1 ++ [.call 1, .shutdown, .shutdown, .shutdown, .call 1, .runStop]) = some x ∧
      x.called = [] ∧ x.queue = [1] ∧ x.run = .stopped ∧ ¬ CalledOnce everyone x := by
  refine ⟨⟨_, rfl, rfl, rfl, fun once => ?_⟩, _, rfl, rfl, rfl, rfl, fun once => ?_⟩
  · refine absurd (once ⟨rfl, rfl, fun r => ?_⟩ 1) (by decide +kernel)
    by_cases own : r = 1
    · subst own
      exact Or.inr rfl
    · exact Or.inl (by simp [State.move, State.setHub, State.start, own])
  · refine absurd (once ⟨rfl, rfl, fun r => ?_⟩ 1) (by decide +kernel)
    by_cases own : r = 1
    · subst own
      exact Or.inr rfl
    · exact Or.inl (by simp [State.move, State.setHub, State.setQueue, State.start, own])

end AnyCable.Guarantees.DisconnectOnce
