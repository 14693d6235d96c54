import AnyCable.Lib.Run
import AnyCable.Source.Node

/-!
# Removing a session while one of its commands is in flight

A session runs `Node.Subscribe` or `Node.Perform`; the controller may answer at any time
with any reply, and `handleCommandReply` (`node/node.go:884-935`) then changes the hub stream
by stream. Meanwhile another goroutine disconnects the session
(`node/session.go:486-522`, `node/node.go:804-828`): it clears `Connected`, so that only one
`Node.Disconnect` follows, and that queues the removal for the hub loop or, during a
shutdown, removes the session itself. `Hub.RemoveSession` (`hub/hub.go:210-233`) has three
locked sections.

`Hub.SubscribeSession` has two sections and creates a missing session entry. When it comes
after the removal it brings the session back for good (`late_subscribe_remains`). If it is
never completed after the removal has cleared the gates, the hub forgets the session
(`nothing_left_unless_late`). A command that nothing interrupts does to the hub what
`Node.handleCommandReply` does (`undisturbed_handleCommandReply`).
-/

set_option autoImplicit false

namespace AnyCable.Guarantees.SessionRemoval
open AnyCable.Lib AnyCable.Source

/-- A hub call of `handleCommandReply`, and its deferred `Session.Disconnect`. -/
inductive Item where
  | stopAll (identifier : String)
  | unsubscribe (stream identifier : String)
  | subscribe (stream identifier : String)
  | disconnect
  deriving DecidableEq

/-- The calls a reply leads to, in order. -/
def items (identifier : String) (reply : CommandResult) : List Item :=
  (if reply.stopAllStreams then [.stopAll identifier]
   else (reply.stoppedStreams.getD []).map (.unsubscribe · identifier)) ++
  (reply.streams.getD []).map (.subscribe · identifier) ++
  (if reply.disconnect then [.disconnect] else [])

/-- The command: waiting for the controller, or working on the reply. `half` is the call
whose gate section is done while its hub section is not. -/
inductive Command where
  | calling (identifier : String)
  | running (half : Option Item) (todo : List Item)
  deriving DecidableEq

/-- Sections of `RemoveSession`, named by the one to come next. -/
inductive Removal where
  | idle
  | check
  | clear
  | delete
  deriving DecidableEq

structure State where
  hub : Hub
  command : Command
  connected : Bool := true
  /-- `Connected` was cleared and `Node.Disconnect` is about to run. -/
  leaving : Bool := false
  removal : Removal := .idle
  shuttingDown : Bool := false

/-- A registered session with subscriptions from earlier commands. -/
def State.start (gatesNum : Nat) (s : HubSession) (earlier : List (String × String))
    (identifier : String) : State :=
  { hub := earlier.foldl (fun h p => h.subscribeSession s p.1 p.2)
      (Hub.addSession { gatesNum } s)
    command := .calling identifier }

inductive Act where
  /-- `disconnectFromNode` in another goroutine. -/
  | disconnect
  | nodeDisconnect
  | shutdown
  | hubTake
  | remove
  /-- The controller answers; `none` is an error. -/
  | reply (res : Option CommandResult)
  | command

/-- `disconnectFromNode` up to the unlock. -/
def disconnectFromNode (x : State) : State :=
  if x.connected then { x with connected := false, leaving := true } else x

/-- One section of a hub call. -/
def commandStep (s : HubSession) (x : State) : Option Item → List Item → Option State
  | some (.subscribe stream id), todo =>
    some { x with hub := x.hub.addStream s stream id, command := .running none todo }
  | some (.unsubscribe stream id), todo =>
    some { x with hub := x.hub.removeStream s stream id, command := .running none todo }
  | some _, todo => some { x with command := .running none todo }
  | none, .stopAll id :: todo =>
    some { x with hub := x.hub.unsubscribeSessionFromChannel s id, command := .running none todo }
  | none, .unsubscribe stream id :: todo =>
    some { x with hub := x.hub.gateUnsubscribe s stream id,
                  command := .running (some (.unsubscribe stream id)) todo }
  | none, .subscribe stream id :: todo =>
    some { x with hub := x.hub.gateSubscribe s stream id,
                  command := .running (some (.subscribe stream id)) todo }
  | none, .disconnect :: todo =>
    some (disconnectFromNode { x with command := .running none todo })
  | none, [] => none

def removeStep (s : HubSession) (x : State) : Option State :=
  match x.removal with
  | .idle => none
  | .check => some { x with removal := if x.hub.registered s then .clear else .idle }
  | .clear => some { x with hub := x.hub.unsubscribeSessionFromAllChannels s, removal := .delete }
  | .delete => some { x with hub := x.hub.unregister s, removal := .idle }

def step (s : HubSession) (x : State) : Act → Option State
  | .disconnect => some (disconnectFromNode x)
  | .nodeDisconnect =>
    if x.leaving then
      if x.shuttingDown then some { x with leaving := false, removal := .check }
      else if x.hub.register.length < Hub.registerCap then
        some { x with leaving := false
                      hub := { x.hub with register := x.hub.register ++ [.remove s.ref] } }
      else none
    else none
  | .shutdown => some { x with shuttingDown := true }
  | .hubTake =>
    match x.removal, x.hub.register with
    | .idle, .remove r :: rest =>
      if r = s.ref then some { x with hub := { x.hub with register := rest }, removal := .check }
      else none
    | _, _ => none
  | .remove => removeStep s x
  | .reply res =>
    match x.command with
    | .calling id => some { x with command := .running none ((res.map (items id)).getD []) }
    | .running .. => none
  | .command =>
    match x.command with
    | .calling _ => none
    | .running half todo => commandStep s x half todo

/-- The command has returned and the removal is through. -/
def Quiet (x : State) : Prop :=
  x.command = .running none [] ∧ x.connected = false ∧ x.leaving = false ∧
    x.hub.register = [] ∧ x.removal = .idle

/-- The property of one state. -/
def NothingLeft (s : HubSession) (x : State) : Prop :=
  Quiet x → x.hub.sessions s.uid = none ∧ ∀ k st id, ¬ (x.hub.gates k).Has s.ref st id

/-- The command's next section is the second one of `SubscribeSession`. -/
def subscribing : Command → Bool
  | .running (some (.subscribe ..)) _ => true
  | _ => false

/-- The condition on a step: the second section of `SubscribeSession` is not taken once the
removal has cleared the gates. -/
def InTime (s : HubSession) (x : State) : Act → Prop
  | .command => subscribing x.command = true →
      (x.hub.sessions s.uid).isSome = true ∧ x.removal ≠ .delete
  | _ => True

instance (s : HubSession) (x : State) : (a : Act) → Decidable (InTime s x a)
  | .command => inferInstanceAs (Decidable (subscribing x.command = true →
      (x.hub.sessions s.uid).isSome = true ∧ x.removal ≠ .delete))
  | .disconnect | .nodeDisconnect | .shutdown | .hubTake | .remove | .reply _ => isTrue trivial

/-- The pairs the removal will still see. -/
def listed (s : HubSession) (x : State) : List (String × String) :=
  if x.removal = .delete then [] else x.hub.pairsOf s

/-- The list as it will be when the call in progress has finished. -/
def settled : Command → List (String × String) → List (String × String)
  | .running (some (.subscribe stream id)) _, pairs => pairs ++ [(stream, id)]
  | .running (some (.unsubscribe stream id)) _, pairs => pairs.erase (stream, id)
  | _, pairs => pairs

structure Inv (s : HubSession) (x : State) : Prop where
  covers : x.hub.Covers s (settled x.command (listed s x))
  /-- One `Node.Disconnect`, and no removal before it. -/
  once : x.connected = true → x.leaving = false
  fresh : x.connected = true ∨ x.leaving = true → x.removal = .idle ∧ x.hub.register = []
  gone : x.connected = false → x.leaving = false → x.hub.register = [] → x.removal = .idle →
    x.hub.sessions s.uid = none

variable {s : HubSession} {x y : State}

theorem inv_start (gatesNum : Nat) (s : HubSession) (earlier : List (String × String))
    (identifier : String) : Inv s (State.start gatesNum s earlier identifier) := by
  -- each earlier subscription keeps the list complete and the queue empty
  have earlier_covered : ∀ (h : Hub), h.Covers s (h.pairsOf s) ∧ h.register = [] →
      let h := earlier.foldl (fun h p => h.subscribeSession s p.1 p.2) h
      h.Covers s (h.pairsOf s) ∧ h.register = [] := by
    induction earlier with
    | nil => exact fun h covered => covered
    | cons p earlier ih =>
      rintro h ⟨covers, empty⟩
      refine ih _ ⟨?_, empty⟩
      simp only [Hub.subscribeSession, Hub.pairsOf_addStream]
      exact Hub.covers_congr rfl rfl (Hub.covers_gateSubscribe covers p.1 p.2)
  obtain ⟨covers, empty⟩ := earlier_covered (Hub.addSession { gatesNum } s)
    ⟨fun k st id has => absurd has (Gate.not_has_empty s.ref st id), rfl⟩
  exact ⟨covers, fun _ => rfl, fun _ => ⟨rfl, empty⟩, by simp [State.start]⟩

theorem settled_subset (c : Command) (pairs : List (String × String)) :
    ∀ p ∈ settled c pairs, p ∈ pairs ++ settled c [] := by
  intro p member
  unfold settled at member ⊢
  split at member
  · simpa using member
  · exact List.mem_append_left _ (List.mem_of_mem_erase member)
  · simpa using member

theorem disconnectFromNode_inv (inv : Inv s x) : Inv s (disconnectFromNode x) := by
  unfold disconnectFromNode
  split
  next connected =>
    exact ⟨inv.covers, by simp, fun _ => inv.fresh (Or.inl connected), by simp⟩
  · exact inv

/-- A removal under way means that the session has left. -/
theorem Inv.left (inv : Inv s x) (busy : x.removal ≠ .idle) :
    ¬ (x.connected = true ∨ x.leaving = true) :=
  fun present => busy (inv.fresh present).1

theorem remove_inv (inv : Inv s x) (stepped : removeStep s x = some y) : Inv s y := by
  have covers := inv.covers
  unfold removeStep at stepped
  split at stepped
  · cases stepped
  next removal =>
    cases stepped
    have left := inv.left (by simp [removal])
    simp only [listed, removal, reduceCtorEq, if_false] at covers
    cases registered : x.hub.registered s with
    | true =>
      refine ⟨?_, inv.once, fun present => absurd present left, by simp⟩
      simpa [listed] using covers
    | false =>
      refine ⟨by simpa [listed] using covers, inv.once, fun present => absurd present left, ?_⟩
      intro _ _ _ _
      simpa [Hub.registered] using registered
  next removal =>
    cases stepped
    have left := inv.left (by simp [removal])
    refine ⟨?_, inv.once, fun present => absurd present left, by simp⟩
    simp only [listed, removal, reduceCtorEq, if_false, if_true] at covers ⊢
    rw [Hub.unsubscribeSessionFromAllChannels_eq]
    have cleared : (x.hub.unsubscribeEach s (x.hub.pairsOf s)).Covers s _ :=
      Hub.covers_unsubscribeEach (covers.mono (settled_subset x.command _))
    rwa [Hub.eraseEach_self] at cleared
  next removal =>
    cases stepped
    have left := inv.left (by simp [removal])
    refine ⟨?_, inv.once, fun present => absurd present left, fun _ _ _ _ => by simp [Hub.unregister]⟩
    have none : (x.hub.unregister s).pairsOf s = [] := by simp [Hub.pairsOf, Hub.unregister]
    simp only [listed, removal, if_true] at covers
    simp only [listed, reduceCtorEq, if_false, none]
    exact Hub.covers_congr rfl rfl covers

/-- A hub call that keeps the queue and never registers the session. -/
theorem Inv.of_hub {hub : Hub} {command : Command} (inv : Inv s x)
    (covers : hub.Covers s (settled command (listed s { x with hub := hub })))
    (register : hub.register = x.hub.register)
    (sessions : x.hub.sessions s.uid = none → hub.sessions s.uid = none) :
    Inv s { x with hub := hub, command := command } where
  covers := covers
  once := inv.once
  fresh := fun present => ⟨(inv.fresh present).1, register.trans (inv.fresh present).2⟩
  gone := fun connected leaving empty removal =>
    sessions (inv.gone connected leaving (register.symm.trans empty) removal)

theorem stopAll_covers (covers : x.hub.Covers s (listed s x)) (id : String) :
    (x.hub.unsubscribeSessionFromChannel s id).Covers s
      (listed s { x with hub := x.hub.unsubscribeSessionFromChannel s id }) := by
  obtain ⟨removed, gates, gatesNum, -, pairs, -⟩ := x.hub.unsubscribeSessionFromChannel_effect s id
  have left : (x.hub.unsubscribeEach s removed).Covers s (removed.foldl List.erase (listed s x)) :=
    Hub.covers_unsubscribeEach covers
  refine Hub.covers_congr gates (gatesNum.trans Hub.unsubscribeEach_frame.2.2.1.symm) ?_
  by_cases cleared : x.removal = .delete
  · simp only [listed, cleared, if_true] at left ⊢
    exact left.mono Hub.eraseEach_subset
  · simpa only [listed, cleared, if_false, pairs] using left

theorem commandStep_inv {half : Option Item} {todo : List Item} (inv : Inv s x)
    (command : x.command = .running half todo) (inTime : InTime s x .command)
    (stepped : commandStep s x half todo = some y) : Inv s y := by
  have covers := inv.covers
  rw [command] at covers
  unfold commandStep at stepped
  split at stepped
  next stream id =>
    cases stepped
    -- the entry that the pair is added to still exists
    obtain ⟨registered, before⟩ := inTime (by rw [command]; rfl)
    refine inv.of_hub ?_ rfl fun none => by simp [none] at registered
    simp only [settled, listed, before, if_false, Hub.pairsOf_addStream] at covers ⊢
    exact Hub.covers_congr rfl rfl covers
  next stream id =>
    cases stepped
    obtain ⟨gates, gatesNum, register, sessions⟩ :=
      Hub.removeStream_frame (h := x.hub) (s := s) stream id
    refine inv.of_hub (Hub.covers_congr gates gatesNum ?_) register fun none => ?_
    · simp only [settled, listed, Hub.pairsOf_removeStream] at covers ⊢
      split <;> simp_all
    · simpa [none] using sessions
  next item notSubscribe notUnsubscribe =>
    cases stepped
    refine inv.of_hub ?_ rfl id
    cases item with
    | subscribe stream id => exact absurd rfl (notSubscribe stream id)
    | unsubscribe stream id => exact absurd rfl (notUnsubscribe stream id)
    | stopAll id => exact covers
    | disconnect => exact covers
  next identifier todo =>
    cases stepped
    obtain ⟨-, -, -, register, -, sessions⟩ :=
      x.hub.unsubscribeSessionFromChannel_effect s identifier
    exact inv.of_hub (stopAll_covers covers identifier) register
      fun none => by simpa [none] using sessions
  next stream id todo =>
    cases stepped
    exact inv.of_hub (Hub.covers_gateUnsubscribe covers stream id) rfl fun none => none
  next stream id todo =>
    cases stepped
    exact inv.of_hub (Hub.covers_gateSubscribe covers stream id) rfl fun none => none
  next todo =>
    cases stepped
    exact disconnectFromNode_inv (inv.of_hub covers rfl fun none => none)
  · cases stepped

theorem step_inv {a : Act} (inv : Inv s x) (inTime : InTime s x a)
    (stepped : step s x a = some y) : Inv s y := by
  cases a with
  | disconnect =>
    cases stepped
    exact disconnectFromNode_inv inv
  | nodeDisconnect =>
    simp only [step] at stepped
    split at stepped
    next leaving =>
      have away : x.connected ≠ true := fun connected => by simp [inv.once connected] at leaving
      split at stepped
      · cases stepped
        refine ⟨?_, fun _ => rfl, by simp [away], by simp⟩
        have covers := inv.covers
        simp only [listed, (inv.fresh (Or.inr leaving)).1, reduceCtorEq, if_false] at covers ⊢
        exact covers
      · split at stepped
        · cases stepped
          exact ⟨inv.covers, fun _ => rfl, by simp [away], by simp⟩
        · cases stepped
    · cases stepped
  | shutdown =>
    cases stepped
    exact ⟨inv.covers, inv.once, inv.fresh, inv.gone⟩
  | hubTake =>
    simp only [step] at stepped
    split at stepped
    next removal queued =>
      split at stepped
      · cases stepped
        have left : ¬ (x.connected = true ∨ x.leaving = true) := fun present => by
          simp [(inv.fresh present).2] at queued
        refine ⟨?_, inv.once, fun present => absurd present left, by simp⟩
        have covers := inv.covers
        simp only [listed, removal, reduceCtorEq, if_false] at covers ⊢
        exact covers
      · cases stepped
    · cases stepped
  | remove => exact remove_inv inv stepped
  | reply res =>
    simp only [step] at stepped
    split at stepped
    next command =>
      cases stepped
      refine inv.of_hub ?_ rfl fun none => none
      have covers := inv.covers
      rw [command] at covers
      exact covers
    · cases stepped
  | command =>
    simp only [step] at stepped
    split at stepped
    · cases stepped
    next command => exact commandStep_inv inv command inTime stepped

/-- In every interleaving in which no `SubscribeSession` is completed after the removal has
cleared the gates, the hub holds nothing of the session once command and removal are
through. -/
theorem nothing_left_unless_late (gatesNum : Nat) (s : HubSession)
    (earlier : List (String × String)) (identifier : String) (schedule : List Act) (x : State)
    (inTime : Run.Meets (step s) (InTime s) (State.start gatesNum s earlier identifier) schedule)
    (ran : Run.exec (step s) (State.start gatesNum s earlier identifier) schedule = some x) :
    NothingLeft s x := by
  have inv := Run.invariant_of_meets (fun _ _ _ inv ok stepped => step_inv inv ok stepped)
    (inv_start gatesNum s earlier identifier) inTime ran
  rintro ⟨command, connected, leaving, register, removal⟩
  have none := inv.gone connected leaving register removal
  refine ⟨none, fun k st id has => ?_⟩
  have covers := inv.covers
  simp only [command, settled, listed, removal, reduceCtorEq, if_false, Hub.pairsOf, none,
    Option.map_none, Option.getD_none] at covers
  exact absurd (covers k st id has).2 (by simp)

/-- What a call does to the hub when nothing comes between its sections. -/
def applyItem (s : HubSession) (h : Hub) : Item → Hub
  | .stopAll id => h.unsubscribeSessionFromChannel s id
  | .unsubscribe stream id => h.unsubscribeSession s stream id
  | .subscribe stream id => h.subscribeSession s stream id
  | .disconnect => h

/-- The steps of a call that is not interrupted. -/
def sections : Item → List Act
  | .subscribe .. | .unsubscribe .. => [.command, .command]
  | .stopAll _ | .disconnect => [.command]

theorem exec_sections {item : Item} {todo : List Item}
    (command : x.command = .running none (item :: todo)) (stays : item ≠ .disconnect) :
    Run.exec (step s) x (sections item) =
      some { x with hub := applyItem s x.hub item, command := .running none todo } := by
  cases item with
  | disconnect => exact absurd rfl stays
  | stopAll id => simp [sections, Run.exec, step, command, commandStep, applyItem]
  | unsubscribe stream id =>
    simp [sections, Run.exec, step, command, commandStep, applyItem, Hub.unsubscribeSession]
  | subscribe stream id =>
    simp [sections, Run.exec, step, command, commandStep, applyItem, Hub.subscribeSession]

theorem exec_items {todo : List Item} (command : x.command = .running none todo)
    (stays : Item.disconnect ∉ todo) :
    Run.exec (step s) x (todo.flatMap sections) =
      some { x with hub := todo.foldl (applyItem s) x.hub, command := .running none [] } := by
  induction todo generalizing x with
  | nil =>
    obtain ⟨hub, c, connected, leaving, removal, shuttingDown⟩ := x
    cases command
    rfl
  | cons item todo ih =>
    simp only [List.mem_cons, not_or] at stays
    rw [List.flatMap_cons, Run.exec_append, exec_sections command (Ne.symm stays.1)]
    exact ih rfl stays.2

theorem stopEach_hub (n : Node) (s : Session) (id : String) (streams : List String) :
    (streams.foldl (Node.stopStream id) (n, s)).1.hub =
      (streams.map (Item.unsubscribe · id)).foldl (applyItem s.toHub) n.hub ∧
    (streams.foldl (Node.stopStream id) (n, s)).2.toHub = s.toHub := by
  induction streams generalizing n s with
  | nil => exact ⟨rfl, rfl⟩
  | cons stream streams ih => exact ih _ _

theorem startEach_hub (n : Node) (s : Session) (id : String) (streams : List String) :
    (streams.foldl (Node.startStream id) (n, s)).1.hub =
      (streams.map (Item.subscribe · id)).foldl (applyItem s.toHub) n.hub := by
  induction streams generalizing n s with
  | nil => rfl
  | cons stream streams ih => exact ih _ _

theorem stopStreams_hub (n : Node) (s : Session) (id : String) (reply : CommandResult) :
    (n.stopStreams s id reply).1.hub =
      (if reply.stopAllStreams then [.stopAll id]
       else (reply.stoppedStreams.getD []).map (Item.unsubscribe · id)).foldl
        (applyItem s.toHub) n.hub ∧
    (n.stopStreams s id reply).2.1.toHub = s.toHub := by
  unfold Node.stopStreams
  split
  · exact ⟨rfl, rfl⟩
  · exact stopEach_hub n s id _

/-- The hub after `handleCommandReply` is the one that the calls of the reply lead to. -/
theorem handleCommandReply_hub {n n' : Node} {s s' : Session} {msg : Message}
    {reply : CommandResult} {now : Instant} {dirty : Bool} (stays : reply.disconnect = false)
    (success : n.handleCommandReply s msg reply now = some (n', s', dirty)) :
    n'.hub = (items msg.identifier reply).foldl (applyItem s.toHub) n.hub := by
  obtain ⟨stopped, same⟩ := stopStreams_hub n s msg.identifier reply
  simp only [Node.handleCommandReply, Option.bind_eq_bind, Option.bind_eq_some_iff] at success
  obtain ⟨merged, -, ⟨called, replied, connectionDirty⟩, call, success⟩ := success
  simp only [Node.handleCallReply, Option.bind_eq_bind, Option.bind_eq_some_iff] at call
  obtain ⟨updated, -, broker, -, call⟩ := call
  cases call
  simp only [stays, Bool.false_eq_true, if_false] at success
  cases success
  rw [items, stays, List.foldl_append, List.foldl_append, ← stopped]
  simp only [Bool.false_eq_true, if_false, List.foldl_nil]
  rw [startEach_hub, same]

/-- The answer of the controller and then the command, with nothing in between, end in the hub
that `Node.handleCommandReply` leaves. -/
theorem undisturbed_handleCommandReply {n n' : Node} {s s' : Session} {msg : Message}
    {reply : CommandResult} {now : Instant} {dirty : Bool} (stays : reply.disconnect = false)
    (success : n.handleCommandReply s msg reply now = some (n', s', dirty))
    (hub : x.hub = n.hub) (waiting : x.command = .calling msg.identifier) :
    Run.exec (step s.toHub) x
        (.reply (some reply) :: (items msg.identifier reply).flatMap sections) =
      some { x with hub := n'.hub, command := .running none [] } := by
  have noDisconnect : Item.disconnect ∉ items msg.identifier reply := by
    unfold items
    split <;> simp [stays]
  have answered : step s.toHub x (.reply (some reply)) =
      some { x with command := .running none (items msg.identifier reply) } := by
    simp [step, waiting]
  rw [Run.exec, answered, Option.bind_some, exec_items rfl noDisconnect,
    handleCommandReply_hub stays success, hub]

def client : HubSession := ⟨1, "sid", "user"⟩

/-- The controller answers with a stream after the session was disconnected and removed. -/
def lateReply : List Act :=
  [.disconnect, .nodeDisconnect, .hubTake, .remove, .remove, .remove,
   .reply (some { streams := some ["chat"], status := .success }), .command, .command]

theorem late_subscribe_remains :
    ¬ ∀ (gatesNum : Nat) (s : HubSession) (earlier : List (String × String)) (identifier : String)
      (schedule : List Act) (x : State),
      Run.exec (step s) (State.start gatesNum s earlier identifier) schedule = some x →
      NothingLeft s x := by
  intro always
  have left := always 1 client [] "channel" lateReply _ rfl ⟨rfl, rfl, rfl, rfl, rfl⟩
  exact absurd left.1 (by decide)

/-- The reply is handled while the removal waits in the queue. -/
def timelyReply : List Act :=
  [.disconnect, .nodeDisconnect,
   .reply (some { stoppedStreams := some ["news"], streams := some ["chat"], status := .success }),
   .command, .command, .command, .hubTake, .remove, .command, .remove, .remove]

theorem timelyReply_nothing_left :
    ∃ x, Run.exec (step client) (State.start 1 client [("news", "channel")] "channel") timelyReply =
        some x ∧ Quiet x ∧ NothingLeft client x :=
  ⟨_, rfl, ⟨rfl, rfl, rfl, rfl, rfl⟩, nothing_left_unless_late 1 client [("news", "channel")]
    "channel" timelyReply _ (by decide) rfl⟩

end AnyCable.Guarantees.SessionRemoval
