import AnyCable.Source.ReplyEffects
import AnyCable.Source.SessionCache

/-!
# The lock of a session after a command

Source: `node/node.go:164-196,437-776`. Every handler takes `smu` and gives it back on each of its
ways out, but for one: `Subscribe` and `Unsubscribe` return a controller error without a result, or
with one of status `ERROR`, before they unlock. The session is then locked for good, and whatever
takes the lock waits forever (`blocked_of_held`).

`lock_released_iff` says that this is the only way for a command to keep the lock, and that a
command that returns an error leaves the subscriptions alone.
-/

set_option autoImplicit false

namespace AnyCable.Guarantees.SessionLock
open AnyCable.Lib AnyCable.Source

/-- The controller refuses a subscription that is to be made or taken back: an error without a
result, or with a result of status `ERROR`. -/
def Refused (s : Session) (msg : Message) (answer : Answer CommandResult) : Prop :=
  (msg.command = "subscribe" ∧ s.subscriptions.hasChannel msg.identifier = false ∨
    msg.command = "unsubscribe" ∧ s.subscriptions.hasChannel msg.identifier = true) ∧
  (Node.refusal answer).isSome = true

/-- Whatever takes the lock goes on: a command, `ToCacheEntry` and the merge of a state. -/
structure Proceeds (s : Session) : Prop where
  lock : s.lock.isSome = true
  toCacheEntry : s.toCacheEntry.isSome = true
  mergeState : ∀ merge state, (s.mergeState merge state).isSome = true

/-- What a command leaves of the lock, and of the subscriptions if it fails. -/
structure Leaves (s s' : Session) (refused : Prop) (ok : Bool) : Prop where
  held_iff : s'.smu = true ↔ s.smu = true ∨ refused
  subscriptions : ok = false → s'.subscriptions = s.subscriptions

section Handlers

variable {n n' : Node} {s s' : Session} {msg : Message} {answer : Answer CommandResult}
  {now : Instant}

theorem proceeds_iff_free : Proceeds s ↔ s.smu = false := by
  constructor
  · intro proceeds
    have taken := proceeds.lock
    unfold Session.lock at taken
    split at taken
    · cases taken
    next free => simpa using free
  · intro free
    refine ⟨by simp [Session.lock, free], by rw [Session.toCacheEntry_eq free]; rfl,
      fun merge state => ?_⟩
    rw [Session.mergeState_eq free]
    rfl

theorem handleCommandReply_free {reply : CommandResult} {dirty : Bool} (free : s.smu = false)
    (success : n.handleCommandReply s msg reply now = some (n', s', dirty)) : s'.smu = false := by
  obtain ⟨broker, sent, -, -, after, session, -, rfl, result⟩ :=
    Node.handleCommandReply_cases free success
  split at result
  · rw [(Prod.mk.inj result).2]
    exact free
  · rw [(Prod.mk.inj result).2]
    exact free

/-- A handler that ends unlocked where it began unlocked. -/
theorem Leaves.of_free {refused : Prop} {ok : Bool} (free : s.smu = false) (after : s'.smu = false)
    (accepted : ¬ refused) (kept : ok = false → s'.subscriptions = s.subscriptions) :
    Leaves s s' refused ok :=
  ⟨by simp [free, after, accepted], kept⟩

theorem subscribe_leaves {res : Except String CommandResult}
    (success : n.subscribe s msg answer now = some (n', s', res)) :
    Leaves s s' (s.subscriptions.hasChannel msg.identifier = false ∧
      (Node.refusal answer).isSome = true) res.isOk := by
  simp only [Node.subscribe, Option.bind_eq_bind, Option.bind_eq_some_iff] at success
  obtain ⟨locked, taken, success⟩ := success
  obtain ⟨free, rfl⟩ := Session.free_of_lock taken
  split at success
  next channel =>
    have known : s.subscriptions.hasChannel msg.identifier = true := channel
    cases success
    exact .of_free free rfl (by simp [known]) fun _ => rfl
  next missing =>
    have unknown : s.subscriptions.hasChannel msg.identifier = false := by simpa using missing
    split at success
    next err refused =>
      -- the way out without an unlock
      cases success
      exact ⟨by simp [unknown, refused], fun _ => rfl⟩
    next accepted =>
      obtain ⟨reply, answered, success⟩ := Option.bind_eq_some_iff.mp success
      obtain ⟨⟨handled, replied, dirty⟩, turn, success⟩ := Option.bind_eq_some_iff.mp success
      obtain ⟨⟨after, settled⟩, finished, success⟩ := Option.bind_eq_some_iff.mp success
      cases success
      have released := handleCommandReply_free rfl turn
      obtain ⟨flag, marked⟩ := handled.markDisconnectable_eq replied reply.disconnectInterest
      obtain ⟨⟨sent, rfl⟩, -⟩ := Node.afterSubscribe_cases finished
      refine .of_free free ?_ (by simp [accepted]) (by simp [Except.isOk, Except.toBool])
      simp only [marked]
      exact released

theorem unsubscribe_leaves {res : Except String CommandResult}
    (success : n.unsubscribe s msg answer now = some (n', s', res)) :
    Leaves s s' (s.subscriptions.hasChannel msg.identifier = true ∧
      (Node.refusal answer).isSome = true) res.isOk := by
  simp only [Node.unsubscribe, Option.bind_eq_bind, Option.bind_eq_some_iff] at success
  obtain ⟨locked, taken, success⟩ := success
  obtain ⟨free, rfl⟩ := Session.free_of_lock taken
  split at success
  next missing =>
    have unknown : s.subscriptions.hasChannel msg.identifier = false := missing
    cases success
    exact .of_free free rfl (by simp [unknown]) fun _ => rfl
  next channel =>
    have known : s.subscriptions.hasChannel msg.identifier = true := by simpa using channel
    split at success
    next err refused =>
      cases success
      exact ⟨by simp [known, refused], fun _ => rfl⟩
    next accepted =>
      obtain ⟨reply, answered, success⟩ := Option.bind_eq_some_iff.mp success
      obtain ⟨⟨handled, replied, dirty⟩, turn, success⟩ := Option.bind_eq_some_iff.mp success
      obtain ⟨committed, stored, success⟩ := Option.bind_eq_some_iff.mp success
      cases success
      exact .of_free free (handleCommandReply_free rfl turn) (by simp [accepted]) (by simp [Except.isOk, Except.toBool])

theorem perform_leaves {res : Except String (Option CommandResult)}
    (success : n.perform s msg answer now = some (n', s', res)) : Leaves s s' False res.isOk := by
  simp only [Node.perform, Option.bind_eq_bind, Option.bind_eq_some_iff] at success
  obtain ⟨locked, taken, success⟩ := success
  obtain ⟨free, rfl⟩ := Session.free_of_lock taken
  rw [Session.unlock_lock free] at success
  split at success
  next missing =>
    cases success
    exact .of_free free free id fun _ => rfl
  next channel =>
    split at success
    next text data =>
      split at success
      next err refused =>
        cases success
        exact .of_free free free id fun _ => rfl
      next accepted empty =>
        cases success
        exact .of_free free free id fun _ => rfl
      next reply accepted answered =>
        obtain ⟨⟨handled, replied, dirty⟩, turn, success⟩ := Option.bind_eq_some_iff.mp success
        obtain ⟨committed, stored, success⟩ := Option.bind_eq_some_iff.mp success
        cases success
        exact .of_free free (handleCommandReply_free free turn) id (by simp [Except.isOk, Except.toBool])
    next other =>
      cases success
      exact .of_free free free id fun _ => rfl

theorem history_leaves {res : Except String Unit} (success : n.history s msg = some (s', res)) :
    Leaves s s' False res.isOk := by
  obtain ⟨sent, rfl⟩ := Node.history_eq success
  exact ⟨by simp, fun _ => rfl⟩

theorem presence_leaves {res : Except String Unit} (success : n.presence s msg = some (s', res)) :
    Leaves s s' False res.isOk := by
  have like := Node.presence_like success
  simp only [Node.presence, Option.bind_eq_bind, Option.bind_eq_some_iff] at success
  obtain ⟨locked, taken, success⟩ := success
  obtain ⟨free, rfl⟩ := Session.free_of_lock taken
  rw [Session.unlock_lock free] at success
  refine .of_free free ?_ id fun _ => like.subscriptions
  split at success
  · cases success
    exact free
  · split at success
    · cases success
      exact free
    · split at success <;> cases success <;> exact free

theorem presenceCommand_leaves {event : Node.PresenceCommand} {res : Except String Unit}
    (success : n.presenceCommand s msg event = some (n', s', res)) :
    Leaves s s' False res.isOk := by
  simp only [Node.presenceCommand, Option.bind_eq_bind, Option.bind_eq_some_iff] at success
  obtain ⟨locked, taken, success⟩ := success
  obtain ⟨free, rfl⟩ := Session.free_of_lock taken
  rw [Session.unlock_lock free] at success
  split at success <;> cases success <;> exact .of_free free free id fun _ => rfl

theorem Leaves.other {ok : Bool} (leaves : Leaves s s' False ok)
    (subscribe : msg.command ≠ "subscribe") (unsubscribe : msg.command ≠ "unsubscribe") :
    Leaves s s' (Refused s msg answer) ok :=
  ⟨by simpa [Refused, subscribe, unsubscribe] using leaves.held_iff, leaves.subscriptions⟩

theorem isOk_map {α β : Type} (f : α → β) (res : Except String α) :
    (res.map f).isOk = res.isOk := by
  cases res <;> rfl

theorem handleCommand_leaves {res : Except String Unit}
    (success : n.handleCommand s msg answer now = some (n', s', res)) :
    Leaves s s' (Refused s msg answer) res.isOk := by
  have untouched : ∀ ok, Leaves s s False ok := fun ok => ⟨by simp, fun _ => rfl⟩
  unfold Node.handleCommand at success
  split at success
  next command =>
    cases success
    exact (untouched _).other (by simp [command]) (by simp [command])
  next command =>
    obtain ⟨⟨after, session, result⟩, done, same⟩ := Option.map_eq_some_iff.mp success
    cases same
    have leaves := subscribe_leaves done
    rw [isOk_map]
    exact ⟨by simpa [Refused, command] using leaves.held_iff, leaves.subscriptions⟩
  next command =>
    obtain ⟨⟨after, session, result⟩, done, same⟩ := Option.map_eq_some_iff.mp success
    cases same
    have leaves := unsubscribe_leaves done
    rw [isOk_map]
    exact ⟨by simpa [Refused, command] using leaves.held_iff, leaves.subscriptions⟩
  next command =>
    obtain ⟨⟨after, session, result⟩, done, same⟩ := Option.map_eq_some_iff.mp success
    cases same
    rw [isOk_map]
    exact (perform_leaves done).other (by simp [command]) (by simp [command])
  next command =>
    obtain ⟨⟨session, result⟩, done, same⟩ := Option.map_eq_some_iff.mp success
    cases same
    exact (history_leaves done).other (by simp [command]) (by simp [command])
  next command =>
    obtain ⟨⟨session, result⟩, done, same⟩ := Option.map_eq_some_iff.mp success
    cases same
    exact (presence_leaves done).other (by simp [command]) (by simp [command])
  next command =>
    exact (presenceCommand_leaves success).other (by simp [command]) (by simp [command])
  next command =>
    exact (presenceCommand_leaves success).other (by simp [command]) (by simp [command])
  next command =>
    obtain ⟨after, done, same⟩ := Option.map_eq_some_iff.mp success
    cases same
    exact (untouched _).other (by simp [command]) (by simp [command])
  next pong subscribe unsubscribe _ _ _ _ _ _ =>
    cases success
    exact (untouched _).other subscribe unsubscribe

/-- A session that stays locked takes no command that needs the lock. -/
theorem blocked_of_held (held : s.smu = true)
    (needs : msg.command ∈ ["subscribe", "unsubscribe", "message", "history", "presence", "join",
      "leave"]) : n.handleCommand s msg answer now = none := by
  have taken : s.lock = none := by simp [Session.lock, held]
  simp only [List.mem_cons, List.not_mem_nil, or_false] at needs
  rcases needs with command | command | command | command | command | command | command
  · simp [Node.handleCommand, command, Node.subscribe, taken]
  · simp [Node.handleCommand, command, Node.unsubscribe, taken]
  · simp [Node.handleCommand, command, Node.perform, taken]
  · simp [Node.handleCommand, command, Node.history, Node.historyWith, taken]
  · simp [Node.handleCommand, command, Node.presence, taken]
  · simp [Node.handleCommand, command, Node.presenceJoin, Node.presenceCommand, taken]
  · simp [Node.handleCommand, command, Node.presenceLeave, Node.presenceCommand, taken]

end Handlers

theorem lock_released_iff {n n' : Node} {s s' : Session} {msg : Message}
    {answer : Answer CommandResult} {now : Instant} {res : Except String Unit}
    (returned : n.handleCommand s msg answer now = some (n', s', res)) :
    (s'.smu = false ↔ s.smu = false ∧ ¬ Refused s msg answer) ∧
    (Proceeds s' ↔ s'.smu = false) ∧
    ∀ err, res = .error err → s'.subscriptions = s.subscriptions := by
  have leaves := handleCommand_leaves returned
  refine ⟨?_, proceeds_iff_free, ?_⟩
  · rw [← Bool.not_eq_true, leaves.held_iff, not_or, Bool.not_eq_true]
  · rintro err rfl
    exact leaves.subscriptions rfl

def node : Node := { codec := .blank, hub := { gatesNum := 1 } }

def client : Session := { ref := 0, uid := "sid" }

def subscribeMessage : Message := { command := "subscribe", identifier := "chat" }

/-- The controller rejects the subscription and reports why. -/
theorem rejected_released :
    ∃ n' s' res, node.handleCommand client subscribeMessage
        { res := some { status := .failure, transmissions := [] }, err := some "rejected" } 0 =
        some (n', s', res) ∧
      s'.smu = false ∧ Proceeds s' := by
  obtain ⟨n', s', res, returned⟩ : ∃ n' s' res, node.handleCommand client subscribeMessage
      { res := some { status := .failure, transmissions := [] }, err := some "rejected" } 0 =
      some (n', s', res) := ⟨_, _, _, rfl⟩
  obtain ⟨released, proceeds, -⟩ := lock_released_iff returned
  have free : s'.smu = false := released.mpr ⟨rfl, fun refused => nomatch refused.2⟩
  exact ⟨n', s', res, returned, free, proceeds.mpr free⟩

/-- A call to the controller that fails leaves the session locked: it takes no message any more and
is not stored. -/
theorem failed_call_keeps_lock :
    ∃ n' s' err, node.handleCommand client subscribeMessage { err := some "rpc" } 0 =
        some (n', s', .error err) ∧
      s'.smu = true ∧ s'.toCacheEntry = none ∧
      ∀ answer now, n'.handleCommand s' { command := "message", identifier := "chat" } answer now =
        none :=
  ⟨_, _, _, rfl, rfl, rfl, fun _ _ => blocked_of_held rfl (by decide)⟩

end AnyCable.Guarantees.SessionLock
