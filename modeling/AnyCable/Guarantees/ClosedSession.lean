import AnyCable.Lib.Pending
import AnyCable.Lib.Run
import AnyCable.Source.System

/-!
# A closed session and the hub

`Node.Authenticate` (`node/node.go:327-377`) works on a new session while its timers are running
and its sender is writing. All of them may end the session: `Session.Disconnect` and `disconnectNow`
(`node/session.go:398-403`, `486-537`) call `Node.Disconnect` if they find it connected. `Serve`
(`node/session.go:296-327`) comes last and only reads while the session is not closed.

Each party has a program, the list of its next operations (`Op`); an operation is a locked section
or a channel operation of the source. A call that is deferred inside another one, as the
`Disconnect` of a full channel, stands in front of what the caller has to do after it. What the
controller's reply does besides its transmissions concerns neither the hub nor the connection
and is left out, and so is the disconnect queue.

Two orders leave a closed session registered (`closed_sessions_kept`): `Disconnect` is through
before `Connected` is set, so that nobody calls the node; or the hub removes the session before it
is added. Without them the hub forgets every closed session (`forgotten_unless_early`). A
`Disconnect` that nothing interrupts does to the hub what the sequential one does
(`undisturbed_disconnect`).
-/

set_option autoImplicit false

namespace AnyCable.Guarantees.ClosedSession
open AnyCable.Lib AnyCable.Lib.Programs AnyCable.Source AnyCable.Source.System

inductive Frame where
  | data
  | close
  deriving DecidableEq

inductive Op where
  | send
  /-- `Disconnect` with its three calls. -/
  | sendClose
  | close
  | leave
  /-- `Node.Disconnect`, and the three sections of `RemoveSession`. -/
  | nodeDisconnect
  | removeCheck
  | removeClear
  | removeDelete
  /-- `disconnectNow`, section by section. -/
  | disconnectNow
  | leaveNow
  | dropChannel
  | closeNow
  | maybeDisconnectIdle
  | handleNoPong
  | sendPing
  /-- A turn of `Serve` and of `SendMessages`. -/
  | read
  | write
  deriving DecidableEq

inductive Party where
  | authenticate
  | serve
  | sender
  | hubLoop
  | timer (i : Nat)
  deriving DecidableEq

/-- `Authenticate` up to the handling of the reply, named by what comes next. -/
inductive Auth where
  | calling (disconnectOnFailure : Bool)
  | setIdentifiers (ids : String)
  | connect
  | addSession
  | replying
  | failed
  deriving DecidableEq

structure State where
  session : Session
  hub : Hub
  auth : Auth
  programs : Party → List Op
  frames : List Frame := []
  /-- `sendCh` is not `nil`. -/
  sendCh : Bool := true
  served : Bool := false
  shuttingDown : Bool := false

/-- A session as `NewSession` returns it, with its sender running. -/
def State.start (h : Hub) (ref : SessionRef) (client : Client) (disconnectOnFailure : Bool) :
    State :=
  { session := newSession ref client
    hub := h
    auth := .calling disconnectOnFailure
    programs := Function.update (fun _ => []) .sender [.write] }

inductive Timer where
  | idle
  | noPong
  | ping
  deriving DecidableEq

def Timer.op : Timer → Op
  | .idle => .maybeDisconnectIdle
  | .noPong => .handleNoPong
  | .ping => .sendPing

inductive Act where
  /-- The controller answers. -/
  | answer (res : Answer ConnectResult)
  /-- The next line of `Authenticated`. -/
  | authenticated
  /-- The next operation of a party; `ok` is the result of a read or a write. -/
  | go (p : Party) (ok : Bool)
  | fire (i : Nat) (t : Timer)
  | serve
  | hubTake
  | shutdown

/-- `make(chan *ws.SentFrame, 256)`. -/
def sendCap : Nat := 256

/-- A full channel is closed, and the session disconnected by a deferred call. -/
def sendFrame (x : State) (frame : Frame) : State × List Op :=
  if x.sendCh then
    if x.frames.length < sendCap then ({ x with frames := x.frames ++ [frame] }, [])
    else ({ x with sendCh := false }, [.sendClose])
  else (x, [])

def disconnectFromNode (x : State) : State × List Op :=
  ({ x with session := { x.session with connected := false } },
   if x.session.connected then [.nodeDisconnect] else [])

def close (x : State) : State := { x with session := x.session.close }

/-- What an operation does, and the operations that follow at once. -/
def perform (x : State) (ok : Bool) : Op → Option (State × List Op)
  | .send => some (sendFrame x .data)
  | .sendClose => some ((sendFrame x .close).1, (sendFrame x .close).2 ++ [.close])
  | .close => some (close x, [.leave])
  | .leave => some (disconnectFromNode x)
  | .nodeDisconnect =>
    if x.shuttingDown then some (x, [.removeCheck])
    else if x.hub.register.length < Hub.registerCap then
      let register := x.hub.register ++ [.remove x.session.ref]
      some ({ x with hub := { x.hub with register := register } }, [])
    else none
  | .removeCheck => some (x, if x.hub.registered x.session.toHub then [.removeClear] else [])
  | .removeClear =>
    let hub := x.hub.unsubscribeSessionFromAllChannels x.session.toHub
    some ({ x with hub := hub }, [.removeDelete])
  | .removeDelete => some ({ x with hub := x.hub.unregister x.session.toHub }, [])
  | .disconnectNow => some (x, if x.session.connected then [.leaveNow] else [])
  | .leaveNow => some ((disconnectFromNode x).1, (disconnectFromNode x).2 ++ [.dropChannel])
  | .dropChannel => some ({ x with sendCh := false }, [.closeNow])
  | .closeNow => some (close x, [])
  | .maybeDisconnectIdle => some (x, if x.session.connected then [] else [.send, .sendClose])
  | .handleNoPong => some (x, if x.session.connected then [.send, .sendClose] else [])
  | .sendPing => some (x, if x.session.closed || ok then [] else [.sendClose])
  | .read =>
    some (x, if x.session.closed then [] else if ok then [.read] else [.disconnectNow])
  | .write =>
    match x.frames with
    | [] => if x.sendCh then none else some (x, [])
    | frame :: rest =>
      let next := if frame = .close ∨ ok = false then .disconnectNow else .write
      some ({ x with frames := rest }, [next])

/-- The part of `Authenticate` after the controller's answer. -/
def answered (disconnectOnFailure : Bool) (answer : Answer ConnectResult) :
    Option (Auth × List Op) :=
  match answer.err with
  | some _ => some (.failed, [.sendClose])
  | none => answer.res.map fun res =>
    let sends := res.transmissions.map fun _ => .send
    if res.status = .success then (.setIdentifiers res.identifier, sends)
    else (.replying, sends ++ if disconnectOnFailure then [.sendClose] else [])

/-- The party may go on with its program. -/
def ready (x : State) : Party → Bool
  | .authenticate => x.auth = .replying ∨ x.auth = .failed
  | .serve | .sender | .hubLoop | .timer _ => true

def step (x : State) : Act → Option State
  | .answer res =>
    match x.auth with
    | .calling disconnectOnFailure => (answered disconnectOnFailure res).map fun r =>
      { x with auth := r.1, programs := Function.update x.programs .authenticate r.2 }
    | _ => none
  | .authenticated =>
    match x.auth with
    | .setIdentifiers ids =>
      some { x with session := x.session.setIdentifiers ids, auth := .connect }
    | .connect =>
      some { x with session := { x.session with connected := true }, auth := .addSession }
    | .addSession => some { x with hub := x.hub.addSession x.session.toHub, auth := .replying }
    | _ => none
  | .go p ok =>
    match x.programs p with
    | [] => none
    | op :: rest =>
      if ready x p then (perform x ok op).map fun r =>
        { r.1 with programs := Function.update x.programs p (r.2 ++ rest) }
      else none
  | .fire i t =>
    if x.programs (.timer i) = [] then
      some { x with programs := Function.update x.programs (.timer i) [t.op] }
    else none
  | .serve =>
    if x.auth = .replying ∧ x.programs .authenticate = [] ∧ x.served = false then
      some { x with served := true, programs := Function.update x.programs .serve [.read] }
    else none
  | .hubTake =>
    match x.programs .hubLoop, x.hub.register with
    | [], .remove r :: rest =>
      if r = x.session.ref then
        some { x with hub := { x.hub with register := rest }
                      programs := Function.update x.programs .hubLoop [.removeCheck] }
      else none
    | _, _ => none
  | .shutdown => some { x with shuttingDown := true }

/-- All parties are through; the sender has finished, or waits for a frame. -/
structure Quiet (x : State) : Prop where
  auth : x.auth = .replying ∨ x.auth = .failed
  programs : ∀ p, p ≠ .sender → x.programs p = []
  sender : x.programs .sender = [] ∨ (x.programs .sender = [.write] ∧ x.frames = [])
  register : x.hub.register = []

/-- The property of one state. -/
def Forgotten (x : State) : Prop :=
  Quiet x → x.session.closed = true →
    x.session.connected = false ∧ x.hub.sessions x.session.uid = none

/-- Operations that lead to `disconnectFromNode` if the session is connected. -/
def Op.Leaves : Op → Prop
  | .sendClose | .close | .leave | .disconnectNow | .leaveNow => True
  | _ => False

/-- Somebody will still find the session connected. -/
def Owed (x : State) : Prop :=
  Pending Op.Leaves x.programs ∨ (.write ∈ x.programs .sender ∧ .close ∈ x.frames)

/-- The condition on a step: `Connected` is set on a closed session only as long as somebody will
find it, and the removal comes after the registration. -/
def InTime (x : State) : Act → Prop
  | .authenticated => x.auth = .connect → x.session.closed = true → Owed x
  | .go p _ => (x.programs p).head? = some .removeCheck →
      x.hub.registered x.session.toHub = true
  | _ => True

/-- A removal that has not looked for the session yet, and one that has. -/
def Op.Removes : Op → Prop
  | .nodeDisconnect | .removeCheck => True
  | _ => False

def Op.Deletes : Op → Prop
  | .removeClear | .removeDelete => True
  | _ => False

def Removing (x : State) : Prop := Pending Op.Removes x.programs ∨ x.hub.register ≠ []

/-- The rest of `disconnectNow` after the session has left the node. -/
def Op.HangsUp : Op → Prop
  | .dropChannel | .closeNow => True
  | _ => False

/-- `Connected` is still to be set. -/
def Auth.early : Auth → Bool
  | .calling _ | .setIdentifiers _ | .connect => true
  | .addSession | .replying | .failed => false

structure Inv (x : State) : Prop where
  early : x.auth.early = true → x.session.connected = false
  unknown : x.auth.early = true ∨ x.auth = .addSession → x.hub.sessions x.session.uid = none
  owed : x.session.connected = true → x.session.closed = true → Owed x
  adding : x.auth = .addSession → x.session.connected = true ∨ Removing x
  known : x.hub.sessions x.session.uid ≠ none →
    x.session.connected = true ∨ Removing x ∨ Pending Op.Deletes x.programs
  leavesNow : Pending (· = .leaveNow) x.programs → x.auth.early = false
  hangsUp : Pending Op.HangsUp x.programs →
    x.session.connected = false ∧ x.auth.early = false
  writer : ∀ p, .write ∈ x.programs p → p = .sender
  waiting : ∀ disconnectOnFailure, x.auth = .calling disconnectOnFailure →
    x.programs .authenticate = []
  unserved : x.served = false → x.programs .serve = []

variable {x y : State} {op : Op} {ok : Bool} {follow : List Op}

/-- What the invariant needs to know about an operation. -/
structure Effect (x : State) (op : Op) (y : State) (follow : List Op) : Prop where
  auth : y.auth = x.auth
  served : y.served = x.served
  uid : y.session.uid = x.session.uid
  connected : y.session.connected = true → x.session.connected = true
  left : x.session.connected = true → y.session.connected = false → .nodeDisconnect ∈ follow
  closed : y.session.closed = true → x.session.closed = true ∨ op = .close ∨ op = .closeNow
  leaves : op.Leaves → y.session.connected = true → ∃ next ∈ follow, next.Leaves
  leavesNow : .leaveNow ∈ follow → x.session.connected = true
  leftNow : op = .leaveNow → y.session.connected = false
  hangsUp : ∀ next ∈ follow, next.HangsUp → op = .leaveNow ∨ op = .dropChannel
  known : y.hub.sessions x.session.uid ≠ none →
    x.hub.sessions x.session.uid ≠ none ∧ op ≠ .removeDelete
  register : x.hub.register ≠ [] → y.hub.register ≠ []
  removes : op = .nodeDisconnect → .removeCheck ∈ follow ∨ y.hub.register ≠ []
  checks : op = .removeCheck → x.hub.registered x.session.toHub = true → .removeClear ∈ follow
  clears : op = .removeClear → .removeDelete ∈ follow
  writes : .write ∈ follow → op = .write
  frames : op ≠ .write → .close ∈ x.frames → .close ∈ y.frames
  written : op = .write → .close ∈ x.frames →
    .disconnectNow ∈ follow ∨ (.write ∈ follow ∧ .close ∈ y.frames)

theorem sendFrame_cases (x : State) (frame : Frame) :
    sendFrame x frame = ({ x with frames := x.frames ++ [frame] }, []) ∨
    sendFrame x frame = ({ x with sendCh := false }, [.sendClose]) ∨
    sendFrame x frame = (x, []) := by
  unfold sendFrame
  split
  · split
    · exact Or.inl rfl
    · exact Or.inr (Or.inl rfl)
  · exact Or.inr (Or.inr rfl)

theorem perform_effect (done : perform x ok op = some (y, follow)) : Effect x op y follow := by
  cases op with
  | send =>
    simp only [perform, Option.some.injEq] at done
    rcases sendFrame_cases x .data with sent | full | gone
    · cases sent.symm.trans done
      constructor <;> simp [Op.Leaves]
    · cases full.symm.trans done
      constructor <;> simp [Op.Leaves, Op.HangsUp]
    · cases gone.symm.trans done
      constructor <;> simp [Op.Leaves]
  | sendClose =>
    simp only [perform, Option.some.injEq] at done
    rcases sendFrame_cases x .close with sent | full | gone
    · rw [sent] at done
      cases done
      constructor <;> simp [Op.Leaves, Op.HangsUp]
    · rw [full] at done
      cases done
      constructor <;> simp [Op.Leaves, Op.HangsUp]
    · rw [gone] at done
      cases done
      constructor <;> simp [Op.Leaves, Op.HangsUp]
  | nodeDisconnect =>
    simp only [perform] at done
    split at done
    · cases done
      constructor <;> simp [Op.Leaves, Op.HangsUp]
    · split at done
      · cases done
        constructor <;> simp [Op.Leaves]
      · cases done
  | write =>
    simp only [perform] at done
    split at done
    · split at done
      · cases done
      · cases done
        constructor <;> simp_all [Op.Leaves]
    next frame rest taken =>
      by_cases ends : frame = .close ∨ ok = false
      · rw [if_pos ends] at done
        cases done
        constructor <;> simp [Op.Leaves, Op.HangsUp]
      · rw [if_neg ends] at done
        cases done
        rw [not_or] at ends
        constructor <;> simp [Op.Leaves, Op.HangsUp, taken, Ne.symm ends.1]
  | removeClear =>
    cases done
    rw [Hub.unsubscribeSessionFromAllChannels_eq]
    constructor <;> simp [Op.Leaves, Op.HangsUp]
  | removeDelete =>
    cases done
    constructor <;> simp [Op.Leaves, Hub.unregister, Session.toHub]
  | maybeDisconnectIdle | handleNoPong | sendPing =>
    cases done
    split <;> constructor <;> simp [Op.Leaves, Op.HangsUp]
  | read =>
    cases done
    split
    · constructor <;> simp [Op.Leaves]
    · split <;> constructor <;> simp [Op.Leaves, Op.HangsUp]
  | _ =>
    cases done
    constructor <;> simp [Op.Leaves, Op.HangsUp, close, Session.close, disconnectFromNode]

theorem forgotten_of_inv (inv : Inv x) : Forgotten x := by
  intro quiet closed
  have idle : ∀ {Q : Op → Prop}, ¬ Q .write → ¬ Pending Q x.programs := by
    rintro Q plain ⟨p, op, member, found⟩
    by_cases sender : p = .sender
    · subst sender
      rcases quiet.sender with empty | ⟨waits, -⟩
      · rw [empty] at member
        cases member
      · rw [waits, List.mem_singleton] at member
        subst member
        exact plain found
    · rw [quiet.programs p sender] at member
      cases member
  have still : ¬ Removing x := by
    rintro (pending | busy)
    · exact idle (by simp [Op.Removes]) pending
    · exact busy quiet.register
  have left : x.session.connected = false := by
    by_contra connected
    rw [Bool.not_eq_false] at connected
    rcases inv.owed connected closed with pending | ⟨waits, frame⟩
    · exact idle (by simp [Op.Leaves]) pending
    · rcases quiet.sender with empty | ⟨-, empty⟩
      · rw [empty] at waits
        cases waits
      · rw [empty] at frame
        cases frame
  refine ⟨left, ?_⟩
  by_contra known
  rcases inv.known known with connected | removing | deleting
  · rw [left] at connected
    cases connected
  · exact still removing
  · exact idle (by simp [Op.Deletes]) deleting

section Go

variable {p : Party} {rest : List Op}

/-- The state after an operation of a party. -/
def goOn (x y : State) (p : Party) (program : List Op) : State :=
  { y with programs := Function.update x.programs p program }

theorem removing_go (removing : Removing x) (now : x.programs p = op :: rest)
    (effect : Effect x op y follow) :
    Removing (goOn x y p (follow ++ rest)) ∨ op = .removeCheck := by
  by_cases checks : op = .removeCheck
  · exact Or.inr checks
  · refine Or.inl ?_
    rcases removing with pending | busy
    · by_cases calls : op = .nodeDisconnect
      · rcases effect.removes calls with next | busy
        · exact Or.inl (.of_follow next trivial)
        · exact Or.inr busy
      · refine Or.inl (pending.step now fun removes => ?_)
        cases op <;> simp_all [Op.Removes]
    · exact Or.inr (effect.register busy)

theorem removing_left (connected : x.session.connected = true) (effect : Effect x op y follow) :
    y.session.connected = true ∨ Removing (goOn x y p (follow ++ rest)) := by
  cases after : y.session.connected with
  | true => exact Or.inl rfl
  | false => exact Or.inr (Or.inl (.of_follow (effect.left connected after) trivial))

theorem owed_go (inv : Inv x) (now : x.programs p = op :: rest) (effect : Effect x op y follow)
    (connected : y.session.connected = true) (closed : y.session.closed = true) :
    Owed (goOn x y p (follow ++ rest)) := by
  rcases effect.closed closed with before | rfl | rfl
  · rcases inv.owed (effect.connected connected) before with pending | ⟨waits, frame⟩
    · exact Or.inl (pending.step now fun leaves => effect.leaves leaves connected)
    · by_cases writes : op = .write
      · have own : p = .sender := inv.writer p (by simp [now, writes])
        subst own
        rcases effect.written writes frame with next | ⟨next, frame⟩
        · exact Or.inl (.of_follow next trivial)
        · exact Or.inr ⟨by simp [goOn, next], frame⟩
      · refine Or.inr ⟨?_, effect.frames writes frame⟩
        by_cases own : p = .sender
        · subst own
          rw [now, List.mem_cons] at waits
          have later := waits.resolve_left (Ne.symm writes)
          simp [goOn, later]
        · simpa [goOn, Function.update_of_ne (Ne.symm own)] using waits
  · obtain ⟨next, first, leaves⟩ := effect.leaves trivial connected
    exact Or.inl (.of_follow first leaves)
  · have left := (inv.hangsUp ⟨p, .closeNow, by simp [now], trivial⟩).1
    rw [effect.connected connected] at left
    cases left

theorem go_inv (inv : Inv x) (now : x.programs p = op :: rest) (turn : ready x p = true)
    (effect : Effect x op y follow)
    (inTime : op = .removeCheck → x.hub.registered x.session.toHub = true) :
    Inv (goOn x y p (follow ++ rest)) where
  early := by
    intro early
    rw [goOn, effect.auth] at early
    by_contra connected
    rw [Bool.not_eq_false] at connected
    have before := inv.early early
    rw [effect.connected connected] at before
    cases before
  unknown := by
    intro early
    rw [goOn, effect.auth] at early
    by_contra known
    rw [goOn, effect.uid] at known
    exact (effect.known known).1 (inv.unknown early)
  owed := owed_go (y := y) inv now effect
  adding := by
    intro adding
    rw [goOn, effect.auth] at adding
    rcases inv.adding adding with connected | removing
    · exact removing_left (y := y) connected effect
    · rcases removing_go removing now effect with stays | checks
      · exact Or.inr stays
      · have registered := inTime checks
        simp [Hub.registered, Session.toHub, inv.unknown (Or.inr adding)] at registered
  known := by
    intro known
    rw [goOn, effect.uid] at known
    obtain ⟨before, stays⟩ := effect.known known
    rcases inv.known before with connected | removing | deleting
    · rcases removing_left connected effect with connected | removing
      · exact Or.inl connected
      · exact Or.inr (Or.inl removing)
    · rcases removing_go removing now effect with removing | checks
      · exact Or.inr (Or.inl removing)
      · exact Or.inr (Or.inr (.of_follow (effect.checks checks (inTime checks)) trivial))
    · refine Or.inr (Or.inr (deleting.step now fun deletes => ?_))
      have clears : op = .removeClear := by
        cases op <;> simp_all [Op.Deletes]
      exact ⟨_, effect.clears clears, trivial⟩
  leavesNow := by
    intro pending
    rw [goOn, effect.auth]
    rcases pending.before now with before | ⟨next, first, rfl⟩
    · exact inv.leavesNow before
    · by_contra early
      rw [Bool.not_eq_false] at early
      have left := inv.early early
      rw [effect.leavesNow first] at left
      cases left
  hangsUp := by
    intro pending
    have past : x.session.connected = false ∧ x.auth.early = false →
        y.session.connected = false ∧ y.auth.early = false := by
      rintro ⟨left, past⟩
      refine ⟨?_, effect.auth ▸ past⟩
      by_contra connected
      rw [Bool.not_eq_false] at connected
      rw [effect.connected connected] at left
      cases left
    rcases pending.before now with before | ⟨next, first, hangsUp⟩
    · exact past (inv.hangsUp before)
    · rcases effect.hangsUp next first hangsUp with rfl | rfl
      · exact ⟨effect.leftNow rfl, effect.auth ▸ inv.leavesNow ⟨p, .leaveNow, by simp [now], rfl⟩⟩
      · exact past (inv.hangsUp ⟨p, .dropChannel, by simp [now], trivial⟩)
  writer := by
    intro q member
    by_cases own : q = p
    · subst own
      simp only [goOn, Function.update_self, List.mem_append] at member
      rcases member with first | later
      · exact inv.writer q (by simp [now, effect.writes first])
      · exact inv.writer q (by simp [now, later])
    · simp only [goOn, Function.update_of_ne own] at member
      exact inv.writer q member
  waiting := by
    intro flag calling
    rw [goOn, effect.auth] at calling
    have other : Party.authenticate ≠ p := by
      rintro rfl
      simp [ready, calling] at turn
    exact (Function.update_of_ne other _ _).trans (inv.waiting flag calling)
  unserved := by
    intro unserved
    rw [goOn, effect.served] at unserved
    have other : Party.serve ≠ p := by
      rintro rfl
      rw [inv.unserved unserved] at now
      cases now
    exact (Function.update_of_ne other _ _).trans (inv.unserved unserved)

end Go

/-- A party with nothing to do gets operations that ask for nothing yet. -/
theorem begin_inv {p : Party} {program : List Op} (inv : Inv x) (idle : x.programs p = [])
    (programs : y.programs = Function.update x.programs p program)
    (plain : ∀ op ∈ program, op ≠ .leaveNow ∧ ¬ op.HangsUp ∧ op ≠ .write)
    (session : y.session = x.session) (sessions : y.hub.sessions = x.hub.sessions)
    (frames : y.frames = x.frames) (removing : Removing x → Removing y)
    (early : y.auth.early = true → x.auth.early = true)
    (past : x.auth.early = false → y.auth.early = false)
    (adding : y.auth = .addSession → x.auth = .addSession)
    (waiting : ∀ flag, y.auth = .calling flag → y.programs .authenticate = [])
    (unserved : y.served = false → y.programs .serve = []) : Inv y where
  early := fun soon => session ▸ inv.early (early soon)
  unknown := fun soon => by
    rw [session, sessions]
    exact inv.unknown (soon.imp early adding)
  owed := by
    rw [session]
    intro connected closed
    rcases inv.owed connected closed with pending | ⟨waits, frame⟩
    · exact Or.inl (programs ▸ pending.begin idle)
    · have other : Party.sender ≠ p := by
        rintro rfl
        rw [idle] at waits
        cases waits
      exact Or.inr ⟨by rwa [programs, Function.update_of_ne other], frames ▸ frame⟩
  adding := fun soon => session ▸ (inv.adding (adding soon)).imp_right removing
  known := by
    rw [session, sessions]
    intro known
    rcases inv.known known with connected | busy | deleting
    · exact Or.inl connected
    · exact Or.inr (Or.inl (removing busy))
    · exact Or.inr (Or.inr (programs ▸ deleting.begin idle))
  leavesNow := by
    rw [programs]
    intro pending
    rcases pending.of_update with ⟨op, member, rfl⟩ | before
    · exact absurd rfl (plain _ member).1
    · exact past (inv.leavesNow before)
  hangsUp := by
    rw [programs, session]
    intro pending
    rcases pending.of_update with ⟨op, member, hangsUp⟩ | before
    · exact absurd hangsUp (plain op member).2.1
    · exact (inv.hangsUp before).imp_right past
  writer := by
    intro q member
    rw [programs] at member
    by_cases own : q = p
    · subst own
      rw [Function.update_self] at member
      exact absurd rfl (plain _ member).2.2
    · rw [Function.update_of_ne own] at member
      exact inv.writer q member
  waiting := waiting
  unserved := unserved

/-- A line of `Authenticated`. -/
theorem authenticated_inv (inv : Inv x) (inTime : InTime x .authenticated)
    (stepped : step x .authenticated = some y) : Inv y := by
  simp only [step] at stepped
  split at stepped
  next ids phase =>
    cases stepped
    have early : x.auth.early = true := by rw [phase]; rfl
    exact { inv with
      early := fun _ => inv.early early
      unknown := fun _ => inv.unknown (Or.inl early)
      adding := by simp
      leavesNow := fun pending => absurd (inv.leavesNow pending) (by simp [early])
      hangsUp := fun pending => absurd (inv.hangsUp pending).2 (by simp [early])
      waiting := by simp }
  next phase =>
    cases stepped
    have early : x.auth.early = true := by rw [phase]; rfl
    have unknown := inv.unknown (Or.inl early)
    exact { inv with
      early := by simp [Auth.early]
      unknown := fun _ => unknown
      owed := fun _ => inTime phase
      adding := fun _ => Or.inl rfl
      known := fun known => absurd unknown known
      leavesNow := fun _ => rfl
      hangsUp := fun pending => absurd (inv.hangsUp pending).2 (by simp [early])
      waiting := by simp }
  next phase =>
    cases stepped
    exact { inv with
      early := by simp [Auth.early]
      unknown := by simp [Auth.early]
      adding := by simp
      known := fun _ => (inv.adding phase).imp_right Or.inl
      leavesNow := fun _ => rfl
      hangsUp := fun pending => ⟨(inv.hangsUp pending).1, rfl⟩
      waiting := by simp }
  next => cases stepped

theorem answered_cases {flag : Bool} {answer : Answer ConnectResult} {auth : Auth}
    {program : List Op} (called : answered flag answer = some (auth, program)) :
    (∀ op ∈ program, op = .send ∨ op = .sendClose) ∧
      (auth = .failed ∨ auth = .replying ∨ ∃ ids, auth = .setIdentifiers ids) := by
  unfold answered at called
  split at called
  · cases called
    exact ⟨by simp, Or.inl rfl⟩
  · obtain ⟨res, -, called⟩ := Option.map_eq_some_iff.mp called
    split at called
    · cases called
      exact ⟨by simp, Or.inr (Or.inr ⟨_, rfl⟩)⟩
    · cases called
      refine ⟨fun op member => ?_, Or.inr (Or.inl rfl)⟩
      rcases List.mem_append.mp member with sends | ends
      · simp only [List.mem_map] at sends
        obtain ⟨_, -, rfl⟩ := sends
        exact Or.inl rfl
      · split at ends
        · exact Or.inr (List.mem_singleton.mp ends)
        · cases ends

theorem step_inv (a : Act) (inv : Inv x) (inTime : InTime x a) (stepped : step x a = some y) :
    Inv y := by
  cases a with
  | answer res =>
    simp only [step] at stepped
    split at stepped
    next flag phase =>
      obtain ⟨⟨auth, program⟩, called, rfl⟩ := Option.map_eq_some_iff.mp stepped
      obtain ⟨plain, next⟩ := answered_cases called
      refine begin_inv inv (inv.waiting flag phase) rfl (fun op member => ?_) rfl rfl rfl
        (fun removing => removing.imp_left (·.begin (inv.waiting flag phase))) ?_ ?_ ?_ ?_ ?_
      · rcases plain op member with rfl | rfl <;> simp [Op.HangsUp]
      · simp [phase, Auth.early]
      · simp [phase, Auth.early]
      · rcases next with rfl | rfl | ⟨ids, rfl⟩ <;> simp
      · rcases next with rfl | rfl | ⟨ids, rfl⟩ <;> simp
      · exact inv.unserved
    · cases stepped
  | authenticated => exact authenticated_inv inv inTime stepped
  | go p ok =>
    simp only [step] at stepped
    split at stepped
    · cases stepped
    next op rest now =>
      split at stepped
      next turn =>
        obtain ⟨⟨after, follow⟩, done, rfl⟩ := Option.map_eq_some_iff.mp stepped
        refine go_inv inv now turn (perform_effect done) fun checks => inTime ?_
        rw [now, checks]
        rfl
      · cases stepped
  | fire i t =>
    simp only [step] at stepped
    split at stepped
    next idle =>
      cases stepped
      refine begin_inv inv idle rfl (fun op member => ?_) rfl rfl rfl
        (fun removing => removing.imp_left (·.begin idle)) id id id inv.waiting inv.unserved
      rw [List.mem_singleton.mp member]
      cases t <;> simp [Timer.op, Op.HangsUp]
    · cases stepped
  | serve =>
    simp only [step] at stepped
    split at stepped
    next begins =>
      have idle := inv.unserved begins.2.2
      cases stepped
      refine begin_inv inv idle rfl (fun op member => ?_) rfl rfl rfl
        (fun removing => removing.imp_left (·.begin idle)) id id id inv.waiting (by simp)
      rw [List.mem_singleton.mp member]
      simp [Op.HangsUp]
    · cases stepped
  | hubTake =>
    simp only [step] at stepped
    split at stepped
    next r rest idle queued =>
      split at stepped
      · cases stepped
        refine begin_inv inv idle rfl (fun op member => ?_) rfl rfl rfl
          (fun _ => Or.inl ⟨.hubLoop, .removeCheck, by simp, trivial⟩) id id id inv.waiting
          inv.unserved
        rw [List.mem_singleton.mp member]
        simp [Op.HangsUp]
      · cases stepped
    · cases stepped
  | shutdown =>
    cases stepped
    exact { inv with }

theorem inv_start {h : Hub} {client : Client} (unknown : h.sessions client.uid = none)
    (ref : SessionRef) (disconnectOnFailure : Bool) :
    Inv (State.start h ref client disconnectOnFailure) := by
  have idle : ∀ {Q : Op → Prop}, ¬ Q .write →
      ¬ Pending Q (State.start h ref client disconnectOnFailure).programs := by
    intro Q plain pending
    rcases pending.of_update with ⟨op, member, found⟩ | ⟨p, op, member, -⟩
    · rw [List.mem_singleton.mp member] at found
      exact plain found
    · cases member
  exact {
    early := fun _ => rfl
    unknown := fun _ => unknown
    owed := by simp [State.start, newSession]
    adding := by simp [State.start]
    known := fun known => absurd unknown known
    leavesNow := fun pending => (idle (Q := (· = .leaveNow)) (by simp) pending).elim
    hangsUp := fun pending => (idle (by simp [Op.HangsUp]) pending).elim
    writer := by
      intro p member
      by_contra other
      simp [State.start, Function.update_of_ne other] at member
    waiting := fun _ _ => rfl
    unserved := fun _ => rfl }

section Undisturbed

variable {p : Party} {rest : List Op}

theorem ready_congr (auth : y.auth = x.auth) : ready y p = ready x p := by
  cases p <;> simp [ready, auth]

/-- The party goes on by itself until its program is `rest`. -/
def Alone (p : Party) (rest : List Op) (x y : State) : Prop :=
  ∃ steps, Run.exec step x (List.replicate steps (.go p true)) = some y ∧ y.programs p = rest

theorem alone_refl (reached : x.programs p = rest) : Alone p rest x x := ⟨0, rfl, reached⟩

theorem Alone.go {z : State} (now : x.programs p = op :: rest) (turn : ready x p = true)
    (done : perform x true op = some (y, follow))
    (later : Alone p rest (goOn x y p (follow ++ rest)) z) : Alone p rest x z := by
  obtain ⟨steps, ran, reached⟩ := later
  refine ⟨steps + 1, ?_, reached⟩
  simp only [List.replicate_succ, Run.exec, step, now, turn, if_true, done, Option.map_some,
    Option.bind_some]
  exact ran

theorem goOn_programs (program : List Op) : (goOn x y p program).programs p = program := by
  simp [goOn]

theorem alone_removeCheck (now : x.programs p = .removeCheck :: rest) (turn : ready x p = true) :
    ∃ y, Alone p rest x y ∧ y.session = x.session ∧
      y.hub = x.hub.removeSession x.session.toHub := by
  unfold Hub.removeSession
  cases registered : x.hub.registered x.session.toHub with
  | false =>
    have done : perform x true .removeCheck = some (x, []) := by simp [perform, registered]
    exact ⟨goOn x x p rest, .go now turn done (alone_refl (goOn_programs _)), rfl, rfl⟩
  | true =>
    have found : perform x true .removeCheck = some (x, [.removeClear]) := by
      simp [perform, registered]
    have clears : ∀ z : State, perform z true .removeClear =
        some ({ z with hub := z.hub.unsubscribeSessionFromAllChannels z.session.toHub },
          [.removeDelete]) := fun _ => rfl
    have deletes : ∀ z : State, perform z true .removeDelete =
        some ({ z with hub := z.hub.unregister z.session.toHub }, []) := fun _ => rfl
    refine ⟨_, .go now turn found (.go (goOn_programs _) ?_ (clears _)
      (.go (goOn_programs _) ?_ (deletes _) (alone_refl (goOn_programs _)))), rfl, rfl⟩
    · exact (ready_congr rfl).trans turn
    · exact (ready_congr rfl).trans turn

theorem alone_leave (now : x.programs p = .leave :: rest) (turn : ready x p = true)
    (space : x.hub.register.length < Hub.registerCap) {n : Node} (hub : n.hub = x.hub)
    (closed : n.closed = x.shuttingDown) (instant : Instant) :
    ∃ y, Alone p rest x y ∧ y.hub = (n.disconnectFromNode x.session instant).1.hub ∧
      y.session = (n.disconnectFromNode x.session instant).2 := by
  unfold Node.disconnectFromNode
  cases connected : x.session.connected with
  | false =>
    have done : perform x true .leave =
        some ({ x with session := { x.session with connected := false } }, []) := by
      simp [perform, disconnectFromNode, connected]
    exact ⟨_, .go now turn done (alone_refl (goOn_programs _)), by simp [goOn, hub], rfl⟩
  | true =>
    have done : perform x true .leave =
        some ({ x with session := { x.session with connected := false } }, [.nodeDisconnect]) := by
      simp [perform, disconnectFromNode, connected]
    have again : ready (goOn x { x with session := { x.session with connected := false } } p
        ([Op.nodeDisconnect] ++ rest)) p = true := (ready_congr rfl).trans turn
    simp only [if_true, Node.disconnect, closed]
    cases down : x.shuttingDown with
    | false =>
      have queued : ∀ z : State, z.shuttingDown = false → z.hub.register = x.hub.register →
          perform z true .nodeDisconnect = some ({ z with hub :=
            { z.hub with register := z.hub.register ++ [.remove z.session.ref] } }, []) := by
        intro z running register
        simp [perform, running, register, space]
      refine ⟨_, .go now turn done (.go (goOn_programs _) again (queued _ down rfl)
        (alone_refl (goOn_programs _))), ?_, rfl⟩
      rw [← hub]
      cases x.session.disconnectInterest <;> rfl
    | true =>
      have inline : ∀ z : State, z.shuttingDown = true →
          perform z true .nodeDisconnect = some (z, [.removeCheck]) := by
        intro z ends
        simp [perform, ends]
      obtain ⟨y, alone, session, removed⟩ := @alone_removeCheck (goOn _ _ p _) p rest
        (goOn_programs _) ((ready_congr rfl).trans again)
      refine ⟨y, .go now turn done (.go (goOn_programs _) again (inline _ down) alone), ?_, session⟩
      rw [removed, ← hub]
      cases x.session.disconnectInterest <;> rfl

/-- A `Disconnect` that nothing interrupts does what `Node.sessionDisconnect` does, as long as there
is room in the channels. -/
theorem undisturbed_disconnect {n : Node} (reason : String) (code : Nat) (instant : Instant)
    (calls : x.programs p = .sendClose :: rest) (turn : ready x p = true)
    (room : x.sendCh = false ∨ x.frames.length < sendCap)
    (space : x.hub.register.length < Hub.registerCap) (hub : n.hub = x.hub)
    (closed : n.closed = x.shuttingDown) :
    ∃ y, Alone p rest x y ∧ y.hub = (n.sessionDisconnect x.session reason code instant).1.hub ∧
      y.session.connected = (n.sessionDisconnect x.session reason code instant).2.connected ∧
      y.session.closed = (n.sessionDisconnect x.session reason code instant).2.closed := by
  obtain ⟨told, sent, session, same, auth, down⟩ : ∃ told,
      perform x true .sendClose = some (told, [.close]) ∧ told.session = x.session ∧
        told.hub = x.hub ∧ told.auth = x.auth ∧ told.shuttingDown = x.shuttingDown := by
    simp only [perform, sendFrame]
    split
    next live =>
      rw [if_pos (room.resolve_left (by simp [live]))]
      exact ⟨_, rfl, rfl, rfl, rfl, rfl⟩
    · exact ⟨_, rfl, rfl, rfl, rfl, rfl⟩
  have closes : ∀ z : State, perform z true .close = some (close z, [.leave]) := fun _ => rfl
  have again : ready (goOn x told p ([Op.close] ++ rest)) p = true := (ready_congr auth).trans turn
  obtain ⟨y, alone, left, ended⟩ :=
    @alone_leave (goOn _ (close (goOn x told p ([Op.close] ++ rest))) p _) p rest (goOn_programs _)
    ((ready_congr rfl).trans again) (by exact same ▸ space) n
    (hub.trans same.symm) (closed.trans down.symm) instant
  refine ⟨y, .go calls turn sent (.go (goOn_programs _) again (closes _) alone), ?_, ?_, ?_⟩
  · rw [left]
    change (n.disconnectFromNode told.session.close instant).1.hub = _
    rw [session]
    rfl
  · rw [ended]
    rfl
  · rw [ended]
    rfl

end Undisturbed

/-- A simpler condition: `Connected` is set before the session is closed. -/
def Prompt (x : State) : Act → Prop
  | .authenticated => x.auth = .connect → x.session.closed = false
  | .go p _ => (x.programs p).head? = some .removeCheck →
      x.hub.registered x.session.toHub = true
  | _ => True

instance (x : State) : (a : Act) → Decidable (Prompt x a)
  | .authenticated => inferInstanceAs (Decidable (x.auth = .connect → x.session.closed = false))
  | .go p _ => inferInstanceAs (Decidable ((x.programs p).head? = some .removeCheck →
      x.hub.registered x.session.toHub = true))
  | .answer _ | .fire .. | .serve | .hubTake | .shutdown => isTrue trivial

theorem inTime_of_prompt (x : State) (a : Act) (prompt : Prompt x a) : InTime x a := by
  cases a with
  | authenticated => exact fun phase closed => absurd (prompt phase) (by simp [closed])
  | go p ok => exact prompt
  | answer _ | fire _ _ | serve | hubTake | shutdown => trivial

def fresh : State := State.start { gatesNum := 1 } 1 ⟨"sid", "", false⟩ true

def success : Act :=
  .answer { res := some { status := .success, identifier := "user", transmissions := ["welcome"] } }

/-- The rest of `Authenticate` after an answer with one transmission, and the sender. -/
def welcome : List Act := [.go .authenticate true, .go .sender true]

/-- The client closes the connection, and the hub loop removes the session. -/
def orderly : List Act :=
  [success, .authenticated, .authenticated, .authenticated] ++ welcome ++
  [.serve, .go .serve false] ++ List.replicate 5 (.go .serve true) ++ [.go .sender true, .hubTake] ++
  List.replicate 3 (.go .hubLoop true)

/-- The write of a ping fails, and the session is disconnected. The sender finds the close frame. -/
def pingFails : List Act :=
  [.fire 0 .ping, .go (.timer 0) false] ++ List.replicate 3 (.go (.timer 0) true) ++
  [.go .sender true, .go .sender true]

/-- The controller is slow: its answer finds the session closed. -/
def slowAnswer : List Act :=
  pingFails ++ [success, .authenticated, .authenticated, .authenticated, .go .authenticate true,
    .serve, .go .serve true]

/-- The ping fails between the last two lines of `Authenticated`, and the hub loop is fast. -/
def fastRemoval : List Act :=
  [success, .authenticated, .authenticated] ++ pingFails ++
  [.go (.timer 0) true, .hubTake, .go .hubLoop true, .authenticated, .go .authenticate true,
   .serve, .go .serve true]

end AnyCable.Guarantees.ClosedSession
