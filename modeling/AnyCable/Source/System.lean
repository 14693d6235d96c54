import AnyCable.Source.Node

/-!
# A node with its sessions

The runs of one node: clients connect, send commands and leave, the controller answers
anything, the hub loop works on its queues, messages are published, and the memory broker
expires what is old. Every step is one completed call; `Node.Authenticate`, the commands of
different sessions and the disconnects follow each other in any order.

A session is created by `NewSession` and authenticated at once, as the WebSocket and SSE
handlers do (`cli/cli.go:439-460`, `sse/sse.go:28-50`). If `Authenticate` lets it in, its commands
are handled, also after it was closed: the SSE handler goes through all the subscribe commands of
its request (`sse/handler.go:98-114`), and the reader of a WebSocket handles the frame that it was
waiting for when the session was closed (`node/session.go:296-327`). A session that was
disconnected stays in the table: the hub loop may still have to remove it.
-/

set_option autoImplicit false

namespace AnyCable.Source
open AnyCable.Lib

structure System where
  node : Node
  sessions : GoMap SessionRef Session := ∅
  /-- The sessions that commands are taken from. -/
  readers : List SessionRef := []

/-- How a node is set up. The memory broker has a configuration and an epoch; without them
the node runs the legacy broker. -/
structure Setup where
  codec : Codec
  disconnectMode : DisconnectMode := .auto
  gatesNum : Nat := 16
  memory : Option (Config × String) := none

/-- `NewNode` with a `NewMemoryBroker` or a `NewLegacyBroker`. -/
def Setup.start (setup : Setup) : System :=
  { node := { codec := setup.codec
              disconnectMode := setup.disconnectMode
              hub := { gatesNum := setup.gatesNum }
              broker := { memory := setup.memory.map fun m => { history := .new m.1 m.2 } } } }

/-- What a client brings to a new connection: its session id and the one it had before. -/
structure Client where
  uid : String
  prevSid : String := ""
  resumable : Bool := false
  deriving DecidableEq, Repr

namespace System

inductive Act where
  | connect (ref : SessionRef) (client : Client) (answer : Answer ConnectResult) (now : Instant)
  | command (ref : SessionRef) (msg : Message) (answer : Answer CommandResult) (now : Instant)
  /-- `Session.Disconnect` by a timer, a remote command, a full send queue or a shutdown. -/
  | disconnect (ref : SessionRef) (reason : String) (code : Nat) (now : Instant)
  /-- The connection is closed or broken. -/
  | disconnectNow (ref : SessionRef) (now : Instant)
  /-- The hub loop takes a registration. -/
  | register
  /-- The hub loop takes a message. -/
  | deliver
  /-- `HandleBroadcast` of a parsed message. -/
  | handleBroadcast (msg : StreamMessage) (now : Instant)
  /-- `HandlePubSub` of a parsed message. -/
  | handlePubSub (msg : StreamMessage)
  | expire (now : Instant)
  | shutdown

/-- `NewSession`. -/
def newSession (ref : SessionRef) (client : Client) : Session :=
  { ref := ref, uid := client.uid, prevSid := client.prevSid, resumable := client.resumable }

def put (x : System) (ref : SessionRef) (r : Node × Session) : System :=
  { x with node := r.1, sessions := x.sessions.insert ref r.2 }

/-- The handler of a new connection goes on unless `Authenticate` has closed the session: `Serve`
looks at `IsClosed` first, and `NewSSESession` returns no session that was not let in. -/
def serve (x : System) (s : Session) : System :=
  if s.closed then x else { x with readers := s.ref :: x.readers }

/-- `Send` to every target of the gate's snapshot. -/
def sendEach (sessions : GoMap SessionRef Session) (msg : StreamMessage)
    (targets : List (SessionRef × String)) : GoMap SessionRef Session :=
  targets.foldl (fun sessions t => match sessions.lookup t.1 with
    | none => sessions
    | some s => sessions.insert t.1 (s.send (.message msg t.2))) sessions

def uidOf (x : System) (ref : SessionRef) : String :=
  ((x.sessions.lookup ref).map (·.uid)).getD ""

/-- `HandleBroadcast` and the broker's part of it. -/
def handleBroadcast (x : System) (msg : StreamMessage) (now : Instant) : Option System := do
  let broker ← x.node.broker.handleBroadcast msg now
  return { x with node := { x.node with broker := broker } }

def step (x : System) : Act → Option System
  | .connect ref client answer now =>
    if (x.sessions.lookup ref).isNone then do
      let (n, s, _) ← x.node.authenticate (newSession ref client) answer true now
      return (x.put ref (n, s)).serve s
    else none
  | .command ref msg answer now =>
    if ref ∈ x.readers then do
      let s ← x.sessions.lookup ref
      let (n, s, _) ← x.node.handleCommand s msg answer now
      return x.put ref (n, s)
    else none
  | .disconnect ref reason code now => do
    let s ← x.sessions.lookup ref
    return x.put ref (x.node.sessionDisconnect s reason code now)
  | .disconnectNow ref now => do
    let s ← x.sessions.lookup ref
    return x.put ref (x.node.sessionDisconnectNow s now)
  | .register =>
    match x.node.hub.register with
    | [] => none
    | .add ref :: rest => do
      let s ← x.sessions.lookup ref
      return { x with node := { x.node with
        hub := { x.node.hub with register := rest }.addSession s.toHub } }
    | .remove ref :: rest => do
      let s ← x.sessions.lookup ref
      return { x with node := { x.node with
        hub := { x.node.hub with register := rest }.removeSession s.toHub } }
  | .deliver =>
    match x.node.hub.broadcast with
    | [] => none
    | msg :: rest =>
      some { x with
             node := { x.node with hub := { x.node.hub with broadcast := rest } }
             sessions := sendEach x.sessions msg
               ((x.node.hub.gateOf msg.stream).targets x.uidOf msg) }
  | .handleBroadcast msg now => x.handleBroadcast msg now
  | .handlePubSub msg => some { x with node := x.node.broadcast msg }
  | .expire now =>
    some { x with node := { x.node with broker := x.node.broker.expire x.node.codec.event now } }
  | .shutdown => some { x with node := { x.node with closed := true } }

theorem put_lookup (x : System) (ref : SessionRef) (r : Node × Session) :
    (x.put ref r).sessions.lookup ref = some r.2 := by
  simp [put]

theorem put_lookup_ne (x : System) {ref other : SessionRef} (r : Node × Session)
    (different : other ≠ ref) : (x.put ref r).sessions.lookup other = x.sessions.lookup other := by
  simp [put, AList.lookup_insert_ne different]

section Serve

variable {x : System} {s : Session} {ref : SessionRef}

@[simp] theorem serve_node (x : System) (s : Session) : (x.serve s).node = x.node := by
  unfold serve
  split <;> rfl

@[simp] theorem serve_sessions (x : System) (s : Session) :
    (x.serve s).sessions = x.sessions := by
  unfold serve
  split <;> rfl

theorem mem_readers_serve :
    ref ∈ (x.serve s).readers ↔ ref ∈ x.readers ∨ (s.closed = false ∧ ref = s.ref) := by
  unfold serve
  split
  next closed => simp [closed]
  next live => simp [live, or_comm]

end Serve

end System

end AnyCable.Source
