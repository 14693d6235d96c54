import AnyCable.Source.Broker
import AnyCable.Source.PresenceRequest

/-!
# The node

Source: `node/node.go` and the parts of `node/session.go` that call back into the node. A
function that works on a session takes it by value and returns it; the controller's answer is
an argument. `none` stands for a call that does not come back: it waits for a lock that is
never released, or it panics (a `nil` result is dereferenced, a history record of a stream is
indexed out of range).

Sends into the hub's channels wait while a channel is full; here the queues take everything.
Metrics and logs are left out.
-/

set_option autoImplicit false

namespace AnyCable.Source
open AnyCable.Lib

/-- What other packages print. -/
structure Codec where
  /-- `utils.ToJSON` of the data of a whisper. -/
  value : Value → String
  /-- `utils.ToJSON` of a presence event. -/
  event : PresenceEvent → String
  /-- The verb `%v` for the data of a command. -/
  printValue : Value → String
  /-- The verb `%v` for a command. -/
  printMessage : Message → String
  /-- `errorx.Decorate`: the error, and the text put before it. -/
  decorate : String → String → String

/-- Texts of which nothing depends on what they are. -/
def Codec.blank : Codec where
  value _ := ""
  event _ := ""
  printValue _ := ""
  printMessage _ := ""
  decorate _ _ := ""

/-- `config.DisconnectMode`; any other text is `other`. -/
inductive DisconnectMode where
  | always | never | auto | other
  deriving DecidableEq, Repr

/-- A `controller.Disconnect` call. -/
structure DisconnectCall where
  sid : String
  identifiers : String
  subscriptions : List String
  deriving DecidableEq, Repr

/-- `DisconnectQueue`. -/
structure Disconnector where
  queue : List SessionRef := []
  isStopped : Bool := false
  deriving DecidableEq, Repr

def Disconnector.enqueue (d : Disconnector) (s : SessionRef) : Disconnector :=
  if d.isStopped then d else { d with queue := d.queue ++ [s] }

structure Node where
  codec : Codec
  disconnectMode : DisconnectMode := .auto
  hub : Hub
  broker : Broker := {}
  disconnector : Disconnector := {}
  disconnectCalls : List DisconnectCall := []
  closed : Bool := false

/-- `ws.CloseNormalClosure`. -/
def closeNormalClosure : Nat := 1000

/-- `ws.CloseAbnormalClosure`. -/
def closeAbnormalClosure : Nat := 1006

/-- `ws.CloseInternalServerErr`. -/
def closeInternalServerErr : Nat := 1011

namespace Node

/-- The method `Broadcast`. -/
def broadcast (n : Node) (msg : StreamMessage) : Node :=
  { n with hub := { n.hub with broadcast := n.hub.broadcast ++ [msg] } }

def disconnectNow (n : Node) (s : Session) : Node :=
  { n with disconnectCalls := n.disconnectCalls ++
      [⟨s.uid, s.env.identifiers, s.subscriptions.channelIds⟩] }

/-- The calls of `Disconnect` to the broker. -/
def finish (b : Broker) (s : Session) (now : Instant) : Broker :=
  (if s.resumable then b.finishSession s.uid now else b).finishPresence s.uid now

/-- The method `Disconnect`. -/
def disconnect (n : Node) (s : Session) (now : Instant) : Node :=
  let n := { n with broker := finish n.broker s now }
  if n.closed then
    let n := { n with hub := n.hub.removeSession s.toHub }
    if s.disconnectInterest then n.disconnectNow s else n
  else
    let n := { n with hub := { n.hub with register := n.hub.register ++ [.remove s.ref] } }
    if s.disconnectInterest then { n with disconnector := n.disconnector.enqueue s.ref } else n

/-- `Session.disconnectFromNode`. -/
def disconnectFromNode (n : Node) (s : Session) (now : Instant) : Node × Session :=
  (if s.connected then n.disconnect s now else n, { s with connected := false })

/-- `Session.Disconnect`. -/
def sessionDisconnect (n : Node) (s : Session) (reason : String) (code : Nat) (now : Instant) :
    Node × Session :=
  n.disconnectFromNode (s.send (.close reason code)).close now

/-- `Session.disconnectNow`: the close frame is written to the connection, past the queue. -/
def sessionDisconnectNow (n : Node) (s : Session) (now : Instant) : Node × Session :=
  if s.connected then
    let (n, s) := n.disconnectFromNode s now
    (n, s.close)
  else (n, s)

def markDisconnectable (n : Node) (s : Session) (interest : Int) : Session :=
  match n.disconnectMode with
  | .always => s.markDisconnectable true
  | .never => s.markDisconnectable false
  | .auto => s.markDisconnectable (0 ≤ interest)
  | .other => s

/-- `if s.IsResumeable() { n.broker.CommitSession(s.GetID(), s) }`. -/
def commit (n : Node) (s : Session) : Option Node :=
  if s.resumable then do
    let broker ← n.broker.commitSession s.uid s
    return { n with broker := broker }
  else some n

/-- The flag says that the connection state has changed. -/
def handleCallReply (n : Node) (s : Session) (reply : CallResult) (now : Instant) :
    Option (Node × Session × Bool) := do
  let s ← s.mergeState SessionEnv.mergeConnectionState reply.cState
  let broker ← reply.broadcasts.foldlM (fun b msg => b.handleBroadcast msg now) n.broker
  let s := reply.transmissions.foldl (fun s text => s.send (.transmission text)) s
  return ({ n with broker := broker }, s, reply.cState.isSome)

/-- A turn of the loop over the stopped streams. -/
def stopStream (id : String) (acc : Node × Session) (stream : String) : Node × Session :=
  ({ acc.1 with broker := acc.1.broker.unsubscribe stream
                hub := acc.1.hub.unsubscribeSession acc.2.toHub stream id },
   { acc.2 with subscriptions := acc.2.subscriptions.removeChannelStream id stream })

/-- A turn of the loop over the started streams. -/
def startStream (id : String) (acc : Node × Session) (stream : String) : Node × Session :=
  ({ acc.1 with broker := acc.1.broker.subscribe stream
                hub := acc.1.hub.subscribeSession acc.2.toHub stream id },
   { acc.2 with subscriptions := acc.2.subscriptions.addChannelStream id stream })

/-- The branch `reply.StopAllStreams` of `handleCommandReply`. -/
def stopAllStreams (n : Node) (s : Session) (id : String) : Node × Session × Bool :=
  let hub := n.hub.unsubscribeSessionFromChannel s.toHub id
  let (subscriptions, removed) := s.subscriptions.removeChannelStreams id
  ({ n with hub := hub, broker := removed.foldl Broker.unsubscribe n.broker },
   { s with subscriptions := subscriptions }, !removed.isEmpty)

/-- The first part of `handleCommandReply`. -/
def stopStreams (n : Node) (s : Session) (id : String) (reply : CommandResult) :
    Node × Session × Bool :=
  if reply.stopAllStreams then n.stopAllStreams s id
  else
    let (n, s) := (reply.stoppedStreams.getD []).foldl (stopStream id) (n, s)
    (n, s, reply.stoppedStreams.isSome)

/-- The flag says that subscriptions, channel state or connection state have changed. -/
def handleCommandReply (n : Node) (s : Session) (msg : Message) (reply : CommandResult)
    (now : Instant) : Option (Node × Session × Bool) := do
  let id := msg.identifier
  let (n, s, stopped) := n.stopStreams s id reply
  let (n, s) := (reply.streams.getD []).foldl (startStream id) (n, s)
  let s ← s.mergeState (fun env state => env.mergeChannelState id state) reply.iState
  let (n, s, connectionDirty) ← n.handleCallReply s reply.toCallResult now
  -- the deferred call
  let (n, s) := if reply.disconnect then
      n.sessionDisconnect s "Command Failed" closeAbnormalClosure now
    else (n, s)
  return (n, s, stopped || reply.streams.isSome || reply.iState.isSome || connectionDirty)

def authenticated (n : Node) (s : Session) (ids : String) : Node × Session :=
  let s := { s.setIdentifiers ids with connected := true }
  ({ n with hub := n.hub.addSession s.toHub }, s)

/-- A turn of the resubscription loop. -/
def resubscribe (s : Session) (n : Node) (p : String × String) : Node :=
  { n with broker := n.broker.subscribe p.2, hub := n.hub.subscribeSession s.toHub p.2 p.1 }

def tryRestoreSession (n : Node) (s : Session) : Option (Node × Session × Bool) :=
  if s.prevSid = "" then some (n, s, false)
  else match n.broker.restoreSession s.prevSid with
    | none => some (n, s, false)
    | some cached => do
      let s ← s.restoreFromCache cached
      let s := { s with connected := true }
      let n := { n with hub := n.hub.addSession s.toHub }
      let n := s.subscriptions.pairs.foldl (resubscribe s) n
      let s := s.send (.reply { type := "welcome", sid := s.uid, restored := true,
                                restoredIds := s.subscriptions.channelIds })
      let n ← n.commit s
      return (n, s, true)

/-- The first part of `Authenticate`. -/
def restoreResumable (n : Node) (s : Session) : Option (Node × Session × Bool) :=
  if s.resumable then n.tryRestoreSession s else some (n, s, false)

/-- `Authenticate` after a restore that did not happen. -/
def authenticateAnswer (n : Node) (s : Session) (answer : Answer ConnectResult)
    (disconnectOnFailure : Bool) (now : Instant) :
    Option (Node × Session × Except String ConnectResult) :=
  match answer.err with
  | some err =>
    let (n, s) := n.sessionDisconnect s "Auth Error" closeInternalServerErr now
    some (n, s, .error (n.codec.decorate err "failed to authenticate"))
  | none => do
    let res ← answer.res
    let (n, s) := if res.status = .success then n.authenticated s res.identifier else (n, s)
    let (n, s, _) ← n.handleCallReply s res.toCallResult now
    let s := n.markDisconnectable s res.disconnectInterest
    let n ← n.commit s
    -- the deferred call
    let (n, s) := if res.status ≠ .success ∧ disconnectOnFailure = true then
        n.sessionDisconnect s "Auth Failed" closeNormalClosure now
      else (n, s)
    return (n, s, .ok res)

def authenticate (n : Node) (s : Session) (answer : Answer ConnectResult)
    (disconnectOnFailure : Bool) (now : Instant) :
    Option (Node × Session × Except String ConnectResult) := do
  let (n, s, restored) ← n.restoreResumable s
  if restored then return (n, s, .ok { status := .success })
  else n.authenticateAnswer s answer disconnectOnFailure now

/-- `err != nil && (res == nil || res.Status == common.ERROR)`, with the error. -/
def refusal (answer : Answer CommandResult) : Option String :=
  match answer.err, answer.res with
  | some err, none => some err
  | some err, some res => if res.status = .error then some err else none
  | none, _ => none

/-- The calls of the broker's interface that a history request makes; `none` is a panic. -/
structure HistoryCalls where
  historyFrom : String → String → Nat → Option (Except String (List StreamMessage))
  historySince : String → Int → Option (Except String (List StreamMessage))

/-- The backlog of one stream. -/
def retreiveStream (calls : HistoryCalls) (history : HistoryRequest) (stream : String) :
    Option (Except String (List StreamMessage)) :=
  match history.streams.bind fun positions => positions.lookup stream with
  | some pos => calls.historyFrom stream pos.epoch pos.offset
  | none =>
    if 0 < history.since then calls.historySince stream history.since
    else some (.ok [])

/-- The first error ends the loop. -/
def retreiveHistory (calls : HistoryCalls) (history : HistoryRequest) :
    List String → Option (Except String (List StreamMessage))
  | [] => some (.ok [])
  | stream :: rest => do
    match ← retreiveStream calls history stream with
    | .error err => return .error err
    | .ok backlog =>
      let more ← retreiveHistory calls history rest
      return more.map fun more => backlog ++ more

/-- The method `History`, with what the broker returns. -/
def historyWith (calls : HistoryCalls) (n : Node) (s : Session) (msg : Message) :
    Option (Session × Except String Unit) := do
  let s ← s.lock
  if s.subscriptions.hasChannel msg.identifier = false then
    return (s.unlock, .error ("unknown subscription " ++ msg.identifier))
  else
    let subscriptionStreams := s.subscriptions.streamsFor msg.identifier
    let s := s.unlock
    if msg.history.since = 0 ∧ msg.history.streams.isNone then
      return (s, .error ("history request is missing, got " ++ n.codec.printMessage msg))
    else
      match ← retreiveHistory calls msg.history subscriptionStreams with
      | .error err =>
        return (s.send (.reply { type := "reject_history", identifier := msg.identifier }),
          .error err)
      | .ok backlog =>
        let s := backlog.foldl (fun s el => s.send (.message el msg.identifier)) s
        return (s.send (.reply { type := "confirm_history", identifier := msg.identifier }), .ok ())

def history (n : Node) (s : Session) (msg : Message) : Option (Session × Except String Unit) :=
  n.historyWith ⟨n.broker.historyFrom, fun stream since => n.broker.historySince stream since⟩ s msg

/-- `common.PresenceJoinType` and `common.PresenceLeaveType`. -/
inductive PresenceCommand where
  | join | leave
  deriving DecidableEq, Repr

/-- A presence event is told to the stream. -/
def announce (n : Node) (stream : String) :
    Except String (Option PresenceEvent) → Node × Except String Unit
  | .ok (some event) => (n.broadcast (presenceMessage n.codec.event stream event), .ok ())
  | .ok none => (n, .ok ())
  | .error err => (n, .error err)

def handlePresenceReply (n : Node) (s : Session) (identifier : String) (event : PresenceCommand)
    (presence : Option PresenceEvent) : Node × Except String Unit :=
  let stream := s.env.getChannelStateField identifier presenceStreamState
  if stream = "" then (n, .error ("presence stream not found for identifier: " ++ identifier))
  else match event, presence with
    | .join, none => (n, .error "presence data is missing")
    | .join, some presence =>
      let (broker, res) := n.broker.presenceAdd stream s.uid presence.id presence.info
      { n with broker := broker }.announce stream res
    | .leave, _ =>
      let (broker, res) := n.broker.presenceRemove stream s.uid
      { n with broker := broker }.announce stream res

/-- The history that a subscription asks for. -/
def subscribeHistory (n : Node) (s : Session) (msg : Message) : Option Session :=
  if 0 < msg.history.since ∨ msg.history.streams.isSome then (n.history s msg).map Prod.fst
  else some s

/-- What `Subscribe` does once the subscription is confirmed. Errors are logged. -/
def afterSubscribe (n : Node) (s : Session) (msg : Message) (confirmed : Bool) :
    Option (Node × Session) :=
  if confirmed then do
    let n ← n.commit s
    let s ← n.subscribeHistory s msg
    return (if msg.presence.isSome then
        (n.handlePresenceReply s msg.identifier .join msg.presence).1
      else n, s)
  else some (n, s)

/-- A refused command returns with the lock held. -/
def subscribe (n : Node) (s : Session) (msg : Message) (answer : Answer CommandResult)
    (now : Instant) : Option (Node × Session × Except String CommandResult) := do
  let s ← s.lock
  if s.subscriptions.hasChannel msg.identifier then
    return (n, s.unlock, .error ("already subscribed to " ++ msg.identifier))
  else match refusal answer with
    | some err =>
      return (n, s, .error (n.codec.decorate err ("subscribe failed for " ++ msg.identifier)))
    | none => do
      let res ← answer.res
      let confirmed : Bool := answer.err.isNone && res.status = .success
      let s := if confirmed then
          { s with subscriptions := s.subscriptions.addChannel msg.identifier }
        else s
      let (n, s, _) ← n.handleCommandReply s.unlock msg res now
      let s := n.markDisconnectable s res.disconnectInterest
      let (n, s) ← n.afterSubscribe s msg confirmed
      return (n, s, .ok res)

/-- Presence ends with the subscription; errors are logged. -/
def removePresence (n : Node) (stream sid : String) : Node :=
  if stream = "" then n else { n with broker := (n.broker.presenceRemove stream sid).1 }

/-- The channel leaves the session before its streams are stopped. -/
def unsubscribe (n : Node) (s : Session) (msg : Message) (answer : Answer CommandResult)
    (now : Instant) : Option (Node × Session × Except String CommandResult) := do
  let s ← s.lock
  if s.subscriptions.hasChannel msg.identifier = false then
    return (n, s.unlock, .error ("unknown subscription: " ++ msg.identifier))
  else match refusal answer with
    | some err =>
      return (n, s, .error (n.codec.decorate err ("failed to unsubscribe from " ++ msg.identifier)))
    | none => do
      let res ← answer.res
      let removed := answer.err.isNone
      let presenceStream := if removed then
          s.env.getChannelStateField msg.identifier presenceStreamState
        else ""
      let res := if removed then { res with stopAllStreams := true } else res
      let s := if removed then
          { s with env := s.env.removeChannelState msg.identifier
                   subscriptions := s.subscriptions.removeChannel msg.identifier }
        else s
      let (n, s, _) ← n.handleCommandReply s.unlock msg res now
      let n ← n.commit s
      return (n.removePresence presenceStream s.uid, s, .ok res)

/-- `Perform` stores a session whose state has changed. -/
def commitDirty (n : Node) (s : Session) (dirty : Bool) : Option Node :=
  if dirty then n.commit s else some n

/-- The result is `nil` if the controller returns neither a result nor an error. -/
def perform (n : Node) (s : Session) (msg : Message) (answer : Answer CommandResult)
    (now : Instant) : Option (Node × Session × Except String (Option CommandResult)) := do
  let s ← s.lock
  let s := s.unlock
  if s.subscriptions.hasChannel msg.identifier = false then
    return (n, s, .error ("unknown subscription " ++ msg.identifier))
  else match msg.data with
    | .text _ =>
      match refusal answer, answer.res with
      | some err, _ =>
        return (n, s, .error (n.codec.decorate err ("perform failed for " ++ msg.identifier)))
      | none, none => return (n, s, .ok none)
      | none, some res => do
        let (n, s, dirty) ← n.handleCommandReply s msg res now
        let n ← n.commitDirty s dirty
        return (n, s, .ok (some res))
    | other =>
      return (n, s, .error ("perform data must be a string, got " ++ n.codec.printValue other))

def whisper (n : Node) (s : Session) (msg : Message) (now : Instant) : Option Node :=
  let stream := s.env.getChannelStateField msg.identifier whisperStreamState
  if stream = "" then some n
  else do
    let broker ← n.broker.handleBroadcast
      { stream := stream, data := n.codec.value msg.data,
        metadata := some { excludeSocket := s.uid, transient := true } } now
    return { n with broker := broker }

def presence (n : Node) (s : Session) (msg : Message) : Option (Session × Except String Unit) := do
  let s ← s.lock
  let s := s.unlock
  let stream := s.env.getChannelStateField msg.identifier presenceStreamState
  let options := PresenceInfoOptions.withOptions (presenceOptions msg.data) .new
  if s.subscriptions.hasChannel msg.identifier = false then
    return (s, .error ("unknown subscription " ++ msg.identifier))
  else if stream = "" then
    return (s, .error ("presence stream not found for identifier: " ++ msg.identifier))
  else match n.broker.presenceInfo stream options.returnRecords with
    | .error err =>
      return (s.send (.reply { type := "presence", identifier := msg.identifier,
                               message := .value (PresenceInfo.json { type := "error" }) }), .error err)
    | .ok info =>
      return (s.send (.reply { type := "presence", identifier := msg.identifier,
                               message := .value info.json }), .ok ())

/-- The text shared by `PresenceJoin` and `PresenceLeave`. -/
def presenceCommand (n : Node) (s : Session) (msg : Message) (event : PresenceCommand) :
    Option (Node × Session × Except String Unit) := do
  let s ← s.lock
  let s := s.unlock
  if s.subscriptions.hasChannel msg.identifier = false then
    return (n, s, .error ("unknown subscription " ++ msg.identifier))
  else
    let (n, res) := n.handlePresenceReply s msg.identifier event msg.presence
    return (n, s, res)

def presenceJoin (n : Node) (s : Session) (msg : Message) :
    Option (Node × Session × Except String Unit) :=
  n.presenceCommand s msg .join

def presenceLeave (n : Node) (s : Session) (msg : Message) :
    Option (Node × Session × Except String Unit) :=
  n.presenceCommand s msg .leave

/-- The method `HandleCommand`. -/
def handleCommand (n : Node) (s : Session) (msg : Message) (answer : Answer CommandResult)
    (now : Instant) : Option (Node × Session × Except String Unit) :=
  match msg.command with
  | "pong" => some (n, s, .ok ())
  | "subscribe" => (n.subscribe s msg answer now).map fun r => (r.1, r.2.1, r.2.2.map fun _ => ())
  | "unsubscribe" =>
    (n.unsubscribe s msg answer now).map fun r => (r.1, r.2.1, r.2.2.map fun _ => ())
  | "message" => (n.perform s msg answer now).map fun r => (r.1, r.2.1, r.2.2.map fun _ => ())
  | "history" => (n.history s msg).map fun r => (n, r)
  | "presence" => (n.presence s msg).map fun r => (n, r)
  | "join" => n.presenceJoin s msg
  | "leave" => n.presenceLeave s msg
  | "whisper" => (n.whisper s msg now).map fun n => (n, s, .ok ())
  | other => some (n, s, .error ("unknown command: " ++ other))

end Node

end AnyCable.Source
