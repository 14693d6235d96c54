import AnyCable.Source.History
import AnyCable.Source.Presence
import AnyCable.Source.Session
import AnyCable.Source.Tracker

/-!
# Brokers

Source: `broker/broker.go:153-269` and `broker/memory.go:223-332,409-470,600-658`. A broker
drives its Broadcaster through the tracker; the memory broker also keeps the streams history,
the cached sessions and the presence. `LegacyBroker` keeps nothing, does not support history
and presence, and passes a broadcast on only if the stream is tracked.

Calls are made one at a time here; the interleavings of the tracker and of the history are
studied on their own.
-/

set_option autoImplicit false

namespace AnyCable.Source
open AnyCable.Lib

structure ExpireSessionEntry where
  deadline : Int
  sid : String
  deriving DecidableEq, Repr

/-- What `Memory` keeps besides the tracker. -/
structure Memory where
  history : History
  sessions : String → Option CacheEntry := fun _ => none
  expireSessions : List ExpireSessionEntry := []
  presence : PresenceState := {}

namespace Memory

def commitSession (m : Memory) (sid : String) (session : Session) : Option Memory := do
  let cached ← session.toCacheEntry
  return { m with sessions := Function.update m.sessions sid (some cached) }

def restoreSession (m : Memory) (sid : String) : Option CacheEntry := m.sessions sid

def finishSession (m : Memory) (sid : String) (now : Instant) : Memory :=
  if (m.sessions sid).isSome then
    { m with
      expireSessions := m.expireSessions ++
        [⟨int64 (unix now + m.history.config.sessionsTTL.toInt), sid⟩] }
  else m

def finishPresence (m : Memory) (sid : String) (now : Instant) : Memory :=
  { m with presence := m.presence.finishPresence sid m.history.config.presenceTTL now }

/-- The sessions part of `expire`: the leading entries whose deadline has passed. -/
def expireCached (m : Memory) (now : Instant) : Memory :=
  let due := m.expireSessions.takeWhile fun e => e.deadline < unix now
  { m with
    sessions := due.foldl (fun sessions e => Function.update sessions e.sid none) m.sessions
    expireSessions := m.expireSessions.drop due.length }

/-- Returns the leave events to broadcast. -/
def expire (m : Memory) (now : Instant) : Memory × List (String × PresenceEvent) :=
  let m := { m with history := m.history.expire now }.expireCached now
  let (presence, leaves) := m.presence.expirePresence now
  ({ m with presence := presence }, leaves)

end Memory

/-- A broker with its Broadcaster; without a memory it is the `LegacyBroker`. As long as calls
run one at a time, the Broadcaster was last told to subscribe to exactly the tracked streams. -/
structure Broker where
  interest : Interest := ⟨.new, {}⟩
  memory : Option Memory := none
  agrees : interest.Agrees := by exact Interest.agrees_new

namespace Broker

def tracker (b : Broker) : StreamsTracker := b.interest.tracker

/-- The streams are named by themselves: both calls return their argument in the source. -/
def subscribe (b : Broker) (stream : String) : Broker :=
  { b with interest := b.interest.subscribe stream, agrees := b.agrees.subscribe stream }

def unsubscribe (b : Broker) (stream : String) : Broker :=
  { b with interest := b.interest.unsubscribe stream, agrees := b.agrees.unsubscribe stream }

def broadcast (b : Broker) (msg : StreamMessage) : Broker :=
  { b with interest := b.interest.broadcast msg, agrees := b.agrees.broadcast msg }

def handleBroadcast (b : Broker) (msg : StreamMessage) (now : Instant) : Option Broker :=
  match b.memory with
  | none => some (if b.tracker.has msg.stream then b.broadcast msg else b)
  | some m => do
    let (history, msg) ← m.history.handleBroadcast msg now
    return { b with memory := some { m with history := history } }.broadcast msg

def historyFrom (b : Broker) (name epoch : String) (offset : Nat) :
    Option (Except String (List StreamMessage)) :=
  match b.memory with
  | none => some (.error "history not supported")
  | some m => m.history.historyFrom name epoch offset

def historySince (b : Broker) (name : String) (ts : Int) : Except String (List StreamMessage) :=
  match b.memory with
  | none => .error "history not supported"
  | some m => .ok (m.history.historySince name ts)

/-- The legacy broker does not look at the session. -/
def commitSession (b : Broker) (sid : String) (session : Session) : Option Broker :=
  match b.memory with
  | none => some b
  | some m => do
    let m ← m.commitSession sid session
    return { b with memory := some m }

def restoreSession (b : Broker) (sid : String) : Option CacheEntry :=
  b.memory.bind fun m => m.restoreSession sid

def finishSession (b : Broker) (sid : String) (now : Instant) : Broker :=
  { b with memory := b.memory.map fun m => m.finishSession sid now }

def finishPresence (b : Broker) (sid : String) (now : Instant) : Broker :=
  { b with memory := b.memory.map fun m => m.finishPresence sid now }

/-- Presence calls return an event for the first and the last session of a presence id. -/
def presenceAdd (b : Broker) (stream sid pid : String) (info : Value) :
    Broker × Except String (Option PresenceEvent) :=
  match b.memory with
  | none => (b, .error "presence not supported")
  | some m =>
    let (presence, res) := m.presence.presenceAdd stream sid pid info
    ({ b with memory := some { m with presence := presence } }, res)

def presenceRemove (b : Broker) (stream sid : String) :
    Broker × Except String (Option PresenceEvent) :=
  match b.memory with
  | none => (b, .error "presence not supported")
  | some m =>
    let (presence, res) := m.presence.presenceRemove stream sid
    ({ b with memory := some { m with presence := presence } }, res)

def presenceInfo (b : Broker) (stream : String) (returnRecords : Bool) :
    Except String PresenceInfo :=
  match b.memory with
  | none => .error "presence not supported"
  | some m => .ok (m.presence.presenceInfo stream returnRecords)

/-- A round of the memory broker's `expireLoop`. -/
def expire (b : Broker) (toJSON : PresenceEvent → String) (now : Instant) : Broker :=
  match b.memory with
  | none => b
  | some m =>
    let (m, leaves) := m.expire now
    leaves.foldl (fun b leave => b.broadcast (presenceMessage toJSON leave.1 leave.2))
      { b with memory := some m }

end Broker

end AnyCable.Source
