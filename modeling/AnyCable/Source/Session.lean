import AnyCable.Source.Common
import AnyCable.Source.Hub
import AnyCable.Source.SubscriptionState

/-!
# A client session

Source: `node/session.go`. Connections, timers and encoders are left out. Frames are put into
`sent` in the order of the `sendFrame` calls and the writer goroutine is taken to keep up; a
full channel closes the session, which is a disconnect of its own in the runs of the node.

`smu` protects the environment and the subscriptions. `lock` is `none` where the source would
wait for ever: a command that returned without unlocking leaves every later one stuck.
-/

set_option autoImplicit false

namespace AnyCable.Source
open AnyCable.Lib

structure Session where
  ref : SessionRef
  uid : String
  env : SessionEnv := {}
  subscriptions : SubscriptionState := {}
  closed : Bool := false
  disconnectInterest : Bool := false
  /-- The mutex is held. -/
  smu : Bool := false
  resumable : Bool := false
  prevSid : String := ""
  connected : Bool := false
  sent : List Outgoing := []

/-- The JSON text kept for a session, by its fields. `writer` is no part of the text: it names
the session that was stored and no function reads it. -/
structure CacheEntry where
  identifiers : String
  subscriptions : GoMap String (List String)
  connectionState : GoMap String String
  channelsState : GoMap String (GoMap String String)
  disconnectable : Bool
  writer : SessionRef

namespace Session

/-- The session as the hub sees it. -/
def toHub (s : Session) : HubSession := ⟨s.ref, s.uid, s.env.identifiers⟩

def lock (s : Session) : Option Session := if s.smu then none else some { s with smu := true }

def unlock (s : Session) : Session := { s with smu := false }

def setIdentifiers (s : Session) (ids : String) : Session :=
  { s with env := { s.env with identifiers := ids } }

def markDisconnectable (s : Session) (val : Bool) : Session :=
  { s with disconnectInterest := s.disconnectInterest || val }

/-- `Send`, `SendJSONTransmission` and `sendClose`. -/
def send (s : Session) (msg : Outgoing) : Session := { s with sent := s.sent ++ [msg] }

def close (s : Session) : Session := { s with closed := true }

/-- Merge a state of a reply into the environment under the lock; `nil` changes nothing. -/
def mergeState (s : Session) (merge : SessionEnv → GoMap String String → SessionEnv) :
    Option (GoMap String String) → Option Session
  | none => some s
  | some state => do
    let s ← s.lock
    return { s with env := merge s.env state }.unlock

def toCacheEntry (s : Session) : Option CacheEntry := do
  let s ← s.lock
  return { identifiers := s.env.identifiers
           subscriptions := s.subscriptions.toMap
           connectionState := s.env.connectionState
           channelsState := s.env.channelStates
           disconnectable := s.disconnectInterest
           writer := s.ref }

/-- The loop over the cached subscriptions. -/
def restoreSubscriptions (st : SubscriptionState) (cached : GoMap String (List String)) :
    SubscriptionState :=
  cached.toPairs.foldl
    (fun st p => p.2.foldl (fun st stream => st.addChannelStream p.1 stream) (st.addChannel p.1)) st

def restoreFromCache (s : Session) (entry : CacheEntry) : Option Session := do
  let s ← s.lock
  let s := (s.markDisconnectable entry.disconnectable).setIdentifiers entry.identifiers
  let env := s.env.mergeConnectionState entry.connectionState
  let env := entry.channelsState.toPairs.foldl (fun env p => env.mergeChannelState p.1 p.2) env
  return { s with env := env,
                  subscriptions := restoreSubscriptions s.subscriptions entry.subscriptions }.unlock

end Session

end AnyCable.Source
