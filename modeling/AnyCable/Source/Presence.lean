import AnyCable.Source.Clock
import AnyCable.Source.Common

/-!
# Presence of the memory broker

Source: `broker/memory.go:166-221,458-590,660-730`. Two tables under one lock: who is present
on a stream and through which sessions, and the presence id of a session on each of its
streams. A failing call may have changed the tables before it fails.
-/

set_option autoImplicit false

namespace AnyCable.Source
open AnyCable.Lib

structure PresenceSessionEntry where
  /-- stream → presence id. -/
  streams : GoMap String String := ∅
  deadline : Int := 0

structure PresenceEntry where
  info : Value
  id : String
  sessions : List String

/-- The flag says that no session is left. -/
def PresenceEntry.remove (pe : PresenceEntry) (sid : String) : PresenceEntry × Bool :=
  if sid ∈ pe.sessions then
    let left := pe.sessions.erase sid
    ({ pe with sessions := left }, left.isEmpty)
  else (pe, false)

def PresenceEntry.add (pe : PresenceEntry) (sid : String) (info : Value) : PresenceEntry :=
  { pe with sessions := if sid ∈ pe.sessions then pe.sessions else pe.sessions ++ [sid]
            info := info }

structure PresenceState where
  streams : GoMap String (GoMap String PresenceEntry) := ∅
  sessions : GoMap String PresenceSessionEntry := ∅

namespace PresenceState

/-- Take a session out of a presence record. A record without sessions goes, and so does a
stream without records. `none` if there is no such record. -/
def drop (p : PresenceState) (stream pid sid : String) : Option (PresenceState × Bool) := do
  let records ← p.streams.lookup stream
  let entry ← records.lookup pid
  let (entry, empty) := entry.remove sid
  let records := if empty then records.erase pid else records.insert pid entry
  return ({ p with streams := if GoMap.isEmpty records then p.streams.erase stream
                              else p.streams.insert stream records }, empty)

def presenceAdd (p : PresenceState) (stream sid pid : String) (info : Value) :
    PresenceState × Except String (Option PresenceEvent) :=
  let records := (p.streams.lookup stream).getD ∅
  let session := (p.sessions.lookup sid).getD {}
  -- both maps are created before the check
  let mismatch := match session.streams.lookup stream with
    | some oldPid => oldPid != pid
    | none => false
  if mismatch then
    ({ streams := p.streams.insert stream records, sessions := p.sessions.insert sid session },
      .error "presence ID mismatch")
  else
    let session := { session with streams := session.streams.insert stream pid }
    let entry := (records.lookup pid).getD { info := info, id := pid, sessions := [] }
    let event : Option PresenceEvent :=
      if (records.lookup pid).isNone then some { type := "join", id := pid, info := info } else none
    ({ streams := p.streams.insert stream (records.insert pid (entry.add sid info))
       sessions := p.sessions.insert sid session }, .ok event)

/-- The middle part of `PresenceRemove`: the presence id of the session, which leaves the
session's own table. A session without an entry has the empty presence id. -/
def forget (p : PresenceState) (stream sid : String) : Except String (PresenceState × String) :=
  match p.sessions.lookup sid with
  | none => .ok (p, "")
  | some session =>
    match session.streams.lookup stream with
    | none => .error "presence info not found"
    | some pid =>
      let left := session.streams.erase stream
      .ok ({ p with sessions := if GoMap.isEmpty left then p.sessions.erase sid
                                else p.sessions.insert sid { session with streams := left } }, pid)

def presenceRemove (p : PresenceState) (stream sid : String) :
    PresenceState × Except String (Option PresenceEvent) :=
  if (p.streams.lookup stream).isNone then (p, .error "stream not found")
  else match p.forget stream sid with
    | .error err => (p, .error err)
    | .ok (p, pid) =>
      match p.drop stream pid sid with
      | none => (p, .error "presence record not found")
      | some (p, empty) => (p, .ok (if empty then some { type := "leave", id := pid } else none))

def presenceInfo (p : PresenceState) (stream : String) (returnRecords : Bool) : PresenceInfo :=
  match p.streams.lookup stream with
  | none => newPresenceInfo
  | some records =>
    { newPresenceInfo with
      total := records.keys.length
      records := if returnRecords then
          some (records.toPairs.map fun r => { info := r.2.info, id := r.2.id })
        else none }

def finishPresence (p : PresenceState) (sid : String) (ttl : Int64) (now : Instant) :
    PresenceState :=
  match p.sessions.lookup sid with
  | none => p
  | some session =>
    { p with
      sessions := p.sessions.insert sid { session with deadline := int64 (unix now + ttl.toInt) } }

/-- `sp.deadline > 0 && sp.deadline < now`. -/
def expired (now : Instant) (session : PresenceSessionEntry) : Bool :=
  0 < session.deadline && session.deadline < unix now

/-- One turn of the inner loop of `expirePresence`; a leave is collected with its stream. -/
def expireStream (sid : String) (acc : PresenceState × List (String × PresenceEvent))
    (item : String × String) : PresenceState × List (String × PresenceEvent) :=
  match acc.1.drop item.1 item.2 sid with
  | none => acc
  | some (p, empty) =>
    (p, if empty then acc.2 ++ [(item.1, { type := "leave", id := item.2 })] else acc.2)

def expireSession (acc : PresenceState × List (String × PresenceEvent))
    (item : String × PresenceSessionEntry) : PresenceState × List (String × PresenceEvent) :=
  let (p, leaves) := item.2.streams.toPairs.foldl (expireStream item.1) acc
  ({ p with sessions := p.sessions.erase item.1 }, leaves)

/-- Returns the leave events to broadcast, each with its stream. -/
def expirePresence (p : PresenceState) (now : Instant) :
    PresenceState × List (String × PresenceEvent) :=
  (p.sessions.toPairs.filter fun item => expired now item.2).foldl expireSession (p, [])

end PresenceState

/-- The message that tells a stream about a presence event. -/
def presenceMessage (toJSON : PresenceEvent → String) (stream : String) (event : PresenceEvent) :
    StreamMessage :=
  { stream := stream, data := toJSON event,
    metadata := some { broadcastType := "presence", transient := true } }

end AnyCable.Source
