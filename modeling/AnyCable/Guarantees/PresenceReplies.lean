import AnyCable.Guarantees.PresenceEvents
import AnyCable.Lib.Float64
import AnyCable.Source.Node

/-!
# Answers to presence requests

Source: `node/node.go:695-748`, `broker/broker.go:29-47`, `broker/memory.go:560-591`. A presence
command of a subscribed session is answered with the number of present ids and a record for each, in
every state that the presence tables can be in. The options in the data of the command are never
read: `json.Unmarshal` stands in the branch of a failed `json.Marshal`. A request without records is
answered as asked only where nobody is present (`answered_as_asked_iff`).

The broker is the memory broker; the legacy broker has no presence and answers with an error.
-/

set_option autoImplicit false

namespace AnyCable.Guarantees.PresenceReplies
open AnyCable.Lib AnyCable.Source AnyCable.Guarantees.PresenceTables
open AnyCable.Guarantees.PresenceEvents

/-- The presence ids of a stream. -/
structure PresentIds (p : PresenceState) (stream : String) (ids : List String) : Prop where
  once : ids.Nodup
  present : ∀ pid, pid ∈ ids ↔ ∃ sid, Present p stream pid sid

/-- A session that may ask: its mutex is free, it is subscribed and the channel has a stream. -/
structure MayAsk (s : Session) (identifier stream : String) : Prop where
  free : s.smu = false
  subscribed : s.subscriptions.hasChannel identifier = true
  configured : s.env.getChannelStateField identifier presenceStreamState = stream
  named : stream ≠ ""

/-- The records of a reply, which are left out of the text when there are none. -/
def sentRecords (info : PresenceInfo) : List PresenceEvent := info.records.getD []

/-- The records are there as the options say. -/
def RecordsAsAsked (options : PresenceInfoOptions) (ids : List String) (info : PresenceInfo) :
    Prop :=
  if options.returnRecords then ((sentRecords info).map PresenceEvent.id).Perm ids
  else sentRecords info = []

/-! ### The state -/

section State

variable {x : PresenceEvents.State} {stream : String}

theorem here_iff (inv : Inv x) {pid : String} :
    Here x.tables (stream, pid) ↔ ∃ sid, Present x.tables stream pid sid := by
  constructor
  · intro here
    obtain ⟨entry, found⟩ := Option.isSome_iff_exists.mp here
    obtain ⟨sid, member⟩ := List.exists_mem_of_ne_nil _
      (inv.consistent.entries stream pid entry found)
    exact ⟨sid, entry, found, member⟩
  · rintro ⟨sid, entry, found, -⟩
    rw [Here, found]
    rfl

theorem presentIds_spec (inv : Inv x) :
    PresentIds x.tables stream (presentIds x.events stream) where
  once := nodup_presentIds x.events stream
  present _ := (mem_presentIds inv).trans (here_iff inv)

theorem PresentIds.perm {p : PresenceState} {ids ids' : List String}
    (present : PresentIds p stream ids) (present' : PresentIds p stream ids') : ids.Perm ids' :=
  (List.perm_ext_iff_of_nodup present.once present'.once).mpr fun pid =>
    (present.present pid).trans (present'.present pid).symm

variable {ids : List String}

theorem total_eq (inv : Inv x) (present : PresentIds x.tables stream ids) (returnRecords : Bool) :
    (x.tables.presenceInfo stream returnRecords).total = ids.length := by
  rw [(truthful_of_inv inv).total]
  exact ((presentIds_spec inv).perm present).length_eq

theorem records_perm (inv : Inv x) (present : PresentIds x.tables stream ids) :
    ((sentRecords (x.tables.presenceInfo stream true)).map PresenceEvent.id).Perm ids := by
  have records := ((truthful_of_inv inv).records stream).map Prod.fst
  rw [List.map_map, List.map_map] at records
  refine List.Perm.trans ?_ ((presentIds_spec inv).perm present)
  simpa [Function.comp_def, sentRecords] using records

/-- The records of all who are present are what was asked for, or nobody is. -/
theorem recordsAsAsked_iff (inv : Inv x) (present : PresentIds x.tables stream ids)
    (options : PresenceInfoOptions) :
    RecordsAsAsked options ids (x.tables.presenceInfo stream true) ↔
      options.returnRecords = true ∨ ids = [] := by
  have perm := records_perm inv present
  unfold RecordsAsAsked
  cases options.returnRecords with
  | true => simpa using perm
  | false =>
    rw [if_neg (by decide)]
    constructor
    · intro nothing
      rw [nothing, List.map_nil] at perm
      exact .inr perm.nil_eq.symm
    · intro asked
      rw [asked.resolve_left (by decide)] at perm
      exact List.map_eq_nil_iff.mp perm.eq_nil

end State

/-! ### The reply -/

/-- What `Presence` sends. -/
theorem presence_sends {n : Node} {s : Session} {msg : Message} {m : Memory} {stream : String}
    (memory : n.broker.memory = some m) (asks : MayAsk s msg.identifier stream) :
    n.presence s msg = some (s.send (.reply
      { type := "presence", identifier := msg.identifier,
        message := .value (m.presence.presenceInfo stream
          (PresenceInfoOptions.withOptions (presenceOptions msg.data) .new).returnRecords).json }),
      .ok ()) := by
  have relocked : ({ s with smu := true } : Session).unlock = s := by
    rw [Session.unlock, ← asks.free]
  have locked : s.lock = some { s with smu := true } := by
    rw [Session.lock, asks.free]
    rfl
  have info (records : Bool) : n.broker.presenceInfo stream records =
      .ok (m.presence.presenceInfo stream records) := by
    rw [Broker.presenceInfo, memory]
  rw [Node.presence, locked, Option.bind_eq_bind, Option.bind_some, relocked]
  simp only [asks.subscribed, asks.configured, asks.named, info, Bool.true_eq_false, if_false]
  rfl

/-- The reply has the number of present ids, and the records as the options say. -/
structure Answered (options : PresenceInfoOptions) (ids : List String) (info : PresenceInfo) :
    Prop where
  total : info.total = ids.length
  records : RecordsAsAsked options ids info

/-- In every state that calls of the presence tables lead to, and for every data: a presence command
of a subscribed session is replied to, with the number of those present in any case, and as its
options ask exactly if these are for the records or nobody is present. -/
theorem answered_as_asked_iff (floats : Floats) (ttl : Int64) (schedule : List Act)
    (x : PresenceEvents.State) (ran : Run.exec (PresenceEvents.step ttl) {} schedule = some x)
    (n : Node) (s : Session) (msg : Message) (m : Memory) (stream : String) (ids : List String)
    (memory : n.broker.memory = some m) (tables : m.presence = x.tables)
    (asks : MayAsk s msg.identifier stream) (present : PresentIds x.tables stream ids)
    (j : Json) (data : msg.data = Value.ofJson (j.reencode floats)) :
    ∃ info, n.presence s msg = some (s.send (.reply
        { type := "presence", identifier := msg.identifier, message := .value info.json }),
        .ok ()) ∧
      info.total = ids.length ∧
      (Answered (optionsFrom msg.data) ids info ↔
        (PresenceInfoOptions.new.fill (j.reencode floats)).returnRecords = true ∨ ids = []) := by
  have inv : Inv x := Run.invariant (fun _ _ _ inv stepped => step_inv inv stepped) inv_start ran
  have sent := presence_sends memory asks
  rw [presenceOptions_eq, tables] at sent
  have total := total_eq inv present true
  refine ⟨_, sent, total, ?_⟩
  rw [← recordsAsAsked_iff inv present, ← optionsFrom_ofJson, ← data]
  exact ⟨Answered.records, fun records => ⟨total, records⟩⟩

/-! ### One person is present -/

/-- Somebody comes into a room. -/
def entry : List Act := [.presenceAdd "room" "a" "1" (.text "Ann")]

def occupied : PresenceEvents.State := (Run.exec (PresenceEvents.step 15) {} entry).getD {}

theorem ran_occupied : Run.exec (PresenceEvents.step 15) {} entry = some occupied := rfl

theorem presentIds_occupied : PresentIds occupied.tables "room" ["1"] :=
  presentIds_spec (x := occupied)
    (Run.invariant (fun _ _ _ inv stepped => step_inv inv stepped) inv_start ran_occupied)

def host : Node where
  codec := .blank
  hub := { gatesNum := 1 }
  broker := { memory := some { history := .new {} "e", presence := occupied.tables } }

def guest : Session where
  ref := 0
  uid := "a"
  env := { channelStates := AList.insert "chat" (AList.insert presenceStreamState "room" ∅) ∅ }
  subscriptions := ({} : SubscriptionState).addChannel "chat"

theorem guest_asks : MayAsk guest "chat" "room" := ⟨rfl, rfl, rfl, by decide⟩

/-- Both names are read as the field; sorted, the first of them comes last and counts. -/
def wanted : Json := .obj [("return_records", .bool true), ("Return_Records", .bool false)]

def ask : Message := { identifier := "chat", data := .ofJson (wanted.reencode Float64.floats) }

theorem guest_answered :
    ∃ info, host.presence guest ask = some (guest.send (.reply
        { type := "presence", identifier := "chat", message := .value info.json }), .ok ()) ∧
      info.total = 1 ∧ Answered (optionsFrom ask.data) ["1"] info := by
  obtain ⟨info, sent, total, answered⟩ := answered_as_asked_iff Float64.floats 15 entry occupied
    ran_occupied host guest ask _ "room" ["1"] rfl rfl guest_asks presentIds_occupied wanted rfl
  exact ⟨info, sent, total, answered.mpr (.inl rfl)⟩

def unwanted : Json := .obj [("return_records", .bool false)]

/-- A request that does not want the records gets them. -/
theorem records_not_wanted :
    let data := Value.ofJson (unwanted.reencode Float64.floats)
    let info : PresenceInfo := ⟨"info", 1, some [{ info := .text "Ann", id := "1" }]⟩
    optionsFrom data = ⟨false⟩ ∧
      PresentIds occupied.tables "room" ["1"] ∧ MayAsk guest "chat" "room" ∧
      host.presence guest { identifier := "chat", data } =
        some (guest.send (.reply
          { type := "presence", identifier := "chat", message := .value info.json }), .ok ()) ∧
      info.json.text = "\x7b\"type\":\"info\",\"total\":1," ++
        "\"records\":[\x7b\"info\":\"Ann\",\"id\":\"1\"\x7d]\x7d" ∧
      ¬ Answered ⟨false⟩ ["1"] info := by
  refine ⟨optionsFrom_ofJson _ unwanted, presentIds_occupied, guest_asks, rfl, ?_, fun answered => ?_⟩
  · decide +kernel
  · exact List.cons_ne_nil _ _ answered.records

end AnyCable.Guarantees.PresenceReplies
