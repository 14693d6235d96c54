import AnyCable.Lib.JsonParse
import AnyCable.Source.Session
import Mathlib.Data.String.Basic

/-!
# Requests to the controller

Source: `protocol/protocol.go:12-44,107-146`. A request carries the states that earlier answers of
the controller have left in the environment: the connection's, and for a command the one of its
channel. A disconnect request carries those of all channels, each as a JSON text.

The URL and the headers of a session never change and are a parameter. The environment's maps exist,
as `NewSessionEnv` makes them. Requests for `Connect` have no more than `buildEnv`.
-/

set_option autoImplicit false

namespace AnyCable.Source.RpcRequests
open AnyCable.Lib

/-- Where a session comes from. -/
structure Origin where
  url : String
  headers : GoMap String String

/-- The message `Env`; a map that was not set is `none`. -/
structure Env where
  url : String
  headers : GoMap String String
  cstate : GoMap String String
  istate : Option (GoMap String String) := none

structure CommandMessage where
  command : String
  env : Env
  identifier : String
  connectionIdentifiers : String
  data : String := ""

structure DisconnectRequest where
  identifiers : String
  subscriptions : List String
  env : Env

def buildEnv (origin : Origin) (env : SessionEnv) : Env where
  url := origin.url
  headers := origin.headers
  cstate := env.connectionState

def buildChannelEnv (origin : Origin) (id : String) (env : SessionEnv) : Env :=
  match env.channelStates.lookup id with
  | some state => { buildEnv origin env with istate := some state }
  | none => buildEnv origin env

/-- `json.Marshal` of a state: the keys are sorted. -/
def stateJson (state : GoMap String String) : Json :=
  .obj ((state.toPairs.mergeSort fun p q => p.1 ≤ q.1).map fun p => (p.1, .str p.2))

def buildDisconnectEnv (origin : Origin) (env : SessionEnv) : Env :=
  { buildEnv origin env with
    istate := some (env.channelStates.mapValues fun state => (stateJson state).text) }

def newCommandMessage (origin : Origin) (env : SessionEnv)
    (command channel identifiers data : String) : CommandMessage where
  command := command
  env := buildChannelEnv origin channel env
  identifier := channel
  connectionIdentifiers := identifiers
  data := data

def newDisconnectMessage (origin : Origin) (env : SessionEnv) (identifiers : String)
    (subscriptions : List String) : DisconnectRequest where
  identifiers := identifiers
  subscriptions := subscriptions
  env := buildDisconnectEnv origin env

/-- The request that `Node.Subscribe` makes. -/
def subscribeRequest (origin : Origin) (s : Session) (id : String) : CommandMessage :=
  newCommandMessage origin s.env "subscribe" id s.env.identifiers ""

/-- The request that `Node.DisconnectNow` makes. -/
def disconnectRequest (origin : Origin) (s : Session) : DisconnectRequest :=
  newDisconnectMessage origin s.env s.env.identifiers s.subscriptions.channelIds

theorem validFields_strings (pairs : List (String × String)) :
    Json.validFields (pairs.map fun p => (p.1, .str p.2)) = true := by
  induction pairs with
  | nil => rfl
  | cons p pairs ih =>
    rw [List.map_cons, Json.validFields, ih]
    rfl

/-- The text of a state is read back as an object with its entries, each once. -/
theorem parse_stateJson (state : GoMap String String) :
    ∃ fields, Json.parse (stateJson state).text = some (.obj fields) ∧
      (fields.map Prod.fst).Nodup ∧
      ∀ k value, (k, value) ∈ fields ↔ ∃ v, value = .str v ∧ state.lookup k = some v := by
  refine ⟨_, Json.parse_text (validFields_strings _), ?_, ?_⟩
  · have perm := state.toPairs.mergeSort_perm fun p q => decide (p.1 ≤ q.1)
    rw [List.map_map]
    refine ((perm.map Prod.fst).nodup_iff).mpr ?_
    exact (List.pairwise_map.mpr state.toPairs_distinct)
  · intro k value
    simp only [List.mem_map, List.mem_mergeSort, Prod.mk.injEq, Prod.exists]
    constructor
    · rintro ⟨key, v, member, rfl, rfl⟩
      exact ⟨v, rfl, GoMap.mem_toPairs_iff.mp member⟩
    · rintro ⟨v, rfl, found⟩
      exact ⟨k, v, GoMap.mem_toPairs_iff.mpr found, rfl, rfl⟩

theorem subscribeRequest_istate (origin : Origin) (s : Session) (id : String) :
    (subscribeRequest origin s id).env.istate = s.env.channelStates.lookup id := by
  simp only [subscribeRequest, newCommandMessage, buildChannelEnv]
  cases s.env.channelStates.lookup id <;> rfl

end AnyCable.Source.RpcRequests
