import AnyCable.Source.Session

/-!
# Merging states into an environment

Source: `common/common.go:115-143`, `node/session.go:237-253`. The loops range over Go maps, whose
order is not determined. Here every loop is given the order in which it walks: the pairs of the map
as a list. `mergeConnectionState` and `mergeChannelState` of `SessionEnv` are the case of one such
order.

The maps of an environment exist, as `NewSessionEnv` makes them. The maps of an update may be nil,
which is like empty in a loop, and so may the pointers to them, which `MergeEnv` asks for.
-/

set_option autoImplicit false

namespace AnyCable.Source
open AnyCable.Lib

/-- The body of both loops: an empty value removes its key. -/
def mergeEntry (state : GoMap String String) (entry : String × String) : GoMap String String :=
  if entry.2 = "" then state.erase entry.1 else state.insert entry.1 entry.2

theorem mergeState_eq (state other : GoMap String String) :
    mergeState state other = other.toPairs.foldl mergeEntry state :=
  rfl

namespace SessionEnv

/-- `MergeConnectionState`. -/
def mergeConnectionStateIn (env : SessionEnv) (walk : List (String × String)) : SessionEnv :=
  walk.foldl
    (fun env entry => { env with connectionState := mergeEntry env.connectionState entry }) env

/-- The loop of `MergeChannelState` looks the channel up for every entry. -/
def mergeChannelEntry (id : String) (env : SessionEnv) (entry : String × String) : SessionEnv :=
  let state := mergeEntry ((env.channelStates.lookup id).getD ∅) entry
  { env with channelStates := env.channelStates.insert id state }

/-- `MergeChannelState`. -/
def mergeChannelStateIn (env : SessionEnv) (id : String) (walk : List (String × String)) :
    SessionEnv :=
  let created := if id ∈ env.channelStates then env
    else { env with channelStates := env.channelStates.insert id ∅ }
  walk.foldl (mergeChannelEntry id) created

end SessionEnv

/-- The environment that is given to `MergeEnv`. -/
structure EnvUpdate where
  connectionState : Option (GoMap String String) := none
  channelStates : Option (GoMap String (GoMap String String)) := none

/-- The order in which `MergeEnv` walks through its maps. -/
structure EnvWalk where
  connectionState : Option (List (String × String)) := none
  channelStates : Option (List (String × List (String × String))) := none

/-- Some order of the maps of the update. -/
structure EnvWalk.Of (walk : EnvWalk) (update : EnvUpdate) : Prop where
  connection : Option.Rel (fun pairs (m : GoMap String String) => pairs.Perm m.toPairs)
    walk.connectionState update.connectionState
  channels : Option.Rel (fun walks (m : GoMap String (GoMap String String)) =>
      ∃ order, order.Perm m.toPairs ∧
        List.Forall₂ (fun w p => w.1 = p.1 ∧ w.2.Perm p.2.toPairs) walks order)
    walk.channelStates update.channelStates

/-- `MergeEnv` under the lock. -/
def SessionEnv.mergeEnvIn (env : SessionEnv) (walk : EnvWalk) : SessionEnv :=
  let env := match walk.connectionState with
    | none => env
    | some pairs => env.mergeConnectionStateIn pairs
  match walk.channelStates with
  | none => env
  | some states => states.foldl (fun env state => env.mergeChannelStateIn state.1 state.2) env

def Session.mergeEnv (s : Session) (walk : EnvWalk) : Option Session := do
  let s ← s.lock
  return { s with env := s.env.mergeEnvIn walk }.unlock

/-- There is an order for every update. -/
def EnvUpdate.walk (update : EnvUpdate) : EnvWalk where
  connectionState := update.connectionState.map GoMap.toPairs
  channelStates := update.channelStates.map fun states =>
    states.toPairs.map fun p => (p.1, p.2.toPairs)

theorem EnvUpdate.walk_of (update : EnvUpdate) : update.walk.Of update where
  connection := by
    cases found : update.connectionState with
    | none => simp [walk, found]
    | some m => simp [walk, found]
  channels := by
    cases found : update.channelStates with
    | none => simp [walk, found]
    | some m =>
      simp only [walk, found, Option.map_some, Option.rel_some_some]
      refine ⟨m.toPairs, List.Perm.refl _, ?_⟩
      rw [List.forall₂_map_left_iff]
      exact List.forall₂_same.mpr fun p _ => ⟨rfl, List.Perm.refl _⟩

end AnyCable.Source
