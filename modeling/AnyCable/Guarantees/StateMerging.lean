import AnyCable.Lib.Overlay
import AnyCable.Source.EnvMerge

/-!
# Merged states do not depend on the order of a loop

`MergeConnectionState`, `MergeChannelState` and `MergeEnv` write into the maps of an environment
while they range over the maps of an update (`common/common.go:115-143`, `node/session.go:237-253`).
Whatever the order, what comes out is the environment with the update laid over it: a value that is
not empty takes the place of the old one, an empty value removes its key, and all other keys keep
theirs. So a second merge of an update changes nothing, updates of different keys may be merged in
either order, and a channel's update concerns that channel alone (`merges_overlay`).

Environments are compared by what their maps hold (`EnvView`).
-/

set_option autoImplicit false

namespace AnyCable.Guarantees.StateMerging
open AnyCable.Lib AnyCable.Lib.Overlay AnyCable.Source

/-- The entries of the maps of an environment; also those of an update. -/
@[ext] structure EnvView where
  connection : String → Option String
  channels : String → Option (String → Option String)

def view (env : SessionEnv) : EnvView where
  connection := fun key => env.connectionState.lookup key
  channels := fun id => (env.channelStates.lookup id).map fun state key => state.lookup key

/-- A value of an update that removes its key. -/
abbrev Gone (value : String) : Prop := value = ""

/-- The update laid over the environment. A channel that is only in the update starts empty. -/
def EnvView.merge (e update : EnvView) : EnvView where
  connection := fun key => overlay Gone (e.connection key) (update.connection key)
  channels := fun id =>
    match update.channels id with
    | none => e.channels id
    | some state => some fun key =>
        overlay Gone (((e.channels id).getD fun _ => none) key) (state key)

/-- No key is written by both. -/
def Apart (u v : EnvView) : Prop :=
  (∀ key, u.connection key = none ∨ v.connection key = none) ∧
  ∀ id s, u.channels id = some s → ∀ t, v.channels id = some t → ∀ key, s key = none ∨ t key = none

/-- A call of one of the three functions. -/
inductive Merge where
  | connection (other : GoMap String String)
  | channel (id : String) (other : GoMap String String)
  | env (update : EnvUpdate)

/-- What the call writes. -/
def Merge.update : Merge → EnvView
  | .connection other => ⟨fun key => other.lookup key, fun _ => none⟩
  | .channel id other =>
    ⟨fun _ => none, fun id' => if id' = id then some fun key => other.lookup key else none⟩
  | .env update =>
    ⟨fun key => update.connectionState.bind fun m => m.lookup key,
      fun id => update.channelStates.bind fun m =>
        (m.lookup id).map fun state key => state.lookup key⟩

/-- The call may end with this environment, for some order of its loops. -/
def Merge.Results (env : SessionEnv) : Merge → SessionEnv → Prop
  | .connection other, after =>
    ∃ walk, walk.Perm other.toPairs ∧ after = env.mergeConnectionStateIn walk
  | .channel id other, after =>
    ∃ walk, walk.Perm other.toPairs ∧ after = env.mergeChannelStateIn id walk
  | .env update, after => ∃ walk : EnvWalk, walk.Of update ∧ after = env.mergeEnvIn walk

/-! ### The laws of the overlay -/

section Laws

variable (e : EnvView) {u v : EnvView}

theorem EnvView.merge_merge : (e.merge u).merge u = e.merge u := by
  apply EnvView.ext
  · funext key
    exact overlay_overlay
  · funext id
    simp only [EnvView.merge]
    cases u.channels id with
    | none => rfl
    | some state => simp only [Option.getD_some, overlay_overlay]

theorem EnvView.merge_comm (apart : Apart u v) : (e.merge u).merge v = (e.merge v).merge u := by
  apply EnvView.ext
  · funext key
    exact overlay_comm (apart.1 key)
  · funext id
    simp only [EnvView.merge]
    cases first : u.channels id with
    | none => cases v.channels id <;> rfl
    | some s =>
      cases second : v.channels id with
      | none => rfl
      | some t =>
        simp only [Option.getD_some]
        congr 1
        funext key
        exact overlay_comm (apart.2 id s first t second key)

end Laws

/-! ### What the loops do -/

theorem lookup_mergeEntry (state : GoMap String String) (entry : String × String) :
    (fun key => (mergeEntry state entry).lookup key) =
      put Gone (fun key => state.lookup key) entry := by
  funext key
  unfold mergeEntry put overlay
  by_cases empty : entry.2 = ""
  · simp only [empty, if_true, GoMap.lookup_erase_apply]
  · simp only [empty, if_false, GoMap.lookup_insert_apply]

theorem lookup_foldl_mergeEntry {other : GoMap String String} {walk : List (String × String)}
    (order : walk.Perm other.toPairs) (state : GoMap String String) :
    (fun key => (walk.foldl mergeEntry state).lookup key) =
      fun key => overlay Gone (state.lookup key) (other.lookup key) := by
  have loop : (fun key => (walk.foldl mergeEntry state).lookup key) =
      walk.foldl (put Gone) (fun key => state.lookup key) := by
    clear order
    induction walk generalizing state with
    | nil => rfl
    | cons entry walk ih =>
      rw [List.foldl_cons, ih, lookup_mergeEntry]
      rfl
  rw [loop, foldl_put order]

theorem mergeConnectionStateIn_eq (env : SessionEnv) (walk : List (String × String)) :
    env.mergeConnectionStateIn walk =
      { env with connectionState := walk.foldl mergeEntry env.connectionState } := by
  induction walk generalizing env with
  | nil => rfl
  | cons entry walk ih => exact ih _

/-- What `MergeChannelState` makes of an environment. -/
structure ChannelMerged (env : SessionEnv) (id : String) (walk : List (String × String))
    (after : SessionEnv) : Prop where
  identifiers : after.identifiers = env.identifiers
  connection : after.connectionState = env.connectionState
  channels : ∀ id', after.channelStates.lookup id' =
    if id' = id then some (walk.foldl mergeEntry ((env.channelStates.lookup id).getD ∅))
    else env.channelStates.lookup id'

/-- The loop, once the channel has a state. -/
theorem channelLoop (env : SessionEnv) {id : String} {state : GoMap String String}
    (found : env.channelStates.lookup id = some state) (walk : List (String × String)) :
    ChannelMerged env id walk (walk.foldl (SessionEnv.mergeChannelEntry id) env) := by
  induction walk generalizing env state with
  | nil =>
    refine ⟨rfl, rfl, fun id' => ?_⟩
    split
    next same =>
      rw [same, found]
      exact found
    next => rfl
  | cons entry walk ih =>
    have merged := ih (env.mergeChannelEntry id entry) (AList.lookup_insert _)
    refine ⟨merged.identifiers, merged.connection, fun id' => ?_⟩
    rw [List.foldl_cons, merged.channels id']
    unfold SessionEnv.mergeChannelEntry
    split
    next => rw [AList.lookup_insert, Option.getD_some, List.foldl_cons]
    next other => exact AList.lookup_insert_ne other

theorem channelMerged (env : SessionEnv) (id : String) (walk : List (String × String)) :
    ChannelMerged env id walk (env.mergeChannelStateIn id walk) := by
  unfold SessionEnv.mergeChannelStateIn
  by_cases present : id ∈ env.channelStates
  · obtain ⟨state, found⟩ := GoMap.mem_iff_lookup.mp present
    rw [if_pos present]
    exact channelLoop env found walk
  · rw [if_neg present]
    have absent : env.channelStates.lookup id = none := AList.lookup_eq_none.mpr present
    have merged := channelLoop { env with channelStates := env.channelStates.insert id ∅ }
      (AList.lookup_insert _) walk
    refine ⟨merged.identifiers, merged.connection, fun id' => ?_⟩
    rw [merged.channels id']
    split
    next => rw [AList.lookup_insert, absent]; rfl
    next other => exact AList.lookup_insert_ne other

/-! ### What comes out of a call -/

theorem view_mergeConnectionStateIn (env : SessionEnv) {other : GoMap String String}
    {walk : List (String × String)} (order : walk.Perm other.toPairs) :
    view (env.mergeConnectionStateIn walk) = (view env).merge (Merge.connection other).update := by
  rw [mergeConnectionStateIn_eq]
  apply EnvView.ext
  · exact lookup_foldl_mergeEntry order env.connectionState
  · rfl

theorem view_mergeChannelStateIn (env : SessionEnv) (id : String) {other : GoMap String String}
    {walk : List (String × String)} (order : walk.Perm other.toPairs) :
    view (env.mergeChannelStateIn id walk) = (view env).merge (Merge.channel id other).update := by
  have merged := channelMerged env id walk
  apply EnvView.ext
  · funext key
    simp only [view, merged.connection]
    rfl
  · funext id'
    simp only [view, merged.channels, EnvView.merge, Merge.update]
    by_cases same : id' = id
    · subst same
      simp only [if_true, Option.map_some, lookup_foldl_mergeEntry order]
      cases env.channelStates.lookup id' <;> rfl
    · simp only [same, if_false]

/-- Channels laid over an environment one after the other, in any order. -/
theorem foldl_channels {m : GoMap String (GoMap String String)}
    {order : List (String × GoMap String String)} (perm : order.Perm m.toPairs) (e : EnvView) :
    order.foldl (fun e p => e.merge (Merge.channel p.1 p.2).update) e =
      e.merge (Merge.env { channelStates := some m }).update := by
  apply EnvView.ext
  · clear perm
    induction order generalizing e with
    | nil => rfl
    | cons p order ih => exact ih (e.merge (Merge.channel p.1 p.2).update)
  · funext id
    have changes : ∀ (e : EnvView) (p : String × GoMap String String) (id : String),
        (e.merge (Merge.channel p.1 p.2).update).channels id =
          if id = p.1 then some fun key =>
            overlay Gone (((e.channels id).getD fun _ => none) key) (p.2.lookup key)
          else e.channels id := by
      intro e p id
      simp only [EnvView.merge, Merge.update]
      by_cases same : id = p.1
      · simp only [same, if_true]
      · simp only [same, if_false]
    have loop := GoMap.foldl_walk (fun e id => EnvView.channels e id)
      (fun state old => some fun key =>
        overlay Gone ((old.getD fun _ => none) key) (state.lookup key)) changes perm e id
    refine loop.trans ?_
    simp only [EnvView.merge, Merge.update, Option.bind_some]
    cases m.lookup id with
    | none => rfl
    | some state => rfl

/-- The channels of an update, one after the other, in the order of the loop. -/
theorem view_mergeEach {m : GoMap String (GoMap String String)}
    {walks : List (String × List (String × String))}
    (order : ∃ order, order.Perm m.toPairs ∧
      List.Forall₂ (fun w p => w.1 = p.1 ∧ w.2.Perm p.2.toPairs) walks order)
    (env : SessionEnv) :
    view (walks.foldl (fun env state => env.mergeChannelStateIn state.1 state.2) env) =
      (view env).merge (Merge.env { channelStates := some m }).update := by
  obtain ⟨order, perm, same⟩ := order
  -- every turn depends on the state of the channel, and not on how it is walked
  have turns : view (walks.foldl (fun env state => env.mergeChannelStateIn state.1 state.2) env) =
      order.foldl (fun e p => e.merge (Merge.channel p.1 p.2).update) (view env) := by
    clear perm
    induction same generalizing env with
    | nil => rfl
    | cons head _ ih =>
      rw [List.foldl_cons, ih, List.foldl_cons, head.1, view_mergeChannelStateIn env _ head.2]
  rw [turns, foldl_channels perm]

theorem view_mergeEnvIn (env : SessionEnv) {update : EnvUpdate} {walk : EnvWalk}
    (order : walk.Of update) :
    view (env.mergeEnvIn walk) = (view env).merge (Merge.env update).update := by
  obtain ⟨connectionWalk, channelWalks⟩ := walk
  obtain ⟨connectionState, channelStates⟩ := update
  obtain ⟨connection, channels⟩ := order
  cases connection with
  | none =>
    cases channels with
    | none => rfl
    | some order => exact view_mergeEach order env
  | @some pairs m perm =>
    have connected := view_mergeConnectionStateIn env perm
    cases channels with
    | none => exact connected
    | some order =>
      have both := view_mergeEach order (env.mergeConnectionStateIn pairs)
      rw [connected] at both
      exact both

theorem identifiers_mergeEnvIn (env : SessionEnv) (walk : EnvWalk) :
    (env.mergeEnvIn walk).identifiers = env.identifiers := by
  have channels : ∀ (states : List (String × List (String × String))) (env : SessionEnv),
      (states.foldl (fun env state => env.mergeChannelStateIn state.1 state.2) env).identifiers =
        env.identifiers := by
    intro states
    induction states with
    | nil => exact fun env => rfl
    | cons state states ih =>
      intro env
      rw [List.foldl_cons, ih]
      exact (channelMerged env state.1 state.2).identifiers
  obtain ⟨connectionWalk, channelWalks⟩ := walk
  cases connectionWalk with
  | none =>
    cases channelWalks with
    | none => rfl
    | some states => exact channels states env
  | some pairs =>
    have connected : (env.mergeConnectionStateIn pairs).identifiers = env.identifiers := by
      rw [mergeConnectionStateIn_eq]
    cases channelWalks with
    | none => exact connected
    | some states => exact (channels states (env.mergeConnectionStateIn pairs)).trans connected

section Results

variable {op : Merge} {env after : SessionEnv}

theorem results_exist (op : Merge) (env : SessionEnv) : ∃ after, op.Results env after := by
  cases op with
  | connection other => exact ⟨_, other.toPairs, List.Perm.refl _, rfl⟩
  | channel id other => exact ⟨_, other.toPairs, List.Perm.refl _, rfl⟩
  | env update => exact ⟨_, update.walk, update.walk_of, rfl⟩

theorem Results.view_eq (results : op.Results env after) :
    view after = (view env).merge op.update := by
  cases op with
  | connection other =>
    obtain ⟨walk, order, rfl⟩ := results
    exact view_mergeConnectionStateIn env order
  | channel id other =>
    obtain ⟨walk, order, rfl⟩ := results
    exact view_mergeChannelStateIn env id order
  | env update =>
    obtain ⟨walk, order, rfl⟩ := results
    exact view_mergeEnvIn env order

theorem Results.identifiers_eq (results : op.Results env after) :
    after.identifiers = env.identifiers := by
  cases op with
  | connection other =>
    obtain ⟨walk, -, rfl⟩ := results
    rw [mergeConnectionStateIn_eq]
  | channel id other =>
    obtain ⟨walk, -, rfl⟩ := results
    exact (channelMerged env id walk).identifiers
  | env update =>
    obtain ⟨walk, -, rfl⟩ := results
    exact identifiers_mergeEnvIn env walk

/-- The merges of the other modules are among these results. -/
theorem results_mergeConnectionState (env : SessionEnv) (other : GoMap String String) :
    (Merge.connection other).Results env (env.mergeConnectionState other) :=
  ⟨other.toPairs, List.Perm.refl _, (mergeConnectionStateIn_eq env other.toPairs).symm⟩

theorem view_mergeChannelState (env : SessionEnv) (id : String) (other : GoMap String String) :
    view (env.mergeChannelState id other) =
      (view env).merge (Merge.channel id other).update := by
  have merged := channelMerged env id other.toPairs
  rw [← view_mergeChannelStateIn env id (List.Perm.refl _)]
  apply EnvView.ext
  · simp only [view, merged.connection]
    rfl
  · funext id'
    simp only [view, merged.channels, SessionEnv.mergeChannelState, GoMap.lookup_insert_apply,
      mergeState_eq]

end Results

/-- For all environments and updates, and for every order of the loops. -/
theorem merges_overlay :
    -- whatever the order of the loops, the update is laid over the environment
    (∀ (op : Merge) (env : SessionEnv), ∃ after, op.Results env after) ∧
    (∀ (op : Merge) (env after : SessionEnv), op.Results env after →
      view after = (view env).merge op.update ∧ after.identifiers = env.identifiers) ∧
    (∀ (op : Merge) (env a b : SessionEnv), op.Results env a → op.Results env b →
      view a = view b) ∧
    -- twice is once
    (∀ (op : Merge) (env a b : SessionEnv), op.Results env a → op.Results a b →
      view b = view a) ∧
    -- calls that write to different keys commute
    (∀ (op op' : Merge) (env a b c d : SessionEnv), Apart op.update op'.update →
      op.Results env a → op'.Results a b → op'.Results env c → op.Results c d →
      view b = view d) ∧
    -- the other channels and the connection state
    (∀ (id : String) (other : GoMap String String) (env after : SessionEnv),
      (Merge.channel id other).Results env after →
      (view after).connection = (view env).connection ∧
        ∀ id', id' ≠ id → (view after).channels id' = (view env).channels id') ∧
    -- `MergeEnv` of a session gives up its lock and changes the environment alone
    (∀ (s : Session) (update : EnvUpdate) (walk : EnvWalk), s.smu = false → walk.Of update →
      ∃ after, s.mergeEnv walk = some { s with env := after } ∧
        (Merge.env update).Results s.env after) := by
  refine ⟨results_exist, ?_, ?_, ?_, ?_, ?_, ?_⟩
  · intro op env after results
    exact ⟨Results.view_eq results, Results.identifiers_eq results⟩
  · intro op env a b first second
    rw [Results.view_eq first, Results.view_eq second]
  · intro op env a b first second
    rw [Results.view_eq second, Results.view_eq first, EnvView.merge_merge]
  · intro op op' env a b c d apart first second third fourth
    rw [Results.view_eq second, Results.view_eq first, Results.view_eq fourth,
      Results.view_eq third, EnvView.merge_comm _ apart]
  · intro id other env after results
    rw [Results.view_eq results]
    refine ⟨rfl, fun id' different => ?_⟩
    simp only [EnvView.merge, Merge.update, different, if_false]
  · intro s update walk free order
    refine ⟨s.env.mergeEnvIn walk, ?_, walk, order, rfl⟩
    simp [Session.mergeEnv, Session.lock, Session.unlock, free]

/-- Two updates from two goroutines, as in `TestMergeEnv`. -/
theorem merges_overlay_two_updates :
    let env : SessionEnv :=
      { connectionState := [⟨"_s_", "id=42"⟩].toAList
        channelStates := [⟨"test_channel", [⟨"foo", "bar"⟩, ⟨"a", "z"⟩].toAList⟩].toAList }
    let istate2 : GoMap String (GoMap String String) :=
      [⟨"test_channel", [⟨"foo", "baz"⟩].toAList⟩,
        ⟨"another_channel", [⟨"wasting", "time"⟩].toAList⟩].toAList
    let cstate2 : GoMap String String := [⟨"red", "end of silence"⟩].toAList
    let first := Merge.env { channelStates := some istate2 }
    let second := Merge.env { connectionState := some cstate2 }
    ∃ a b c d, first.Results env a ∧ second.Results a b ∧ second.Results env c ∧
      first.Results c d ∧ view b = view d ∧
      (view b).connection "_s_" = some "id=42" ∧
      (view b).connection "red" = some "end of silence" ∧
      ((view b).channels "test_channel").bind (fun state => state "foo") = some "baz" ∧
      ((view b).channels "test_channel").bind (fun state => state "a") = some "z" ∧
      ((view b).channels "another_channel").bind (fun state => state "wasting") = some "time" := by
  intro env istate2 cstate2 first second
  obtain ⟨exist, overlays, -, -, commute, -⟩ := merges_overlay
  obtain ⟨a, env_a⟩ := exist first env
  obtain ⟨b, a_b⟩ := exist second a
  obtain ⟨c, env_c⟩ := exist second env
  obtain ⟨d, c_d⟩ := exist first c
  have apart : Apart first.update second.update := by
    refine ⟨fun key => Or.inl rfl, ?_⟩
    intro id s _ t written
    cases written
  refine ⟨a, b, c, d, env_a, a_b, env_c, c_d, commute _ _ _ _ _ _ _ apart env_a a_b env_c c_d, ?_⟩
  rw [(overlays _ _ _ a_b).1, (overlays _ _ _ env_a).1]
  decide +kernel

end AnyCable.Guarantees.StateMerging
