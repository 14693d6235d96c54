import AnyCable.Source.Hub

/-!
# What a hub call of one session leaves alone

Every call on behalf of a session touches the gate entries of that session and its own list of
pairs (`hub/hub.go:190-303`). `Edits` says so for all of them at once; what each call does to
the session's own entries is stated next to it.
-/

set_option autoImplicit false

namespace AnyCable.Source.Hub
open AnyCable.Lib

/-- No gate keeps an empty map. -/
def NoEmptyMaps (h : Hub) : Prop := ∀ k, (h.gates k).NoEmptyMap

/-- `h'` differs from `h` in the entries of the session only. -/
structure Edits (s : HubSession) (h h' : Hub) : Prop where
  gatesNum : h'.gatesNum = h.gatesNum
  others : ∀ k r st id, r ≠ s.ref → ((h'.gates k).Has r st id ↔ (h.gates k).Has r st id)
  lists : ∀ uid, uid ≠ s.uid → h'.sessions uid = h.sessions uid
  full : h.NoEmptyMaps → h'.NoEmptyMaps

variable {s : HubSession} {h h' h'' : Hub}

theorem Edits.refl : Edits s h h := ⟨rfl, fun _ _ _ _ _ => Iff.rfl, fun _ _ => rfl, fun full => full⟩

theorem Edits.trans (first : Edits s h h') (second : Edits s h' h'') : Edits s h h'' where
  gatesNum := second.gatesNum.trans first.gatesNum
  others := fun k r st id other =>
    (second.others k r st id other).trans (first.others k r st id other)
  lists := fun uid other => (second.lists uid other).trans (first.lists uid other)
  full := fun full => second.full (first.full full)

/-- A change of the session maps at the own id. -/
theorem edits_sessions (gates : h'.gates = h.gates) (gatesNum : h'.gatesNum = h.gatesNum)
    (lists : ∀ uid, uid ≠ s.uid → h'.sessions uid = h.sessions uid) : Edits s h h' where
  gatesNum := gatesNum
  others := fun k r st id _ => by rw [gates]
  lists := lists
  full := fun full k => by
    rw [gates]
    exact full k

theorem edits_addSession : Edits s h (h.addSession s) :=
  edits_sessions rfl rfl fun uid other => by simp [addSession, Function.update_of_ne other]

theorem edits_unregister : Edits s h (h.unregister s) :=
  edits_sessions rfl rfl fun uid other => by simp [unregister, Function.update_of_ne other]

theorem edits_addStream (stream identifier : String) :
    Edits s h (h.addStream s stream identifier) :=
  edits_sessions rfl rfl fun uid other => by simp [addStream, Function.update_of_ne other]

theorem edits_removeStream (stream identifier : String) :
    Edits s h (h.removeStream s stream identifier) := by
  obtain ⟨gates, gatesNum, -, -⟩ := removeStream_frame (h := h) (s := s) stream identifier
  refine edits_sessions gates gatesNum fun uid other => ?_
  unfold removeStream
  split
  · rfl
  · simp [Function.update_of_ne other]

theorem edits_gateSubscribe (stream identifier : String) :
    Edits s h (h.gateSubscribe s stream identifier) where
  gatesNum := rfl
  others := fun k r st id other => by
    rw [has_gateSubscribe]
    exact or_iff_right fun new => other new.2.1
  lists := fun _ _ => rfl
  full := fun full k => by
    simp only [gateSubscribe, setGate, Function.update_apply]
    split
    · exact Gate.noEmptyMap_subscribe (full _) s.ref stream identifier
    · exact full k

theorem edits_gateUnsubscribe (stream identifier : String) :
    Edits s h (h.gateUnsubscribe s stream identifier) where
  gatesNum := rfl
  others := fun k r st id other => by
    rw [has_gateUnsubscribe]
    exact and_iff_left fun gone => other gone.2.1
  lists := fun _ _ => rfl
  full := fun full k => by
    simp only [gateUnsubscribe, setGate, Function.update_apply]
    split
    · exact Gate.noEmptyMap_unsubscribe (full _) s.ref stream identifier
    · exact full k

theorem edits_unsubscribeEach (pairs : List (String × String)) :
    Edits s h (h.unsubscribeEach s pairs) := by
  unfold unsubscribeEach
  induction pairs generalizing h with
  | nil => exact .refl
  | cons p pairs ih => exact (edits_gateUnsubscribe p.1 p.2).trans ih

theorem edits_subscribeSession (stream identifier : String) :
    Edits s h (h.subscribeSession s stream identifier) :=
  (edits_gateSubscribe stream identifier).trans (edits_addStream stream identifier)

theorem edits_unsubscribeSession (stream identifier : String) :
    Edits s h (h.unsubscribeSession s stream identifier) :=
  (edits_gateUnsubscribe stream identifier).trans (edits_removeStream stream identifier)

theorem edits_unsubscribeSessionFromChannel (target : String) :
    Edits s h (h.unsubscribeSessionFromChannel s target) := by
  unfold unsubscribeSessionFromChannel
  split
  · exact .refl
  next info found =>
    obtain ⟨removed, hub, -⟩ := channelTurns_removed s target
      (List.range info.streams.length) (h, Slice.ofList info.streams)
    refine (edits_unsubscribeEach removed).trans ?_
    refine edits_sessions (by simp [hub]) (by simp [hub]) fun uid other => ?_
    simp [hub, Function.update_of_ne other]

theorem edits_removeSession : Edits s h (h.removeSession s) := by
  unfold removeSession
  split
  · rw [unsubscribeSessionFromAllChannels_eq]
    exact (edits_unsubscribeEach _).trans edits_unregister
  · exact .refl

/-- The list of the session covers its gate entries. -/
def Complete (h : Hub) (s : HubSession) : Prop := h.Covers s (h.pairsOf s)

theorem complete_of_absent (absent : ∀ k st id, ¬ (h.gates k).Has s.ref st id) : h.Complete s :=
  fun k st id has => absurd has (absent k st id)

theorem Complete.subscribeSession (complete : h.Complete s) (stream identifier : String) :
    (h.subscribeSession s stream identifier).Complete s := by
  rw [Complete, Hub.subscribeSession, pairsOf_addStream]
  exact covers_congr rfl rfl (covers_gateSubscribe complete stream identifier)

theorem gates_unsubscribeSession (stream identifier : String) :
    (h.unsubscribeSession s stream identifier).gates =
      (h.gateUnsubscribe s stream identifier).gates :=
  (removeStream_frame stream identifier).1

theorem Complete.unsubscribeSession (complete : h.Complete s) (stream identifier : String) :
    (h.unsubscribeSession s stream identifier).Complete s := by
  rw [Complete, Hub.unsubscribeSession, pairsOf_removeStream]
  obtain ⟨gates, gatesNum, -, -⟩ := removeStream_frame
    (h := h.gateUnsubscribe s stream identifier) (s := s) stream identifier
  exact covers_congr gates gatesNum (covers_gateUnsubscribe complete stream identifier)

theorem Complete.unsubscribeSessionFromChannel (complete : h.Complete s) (target : String) :
    (h.unsubscribeSessionFromChannel s target).Complete s := by
  obtain ⟨removed, gates, gatesNum, -, list, -⟩ := unsubscribeSessionFromChannel_effect h s target
  rw [Complete, list]
  exact covers_congr gates (gatesNum.trans unsubscribeEach_frame.2.2.1.symm)
    (covers_unsubscribeEach complete)

/-! Loops over subscriptions: `f` says which pair an element of the loop stands for. -/

section Loops

variable {α : Type} {f : α → String × String}

theorem subscribeEach_spec (items : List α) (h : Hub) :
    (items.foldl (fun h a => h.subscribeSession s (f a).1 (f a).2) h).gatesNum = h.gatesNum ∧
    (h.Complete s →
      (items.foldl (fun h a => h.subscribeSession s (f a).1 (f a).2) h).Complete s) ∧
    ∀ k r st id, ((items.foldl (fun h a => h.subscribeSession s (f a).1 (f a).2) h).gates k).Has
        r st id ↔
      (k = index st h.gatesNum ∧ r = s.ref ∧ (st, id) ∈ items.map f) ∨
        (h.gates k).Has r st id := by
  induction items generalizing h with
  | nil => exact ⟨rfl, fun complete => complete, by simp⟩
  | cons a items ih =>
    obtain ⟨gatesNum, complete, has⟩ := ih (h.subscribeSession s (f a).1 (f a).2)
    refine ⟨gatesNum, fun before => complete (before.subscribeSession _ _), fun k r st id => ?_⟩
    have first : ((h.subscribeSession s (f a).1 (f a).2).gates k).Has r st id ↔
        (k = index (f a).1 h.gatesNum ∧ r = s.ref ∧ st = (f a).1 ∧ id = (f a).2) ∨
          (h.gates k).Has r st id := has_gateSubscribe
    have same : (h.subscribeSession s (f a).1 (f a).2).gatesNum = h.gatesNum := rfl
    rw [List.foldl_cons, has, first, same, List.map_cons, List.mem_cons, Prod.ext_iff]
    constructor
    · rintro (⟨place, own, later⟩ | ⟨place, own, rfl, rfl⟩ | before)
      · exact Or.inl ⟨place, own, Or.inr later⟩
      · exact Or.inl ⟨place, own, Or.inl ⟨rfl, rfl⟩⟩
      · exact Or.inr before
    · rintro (⟨place, own, ⟨rfl, rfl⟩ | later⟩ | before)
      · exact Or.inr (Or.inl ⟨place, own, rfl, rfl⟩)
      · exact Or.inl ⟨place, own, later⟩
      · exact Or.inr (Or.inr before)

theorem unsubscribeSessions_spec (items : List α) (h : Hub) :
    (items.foldl (fun h a => h.unsubscribeSession s (f a).1 (f a).2) h).gatesNum = h.gatesNum ∧
    (h.Complete s →
      (items.foldl (fun h a => h.unsubscribeSession s (f a).1 (f a).2) h).Complete s) ∧
    ∀ k r st id, ((items.foldl (fun h a => h.unsubscribeSession s (f a).1 (f a).2) h).gates k).Has
        r st id ↔
      (h.gates k).Has r st id ∧
        ¬ (k = index st h.gatesNum ∧ r = s.ref ∧ (st, id) ∈ items.map f) := by
  induction items generalizing h with
  | nil => exact ⟨rfl, fun complete => complete, by simp⟩
  | cons a items ih =>
    obtain ⟨gatesNum, complete, has⟩ := ih (h.unsubscribeSession s (f a).1 (f a).2)
    have same := (edits_unsubscribeSession (s := s) (h := h) (f a).1 (f a).2).gatesNum
    refine ⟨gatesNum.trans same, fun before => complete (before.unsubscribeSession _ _),
      fun k r st id => ?_⟩
    rw [List.foldl_cons, has, gates_unsubscribeSession, has_gateUnsubscribe, same, List.map_cons,
      List.mem_cons, Prod.ext_iff, and_assoc, ← not_or]
    refine and_congr_right fun _ => not_congr ?_
    constructor
    · rintro (⟨place, own, rfl, rfl⟩ | ⟨place, own, later⟩)
      · exact ⟨place, own, Or.inl ⟨rfl, rfl⟩⟩
      · exact ⟨place, own, Or.inr later⟩
    · rintro ⟨place, own, ⟨rfl, rfl⟩ | later⟩
      · exact Or.inl ⟨place, own, rfl, rfl⟩
      · exact Or.inr ⟨place, own, later⟩

end Loops

/-- A complete list is all it takes to clear the gates. -/
theorem removeSession_clears (covers : h.Complete s) (k : Nat) (st id : String) :
    ¬ ((h.removeSession s).gates k).Has s.ref st id := by
  unfold removeSession
  split
  next registered =>
    rw [unsubscribeSessionFromAllChannels_eq]
    intro has
    have left : (st, id) ∈ (h.pairsOf s).foldl List.erase (h.pairsOf s) :=
      (covers_unsubscribeEach covers k st id has).2
    have none : (h.pairsOf s).foldl List.erase (h.pairsOf s ++ []) = [] := eraseEach_self
    rw [List.append_nil] at none
    simp [none] at left
  next missing =>
    intro has
    have empty : h.pairsOf s = [] := by
      have none : h.sessions s.uid = none := by simpa [registered] using missing
      simp [pairsOf, none]
    have listed := (covers k st id has).2
    simp [empty] at listed

end AnyCable.Source.Hub
