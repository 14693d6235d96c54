import AnyCable.Source.HubEdits

/-!
# Streams of a channel that is left

Source: `hub/hub.go:41-52,253-271`. `UnsubscribeSessionFromChannel` ranges over the stream list of
the session and removes from it on the way. The pair behind a removed one moves into its place and
is skipped, so a channel with three streams keeps one (`middle_stream_stays`).

For any state of the hub, `channel_cleared_iff` says that pairs of other identifiers and of other
sessions stay, in the gates and in the lists, and when nothing is left of the channel. In a list
without repetitions that covers the gates this is so exactly if no two neighbouring pairs are of the
channel, except for the last two.
-/

set_option autoImplicit false

namespace AnyCable.Guarantees.ChannelStreams
open AnyCable.Lib AnyCable.Source

/-- The pair belongs to the channel. -/
def ofChannel (id : String) (p : String × String) : Bool := id = p.2

/-- What the loop removes, turn by turn. -/
def removed (h : Hub) (s : HubSession) (id : String) : List (String × String) :=
  Slice.visits (ofChannel id) 0 (h.pairsOf s)

/-- Neither a gate nor the list has anything of the channel. -/
def Cleared (h : Hub) (s : HubSession) (id : String) : Prop :=
  (∀ k st, ¬ (h.gates k).Has s.ref st id) ∧ ∀ p ∈ h.pairsOf s, p.2 ≠ id

/-- Everything else is as it was. -/
structure Frame (h h' : Hub) (s : HubSession) (id : String) : Prop where
  gates : ∀ k r st id', ¬ (r = s.ref ∧ id' = id) →
    ((h'.gates k).Has r st id' ↔ (h.gates k).Has r st id')
  lists : ∀ uid, uid ≠ s.uid → h'.sessions uid = h.sessions uid
  pairs : (h'.pairsOf s).filter (fun p => p.2 ≠ id) = (h.pairsOf s).filter (fun p => p.2 ≠ id)

section Removal

variable {h : Hub} {s : HubSession} {id : String}

theorem of_mem_removed {p : String × String} (member : p ∈ removed h s id) : p.2 = id := by
  have own := Slice.hit_of_mem_reached (Slice.mem_visits_iff.mp member)
  exact (of_decide_eq_true own).symm

theorem has_after {k : Nat} {r : SessionRef} {st id' : String} :
    ((h.unsubscribeSessionFromChannel s id).gates k).Has r st id' ↔
      (h.gates k).Has r st id' ∧
        ¬ (k = index st h.gatesNum ∧ r = s.ref ∧ (st, id') ∈ removed h s id) := by
  rw [Hub.has_unsubscribeSessionFromChannel, removed, Slice.mem_visits_iff]
  rfl

theorem pairs_after :
    (h.unsubscribeSessionFromChannel s id).pairsOf s = (h.pairsOf s).diff (removed h s id) :=
  Hub.pairsOf_unsubscribeSessionFromChannel id

theorem filter_erase {keep : String × String → Bool} {p : String × String}
    (dropped : keep p = false) (pairs : List (String × String)) :
    (pairs.erase p).filter keep = pairs.filter keep := by
  induction pairs with
  | nil => rfl
  | cons q pairs ih =>
    rw [List.erase_cons]
    split
    next same =>
      rw [← eq_of_beq same] at dropped
      simp [dropped]
    · rw [List.filter_cons, List.filter_cons, ih]

/-- Removing pairs that a filter drops anyway. -/
theorem filter_diff {keep : String × String → Bool} {gone : List (String × String)}
    (dropped : ∀ p ∈ gone, keep p = false) (pairs : List (String × String)) :
    (pairs.diff gone).filter keep = pairs.filter keep := by
  induction gone generalizing pairs with
  | nil => simp
  | cons p gone ih =>
    rw [List.diff_cons, ih (fun q member => dropped q (by simp [member])),
      filter_erase (dropped p (by simp))]

theorem frame : Frame h (h.unsubscribeSessionFromChannel s id) s id where
  gates k r st id' other := by
    rw [has_after]
    refine and_iff_left ?_
    rintro ⟨-, own, member⟩
    exact other ⟨own, of_mem_removed member⟩
  lists uid other := (Hub.edits_unsubscribeSessionFromChannel id).lists uid other
  pairs := by
    rw [pairs_after]
    exact filter_diff (fun p member => by simp [of_mem_removed member]) _

/-- Nothing is left if the loop comes across every pair as often as it is listed. -/
theorem cleared_iff :
    Cleared (h.unsubscribeSessionFromChannel s id) s id ↔
      (∀ k st, (h.gates k).Has s.ref st id →
        k = index st h.gatesNum ∧ (st, id) ∈ removed h s id) ∧
      ∀ st, (h.pairsOf s).count (st, id) ≤ (removed h s id).count (st, id) := by
  refine and_congr (forall₂_congr fun k st => ?_) ?_
  · rw [has_after]
    tauto
  · rw [pairs_after]
    constructor
    · intro none st
      by_contra left
      have member : (st, id) ∈ (h.pairsOf s).diff (removed h s id) := by
        rw [← List.count_pos_iff, List.count_diff]
        omega
      exact none _ member rfl
    · rintro enough ⟨st, id'⟩ member own
      obtain rfl : id' = id := own
      have positive := List.count_pos_iff.mpr member
      have bound := enough st
      rw [List.count_diff] at positive
      omega

/-- In a complete list without repetitions the loop has to come across every pair once. -/
theorem cleared_iff_apart (complete : h.Complete s) (nodup : (h.pairsOf s).Nodup) :
    Cleared (h.unsubscribeSessionFromChannel s id) s id ↔
      Slice.Apart (ofChannel id) (h.pairsOf s) := by
  rw [cleared_iff, ← Slice.all_reached_iff_apart nodup]
  constructor
  · rintro ⟨-, enough⟩ ⟨st, id'⟩ member own
    obtain rfl : id = id' := of_decide_eq_true own
    have visited : 0 < (removed h s id).count (st, id) :=
      Nat.lt_of_lt_of_le (List.count_pos_iff.mpr member) (enough st)
    exact Slice.mem_visits_iff.mp (List.count_pos_iff.mp visited)
  · intro all
    have found : ∀ st, (st, id) ∈ h.pairsOf s → (st, id) ∈ removed h s id := fun st member =>
      Slice.mem_visits_iff.mpr (all (st, id) member (by simp [ofChannel]))
    refine ⟨fun k st has => ?_, fun st => ?_⟩
    · obtain ⟨place, listed⟩ := complete k st id has
      exact ⟨place, found st listed⟩
    · by_cases member : (st, id) ∈ h.pairsOf s
      · rw [List.count_eq_one_of_mem nodup member]
        exact List.count_pos_iff.mpr (found st member)
      · rw [List.count_eq_zero.mpr member]
        exact Nat.zero_le _

end Removal

theorem channel_cleared_iff (h : Hub) (s : HubSession) (id : String) :
    Frame h (h.unsubscribeSessionFromChannel s id) s id ∧
    (Cleared (h.unsubscribeSessionFromChannel s id) s id ↔
      (∀ k st, (h.gates k).Has s.ref st id →
        k = index st h.gatesNum ∧ (st, id) ∈ removed h s id) ∧
      ∀ st, (h.pairsOf s).count (st, id) ≤ (removed h s id).count (st, id)) ∧
    (h.Complete s → (h.pairsOf s).Nodup →
      (Cleared (h.unsubscribeSessionFromChannel s id) s id ↔
        Slice.Apart (ofChannel id) (h.pairsOf s))) :=
  ⟨frame, cleared_iff, cleared_iff_apart⟩

def reader : HubSession := ⟨0, "sid", "user"⟩

/-- A hub with one gate and one session, subscribed to streams of the channels in turn. -/
def subscribed (pairs : List (String × String)) : Hub :=
  pairs.foldl (fun h p => h.subscribeSession reader p.1 p.2)
    (({ gatesNum := 1 } : Hub).addSession reader)

theorem apart_streams_cleared :
    Cleared ((subscribed [("a", "chat"), ("x", "news"), ("b", "chat"), ("c", "chat")]
      ).unsubscribeSessionFromChannel reader "chat") reader "chat" := by
  have complete : ∀ pairs, (subscribed pairs).Complete reader := fun pairs =>
    (Hub.subscribeEach_spec (f := fun p => p) pairs _).2.1
      (Hub.complete_of_absent fun k st id => Gate.not_has_empty _ _ _)
  exact ((channel_cleared_iff _ reader "chat").2.2 (complete _) (by decide)).mpr
    (by decide)

/-- The second of three streams is skipped: it stays in its gate and in the list. -/
theorem middle_stream_stays :
    (((subscribed [("a", "chat"), ("b", "chat"), ("c", "chat")]).unsubscribeSessionFromChannel
        reader "chat").gates 0).Has 0 "b" "chat" ∧
      ((subscribed [("a", "chat"), ("b", "chat"), ("c", "chat")]).unsubscribeSessionFromChannel
        reader "chat").pairsOf reader = [("b", "chat")] := by
  decide

end AnyCable.Guarantees.ChannelStreams
