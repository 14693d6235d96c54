import AnyCable.Guarantees.CutOff

/-!
# Streams that nobody holds

The broker counts the subscriptions of its node to a stream (`broker/broker.go:107-151`) and a
stream should be given up with its last holder. The count is given back on one path only, when
a reply stops the stream (`node/node.go:894-911`), and there only if it is exactly 1:

* `Node.Disconnect` (`node/node.go:804-828`) gives nothing back;
* `Node.Unsubscribe` (`node/node.go:494-544`) removes the channel first, so that no stream of it
  is left to be given back;
* `StreamsTracker.Remove` never lowers a count above 1;
* streams started for a channel that does not exist, or by a command of a session that is closed
  already, are counted and held by nobody.

`left_behind` runs the first three of these and the last one for a closed session. Where a stream
is only let go of while somebody else holds it or its count is exactly 1, a tracked stream always
has a holder (`released_unless_left_behind`).
-/

set_option autoImplicit false

namespace AnyCable.Guarantees.ReleasedStreams
open AnyCable.Lib AnyCable.Source AnyCable.Source.System

/-- The property of one state: a stream that nobody holds is not tracked, and the Broadcaster
was told to unsubscribe from it unless it never heard of it. -/
def Released (x : System) : Prop :=
  ∀ st, (∀ h, ¬ x.Holds h st) → x.node.broker.tracker.has st = false ∧
    (x.node.broker.interest.broadcaster.lastCall st = none ∨
      x.node.broker.interest.broadcaster.lastCall st = some (.unsubscribe st))

/-- Nothing that the session lets go of is left without a holder. -/
structure Covered (x : System) (ref : SessionRef) (s : Session) (id : String)
    (c : StreamChange) : Prop where
  /-- A dropped stream is given back as the last one, or another channel holds it. -/
  dropped : s.closed = false → ∀ st ∈ c.dropped, x.node.broker.tracker.has st = true →
    (st ∈ c.released ∧ x.node.broker.tracker.store st = some 1) ∨
      ∃ h ∈ x.holders st, h ≠ (ref, id)
  /-- A stream started for a missing channel is held elsewhere. -/
  absent : c.present = false → ∀ st ∈ c.acquired, ∃ h ∈ x.holders st, h ≠ (ref, id)
  /-- The streams of a session that ends, or has ended, are held by other sessions. -/
  started : s.closed = true ∨ c.ends = true → ∀ st ∈ c.acquired, ∃ h ∈ x.holders st, h.1 ≠ ref
  held : s.closed = false → c.ends = true → ∀ p ∈ s.subscriptions.pairs,
    x.node.broker.tracker.has p.2 = true → ∃ h ∈ x.holders p.2, h.1 ≠ ref

instance (x : System) (ref : SessionRef) (s : Session) (id : String) (c : StreamChange) :
    Decidable (Covered x ref s id c) :=
  decidable_of_iff
    ((s.closed = false → ∀ st ∈ c.dropped, x.node.broker.tracker.has st = true →
        (st ∈ c.released ∧ x.node.broker.tracker.store st = some 1) ∨
          ∃ h ∈ x.holders st, h ≠ (ref, id)) ∧
      (c.present = false → ∀ st ∈ c.acquired, ∃ h ∈ x.holders st, h ≠ (ref, id)) ∧
      (s.closed = true ∨ c.ends = true → ∀ st ∈ c.acquired, ∃ h ∈ x.holders st, h.1 ≠ ref) ∧
      (s.closed = false → c.ends = true → ∀ p ∈ s.subscriptions.pairs,
        x.node.broker.tracker.has p.2 = true → ∃ h ∈ x.holders p.2, h.1 ≠ ref))
    ⟨fun ⟨dropped, absent, started, held⟩ => ⟨dropped, absent, started, held⟩,
      fun covered => ⟨covered.dropped, covered.absent, covered.started, covered.held⟩⟩

/-- The condition on a step. -/
def LeavesNothing (x : System) : Act → Prop
  | .command ref msg answer _ => ∀ s ∈ x.sessions.lookup ref,
      Covered x ref s msg.identifier (commandChange s msg answer)
  | .disconnect ref _ _ _ => ∀ s ∈ x.sessions.lookup ref, Covered x ref s "" { ends := true }
  | .disconnectNow ref _ =>
      ∀ s ∈ x.sessions.lookup ref, Covered x ref s "" { ends := s.connected }
  | _ => True

instance (x : System) : (a : Act) → Decidable (LeavesNothing x a)
  | .command ref msg answer _ => inferInstanceAs (Decidable (∀ s ∈ x.sessions.lookup ref,
      Covered x ref s msg.identifier (commandChange s msg answer)))
  | .disconnect ref _ _ _ => inferInstanceAs (Decidable (∀ s ∈ x.sessions.lookup ref,
      Covered x ref s "" { ends := true }))
  | .disconnectNow ref _ => inferInstanceAs (Decidable (∀ s ∈ x.sessions.lookup ref,
      Covered x ref s "" { ends := s.connected }))
  | .connect .. | .register | .deliver | .handleBroadcast .. | .handlePubSub .. | .expire ..
  | .shutdown => isTrue trivial

/-- The invariant of the runs: what is tracked is held. -/
def Inv (x : System) : Prop := ∀ st, x.node.broker.tracker.has st = true → ∃ h, x.Holds h st

variable {x y : System}

theorem inv_start (setup : Setup) : Inv setup.start := by
  intro st tracked
  simp [Setup.start, Broker.tracker, StreamsTracker.new, StreamsTracker.has] at tracked

/-- A holder with another session or another channel is not touched. -/
theorem holds_kept {ref : SessionRef} {before s : Session} {n : Node} {id st : String}
    {c : StreamChange} {h : Holder} (found : x.sessions.lookup ref = some before)
    (live : before.closed = false) (turn : Turn id c x.node before n s) (holds : x.Holds h st)
    (other : h.1 ≠ ref ∨ (c.ends = false ∧ ¬ (h = (ref, id) ∧ st ∈ c.dropped))) :
    (x.put ref (n, s)).Holds h st := by
  refine (holds_turn found live turn).mpr ?_
  by_cases same : h.1 = ref
  · rcases other with different | ⟨stays, kept⟩
    · exact absurd same different
    · exact Or.inr ⟨same, stays, Or.inr ⟨holds, kept⟩⟩
  · exact Or.inl ⟨same, holds⟩

/-- A tracked stream was started by the call or tracked before. -/
theorem tracked_before {before s : Session} {n : Node} {id st : String} {c : StreamChange}
    (turn : Turn id c x.node before n s) (tracked : n.broker.tracker.has st = true) :
    st ∈ c.acquired ∨ x.node.broker.tracker.has st = true ∧
      ¬ (st ∈ c.released ∧ x.node.broker.tracker.store st = some 1) := by
  rwa [turn.tracker, StreamsTracker.has_addEach, StreamsTracker.has_removeEach] at tracked

/-- A command of a session that is closed already. -/
theorem closed_inv {ref : SessionRef} {before s : Session} {n : Node} {id : String}
    {c : StreamChange} (inv : Inv x) (found : x.sessions.lookup ref = some before)
    (closed : before.closed = true) (turn : Turn id c x.node before n s)
    (covered : Covered x ref before id c) : Inv (x.put ref (n, s)) := by
  intro st tracked
  rcases tracked_before turn tracked with started | kept
  · obtain ⟨h, member, -⟩ := covered.started (Or.inl closed) st started
    exact ⟨h, (holds_closed found closed turn).mpr (mem_holders.mp member)⟩
  · obtain ⟨h, holds⟩ := inv st kept.1
    exact ⟨h, (holds_closed found closed turn).mpr holds⟩

theorem live_inv {ref : SessionRef} {before s : Session} {n : Node} {id : String}
    {c : StreamChange} (inv : Inv x) (found : x.sessions.lookup ref = some before)
    (live : before.closed = false) (turn : Turn id c x.node before n s)
    (covered : Covered x ref before id c) : Inv (x.put ref (n, s)) := by
  intro st tracked
  -- another channel, or another session if this one ends, keeps the stream
  have elsewhere : (∃ h ∈ x.holders st, h.1 ≠ ref) → ∃ h, (x.put ref (n, s)).Holds h st := by
    rintro ⟨h, member, other⟩
    exact ⟨h, holds_kept found live turn (mem_holders.mp member) (Or.inl other)⟩
  have another : c.ends = false → (∃ h ∈ x.holders st, h ≠ (ref, id)) →
      ∃ h, (x.put ref (n, s)).Holds h st := by
    rintro stays ⟨h, member, other⟩
    exact ⟨h, holds_kept found live turn (mem_holders.mp member)
      (Or.inr ⟨stays, fun same => other same.1⟩)⟩
  rcases tracked_before turn tracked with started | ⟨before', notLast⟩
  · cases ends : c.ends with
    | true => exact elsewhere (covered.started (Or.inr ends) st started)
    | false =>
      cases present : c.present with
      | true =>
        refine ⟨(ref, id), (holds_turn found live turn).mpr (Or.inr ⟨rfl, ends, Or.inl ?_⟩)⟩
        exact ⟨rfl, started, present⟩
      | false => exact another ends (covered.absent present st started)
  · obtain ⟨h, holds⟩ := inv st before'
    by_cases own : h.1 = ref
    · obtain ⟨r, id'⟩ := h
      cases own
      cases ends : c.ends with
      | true =>
        have pair := SubscriptionState.mem_pairs.mpr ((holds_of_lookup found live).mp holds)
        exact elsewhere (covered.held live ends (id', st) pair before')
      | false =>
        by_cases gone : (r, id') = (r, id) ∧ st ∈ c.dropped
        · rcases covered.dropped live st gone.2 before' with last | other
          · exact absurd last notLast
          · exact another ends other
        · exact ⟨(r, id'), holds_kept found live turn holds (Or.inr ⟨ends, gone⟩)⟩
    · exact ⟨h, holds_kept found live turn holds (Or.inl own)⟩

theorem turn_inv {ref : SessionRef} {before s : Session} {n : Node} {id : String}
    {c : StreamChange} (inv : Inv x) (found : x.sessions.lookup ref = some before)
    (turn : Turn id c x.node before n s) (covered : Covered x ref before id c) :
    Inv (x.put ref (n, s)) := by
  cases closed : before.closed with
  | false => exact live_inv inv found closed turn covered
  | true => exact closed_inv inv found closed turn covered

theorem step_inv {a : Act} (inv : Inv x) (ok : LeavesNothing x a) (stepped : x.step a = some y) :
    Inv y := by
  cases step_took stepped with
  | @connect ref client answer now n s fresh opened =>
    obtain ⟨taken, -, tracker, holds⟩ := holds_opened now fresh opened
    intro st tracked
    rw [serve_node] at tracked
    have after : st ∈ taken.map Prod.snd ∨ x.node.broker.tracker.has st = true := by
      rw [← StreamsTracker.has_addEach, ← tracker]
      exact tracked
    rcases after with started | before
    · obtain ⟨⟨id, st⟩, member, rfl⟩ := List.mem_map.mp started
      exact ⟨(ref, id), (holds (ref, id) st).mpr (Or.inr ⟨rfl, member⟩)⟩
    · obtain ⟨h, held⟩ := inv st before
      exact ⟨h, (holds h st).mpr (Or.inl held)⟩
  | command found reading turn => exact turn_inv inv found turn (ok _ found)
  | disconnect found turn same => exact turn_inv inv found turn (ok _ found)
  | disconnectNow found turn same => exact turn_inv inv found turn (ok _ found)
  | other general readers same sessions =>
    intro st tracked
    obtain ⟨h, holds⟩ := inv st (same.tracker ▸ tracked)
    exact ⟨h, (holds_like sessions).mpr holds⟩

/-- In every run in which streams are let go of only while somebody else holds them or as the
last counted subscription, the streams that nobody holds are released. -/
theorem released_unless_left_behind (setup : Setup) (schedule : List Act) (x : System)
    (ok : Run.Meets step LeavesNothing setup.start schedule)
    (ran : Run.exec step setup.start schedule = some x) : Released x := by
  have inv := Run.invariant_of_meets (fun _ _ _ inv ok stepped => step_inv inv ok stepped)
    (inv_start setup) ok ran
  intro st nobody
  have untracked : x.node.broker.tracker.has st ≠ true := fun tracked =>
    let ⟨h, holds⟩ := inv st tracked
    nobody h holds
  refine ⟨by simpa using untracked, ?_⟩
  rcases x.node.broker.interest.broadcaster.lastCall_cases st with none | subscribed | last
  · exact Or.inl none
  · exact absurd ((x.node.broker.agrees st).mp subscribed) untracked
  · exact Or.inr last

/-- The session with the stream is disconnected. -/
def disconnected : List Act :=
  [CutOff.connect 1 "first", CutOff.subscribe 1 (some ["chat"]), .disconnectNow 1 0]

/-- The session unsubscribes from the channel with the stream. -/
def unsubscribed : List Act :=
  [CutOff.connect 1 "first", CutOff.subscribe 1 (some ["chat"]),
   .command 1 { command := "unsubscribe", identifier := "channel" }
     { res := some { status := .success } } 0]

/-- Two sessions had the stream and both have stopped it. -/
def bothStopped : List Act := CutOff.sharedStop ++ [CutOff.stop 1]

/-- A reply disconnects the session, and its next command starts the stream. -/
def startedLate : List Act :=
  [CutOff.connect 1 "first",
   .command 1 { command := "subscribe", identifier := "other" }
     { res := some { status := .success, disconnect := true } } 0,
   CutOff.subscribe 1 (some ["chat"])]

theorem not_released (st : String) (nobody : x.holders st = [])
    (tracked : x.node.broker.tracker.has st = true) : ¬ Released x := by
  intro released
  have unheld : ∀ h, ¬ x.Holds h st := fun h holds => by
    simp [← mem_holders, nobody] at holds
  have untracked := (released st unheld).1
  rw [tracked] at untracked
  cases untracked

theorem left_behind :
    (∃ x, Run.exec step CutOff.setup.start disconnected = some x ∧ ¬ Released x) ∧
    (∃ x, Run.exec step CutOff.setup.start unsubscribed = some x ∧ ¬ Released x) ∧
    (∃ x, Run.exec step CutOff.setup.start bothStopped = some x ∧ ¬ Released x) ∧
    ∃ x, Run.exec step CutOff.setup.start startedLate = some x ∧ ¬ Released x :=
  ⟨⟨_, rfl, not_released "chat" (by decide) (by decide)⟩,
   ⟨_, rfl, not_released "chat" (by decide) (by decide)⟩,
   ⟨_, rfl, not_released "chat" (by decide) (by decide)⟩,
   ⟨_, rfl, not_released "chat" (by decide) (by decide)⟩⟩

/-- A session starts a stream, stops it and leaves. -/
def stopped : List Act :=
  [CutOff.connect 1 "first", CutOff.subscribe 1 (some ["chat"]), CutOff.stop 1, .disconnectNow 1 0]

theorem stopped_released :
    ∃ x, Run.exec step CutOff.setup.start stopped = some x ∧
      x.node.broker.interest.broadcaster.lastCall "chat" = some (.unsubscribe "chat") ∧
      Released x :=
  ⟨_, rfl, rfl, released_unless_left_behind CutOff.setup stopped _ (by decide) rfl⟩

end AnyCable.Guarantees.ReleasedStreams
