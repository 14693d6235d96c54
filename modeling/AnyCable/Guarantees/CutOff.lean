import AnyCable.Lib.Run
import AnyCable.Source.Holders

/-!
# Sessions that hold a stream stay connected to pub/sub

`handleCommandReply` (`node/node.go:884-919`) gives a stream back to the broker whenever a
reply lists it under `StoppedStreams`, also if the session or the channel never started it. A
tracked count of 1 then drops to nothing and the Broadcaster is told to unsubscribe while
another session still holds the stream (`stopped_by_stranger`).

The count is never below the number of holders when it is 1 (`Backed`), as long as no counter
wraps around. So if a stream with a count of 1 is only stopped where it is held, every stream held
by a live session is tracked and the Broadcaster was last told to subscribe to it
(`served_unless_stopped_by_stranger`). A closed session holds nothing: a command of it that is
still handled must not stop the last counted reference of somebody else.
-/

set_option autoImplicit false

namespace AnyCable.Guarantees.CutOff
open AnyCable.Lib AnyCable.Source AnyCable.Source.System

section Tracker

variable {H : Type} {t : StreamsTracker} {P Q : H → String → Prop} {st name : String}

/-- What is held is tracked, and a count of 1 stands for one holder. -/
structure Backed (t : StreamsTracker) (P : H → String → Prop) : Prop where
  tracked : ∀ h st, P h st → t.has st = true
  single : ∀ st, t.store st = some 1 → ∀ h h', P h st → P h' st → h = h'
  /-- No counter has wrapped around. -/
  positive : ∀ st, t.store st ≠ some 0

/-- Every name can be added as often as it is listed before its counter wraps around. -/
def Room (t : StreamsTracker) (names : List String) : Prop :=
  ∀ name ∈ names, ((t.store name).getD 0).toNat + names.count name < 2 ^ 64

instance (t : StreamsTracker) (names : List String) : Decidable (Room t names) :=
  inferInstanceAs (Decidable (∀ name ∈ names, _ < _))

theorem toNat_succ {n : UInt64} (room : n.toNat + 1 < 2 ^ 64) : (n + 1).toNat = n.toNat + 1 := by
  rw [UInt64.toNat_add, UInt64.toNat_one]
  exact Nat.mod_eq_of_lt room

theorem Room.head {name : String} {names : List String} (room : Room t (name :: names)) :
    ((t.store name).getD 0).toNat + 1 < 2 ^ 64 := by
  have all := room name List.mem_cons_self
  rw [List.count_cons_self] at all
  omega

theorem Room.tail {name : String} {names : List String} (room : Room t (name :: names)) :
    Room (t.add name).1 names := by
  intro st member
  have all := room st (List.mem_cons_of_mem _ member)
  rw [StreamsTracker.store_add]
  split
  next same =>
    subst same
    rw [List.count_cons_self] at all
    rw [Option.getD_some, toNat_succ room.head]
    omega
  next other => rwa [List.count_cons_of_ne (Ne.symm other)] at all

/-- Fewer names, and counters that were only deleted. -/
theorem Room.removeEach {names : List String} (room : Room t names) (removed : List String) :
    Room (t.removeEach removed) names := by
  intro st member
  have all := room st member
  rw [StreamsTracker.store_removeEach]
  split
  · simp only [Option.getD_none, UInt64.toNat_zero]
    omega
  · exact all

theorem Backed.mono (backed : Backed t P) (fewer : ∀ h st, Q h st → P h st) : Backed t Q where
  tracked := fun h st holds => backed.tracked h st (fewer h st holds)
  single := fun st one h h' holds holds' =>
    backed.single st one h h' (fewer h st holds) (fewer h' st holds')
  positive := backed.positive

/-- A counter that is 1 after `Add` was absent before. -/
theorem Backed.absent_of_one (backed : Backed t P)
    (room : ((t.store st).getD 0).toNat + 1 < 2 ^ 64) (one : (t.store st).getD 0 + 1 = 1) :
    t.store st = none := by
  have zero := congrArg UInt64.toNat one
  rw [toNat_succ room, UInt64.toNat_one] at zero
  cases count : t.store st with
  | none => rfl
  | some n =>
    rw [count, Option.getD_some] at zero
    have wrapped : n = 0 := UInt64.toNat_inj.mp (by simpa using zero)
    exact absurd (wrapped ▸ count) (backed.positive st)

theorem Backed.add (backed : Backed t P) (h : H)
    (room : ((t.store name).getD 0).toNat + 1 < 2 ^ 64) :
    Backed (t.add name).1 fun h' st => P h' st ∨ (h' = h ∧ st = name) where
  tracked := by
    rintro h' st (holds | ⟨-, rfl⟩)
    · exact StreamsTracker.add_has.mpr (Or.inr (backed.tracked h' st holds))
    · exact StreamsTracker.add_has.mpr (Or.inl rfl)
  single := by
    intro st one
    rw [StreamsTracker.store_add] at one
    split at one
    next same =>
      subst same
      -- the count was 0, so nobody held the stream before
      have absent := backed.absent_of_one room (Option.some.inj one)
      have none : ∀ h', ¬ P h' st := by
        intro h' holds
        have there := backed.tracked h' st holds
        simp [StreamsTracker.has, absent] at there
      rintro a b (holds | ⟨rfl, -⟩) (holds' | ⟨rfl, -⟩)
      · exact absurd holds (none a)
      · exact absurd holds (none a)
      · exact absurd holds' (none b)
      · rfl
    next other =>
      rintro a b (holds | ⟨-, same⟩) (holds' | ⟨-, same⟩)
      · exact backed.single st one a b holds holds'
      all_goals exact absurd same other
  positive := by
    intro st zero
    rw [StreamsTracker.store_add] at zero
    split at zero
    · have wrapped := congrArg UInt64.toNat (Option.some.inj zero)
      rw [toNat_succ room] at wrapped
      simp at wrapped
    · exact backed.positive st zero

theorem Backed.addEach (backed : Backed t P) (taken : List (H × String))
    (room : Room t (taken.map Prod.snd)) :
    Backed (t.addEach (taken.map Prod.snd)) fun h st => P h st ∨ (h, st) ∈ taken := by
  unfold StreamsTracker.addEach
  induction taken generalizing t P with
  | nil => exact backed.mono fun h st holds => by simpa using holds
  | cons p taken ih =>
    refine (ih (backed.add p.1 room.head) room.tail).mono fun h st holds => ?_
    rcases holds with before | member
    · exact Or.inl (Or.inl before)
    · rcases List.mem_cons.mp member with rfl | member
      · exact Or.inl (Or.inr ⟨rfl, rfl⟩)
      · exact Or.inr member

/-- A holder gives streams back that nobody else depends on. -/
theorem Backed.removeEach (backed : Backed t P) (h : H) (names : List String)
    (alone : ∀ st ∈ names, t.store st = some 1 → ∀ h', P h' st → h' = h) :
    Backed (t.removeEach names) fun h' st => P h' st ∧ ¬ (h' = h ∧ st ∈ names) where
  tracked := by
    rintro h' st ⟨holds, kept⟩
    refine (StreamsTracker.has_removeEach names).mpr ⟨backed.tracked h' st holds, ?_⟩
    rintro ⟨member, one⟩
    exact kept ⟨alone st member one h' holds, member⟩
  single := by
    rintro st one a b ⟨holds, -⟩ ⟨holds', -⟩
    rw [StreamsTracker.store_removeEach] at one
    split at one
    · cases one
    · exact backed.single st one a b holds holds'
  positive := by
    intro st zero
    rw [StreamsTracker.store_removeEach] at zero
    split at zero
    · cases zero
    · exact backed.positive st zero

end Tracker

/-- The property of one state: the stream of every live holder is tracked, and the last call
that the Broadcaster got for it is `Subscribe`. -/
def Served (x : System) : Prop :=
  ∀ h st, x.Holds h st → x.node.broker.tracker.has st = true ∧
    x.node.broker.interest.broadcaster.lastCall st = some (.subscribe st)

/-- A stream with a count of 1 is given back by a channel of a live session that holds it, or
nobody holds it. -/
def GivesBackOwn (x : System) : Act → Prop
  | .command ref msg answer _ => ∀ s ∈ x.sessions.lookup ref,
      ∀ st ∈ (commandChange s msg answer).released, x.node.broker.tracker.store st = some 1 →
        (ref, msg.identifier) ∈ x.holders st ∨ x.holders st = []
  | _ => True

instance (x : System) : (a : Act) → Decidable (GivesBackOwn x a)
  | .command ref msg answer _ => inferInstanceAs (Decidable (∀ s ∈ x.sessions.lookup ref,
      ∀ st ∈ (commandChange s msg answer).released, x.node.broker.tracker.store st = some 1 →
        (ref, msg.identifier) ∈ x.holders st ∨ x.holders st = []))
  | .connect .. | .disconnect .. | .disconnectNow .. | .register | .deliver
  | .handleBroadcast .. | .handlePubSub .. | .expire .. | .shutdown => isTrue trivial

/-- The condition on a step; the streams it starts are counted without a wrap-around. -/
def StopsOwn (x : System) (a : Act) : Prop :=
  GivesBackOwn x a ∧ Room x.node.broker.tracker (x.started a)

instance (x : System) (a : Act) : Decidable (StopsOwn x a) :=
  inferInstanceAs (Decidable (_ ∧ _))

/-- The invariant of the runs. -/
def Inv (x : System) : Prop := Backed x.node.broker.tracker x.Holds

variable {x y : System}

theorem inv_start (setup : Setup) : Inv setup.start where
  tracked := fun _ _ holds => absurd holds (not_holds_start setup)
  single := fun _ _ _ _ holds _ => absurd holds (not_holds_start setup)
  positive := fun _ => by simp [Setup.start, Broker.tracker, StreamsTracker.new]

/-- The holder that stops a stream with a count of 1 is the only one. -/
theorem Inv.alone {h : Holder} {st : String} (inv : Inv x)
    (own : x.node.broker.tracker.store st = some 1 → h ∈ x.holders st ∨ x.holders st = [])
    (one : x.node.broker.tracker.store st = some 1) : ∀ h', x.Holds h' st → h' = h := by
  intro h' holds
  rcases own one with mine | nobody
  · exact inv.single st one h' h holds (mem_holders.mp mine)
  · have member := mem_holders.mpr holds
    simp [nobody] at member

/-- What is held after a call about one channel was held before or is started by it. -/
theorem holds_before {ref : SessionRef} {before s : Session} {n : Node} {id st : String}
    {c : StreamChange} {h : Holder} (found : x.sessions.lookup ref = some before)
    (turn : Turn id c x.node before n s) (dropped : ∀ st ∈ c.released, st ∈ c.dropped)
    (holds : (x.put ref (n, s)).Holds h st) :
    (x.Holds h st ∧ ¬ (h = (ref, id) ∧ st ∈ c.released)) ∨
      (h, st) ∈ c.acquired.map fun st => ((ref, id), st) := by
  cases closed : before.closed with
  | false =>
    rcases (holds_turn found closed turn).mp holds with ⟨other, held⟩ | ⟨-, -, new | ⟨held, kept⟩⟩
    · exact Or.inl ⟨held, fun same => other (congrArg Prod.fst same.1)⟩
    · exact Or.inr (List.mem_map.mpr ⟨st, new.2.1, by rw [new.1]⟩)
    · exact Or.inl ⟨held, fun same => kept ⟨same.1, dropped st same.2⟩⟩
  | true =>
    -- the session itself holds nothing
    have held := (holds_closed found closed turn).mp holds
    refine Or.inl ⟨held, ?_⟩
    rintro ⟨rfl, -⟩
    obtain ⟨s', found', live, -⟩ := held
    rw [found] at found'
    cases found'
    rw [closed] at live
    cases live

theorem turn_inv {ref : SessionRef} {before s : Session} {n : Node} {id : String}
    {c : StreamChange} (inv : Inv x) (found : x.sessions.lookup ref = some before)
    (turn : Turn id c x.node before n s) (dropped : ∀ st ∈ c.released, st ∈ c.dropped)
    (own : ∀ st ∈ c.released, x.node.broker.tracker.store st = some 1 →
      (ref, id) ∈ x.holders st ∨ x.holders st = [])
    (room : Room x.node.broker.tracker c.acquired) : Inv (x.put ref (n, s)) := by
  have names : (c.acquired.map fun st => ((ref, id), st)).map Prod.snd = c.acquired := by
    simp [Function.comp_def]
  have stopped := inv.removeEach (ref, id) c.released fun st member => inv.alone (own st member)
  have started := stopped.addEach (c.acquired.map fun st => ((ref, id), st))
    (names.symm ▸ room.removeEach c.released)
  rw [names, ← turn.tracker] at started
  exact started.mono fun h st holds => holds_before found turn dropped holds

/-- A session leaves, with everything it holds. -/
theorem leave_inv {ref : SessionRef} {before s : Session} {n : Node} {id : String} {ends : Bool}
    (inv : Inv x) (found : x.sessions.lookup ref = some before)
    (turn : Turn id { ends := ends } x.node before n s) : Inv (x.put ref (n, s)) :=
  turn_inv inv found turn (by simp) (by simp) (by simp [Room])

theorem step_inv {a : Act} (inv : Inv x) (own : StopsOwn x a) (stepped : x.step a = some y) :
    Inv y := by
  cases step_took stepped with
  | @connect ref client answer now n s fresh opened =>
    obtain ⟨taken, listed, tracker, holds⟩ := holds_opened now fresh opened
    have names : (taken.map fun p => ((ref, p.1), p.2)).map Prod.snd = taken.map Prod.snd := by
      simp [Function.comp_def]
    have started := inv.addEach (taken.map fun p => ((ref, p.1), p.2))
      ((names.trans listed).symm ▸ own.2)
    rw [names, ← tracker] at started
    rw [Inv, serve_node]
    refine started.mono fun h st held => ?_
    rcases (holds h st).mp held with before | ⟨rfl, member⟩
    · exact Or.inl before
    · exact Or.inr (List.mem_map.mpr ⟨(h.2, st), member, rfl⟩)
  | @command ref msg answer now before n s found reading turn =>
    have room : Room x.node.broker.tracker (commandChange before msg answer).acquired := by
      have all := own.2
      rwa [started, found] at all
    exact turn_inv inv found turn (commandChange_released before msg answer)
      (own.1 before found) room
  | disconnect found turn same => exact leave_inv inv found turn
  | disconnectNow found turn same => exact leave_inv inv found turn
  | other general readers same sessions =>
    have kept : Backed y.node.broker.tracker x.Holds := by
      rw [same.tracker]
      exact inv
    exact kept.mono fun h st holds => (holds_like sessions).mp holds

/-- In every run in which a stream with a count of 1 is stopped only where it is held, every
live session that holds a stream is served by pub/sub. -/
theorem served_unless_stopped_by_stranger (setup : Setup) (schedule : List Act) (x : System)
    (own : Run.Meets step StopsOwn setup.start schedule)
    (ran : Run.exec step setup.start schedule = some x) : Served x := by
  have inv := Run.invariant_of_meets (fun _ _ _ inv ok stepped => step_inv inv ok stepped)
    (inv_start setup) own ran
  intro h st holds
  have tracked := inv.tracked h st holds
  exact ⟨tracked, (x.node.broker.agrees st).mpr tracked⟩

def setup : Setup := { codec := .blank, gatesNum := 1 }

/-- A subscription to `channel` with one stream. -/
def subscribe (ref : SessionRef) (streams : Option (List String)) : Act :=
  .command ref { command := "subscribe", identifier := "channel" }
    { res := some { status := .success, streams := streams } } 0

/-- A command whose reply stops `chat`. -/
def stop (ref : SessionRef) : Act :=
  .command ref { command := "message", identifier := "channel", data := .text "stop" }
    { res := some { status := .success, stoppedStreams := some ["chat"] } } 0

def connect (ref : SessionRef) (uid : String) : Act :=
  .connect ref { uid := uid } { res := some { status := .success, identifier := uid } } 0

/-- The second session stops a stream that only the first one has. -/
def strangerStops : List Act :=
  [connect 1 "first", connect 2 "second", subscribe 1 (some ["chat"]), subscribe 2 none, stop 2]

theorem strangerStops_end :
    ∃ x, Run.exec step setup.start strangerStops = some x ∧ (1, "channel") ∈ x.holders "chat" ∧
      x.node.broker.tracker.has "chat" = false := by
  refine ⟨_, rfl, ?_⟩
  decide

theorem stopped_by_stranger :
    ¬ ∀ (setup : Setup) (schedule : List Act) (x : System),
      Run.exec step setup.start schedule = some x → Served x := by
  intro always
  obtain ⟨x, ran, holder, untracked⟩ := strangerStops_end
  have served := always setup strangerStops x ran _ _ (mem_holders.mp holder)
  rw [untracked] at served
  cases served.1

/-- Two sessions share the stream; one of them stops it. -/
def sharedStop : List Act :=
  [connect 1 "first", connect 2 "second", subscribe 1 (some ["chat"]), subscribe 2 (some ["chat"]),
   stop 2]

theorem sharedStop_served :
    ∃ x, Run.exec step setup.start sharedStop = some x ∧ (1, "channel") ∈ x.holders "chat" ∧
      Served x :=
  ⟨_, rfl, by decide, served_unless_stopped_by_stranger setup sharedStop _ (by decide) rfl⟩

end AnyCable.Guarantees.CutOff
