import AnyCable.Source.Clock

/-!
# Waiting for a gap in the consumed messages

Source: `broker/nats.go:837-957`. While messages of a stream are being consumed its `streamSync` is
active, and whoever asks for history waits on its channel until `idle` closes it. `restart` starts a
timer for that, or winds it up again; an active period that lasts too long is ended by `restart`
itself, which gives up the lock before it calls `idle`.

Every section under the lock is one step. `sync` reads the field of the channel after it has given
up the lock. Channels and timers have numbers in the order in which they were made, and a timer may
expire at any time while it is armed. `none` is a step that is not possible, or a panic: closing a
channel twice, closing nil, or a reset of a timer that is nil.
-/

set_option autoImplicit false

namespace AnyCable.Source

/-- `200 * time.Millisecond`. -/
def streamHistorySyncTimeout : Int := 200 * 1000000

structure StreamSync where
  active : Bool := false
  activeSince : Instant := 0
  cv : Option Nat := none
  timer : Option Nat := none
  deriving DecidableEq, Repr

/-- A `streamSync` with its channels, its timers and the calls on their way. -/
structure SyncState where
  sync : StreamSync := {}
  /-- How many channels were made. -/
  made : Nat := 0
  /-- The channels that were closed, in order. -/
  closes : List Nat := []
  /-- Whether each timer is armed. -/
  armed : List Bool := []
  /-- Calls of `idle` before the lock. -/
  idles : Nat := 0
  /-- Calls of `sync` that have seen it active and not yet read the channel. -/
  readers : Nat := 0
  /-- Calls of `sync` that receive from a channel. -/
  receivers : List (Option Nat) := []
  deriving DecidableEq, Repr

namespace SyncState

inductive Act where
  | sync
  | restart (now : Instant)
  /-- A call of `idle` from outside, by `remove`. -/
  | callIdle
  | fire (timer : Nat)
  | idle
  | read
  | receive (i : Nat)
  deriving DecidableEq, Repr

/-- `restart` where nothing is active. -/
def activate (x : SyncState) (now : Instant) : SyncState :=
  { x with
    sync := { active := true, activeSince := now, cv := some x.made, timer := some x.armed.length }
    made := x.made + 1
    armed := x.armed ++ [true] }

def restart (x : SyncState) (now : Instant) : Option SyncState :=
  if x.sync.active then
    if x.sync.activeSince + streamHistorySyncTimeout < now then
      some { x with idles := x.idles + 1 }
    else x.sync.timer.map fun timer => { x with armed := x.armed.set timer true }
  else some (x.activate now)

def close (x : SyncState) (channel : Nat) : Option SyncState :=
  if channel ∈ x.closes then none else some { x with closes := x.closes ++ [channel] }

def idle (x : SyncState) : Option SyncState :=
  if x.sync.active then
    x.sync.cv.bind fun channel => { x with sync := { x.sync with active := false } }.close channel
  else some x

def step (x : SyncState) : Act → Option SyncState
  | .sync => some (if x.sync.active then { x with readers := x.readers + 1 } else x)
  | .restart now => x.restart now
  | .callIdle => some { x with idles := x.idles + 1 }
  | .fire timer =>
    if x.armed[timer]? = some true then
      some { x with armed := x.armed.set timer false, idles := x.idles + 1 }
    else none
  | .idle => if 0 < x.idles then { x with idles := x.idles - 1 }.idle else none
  | .read =>
    if 0 < x.readers then
      some { x with readers := x.readers - 1, receivers := x.receivers ++ [x.sync.cv] }
    else none
  | .receive i =>
    match x.receivers[i]? with
    | some (some channel) =>
      if channel ∈ x.closes then some { x with receivers := x.receivers.eraseIdx i } else none
    | _ => none

/-- What a step can do. -/
inductive Took (x : SyncState) : Act → SyncState → Prop
  | passed (inactive : x.sync.active = false) : Took x .sync x
  | entered (active : x.sync.active = true) : Took x .sync { x with readers := x.readers + 1 }
  | activated (now : Instant) (inactive : x.sync.active = false) :
      Took x (.restart now) (x.activate now)
  | extended (now : Instant) {timer : Nat} (found : x.sync.timer = some timer) :
      Took x (.restart now) { x with armed := x.armed.set timer true }
  | timedOut (now : Instant) : Took x (.restart now) { x with idles := x.idles + 1 }
  | called : Took x .callIdle { x with idles := x.idles + 1 }
  | fired {timer : Nat} (found : x.armed[timer]? = some true) :
      Took x (.fire timer) { x with armed := x.armed.set timer false, idles := x.idles + 1 }
  | idled (waits : 0 < x.idles) (inactive : x.sync.active = false) :
      Took x .idle { x with idles := x.idles - 1 }
  | closed {channel : Nat} (waits : 0 < x.idles) (found : x.sync.cv = some channel)
      (fresh : channel ∉ x.closes) :
      Took x .idle { x with idles := x.idles - 1, sync := { x.sync with active := false },
                            closes := x.closes ++ [channel] }
  | read (waits : 0 < x.readers) :
      Took x .read { x with readers := x.readers - 1, receivers := x.receivers ++ [x.sync.cv] }
  | received (i : Nat) : Took x (.receive i) { x with receivers := x.receivers.eraseIdx i }

theorem took_of_restart {x y : SyncState} {now : Instant} (ran : x.restart now = some y) :
    Took x (.restart now) y := by
  unfold restart at ran
  split at ran
  next =>
    split at ran
    next =>
      cases ran
      exact .timedOut now
    next =>
      obtain ⟨timer, found, rfl⟩ := Option.map_eq_some_iff.mp ran
      exact .extended now found
  next inactive =>
    cases ran
    exact .activated now (Bool.eq_false_iff.mpr inactive)

theorem took_of_idle {x y : SyncState} (waits : 0 < x.idles)
    (ran : { x with idles := x.idles - 1 }.idle = some y) : Took x .idle y := by
  unfold idle at ran
  split at ran
  next =>
    obtain ⟨channel, found, ran⟩ := Option.bind_eq_some_iff.mp ran
    unfold close at ran
    split at ran
    next => cases ran
    next fresh =>
      cases ran
      exact .closed waits found fresh
  next inactive =>
    cases ran
    exact .idled waits (Bool.eq_false_iff.mpr inactive)

theorem took_of_step {x y : SyncState} {a : Act} (stepped : x.step a = some y) : Took x a y := by
  cases a with
  | sync =>
    simp only [step] at stepped
    split at stepped
    next active =>
      cases stepped
      exact .entered active
    next inactive =>
      cases stepped
      exact .passed (Bool.eq_false_iff.mpr inactive)
  | restart now => exact took_of_restart stepped
  | callIdle =>
    cases stepped
    exact .called
  | fire timer =>
    simp only [step] at stepped
    split at stepped
    next found =>
      cases stepped
      exact .fired found
    next => cases stepped
  | idle =>
    simp only [step] at stepped
    split at stepped
    next waits => exact took_of_idle waits stepped
    next => cases stepped
  | read =>
    simp only [step] at stepped
    split at stepped
    next waits =>
      cases stepped
      exact .read waits
    next => cases stepped
  | receive i =>
    simp only [step] at stepped
    split at stepped
    next =>
      split at stepped
      next =>
        cases stepped
        exact .received i
      next => cases stepped
    next => cases stepped

end SyncState

/-- Calls of the synchronizer after they have looked for the stream. -/
inductive SyncCall where
  | create (stream : String)
  | restart (syncer : Nat)
  | sync (syncer : Nat)
  deriving DecidableEq, Repr

/-- A `streamsSynchronizer`, and everything it has made. Two calls of `touch` may both find that a
stream has no entry; the one that comes second replaces the entry of the first. `remove` calls
`idle` with the map locked, so no one looks for the stream before the entry is gone. -/
structure StreamsSynchronizer where
  enntries : String → Option Nat := fun _ => none
  syncers : List SyncState := []
  calls : List SyncCall := []

namespace StreamsSynchronizer

inductive Act where
  | touch (stream : String)
  | sync (stream : String)
  | remove (stream : String)
  /-- The call at the position goes on. -/
  | proceed (i : Nat) (now : Instant)
  /-- A timer, or a call that is past its lookup. -/
  | inside (syncer : Nat) (a : SyncState.Act)
  deriving DecidableEq, Repr

/-- A step of one syncer. -/
def within (z : StreamsSynchronizer) (n : Nat) (a : SyncState.Act) : Option StreamsSynchronizer :=
  (z.syncers[n]?).bind fun x => (x.step a).map fun y => { z with syncers := z.syncers.set n y }

/-- `s.enntries[stream] = newStreamSync()` and its `restart`, under the lock of the map. -/
def create (z : StreamsSynchronizer) (stream : String) (now : Instant) :
    Option StreamsSynchronizer :=
  (({} : SyncState).restart now).map fun x =>
    { z with syncers := z.syncers ++ [x]
             enntries := fun s => if s = stream then some z.syncers.length else z.enntries s }

def step (z : StreamsSynchronizer) : Act → Option StreamsSynchronizer
  | .touch stream =>
    match z.enntries stream with
    | some n => some { z with calls := z.calls ++ [.restart n] }
    | none => some { z with calls := z.calls ++ [.create stream] }
  | .sync stream =>
    match z.enntries stream with
    | some n => some { z with calls := z.calls ++ [.sync n] }
    | none => some z
  | .remove stream =>
    match z.enntries stream with
    | some n => { z with enntries := fun s => if s = stream then none else z.enntries s }.within n
        .callIdle
    | none => some z
  | .proceed i now =>
    match z.calls[i]? with
    | some (.create stream) => { z with calls := z.calls.eraseIdx i }.create stream now
    | some (.restart n) => { z with calls := z.calls.eraseIdx i }.within n (.restart now)
    | some (.sync n) => { z with calls := z.calls.eraseIdx i }.within n .sync
    | none => none
  | .inside n a =>
    match a with
    | .fire _ | .idle | .read | .receive _ => z.within n a
    | .sync | .restart _ | .callIdle => none

/-- A step leaves the syncers alone, moves one of them or makes one. -/
theorem syncers_step {z next : StreamsSynchronizer} {a : Act} (stepped : z.step a = some next) :
    next.syncers = z.syncers ∨
    (∃ n b x y, z.syncers[n]? = some x ∧ x.step b = some y ∧
      next.syncers = z.syncers.set n y) ∨
    ∃ now x, ({} : SyncState).restart now = some x ∧ next.syncers = z.syncers ++ [x] := by
  have moved : ∀ (z' : StreamsSynchronizer) (n : Nat) (b : SyncState.Act),
      z'.syncers = z.syncers → z'.within n b = some next →
      ∃ n b x y, z.syncers[n]? = some x ∧ x.step b = some y ∧
        next.syncers = z.syncers.set n y := by
    intro z' n b same ran
    obtain ⟨x, found, ran⟩ := Option.bind_eq_some_iff.mp ran
    obtain ⟨y, moved, rfl⟩ := Option.map_eq_some_iff.mp ran
    exact ⟨n, b, x, y, same ▸ found, moved, by simp [same]⟩
  cases a with
  | touch stream =>
    simp only [step] at stepped
    split at stepped <;> cases stepped <;> exact Or.inl rfl
  | sync stream =>
    simp only [step] at stepped
    split at stepped <;> cases stepped <;> exact Or.inl rfl
  | remove stream =>
    simp only [step] at stepped
    split at stepped
    next => exact Or.inr (Or.inl (moved _ _ _ (by rfl) stepped))
    next =>
      cases stepped
      exact Or.inl rfl
  | proceed i now =>
    simp only [step] at stepped
    split at stepped
    next =>
      obtain ⟨x, made, rfl⟩ := Option.map_eq_some_iff.mp stepped
      exact Or.inr (Or.inr ⟨now, x, made, rfl⟩)
    next => exact Or.inr (Or.inl (moved _ _ _ (by rfl) stepped))
    next => exact Or.inr (Or.inl (moved _ _ _ (by rfl) stepped))
    next => cases stepped
  | inside n a =>
    have ran : z.within n a = some next := by
      cases a with
      | sync | restart _ | callIdle => cases stepped
      | fire _ | idle | read | receive _ => exact stepped
    exact Or.inr (Or.inl (moved z n a rfl ran))

end StreamsSynchronizer

end AnyCable.Source
