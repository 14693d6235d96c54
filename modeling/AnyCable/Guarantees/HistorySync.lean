import AnyCable.Lib.Run
import AnyCable.Source.StreamSync

/-!
# Who waits for history is released

Calls that want the history of a stream wait on the channel of its `streamSync`
(`broker/nats.go:909-957`). Timers of earlier periods are never stopped, may expire while a later
period is active and then end it early; `restart` calls `idle` without the lock; `sync` may read a
channel that was made after it looked. None of this closes a channel twice or leaves one open for
good: in every run, an active period has an open channel and a call of `idle` that is still to
come, and all channels but that one are closed (`every_state_sound`). So the timers alone close
whatever is waited for, whichever expires first (`channel_closes`).

The same holds for all the syncers of a `streamsSynchronizer`, those included that have lost their
entry to another call (`every_syncer_sound`).
-/

set_option autoImplicit false

namespace AnyCable.Guarantees.HistorySync
open AnyCable.Lib AnyCable.Source

/-- The timer of the period is armed, or a call of `idle` is under way. -/
def IdlePending (x : SyncState) : Prop :=
  (∃ timer, x.sync.timer = some timer ∧ x.armed[timer]? = some true) ∨ 0 < x.idles

/-- The channel is closed, or it is the one the pending call of `idle` closes. -/
def Due (x : SyncState) (channel : Nat) : Prop :=
  channel ∈ x.closes ∨ (x.sync.active = true ∧ x.sync.cv = some channel ∧ IdlePending x)

structure Sound (x : SyncState) : Prop where
  closed_once : x.closes.Nodup
  /-- Neither call panics. -/
  idle_returns : 0 < x.idles → ∃ y, x.step .idle = some y
  restart_returns : ∀ now, ∃ y, x.step (.restart now) = some y
  current_open : x.sync.active = true →
    ∃ channel, x.sync.cv = some channel ∧ channel < x.made ∧ channel ∉ x.closes
  idle_pending : x.sync.active = true → IdlePending x
  others_closed : ∀ channel < x.made,
    ¬ (x.sync.active = true ∧ x.sync.cv = some channel) → channel ∈ x.closes
  /-- No one receives from nil, or from a channel that stays open. -/
  receiver_due : ∀ receiver ∈ x.receivers, ∃ channel, receiver = some channel ∧ Due x channel
  reader_due : 0 < x.readers → ∃ channel, x.sync.cv = some channel ∧ Due x channel

structure Inv (x : SyncState) : Prop where
  closed_once : x.closes.Nodup
  closed_made : ∀ channel ∈ x.closes, channel < x.made
  cv_made : ∀ channel, x.sync.cv = some channel → channel < x.made
  timer_made : ∀ timer, x.sync.timer = some timer → timer < x.armed.length
  active_cv : x.sync.active = true → ∃ channel, x.sync.cv = some channel ∧ channel ∉ x.closes
  active_timer : x.sync.active = true → ∃ timer, x.sync.timer = some timer
  active_pending : x.sync.active = true → IdlePending x
  open_current : ∀ channel < x.made, channel ∉ x.closes →
    x.sync.active = true ∧ x.sync.cv = some channel
  reader_cv : 0 < x.readers → ∃ channel, x.sync.cv = some channel
  receiver_made : ∀ receiver ∈ x.receivers, ∃ channel, receiver = some channel ∧ channel < x.made

theorem inv_new : Inv {} := by
  constructor <;> simp

section Steps

variable {x y : SyncState} {a : SyncState.Act}

theorem Inv.due (inv : Inv x) {channel : Nat} (made : channel < x.made) : Due x channel := by
  by_cases closed : channel ∈ x.closes
  · exact Or.inl closed
  · obtain ⟨active, current⟩ := inv.open_current channel made closed
    exact Or.inr ⟨active, current, inv.active_pending active⟩

theorem Inv.idle_returns (inv : Inv x) (waits : 0 < x.idles) : ∃ y, x.step .idle = some y := by
  apply Option.isSome_iff_exists.mp
  cases active : x.sync.active with
  | false => simp [SyncState.step, SyncState.idle, waits, active]
  | true =>
    obtain ⟨channel, current, fresh⟩ := inv.active_cv active
    simp [SyncState.step, SyncState.idle, SyncState.close, waits, active, current, fresh]

theorem Inv.restart_returns (inv : Inv x) (now : Instant) :
    ∃ y, x.step (.restart now) = some y := by
  simp only [SyncState.step, SyncState.restart]
  split
  next active =>
    obtain ⟨timer, found⟩ := inv.active_timer active
    split
    next => exact ⟨_, rfl⟩
    next => exact ⟨_, by rw [found]; rfl⟩
  next => exact ⟨_, rfl⟩

theorem Inv.sound (inv : Inv x) : Sound x where
  closed_once := inv.closed_once
  idle_returns := inv.idle_returns
  restart_returns := inv.restart_returns
  current_open := by
    intro active
    obtain ⟨channel, current, fresh⟩ := inv.active_cv active
    exact ⟨channel, current, inv.cv_made channel current, fresh⟩
  idle_pending := inv.active_pending
  others_closed := by
    intro channel made other
    by_contra fresh
    exact other (inv.open_current channel made fresh)
  receiver_due := by
    intro receiver member
    obtain ⟨channel, same, made⟩ := inv.receiver_made receiver member
    exact ⟨channel, same, inv.due made⟩
  reader_due := by
    intro some_reader
    obtain ⟨channel, current⟩ := inv.reader_cv some_reader
    exact ⟨channel, current, inv.due (inv.cv_made channel current)⟩

theorem Inv.activate (inv : Inv x) (inactive : x.sync.active = false) (now : Instant) :
    Inv (x.activate now) where
  closed_once := inv.closed_once
  closed_made := fun channel member => Nat.lt_succ_of_lt (inv.closed_made channel member)
  cv_made := by
    intro channel current
    cases current
    exact Nat.lt_succ_self x.made
  timer_made := by
    intro timer found
    cases found
    simp [SyncState.activate]
  active_cv := by
    intro _
    refine ⟨x.made, rfl, fun member => ?_⟩
    exact Nat.lt_irrefl x.made (inv.closed_made x.made member)
  active_timer := fun _ => ⟨x.armed.length, rfl⟩
  active_pending := fun _ => Or.inl ⟨x.armed.length, rfl, by simp [SyncState.activate]⟩
  open_current := by
    intro channel made fresh
    rcases Nat.lt_succ_iff_lt_or_eq.mp made with earlier | same
    · -- an earlier channel that is open would belong to an active period
      have active := (inv.open_current channel earlier fresh).1
      rw [inactive] at active
      cases active
    · subst same
      exact ⟨rfl, rfl⟩
  reader_cv := fun _ => ⟨x.made, rfl⟩
  receiver_made := by
    intro receiver member
    obtain ⟨channel, same, made⟩ := inv.receiver_made receiver member
    exact ⟨channel, same, Nat.lt_succ_of_lt made⟩

/-- A timer is armed or expires, and calls of `idle` come. -/
theorem Inv.timers (inv : Inv x) {armed : List Bool} {idles : Nat}
    (length : armed.length = x.armed.length)
    (pending : x.sync.active = true → IdlePending { x with armed, idles }) :
    Inv { x with armed, idles } :=
  { inv with
    timer_made := fun timer found => by
      rw [length]
      exact inv.timer_made timer found
    active_pending := pending }

theorem Inv.step (inv : Inv x) (stepped : x.step a = some y) : Inv y := by
  cases SyncState.took_of_step stepped with
  | passed => exact inv
  | entered active =>
    obtain ⟨channel, current, -⟩ := inv.active_cv active
    exact { inv with reader_cv := fun _ => ⟨channel, current⟩ }
  | activated now inactive => exact inv.activate inactive now
  | @extended now timer found =>
    refine inv.timers (List.length_set ..) fun _ => Or.inl ⟨timer, found, ?_⟩
    simp [inv.timer_made timer found]
  | timedOut | called => exact inv.timers rfl fun _ => Or.inr (Nat.succ_pos _)
  | fired => exact inv.timers (List.length_set ..) fun _ => Or.inr (Nat.succ_pos _)
  | idled waits inactive =>
    refine inv.timers rfl fun active => ?_
    rw [inactive] at active
    cases active
  | @closed channel waits current fresh =>
    refine { inv with
      closed_once := List.nodup_append.mpr ⟨inv.closed_once, by simp, ?_⟩
      closed_made := ?_
      active_cv := fun active => by cases active
      active_timer := fun active => by cases active
      active_pending := fun active => by cases active
      open_current := ?_ }
    · intro earlier member later last
      rintro rfl
      exact fresh (List.mem_singleton.mp last ▸ member)
    · intro closed member
      rcases List.mem_append.mp member with earlier | last
      · exact inv.closed_made closed earlier
      · rw [List.mem_singleton.mp last]
        exact inv.cv_made channel current
    · -- the only channel that was open is the one that is closed now
      intro other made still
      have before : other ∉ x.closes := fun member => still (List.mem_append_left _ member)
      have same := (inv.open_current other made before).2
      rw [current] at same
      cases same
      exact absurd (List.mem_append_right _ (List.mem_singleton_self channel)) still
  | read waits =>
    obtain ⟨channel, current⟩ := inv.reader_cv waits
    refine { inv with reader_cv := fun _ => ⟨channel, current⟩, receiver_made := ?_ }
    intro receiver member
    rcases List.mem_append.mp member with earlier | last
    · exact inv.receiver_made receiver earlier
    · rw [List.mem_singleton.mp last]
      exact ⟨channel, current, inv.cv_made channel current⟩
  | received i =>
    exact { inv with
      receiver_made := fun receiver member =>
        inv.receiver_made receiver (List.mem_of_mem_eraseIdx member) }

end Steps

/-- For every interleaving of the calls, with timers that expire at any time. -/
theorem every_state_sound (schedule : List SyncState.Act) :
    Run.Always SyncState.step Sound {} schedule :=
  Run.always_of_invariant (fun _ _ _ inv stepped => inv.step stepped) (fun _ inv => inv.sound)
    inv_new schedule

/-- The timer of the first period ends the second one, on whose channel a call from the first has
come to wait. -/
example : (Run.exec SyncState.step {} [.restart 0, .sync, .restart 300000000, .idle,
    .restart 300000001, .read, .fire 0, .idle, .receive 0]).map SyncState.closes = some [0, 1] := by
  decide

/-! ### Release -/

/-- Timers expire, and calls of `idle` get the lock. -/
def Settles (a : SyncState.Act) : Prop := a = .idle ∨ ∃ timer, a = .fire timer

/-- A timer stands for its expiry and for the call that follows. -/
def left (x : SyncState) : Nat := 2 * x.armed.count true + x.idles

theorem made_and_left_of_settles {x y : SyncState} {a : SyncState.Act} (settles : Settles a)
    (stepped : x.step a = some y) : y.made = x.made ∧ left y < left x := by
  unfold left
  cases SyncState.took_of_step stepped with
  | @fired timer found =>
    obtain ⟨inside, armed⟩ := List.getElem?_eq_some_iff.mp found
    have before : 0 < x.armed.count true :=
      List.count_pos_iff.mpr (List.mem_of_getElem? found)
    have after : (x.armed.set timer false).count true = x.armed.count true - 1 := by
      rw [List.count_set inside, armed]
      rfl
    refine ⟨rfl, ?_⟩
    show 2 * (x.armed.set timer false).count true + (x.idles + 1) < _
    omega
  | idled waits | closed waits =>
    refine ⟨rfl, ?_⟩
    show 2 * x.armed.count true + (x.idles - 1) < _
    omega
  | passed | entered | activated | extended | timedOut | called | read | received =>
    rcases settles with same | ⟨timer, same⟩ <;> cases same

/-- In every run, whatever channel has been made gets closed: some timer can expire or some call
go on until it is, in any order. -/
theorem channel_closes {schedule : List SyncState.Act} {x : SyncState}
    (ran : Run.exec SyncState.step {} schedule = some x) {channel : Nat} (made : channel < x.made) :
    Run.Inevitably SyncState.step Settles (fun y => channel ∈ y.closes) x := by
  have inv : Inv x := Run.invariant (fun _ _ _ inv stepped => inv.step stepped) inv_new ran
  have enabled : ∀ y, (Inv y ∧ channel < y.made) → channel ∉ y.closes →
      ∃ a next, Settles a ∧ y.step a = some next := by
    rintro y ⟨inv, made⟩ still
    rcases inv.due made with closed | ⟨-, -, ⟨timer, -, armed⟩ | waits⟩
    · exact absurd closed still
    · exact ⟨.fire timer, _, Or.inr ⟨timer, rfl⟩, if_pos armed⟩
    · obtain ⟨next, stepped⟩ := inv.idle_returns waits
      exact ⟨.idle, next, Or.inl rfl, stepped⟩
  have falls : ∀ y a next, (Inv y ∧ channel < y.made) → Settles a → y.step a = some next →
      (Inv next ∧ channel < next.made) ∧ left next < left y := by
    rintro y a next ⟨inv, made⟩ settles stepped
    obtain ⟨same, less⟩ := made_and_left_of_settles settles stepped
    exact ⟨⟨inv.step stepped, by omega⟩, less⟩
  exact Run.inevitably_of_falling left enabled falls ⟨inv, made⟩

/-! ### All syncers -/

/-- What holds of a syncer at its start and is kept by its steps holds of all of them. -/
theorem forall_syncers_step {P : SyncState → Prop} {z next : StreamsSynchronizer}
    {a : StreamsSynchronizer.Act} (starts : P {})
    (keeps : ∀ x b y, P x → x.step b = some y → P y) (all : ∀ x ∈ z.syncers, P x)
    (stepped : z.step a = some next) : ∀ x ∈ next.syncers, P x := by
  intro x member
  rcases StreamsSynchronizer.syncers_step stepped with same | ⟨n, b, y, moved, found, took, set⟩ |
    ⟨now, made, activated, appended⟩
  · exact all x (same ▸ member)
  · rw [set] at member
    rcases List.mem_or_eq_of_mem_set member with other | rfl
    · exact all x other
    · exact keeps y b x (all y (List.mem_of_getElem? found)) took
  · rw [appended] at member
    rcases List.mem_append.mp member with other | last
    · exact all x other
    · rw [List.mem_singleton.mp last]
      exact keeps {} (.restart now) made starts activated

/-- For every interleaving of `touch`, `sync` and `remove` on any streams. -/
theorem every_syncer_sound (schedule : List StreamsSynchronizer.Act) :
    Run.Always StreamsSynchronizer.step (fun z => ∀ x ∈ z.syncers, Sound x) {} schedule := by
  have keeps : ∀ (z : StreamsSynchronizer) (a : StreamsSynchronizer.Act)
      (next : StreamsSynchronizer), (∀ x ∈ z.syncers, Inv x) → z.step a = some next →
      ∀ x ∈ next.syncers, Inv x := fun _ _ _ all stepped =>
    forall_syncers_step inv_new (fun _ _ _ inv took => inv.step took) all stepped
  have gives : ∀ z : StreamsSynchronizer, (∀ x ∈ z.syncers, Inv x) → ∀ x ∈ z.syncers, Sound x :=
    fun _ all x member => (all x member).sound
  exact Run.always_of_invariant keeps gives (fun x member => by cases member) schedule

end AnyCable.Guarantees.HistorySync
