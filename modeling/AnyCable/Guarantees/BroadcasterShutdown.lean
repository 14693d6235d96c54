import AnyCable.Lib.Run
import Mathlib.Order.Basic

/-!
# Shutdown of the Redis broadcaster

Source: `broadcast/redis.go:88-237,310-336`. `Shutdown` takes the read side of `clientMu` and keeps
it until it returns; in between it closes `shutdownCh` and waits for `finishedCh`. The reader closes
`finishedCh` when its loop finds `shutdownCh` closed, or in `maybeReconnect` when the attempts are
used up. But a reader that reconnects takes the write side of `clientMu` first, and cannot get it
while `Shutdown` waits (`shutdown_deadlock`).

`finishes_iff_clear` says from which states of a waiting `Shutdown` the reader is bound to close
`finishedCh`, with Redis errors at any place or without further ones. With an error it does so only
if no attempt to reconnect is left; so the wait is safe in every state of every run exactly if
`MaxReconnectAttempts` allows none (`shutdown_finishes_iff`).

There is one call of `Shutdown`. The messages that the loop passes to the node are left out, and so
is the error sent to `done` after `finishedCh` is closed.
-/

set_option autoImplicit false

namespace AnyCable.Guarantees.BroadcasterShutdown
open AnyCable.Lib

/-- Where the reader is. -/
inductive Reader where
  /-- In `runReader`, before the lock of `initClient`. -/
  | starting
  /-- In `initClient`, with the write lock. -/
  | connecting
  /-- Before `XGROUP CREATE`. -/
  | grouping
  | selecting
  /-- In `autoclaimMessages`. -/
  | claiming
  /-- In `readFromStream`. -/
  | reading
  /-- At the start of `maybeReconnect`. -/
  | failed
  /-- In `maybeReconnect`, before the lock. -/
  | sleeping
  /-- In `maybeReconnect`, with the write lock. -/
  | closing
  | stopped
  deriving DecidableEq, Repr

/-- Where the caller of `Shutdown` is. It has the read lock in `entered` and `waiting`. -/
inductive Caller where
  | outside | entered | waiting | returned
  deriving DecidableEq, Repr

def Caller.reads : Caller → Bool
  | .entered | .waiting => true
  | .outside | .returned => false

def Reader.writes : Reader → Bool
  | .connecting | .closing => true
  | .starting | .grouping | .selecting | .claiming | .reading | .failed | .sleeping | .stopped =>
    false

/-- The answer to `XGROUP CREATE`. -/
inductive GroupAnswer where
  | created | busyGroup
  /-- Another error reply of Redis. -/
  | redisErr
  /-- An error without a reply: the loop is entered all the same. -/
  | otherErr
  deriving DecidableEq, Repr

structure RedisBroadcaster where
  /-- `client != nil`. -/
  client : Bool := false
  reconnectAttempt : Int := 0
  /-- `shutdownCh` is closed. -/
  shutdownCh : Bool := false
  /-- How many times `finishedCh` has been closed. -/
  finishedCh : Nat := 0
  reader : Reader := .starting
  caller : Caller := .outside
  deriving DecidableEq, Repr

inductive Act where
  /-- The reader gets the write lock. -/
  | lock
  | connect (ok : Bool)
  | createGroup (answer : GroupAnswer)
  /-- A turn of the loop; the flag says that messages are to be claimed again. -/
  | select (due : Bool)
  | claim (ok : Bool)
  | read (ok : Bool)
  /-- `maybeReconnect` up to its lock. -/
  | reconnect
  | closeClient
  /-- `Shutdown`: the read lock, the check and the close of `shutdownCh`, the end. -/
  | enter
  | check
  | finish
  deriving DecidableEq, Repr

def step (maxReconnectAttempts : Int) (x : RedisBroadcaster) : Act → Option RedisBroadcaster
  | .lock =>
    match x.caller.reads, x.reader with
    | false, .starting => some { x with reader := .connecting }
    | false, .sleeping => some { x with reader := .closing }
    | _, _ => none
  | .connect ok =>
    if x.reader = .connecting then
      if x.client ∨ ok = true then
        some { x with client := true, reconnectAttempt := 0, reader := .grouping }
      else some { x with reader := .failed }
    else none
  | .createGroup answer =>
    if x.reader = .grouping then
      some { x with reader := if answer = .redisErr then .failed else .selecting }
    else none
  | .select due =>
    if x.reader = .selecting then
      if x.shutdownCh then some { x with finishedCh := x.finishedCh + 1, reader := .stopped }
      else some { x with reader := if due then .claiming else .reading }
    else none
  | .claim ok =>
    if x.reader = .claiming then some { x with reader := if ok then .reading else .failed }
    else none
  | .read ok =>
    if x.reader = .reading then some { x with reader := if ok then .selecting else .failed }
    else none
  | .reconnect =>
    if x.reader = .failed then
      if maxReconnectAttempts ≤ x.reconnectAttempt then
        some { x with finishedCh := x.finishedCh + 1, reader := .stopped }
      else some { x with reconnectAttempt := x.reconnectAttempt + 1, reader := .sleeping }
    else none
  | .closeClient =>
    if x.reader = .closing then some { x with client := false, reader := .starting } else none
  | .enter =>
    if x.caller = .outside ∧ x.reader.writes = false then some { x with caller := .entered }
    else none
  | .check =>
    if x.caller = .entered then
      if x.client then some { x with shutdownCh := true, caller := .waiting }
      else some { x with caller := .returned }
    else none
  | .finish =>
    if x.caller = .waiting ∧ 0 < x.finishedCh then some { x with caller := .returned } else none

/-- A Redis error. -/
def Act.error : Act → Bool
  | .connect ok | .claim ok | .read ok => !ok
  | .createGroup answer => answer = .redisErr
  | .lock | .select _ | .reconnect | .closeClient | .enter | .check | .finish => false

def Act.ofReader : Act → Bool
  | .enter | .check | .finish => false
  | .lock | .connect _ | .createGroup _ | .select _ | .claim _ | .read _ | .reconnect
  | .closeClient => true

/-- What the reader may do, with or without Redis errors. -/
def ReaderMay (errors : Bool) (a : Act) : Prop :=
  a.ofReader = true ∧ (a.error = true → errors = true)

def Finished (x : RedisBroadcaster) : Prop := 0 < x.finishedCh

/-- The reader closes `finishedCh` without a new connection. -/
def Clear (maxReconnectAttempts : Int) (errors : Bool) (x : RedisBroadcaster) : Prop :=
  match x.reader with
  | .stopped | .selecting => True
  | .grouping | .claiming | .reading =>
    errors = true → maxReconnectAttempts ≤ x.reconnectAttempt
  | .failed => maxReconnectAttempts ≤ x.reconnectAttempt
  | .starting | .connecting | .sleeping | .closing => False

/-! ### Reachable states -/

structure Inv (maxReconnectAttempts : Int) (x : RedisBroadcaster) : Prop where
  closes : x.finishedCh = if x.reader = .stopped then 1 else 0
  waits : x.caller = .waiting → x.shutdownCh = true ∧ x.client = true
  excludes : x.reader.writes = true → x.caller.reads = false
  connected : x.reader = .grouping ∨ x.reader = .selecting ∨ x.reader = .claiming ∨
    x.reader = .reading → x.reconnectAttempt = 0
  unconnected : x.reader = .starting ∨ x.reader = .connecting → x.client = false
  counted : 0 ≤ x.reconnectAttempt
  retried : x.reader = .sleeping → 0 < maxReconnectAttempts

section Steps

variable {max : Int} {x y : RedisBroadcaster} {a : Act}

theorem inv_start : Inv max {} := by
  constructor <;> simp [Reader.writes]

theorem Inv.unfinished (inv : Inv max x) (running : x.reader ≠ .stopped) : x.finishedCh = 0 := by
  rw [inv.closes, if_neg running]

/-- The reader goes on with the connection it has. -/
theorem Inv.serve (inv : Inv max x) (running : x.reader ≠ .stopped) {place : Reader}
    (served : place = .selecting ∨ place = .claiming ∨ place = .reading)
    (fresh : x.reconnectAttempt = 0) : Inv max { x with reader := place } := by
  have unfinished := inv.unfinished running
  rcases served with rfl | rfl | rfl
  all_goals
    refine ⟨unfinished, inv.waits, nofun, fun _ => fresh, ?_, inv.counted, nofun⟩
    rintro (other | other) <;> cases other

theorem Inv.fail (inv : Inv max x) (running : x.reader ≠ .stopped) :
    Inv max { x with reader := .failed } := by
  refine ⟨inv.unfinished running, inv.waits, nofun, ?_, ?_, inv.counted, nofun⟩
  · rintro (other | other | other | other) <;> cases other
  · rintro (other | other) <;> cases other

theorem Inv.stop (inv : Inv max x) (running : x.reader ≠ .stopped) :
    Inv max { x with finishedCh := x.finishedCh + 1, reader := .stopped } := by
  have unfinished := inv.unfinished running
  refine ⟨?_, inv.waits, nofun, ?_, ?_, inv.counted, nofun⟩
  · rw [unfinished, if_pos rfl]
  · rintro (other | other | other | other) <;> cases other
  · rintro (other | other) <;> cases other

theorem Inv.lock (inv : Inv max x) (stepped : step max x .lock = some y) : Inv max y := by
  simp only [BroadcasterShutdown.step] at stepped
  split at stepped
  next free starting =>
    cases stepped
    have absent := inv.unconnected (Or.inl starting)
    refine ⟨inv.unfinished (by simp [starting]), inv.waits, fun _ => free, ?_, fun _ => absent,
      inv.counted, nofun⟩
    rintro (other | other | other | other) <;> cases other
  next free sleeping =>
    cases stepped
    refine ⟨inv.unfinished (by simp [sleeping]), inv.waits, fun _ => free, ?_, ?_, inv.counted,
      nofun⟩
    · rintro (other | other | other | other) <;> cases other
    · rintro (other | other) <;> cases other
  next => cases stepped

theorem Inv.connect {ok : Bool} (inv : Inv max x) (stepped : step max x (.connect ok) = some y) :
    Inv max y := by
  simp only [BroadcasterShutdown.step] at stepped
  split at stepped
  next connecting =>
    have running : x.reader ≠ .stopped := by simp [connecting]
    split at stepped
    · cases stepped
      refine ⟨inv.unfinished running, fun waiting => ⟨(inv.waits waiting).1, rfl⟩, nofun,
        fun _ => rfl, ?_, Int.le_refl 0, nofun⟩
      rintro (other | other) <;> cases other
    · cases stepped
      exact inv.fail running
  next => cases stepped

theorem Inv.reconnect (inv : Inv max x) (stepped : step max x .reconnect = some y) :
    Inv max y := by
  simp only [BroadcasterShutdown.step] at stepped
  split at stepped
  next failed =>
    have running : x.reader ≠ .stopped := by simp [failed]
    split at stepped
    · cases stepped
      exact inv.stop running
    next left =>
      cases stepped
      have counted := inv.counted
      refine ⟨inv.unfinished running, inv.waits, nofun, ?_, ?_, by dsimp only; omega,
        fun _ => by omega⟩
      · rintro (other | other | other | other) <;> cases other
      · rintro (other | other) <;> cases other
  next => cases stepped

theorem Inv.closeClient (inv : Inv max x) (stepped : step max x .closeClient = some y) :
    Inv max y := by
  simp only [BroadcasterShutdown.step] at stepped
  split at stepped
  next closing =>
    cases stepped
    -- a waiting caller would hold the lock that the reader has
    have away : x.caller ≠ .waiting := by
      intro waiting
      have free := inv.excludes (by rw [closing]; rfl)
      rw [waiting] at free
      cases free
    refine ⟨inv.unfinished (by simp [closing]), fun waiting => absurd waiting away, nofun, ?_,
      fun _ => rfl, inv.counted, nofun⟩
    rintro (other | other | other | other) <;> cases other
  next => cases stepped

theorem Inv.step (inv : Inv max x) (stepped : step max x a = some y) : Inv max y := by
  cases a with
  | lock => exact inv.lock stepped
  | connect ok => exact inv.connect stepped
  | reconnect => exact inv.reconnect stepped
  | closeClient => exact inv.closeClient stepped
  | createGroup answer =>
    simp only [BroadcasterShutdown.step] at stepped
    split at stepped
    next grouping =>
      cases stepped
      have running : x.reader ≠ .stopped := by simp [grouping]
      split
      · exact inv.fail running
      · exact inv.serve running (Or.inl rfl) (inv.connected (Or.inl grouping))
    next => cases stepped
  | select due =>
    simp only [BroadcasterShutdown.step] at stepped
    split at stepped
    next selecting =>
      have running : x.reader ≠ .stopped := by simp [selecting]
      split at stepped
      · cases stepped
        exact inv.stop running
      · cases stepped
        refine inv.serve running ?_ (inv.connected (Or.inr (Or.inl selecting)))
        cases due <;> simp
    next => cases stepped
  | claim ok =>
    simp only [BroadcasterShutdown.step] at stepped
    split at stepped
    next claiming =>
      cases stepped
      have running : x.reader ≠ .stopped := by simp [claiming]
      cases ok with
      | false => exact inv.fail running
      | true => exact inv.serve running (by simp) (inv.connected (by simp [claiming]))
    next => cases stepped
  | read ok =>
    simp only [BroadcasterShutdown.step] at stepped
    split at stepped
    next reading =>
      cases stepped
      have running : x.reader ≠ .stopped := by simp [reading]
      cases ok with
      | false => exact inv.fail running
      | true => exact inv.serve running (by simp) (inv.connected (by simp [reading]))
    next => cases stepped
  | enter =>
    simp only [BroadcasterShutdown.step] at stepped
    split at stepped
    next free =>
      cases stepped
      refine ⟨inv.closes, nofun, fun writes => ?_, inv.connected, inv.unconnected, inv.counted,
        inv.retried⟩
      cases free.2.symm.trans writes
    next => cases stepped
  | check =>
    simp only [BroadcasterShutdown.step] at stepped
    split at stepped
    next entered =>
      have idle : x.reader.writes = true → False := by
        intro writes
        have free := inv.excludes writes
        rw [entered] at free
        cases free
      split at stepped
      next present =>
        cases stepped
        exact ⟨inv.closes, fun _ => ⟨rfl, present⟩, fun writes => (idle writes).elim,
          inv.connected, inv.unconnected, inv.counted, inv.retried⟩
      · cases stepped
        exact ⟨inv.closes, nofun, fun _ => rfl, inv.connected, inv.unconnected, inv.counted,
          inv.retried⟩
    next => cases stepped
  | finish =>
    simp only [BroadcasterShutdown.step] at stepped
    split at stepped
    next done =>
      cases stepped
      exact ⟨inv.closes, nofun, fun _ => rfl, inv.connected, inv.unconnected, inv.counted,
        inv.retried⟩
    next => cases stepped

theorem inv_reachable {acts : List Act} (ran : Run.exec (step max) {} acts = some x) : Inv max x :=
  Run.invariant (fun _ _ _ inv stepped => inv.step stepped) inv_start ran

/-! ### A waiting `Shutdown` -/

theorem Inv.pending (inv : Inv max x) (running : x.reader ≠ .stopped) : ¬ Finished x := by
  rw [Finished, inv.unfinished running]
  exact Nat.lt_irrefl 0

/-- The client that a waiting caller has seen is there until the caller gives the lock back. -/
theorem Inv.not_connecting (inv : Inv max x) (waiting : x.caller = .waiting) :
    ¬ (x.reader = .starting ∨ x.reader = .connecting ∨ x.reader = .closing) := by
  have keeps : x.caller.reads ≠ false := by
    rw [waiting]
    exact nofun
  have present := (inv.waits waiting).2
  rintro (starting | connecting | closing)
  · rw [inv.unconnected (Or.inl starting)] at present
    cases present
  · exact keeps (inv.excludes (by rw [connecting]; rfl))
  · exact keeps (inv.excludes (by rw [closing]; rfl))

theorem finishes_stopped {errors : Bool} (inv : Inv max x) (stopped : x.reader = .stopped) :
    Run.Inevitably (step max) (ReaderMay errors) Finished x := by
  refine .now ?_
  rw [Finished, inv.closes, if_pos stopped]
  exact Nat.one_pos

/-- The reader's place says which of its steps are enabled. -/
theorem step_ofReader (stepped : step max x a = some y) (reader : a.ofReader = true) :
    match x.reader with
    | .starting | .sleeping => a = .lock
    | .connecting => ∃ ok, a = .connect ok
    | .grouping => ∃ answer, a = .createGroup answer
    | .selecting => ∃ due, a = .select due
    | .claiming => ∃ ok, a = .claim ok
    | .reading => ∃ ok, a = .read ok
    | .failed => a = .reconnect
    | .closing => a = .closeClient
    | .stopped => False := by
  cases a <;> cases at_ : x.reader <;> simp_all [step, Act.ofReader]

theorem finishes_selecting {errors : Bool} (closed : x.shutdownCh = true)
    (selecting : x.reader = .selecting) :
    Run.Inevitably (step max) (ReaderMay errors) Finished x := by
  have next : ∀ due, step max x (.select due) =
      some { x with finishedCh := x.finishedCh + 1, reader := .stopped } := by
    simp [step, selecting, closed]
  refine .later ⟨.select false, _, ⟨rfl, nofun⟩, next false⟩ fun a y may stepped => .now ?_
  have only := step_ofReader stepped may.1
  rw [selecting] at only
  obtain ⟨due, rfl⟩ := only
  rw [next due] at stepped
  cases stepped
  exact Nat.succ_pos _

/-- The reader waits for a lock that the caller keeps. -/
theorem not_finishes_sleeping {errors : Bool} (inv : Inv max x) (waiting : x.caller = .waiting)
    (sleeping : x.reader = .sleeping) :
    ¬ Run.Inevitably (step max) (ReaderMay errors) Finished x := by
  refine Run.not_inevitably_of_stuck (inv.pending (by simp [sleeping])) fun a may => ?_
  cases taken : step max x a with
  | none => rfl
  | some y =>
    have only := step_ofReader taken may.1
    rw [sleeping] at only
    cases only
    simp [step, waiting, Caller.reads] at taken

theorem finishes_failed_iff {errors : Bool} (inv : Inv max x) (waiting : x.caller = .waiting)
    (failed : x.reader = .failed) :
    Run.Inevitably (step max) (ReaderMay errors) Finished x ↔ max ≤ x.reconnectAttempt := by
  have pending := inv.pending (by simp [failed])
  constructor
  · intro finishes
    by_contra left
    have stepped : step max x .reconnect =
        some { x with reconnectAttempt := x.reconnectAttempt + 1, reader := .sleeping } := by
      simp [step, failed, left]
    exact not_finishes_sleeping (inv.step stepped) waiting rfl
      (finishes.next (a := .reconnect) pending ⟨rfl, nofun⟩ stepped)
  · intro used
    have stepped : step max x .reconnect =
        some { x with finishedCh := x.finishedCh + 1, reader := .stopped } := by
      simp [step, failed, used]
    refine .later ⟨.reconnect, _, ⟨rfl, nofun⟩, stepped⟩ fun a y may taken => .now ?_
    have only := step_ofReader taken may.1
    rw [failed] at only
    rw [only, stepped] at taken
    cases taken
    exact Nat.succ_pos _

/-- A call to Redis, after which the reader goes on or fails. -/
theorem finishes_call_iff {errors : Bool} {good bad : Act} {next : RedisBroadcaster}
    (inv : Inv max x) (waiting : x.caller = .waiting) (running : x.reader ≠ .stopped)
    (mayGood : ReaderMay errors good) (ofReader : bad.ofReader = true)
    (goes : step max x good = some next)
    (fails : step max x bad = some { x with reader := .failed })
    (only : ∀ a y, ReaderMay errors a → step max x a = some y →
      y = next ∨ errors = true ∧ y = { x with reader := .failed }) :
    Run.Inevitably (step max) (ReaderMay errors) Finished x ↔
      Run.Inevitably (step max) (ReaderMay errors) Finished next ∧
        (errors = true → max ≤ x.reconnectAttempt) := by
  have failedIff :
      Run.Inevitably (step max) (ReaderMay errors) Finished { x with reader := .failed } ↔
        max ≤ x.reconnectAttempt := finishes_failed_iff (inv.step fails) waiting rfl
  constructor
  · intro finishes
    have pending := inv.pending running
    refine ⟨finishes.next pending mayGood goes, fun allowed => failedIff.mp ?_⟩
    exact finishes.next pending ⟨ofReader, fun _ => allowed⟩ fails
  · rintro ⟨further, used⟩
    refine .later ⟨good, next, mayGood, goes⟩ fun a y may stepped => ?_
    obtain rfl | ⟨allowed, rfl⟩ := only a y may stepped
    · exact further
    · exact failedIff.mpr (used allowed)

theorem finishes_reading_iff {errors : Bool} (inv : Inv max x) (waiting : x.caller = .waiting)
    (reading : x.reader = .reading) :
    Run.Inevitably (step max) (ReaderMay errors) Finished x ↔
      (errors = true → max ≤ x.reconnectAttempt) := by
  have may : ReaderMay errors (.read true) := ⟨rfl, nofun⟩
  have goes : step max x (.read true) = some { x with reader := .selecting } := by
    simp [step, reading]
  have fails : step max x (.read false) = some { x with reader := .failed } := by
    simp [step, reading]
  rw [finishes_call_iff inv waiting (by simp [reading]) may rfl goes fails]
  · exact and_iff_right (finishes_selecting (inv.waits waiting).1 rfl)
  · intro a y may stepped
    have only := step_ofReader stepped may.1
    rw [reading] at only
    obtain ⟨ok, rfl⟩ := only
    cases ok with
    | true => exact Or.inl (Option.some.inj (stepped.symm.trans goes))
    | false => exact Or.inr ⟨may.2 rfl, Option.some.inj (stepped.symm.trans fails)⟩

theorem finishes_claiming_iff {errors : Bool} (inv : Inv max x) (waiting : x.caller = .waiting)
    (claiming : x.reader = .claiming) :
    Run.Inevitably (step max) (ReaderMay errors) Finished x ↔
      (errors = true → max ≤ x.reconnectAttempt) := by
  have may : ReaderMay errors (.claim true) := ⟨rfl, nofun⟩
  have goes : step max x (.claim true) = some { x with reader := .reading } := by
    simp [step, claiming]
  have fails : step max x (.claim false) = some { x with reader := .failed } := by
    simp [step, claiming]
  rw [finishes_call_iff inv waiting (by simp [claiming]) may rfl goes fails,
    finishes_reading_iff (inv.step goes) waiting rfl]
  · exact and_self_iff
  · intro a y may stepped
    have only := step_ofReader stepped may.1
    rw [claiming] at only
    obtain ⟨ok, rfl⟩ := only
    cases ok with
    | true => exact Or.inl (Option.some.inj (stepped.symm.trans goes))
    | false => exact Or.inr ⟨may.2 rfl, Option.some.inj (stepped.symm.trans fails)⟩

theorem finishes_grouping_iff {errors : Bool} (inv : Inv max x) (waiting : x.caller = .waiting)
    (grouping : x.reader = .grouping) :
    Run.Inevitably (step max) (ReaderMay errors) Finished x ↔
      (errors = true → max ≤ x.reconnectAttempt) := by
  have may : ReaderMay errors (.createGroup .created) := ⟨rfl, nofun⟩
  have goes : ∀ answer, answer ≠ .redisErr →
      step max x (.createGroup answer) = some { x with reader := .selecting } := by
    intro answer other
    simp [step, grouping, other]
  have fails : step max x (.createGroup .redisErr) = some { x with reader := .failed } := by
    simp [step, grouping]
  rw [finishes_call_iff inv waiting (by simp [grouping]) may rfl
    (goes .created (by decide)) fails]
  · exact and_iff_right (finishes_selecting (inv.waits waiting).1 rfl)
  · intro a y may stepped
    have only := step_ofReader stepped may.1
    rw [grouping] at only
    obtain ⟨answer, rfl⟩ := only
    by_cases refused : answer = .redisErr
    · subst refused
      exact Or.inr ⟨may.2 rfl, Option.some.inj (stepped.symm.trans fails)⟩
    · exact Or.inl (Option.some.inj (stepped.symm.trans (goes answer refused)))

theorem Inv.clear (inv : Inv max x) (waiting : x.caller = .waiting) (none : max ≤ 0) :
    Clear max true x := by
  have used : max ≤ x.reconnectAttempt := Int.le_trans none inv.counted
  unfold Clear
  cases place : x.reader with
  | stopped | selecting => trivial
  | reading | claiming | grouping => exact fun _ => used
  | failed => exact used
  | sleeping => exact absurd (inv.retried place) (by omega)
  | starting => exact inv.not_connecting waiting (Or.inl place)
  | connecting => exact inv.not_connecting waiting (Or.inr (Or.inl place))
  | closing => exact inv.not_connecting waiting (Or.inr (Or.inr place))

theorem finishes_iff_clear {errors : Bool} (inv : Inv max x) (waiting : x.caller = .waiting) :
    Run.Inevitably (step max) (ReaderMay errors) Finished x ↔ Clear max errors x := by
  unfold Clear
  cases place : x.reader with
  | stopped => exact iff_true_intro (finishes_stopped inv place)
  | selecting => exact iff_true_intro (finishes_selecting (inv.waits waiting).1 place)
  | reading => exact finishes_reading_iff inv waiting place
  | claiming => exact finishes_claiming_iff inv waiting place
  | grouping => exact finishes_grouping_iff inv waiting place
  | failed => exact finishes_failed_iff inv waiting place
  | sleeping => exact iff_false_intro (not_finishes_sleeping inv waiting place)
  | starting => exact (inv.not_connecting waiting (Or.inl place)).elim
  | connecting => exact (inv.not_connecting waiting (Or.inr (Or.inl place))).elim
  | closing => exact (inv.not_connecting waiting (Or.inr (Or.inr place))).elim

end Steps

/-- The caller comes while the first read is under way. -/
def duringRead : List Act :=
  [.lock, .connect true, .createGroup .created, .select false, .enter, .check]

/-- Without attempts to reconnect every error is the last one; otherwise some error leaves the
caller waiting for good. -/
theorem shutdown_finishes_iff (maxReconnectAttempts : Int) :
    ((∀ acts x, Run.exec (step maxReconnectAttempts) {} acts = some x → x.caller = .waiting →
        Run.Inevitably (step maxReconnectAttempts) (ReaderMay true) Finished x) ↔
      maxReconnectAttempts ≤ 0) ∧
    ∀ acts x, Run.exec (step maxReconnectAttempts) {} acts = some x →
      x.finishedCh ≤ 1 ∧
      (x.caller = .waiting → ∀ errors,
        (Run.Inevitably (step maxReconnectAttempts) (ReaderMay errors) Finished x ↔
          Clear maxReconnectAttempts errors x)) := by
  refine ⟨⟨fun safe => ?_, fun none acts x ran waiting => ?_⟩, fun acts x ran => ⟨?_, ?_⟩⟩
  · obtain ⟨x, ran, waiting, clear⟩ : ∃ x, Run.exec (step maxReconnectAttempts) {} duringRead =
        some x ∧ x.caller = .waiting ∧ (Clear maxReconnectAttempts true x → _) :=
      ⟨_, rfl, rfl, fun clear => clear rfl⟩
    exact clear ((finishes_iff_clear (inv_reachable ran) waiting).mp (safe _ x ran waiting))
  · have inv := inv_reachable ran
    rw [finishes_iff_clear inv waiting]
    exact inv.clear waiting none
  · rw [(inv_reachable ran).closes]
    split <;> decide
  · intro waiting errors
    exact finishes_iff_clear (inv_reachable ran) waiting

/-- The caller comes between two turns of the loop. -/
theorem shutdown_finishes_idle :
    ∃ x, Run.exec (step 5) {} [.lock, .connect true, .createGroup .created, .enter, .check] =
        some x ∧ x.caller = .waiting ∧
      Run.Inevitably (step 5) (ReaderMay true) Finished x ∧ x.finishedCh ≤ 1 := by
  obtain ⟨x, ran, waiting, clear⟩ : ∃ x, Run.exec (step 5) {} [.lock, .connect true,
      .createGroup .created, .enter, .check] = some x ∧ x.caller = .waiting ∧ Clear 5 true x :=
    ⟨_, rfl, rfl, trivial⟩
  obtain ⟨once, finishes⟩ := (shutdown_finishes_iff 5).2 _ x ran
  exact ⟨x, ran, waiting, (finishes waiting true).mpr clear, once⟩

/-- The read fails, and nobody can move any more. The same if the caller comes after the error. -/
theorem shutdown_deadlock :
    (∃ x, Run.exec (step 5) {} (duringRead ++ [.read false, .reconnect]) = some x ∧
      x.caller = .waiting ∧ x.finishedCh = 0 ∧ ∀ a, step 5 x a = none) ∧
    ∃ x, Run.exec (step 5) {} [.lock, .connect true, .createGroup .created, .select false,
        .read false, .reconnect, .enter, .check] = some x ∧
      x.caller = .waiting ∧ x.finishedCh = 0 ∧ ∀ a, step 5 x a = none := by
  refine ⟨⟨_, rfl, rfl, rfl, fun a => ?_⟩, ⟨_, rfl, rfl, rfl, fun a => ?_⟩⟩
  · cases a <;> rfl
  · cases a <;> rfl

end AnyCable.Guarantees.BroadcasterShutdown
