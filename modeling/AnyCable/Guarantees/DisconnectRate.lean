import AnyCable.Guarantees.DisconnectOnce
import AnyCable.Lib.Ticker
import Mathlib.Tactic.Ring

/-!
# The rate of disconnect calls

Source: `node/disconnect_queue.go:58-89`. `Run` takes a session from the queue and waits for a tick
before it calls `DisconnectNow`. `Rate` is meant as calls per second; the period of the ticker is
`1000 / Rate` milliseconds, and the division is the one of integers. Without a positive period there
is no queue: `Rate = 0` divides by zero, and `time.NewTicker` panics for all others that are not
between 1 and 1000 (`period_eq_some_iff`).

`DisconnectOnce` has the calls, the queue, its loop and the shutdown; here time passes and the loop
needs a tick. Before a shutdown, in every run and in any `n` seconds of it, the node makes at most
`n * Rate + 2` calls exactly if `Rate` divides 1000 (`rate_kept_iff`). Otherwise the period is cut
down, and the queue calls faster than it is told to (`rate_600_exceeded`). One of the two calls over
the rate has waited after its tick, the other is at the far end of the window. What `Shutdown` and a
node that is shutting down call is not throttled.

Time is in milliseconds. Every step may take any time.
-/

set_option autoImplicit false

namespace AnyCable.Guarantees.DisconnectRate
open AnyCable.Lib AnyCable.Source

/-- `1000 / config.Rate` as a period; `none` where the code panics. -/
def period (rate : Int) : Option Nat :=
  if rate = 0 then none
  else
    let rateDuration := Int.tdiv 1000 rate
    if rateDuration ≤ 0 then none else some rateDuration.toNat

structure State where
  node : DisconnectOnce.State
  throttle : Ticker
  /-- When `Run` received the tick for the session it holds. -/
  tick : Option Nat := none
  /-- The calls of `Run`: when it received the tick, and when it called. -/
  throttled : List (Nat × Nat) := []
  /-- When others called: `Shutdown`, and `Disconnect` during a shutdown. -/
  others : List Nat := []

inductive Act where
  | wait (time : Nat)
  /-- `<-throttle.C`. -/
  | tick
  | go (act : DisconnectOnce.Act)

section Step

variable (people : SessionRef → Session) (backlog : Nat)

def step (x : State) : Act → Option State
  | .wait time => some { x with throttle := x.throttle.advance time }
  | .tick =>
    match x.node.run, x.tick with
    | .holding _, none =>
      x.throttle.receive.map fun throttle => { x with throttle, tick := some x.throttle.now }
    | _, _ => none
  | .go .runCall => do
    let tick ← x.tick
    let node ← DisconnectOnce.step people backlog x.node .runCall
    return { x with node, tick := none, throttled := x.throttled ++ [(tick, x.throttle.now)] }
  | .go act => do
    let node ← DisconnectOnce.step people backlog x.node act
    let calls := node.called.length - x.node.called.length
    return { x with node, others := x.others ++ List.replicate calls x.throttle.now }

end Step

def State.start (n : Node) (throttle : Ticker) : State := { node := .start n, throttle }

/-- The calls in `seconds` from `start` on. -/
def callsIn (x : State) (start seconds : Nat) : Nat :=
  ((x.throttled.map Prod.snd ++ x.others).filter fun time =>
    start ≤ time ∧ time < start + 1000 * seconds).length

/-- A queue runs with a rate between 1 and 1000, and its period is the quotient. -/
theorem period_eq_some_iff {rate : Int} {d : Nat} :
    period rate = some d ↔ 1 ≤ rate ∧ rate ≤ 1000 ∧ d = 1000 / rate.toNat := by
  unfold period
  by_cases zero : rate = 0
  · simp [zero]
  rw [if_neg zero]
  rcases Int.lt_or_lt_of_ne zero with negative | positive
  · have down : Int.tdiv 1000 rate ≤ 0 := Int.tdiv_nonpos_of_nonneg_of_nonpos (by decide) (by omega)
    simp only [down, if_true]
    constructor
    · intro none
      cases none
    · omega
  · obtain ⟨n, rfl⟩ := Int.eq_ofNat_of_zero_le (Int.le_of_lt positive)
    have quotient : Int.tdiv 1000 (n : Int) = ((1000 / n : Nat) : Int) := rfl
    have some : 0 < 1000 / n ↔ n ≤ 1000 := by
      rw [Nat.div_pos_iff]
      omega
    rw [quotient]
    simp only [Int.toNat_natCast]
    split
    · constructor
      · intro none
        cases none
      · omega
    · rw [Option.some.injEq]
      omega

/-! ### Before the shutdown -/

/-- Nobody calls but the loop. -/
structure Open (x : DisconnectOnce.State) : Prop where
  closed : x.node.closed = false
  queued : ∀ r, x.calls r ≠ .remove ∧ x.calls r ≠ .now

section Open

variable {people : SessionRef → Session} {backlog : Nat} {x y : DisconnectOnce.State}

theorem Open.move (opened : Open x) {r : SessionRef} {c : DisconnectOnce.Call}
    (closed : y.node.closed = false) (calls : y.calls = Function.update x.calls r c)
    (other : c ≠ .remove ∧ c ≠ .now) : Open y where
  closed := closed
  queued := by
    intro r'
    rw [calls]
    by_cases own : r' = r
    · subst own
      simpa using other
    · simpa [own] using opened.queued r'

theorem open_callStep {r : SessionRef} (opened : Open x)
    (stepped : DisconnectOnce.callStep people backlog x r (x.calls r) = some y) :
    Open y ∧ y.called = x.called := by
  cases phase : x.calls r with
  | idle | returned =>
    rw [phase] at stepped
    cases stepped
  | remove => exact absurd phase (opened.queued r).1
  | now => exact absurd phase (opened.queued r).2
  | check =>
    rw [phase] at stepped
    cases stepped
    exact ⟨opened.move opened.closed rfl (by simp [opened.closed]), rfl⟩
  | removeLater =>
    rw [phase] at stepped
    simp only [DisconnectOnce.callStep, Option.ite_none_right_eq_some,
      Option.some.injEq] at stepped
    obtain ⟨-, rfl⟩ := stepped
    refine ⟨opened.move opened.closed rfl ?_, rfl⟩
    unfold DisconnectOnce.afterRemove
    split <;> simp
  | enqueue =>
    rw [phase] at stepped
    cases stepped
    refine ⟨opened.move opened.closed rfl ?_, rfl⟩
    split <;> simp
  | push =>
    rw [phase] at stepped
    simp only [DisconnectOnce.callStep, Option.ite_none_right_eq_some,
      Option.some.injEq] at stepped
    obtain ⟨-, rfl⟩ := stepped
    exact ⟨opened.move opened.closed rfl (by simp), rfl⟩

theorem shutdownStep_not_idle (stepped : DisconnectOnce.shutdownStep people x = some y) :
    y.shutdown ≠ .idle := by
  unfold DisconnectOnce.shutdownStep at stepped
  split at stepped
  · cases stepped
    simp
  · split at stepped <;> cases stepped <;> simp
  · cases stepped
    dsimp only
    split <;> simp
  · split at stepped <;> cases stepped <;> simp
  · cases stepped
    simp
  · cases stepped

theorem callStep_shutdown {r : SessionRef} {c : DisconnectOnce.Call}
    (stepped : DisconnectOnce.callStep people backlog x r c = some y) :
    y.shutdown = x.shutdown := by
  cases c with
  | idle | returned => cases stepped
  | check | remove | now | enqueue =>
    cases stepped
    rfl
  | removeLater | push =>
    simp only [DisconnectOnce.callStep, Option.ite_none_right_eq_some,
      Option.some.injEq] at stepped
    obtain ⟨-, rfl⟩ := stepped
    rfl

/-- A step that does not begin the shutdown: only the loop calls. -/
theorem open_step {a : DisconnectOnce.Act} (opened : x.shutdown = .idle → Open x)
    (stepped : DisconnectOnce.step people backlog x a = some y) (idle : y.shutdown = .idle) :
    x.shutdown = .idle ∧ Open y ∧ (a ≠ .runCall → y.called = x.called) := by
  cases a with
  | shutdown => exact absurd idle (shutdownStep_not_idle stepped)
  | call r =>
    have before : x.shutdown = .idle := (callStep_shutdown stepped).symm.trans idle
    obtain ⟨after, same⟩ := open_callStep (opened before) stepped
    exact ⟨before, after, fun _ => same⟩
  | disconnect r now =>
    simp only [DisconnectOnce.step, Option.ite_none_right_eq_some, Option.some.injEq] at stepped
    obtain ⟨-, rfl⟩ := stepped
    have before := opened idle
    exact ⟨idle, before.move before.closed rfl (by simp), fun _ => rfl⟩
  | hand r =>
    simp only [DisconnectOnce.step, Option.ite_none_right_eq_some, Option.some.injEq] at stepped
    obtain ⟨-, rfl⟩ := stepped
    have before := opened idle
    exact ⟨idle, before.move before.closed rfl (by simp), fun _ => rfl⟩
  | runStop =>
    simp only [DisconnectOnce.step, Option.ite_none_right_eq_some, Option.some.injEq] at stepped
    obtain ⟨-, rfl⟩ := stepped
    exact ⟨idle, ⟨(opened idle).closed, (opened idle).queued⟩, fun _ => rfl⟩
  | runCall =>
    simp only [DisconnectOnce.step] at stepped
    split at stepped
    · cases stepped
      exact ⟨idle, ⟨(opened idle).closed, (opened idle).queued⟩, fun other => absurd rfl other⟩
    · cases stepped
  | take | register =>
    simp only [DisconnectOnce.step] at stepped
    split at stepped <;> cases stepped
    all_goals exact ⟨idle, ⟨(opened idle).closed, (opened idle).queued⟩, fun _ => rfl⟩

end Open

section Runs

variable {people : SessionRef → Session} {backlog d : Nat} {x y : State}

structure Inv (d : Nat) (x : State) : Prop where
  throttled : x.throttle.Throttled x.throttled x.tick
  period : x.throttle.period = d
  opened : x.node.shutdown = .idle → Open x.node
  alone : x.node.shutdown = .idle → x.others = []

theorem inv_start (n : Node) (throttle : Ticker) : Inv throttle.period (.start n throttle) where
  throttled := Ticker.throttled_nil
  period := rfl
  opened _ := ⟨rfl, fun _ => by simp [State.start, DisconnectOnce.State.start]⟩
  alone _ := rfl

theorem inv_step {a : Act} (inv : Inv d x) (stepped : step people backlog x a = some y) :
    Inv d y := by
  cases a with
  | wait time =>
    cases stepped
    exact ⟨inv.throttled.advance time, inv.period, inv.opened, inv.alone⟩
  | tick =>
    simp only [step] at stepped
    split at stepped
    next missing =>
      obtain ⟨throttle, received, rfl⟩ := Option.map_eq_some_iff.mp stepped
      have throttled := inv.throttled
      rw [missing] at throttled
      refine ⟨throttled.receive received, ?_, inv.opened, inv.alone⟩
      simp only [Ticker.receive, Option.ite_none_right_eq_some, Option.some.injEq] at received
      obtain ⟨-, rfl⟩ := received
      exact inv.period
    · cases stepped
  | go act =>
    by_cases loop : act = .runCall
    · subst loop
      simp only [step, Option.bind_eq_bind, Option.bind_eq_some_iff, Option.pure_def,
        Option.some.injEq] at stepped
      obtain ⟨tick, received, node, went, rfl⟩ := stepped
      have throttled := inv.throttled
      rw [received] at throttled
      exact ⟨throttled.act, inv.period, fun idle => (open_step inv.opened went idle).2.1,
        fun idle => inv.alone (open_step inv.opened went idle).1⟩
    · have went : ∃ node, DisconnectOnce.step people backlog x.node act = some node ∧
          y = { x with
            node
            others := x.others ++ List.replicate (node.called.length - x.node.called.length)
              x.throttle.now } := by
        cases act with
        | runCall => exact absurd rfl loop
        | _ =>
          simp only [step, Option.bind_eq_bind, Option.bind_eq_some_iff, Option.pure_def,
            Option.some.injEq] at stepped
          obtain ⟨node, went, rfl⟩ := stepped
          exact ⟨node, went, rfl⟩
      obtain ⟨node, went, rfl⟩ := went
      refine ⟨inv.throttled, inv.period, fun idle => (open_step inv.opened went idle).2.1,
        fun idle => ?_⟩
      obtain ⟨before, -, same⟩ := open_step inv.opened went idle
      simp [inv.alone before, same loop]

/-- At a rate that divides 1000. -/
theorem callsIn_le {seconds r : Nat} (inv : Inv d x) (idle : x.node.shutdown = .idle)
    (exact_ : d * r = 1000) (start : Nat) : callsIn x start seconds ≤ seconds * r + 2 := by
  have positive : 0 < d := inv.period ▸ x.throttle.positive
  rw [callsIn, inv.alone idle, List.append_nil, List.filter_map, List.length_map]
  cases seconds with
  | zero =>
    have none : x.throttled.filter ((fun time => decide (start ≤ time ∧
        time < start + 1000 * 0)) ∘ Prod.snd) = [] := by
      simp only [List.filter_eq_nil_iff, Function.comp_apply, decide_eq_true_eq]
      omega
    rw [none]
    exact Nat.zero_le _
  | succ n =>
    have few := inv.throttled.window start (1000 * (n + 1)) (by omega)
    have periods : (1000 * (n + 1) - 1) / x.throttle.period < (n + 1) * r := by
      rw [inv.period, Nat.div_lt_iff_lt_mul positive, ← exact_]
      have total : (n + 1) * r * d = d * r * (n + 1) := by ring
      have some : 0 < d * r := by omega
      rw [total]
      exact Nat.sub_lt (Nat.mul_pos some (Nat.succ_pos n)) Nat.one_pos
    refine Nat.le_trans few ?_
    omega

/-! ### A queue that is never empty -/

/-- After `k` rounds. -/
structure Busy (d k : Nat) (x : State) : Prop where
  fresh : ∀ r, k ≤ r → x.node.calls r = .idle
  run : x.node.run = .waiting
  queue : x.node.queue = []
  register : x.node.node.hub.register = []
  closed : x.node.node.closed = false
  isStopped : x.node.node.disconnector.isStopped = false
  idle : x.node.shutdown = .idle
  period : x.throttle.period = d
  now : x.throttle.now = d * k
  pending : x.throttle.pending = false
  tick : x.tick = none
  calls : x.throttled.map Prod.snd = (List.range k).map fun i => d * (i + 1)
  others : x.others = []

/-- A session is handed to the loop, which calls at the next tick. -/
def round (d k : Nat) : List Act :=
  [.go (.disconnect k 0), .go (.call k), .go (.call k), .go (.call k), .go .register, .go (.hand k),
   .wait d, .tick, .go .runCall]

theorem removeSession_register (h : Hub) (s : HubSession) :
    (h.removeSession s).register = h.register := by
  unfold Hub.removeSession Hub.unsubscribeSessionFromAllChannels
  split
  · split
    · rfl
    · exact Hub.unsubscribeEach_frame.2.1
  · rfl

theorem exec_round (backlog : Nat) {k : Nat}
    (interested : ∀ r, (people r).disconnectInterest = true) (busy : Busy d k x) :
    ∃ y, Run.exec (step people backlog) x (round d k) = some y ∧ Busy d (k + 1) y := by
  have positive : 0 < d := busy.period ▸ x.throttle.positive
  have ticked : d * k / d < (d * k + d) / d := by
    rw [Nat.add_div_right _ positive]
    exact Nat.lt_succ_self _
  have fresh := busy.fresh k (Nat.le_refl k)
  have queue : x.node.node.disconnector.queue = [] := busy.queue
  have period := busy.period
  subst period
  simp [Run.exec, round, step, DisconnectOnce.step, DisconnectOnce.callStep, fresh,
    DisconnectOnce.State.move, DisconnectOnce.State.setHub, DisconnectOnce.State.queue,
    DisconnectOnce.afterRemove, interested, busy.run, busy.register, busy.closed, queue,
    busy.isStopped, Hub.registerCap, Ticker.advance, Ticker.receive, Ticker.elapsed, busy.now,
    busy.tick, ticked, DisconnectOnce.disconnectNow, busy.others, busy.idle]
  exact
    { fresh := fun r later =>
        (Function.update_of_ne (show r ≠ k by omega) _ _).trans (busy.fresh r (by omega))
      run := rfl
      queue := queue
      register := removeSession_register _ _
      closed := rfl
      isStopped := busy.isStopped
      idle := rfl
      period := rfl
      now := (Nat.mul_succ _ _).symm
      pending := rfl
      tick := rfl
      calls := by simp [busy.calls, List.range_succ, Nat.mul_succ]
      others := rfl }

theorem exec_rounds (backlog : Nat) (interested : ∀ r, (people r).disconnectInterest = true)
    (k : Nat) (start : Busy d 0 x) :
    ∃ y, Run.exec (step people backlog) x ((List.range k).flatMap (round d)) = some y ∧
      Busy d k y := by
  induction k with
  | zero => exact ⟨x, rfl, start⟩
  | succ k ih =>
    obtain ⟨y, ran, busy⟩ := ih
    obtain ⟨z, more, busier⟩ := exec_round backlog interested busy
    refine ⟨z, ?_, busier⟩
    rw [List.range_succ, List.flatMap_append, Run.exec_append, ran]
    simpa using more

/-- All rounds in a window that is long enough. -/
theorem Busy.callsIn {k seconds : Nat} (busy : Busy d k x) (long : d * k ≤ 1000 * seconds) :
    callsIn x d seconds = k := by
  have all : ∀ time ∈ (List.range k).map (fun i => d * (i + 1)),
      d ≤ time ∧ time < d + 1000 * seconds := by
    intro time member
    obtain ⟨i, below, rfl⟩ := List.mem_map.mp member
    have within : d * (i + 1) ≤ d * k := Nat.mul_le_mul_left d (List.mem_range.mp below)
    have positive : 0 < d := busy.period ▸ x.throttle.positive
    rw [Nat.mul_succ] at within ⊢
    omega
  rw [DisconnectRate.callsIn, busy.others, List.append_nil, busy.calls,
    List.filter_eq_self.mpr (by simpa using all)]
  simp

end Runs

/-- Before a shutdown the node keeps to the rate, but for two calls, in every run and every window
of whole seconds, exactly if the rate divides 1000. -/
theorem rate_kept_iff (rate : Int) (throttle : Ticker) (backlog : Nat) (n : Node)
    (people : SessionRef → Session) (interested : ∀ r, (people r).disconnectInterest = true)
    (fresh : n.hub.register = [] ∧ throttle.now = 0 ∧ throttle.pending = false)
    (configured : period rate = some throttle.period) :
    (∀ schedule x, Run.exec (step people backlog) (.start n throttle) schedule = some x →
      x.node.shutdown = .idle →
      ∀ start seconds, callsIn x start seconds ≤ seconds * rate.toNat + 2) ↔
    rate ∣ 1000 := by
  obtain ⟨low, high, quotient⟩ := period_eq_some_iff.mp configured
  obtain ⟨r, rfl⟩ := Int.eq_ofNat_of_zero_le (show 0 ≤ rate by omega)
  simp only [Int.toNat_natCast] at quotient ⊢
  have divides : ((r : Int) ∣ 1000) ↔ throttle.period * r = 1000 := by
    rw [quotient, show (1000 : Int) = ((1000 : Nat) : Int) from rfl, Int.natCast_dvd_natCast,
      Nat.dvd_iff_div_mul_eq]
  rw [divides]
  constructor
  · intro kept
    have most : throttle.period * r ≤ 1000 := quotient ▸ Nat.div_mul_le_self 1000 r
    have start : Busy throttle.period 0 (.start n throttle) :=
      { fresh := fun _ _ => rfl, run := rfl, queue := rfl, register := fresh.1, closed := rfl
        isStopped := rfl, idle := rfl, period := rfl, now := fresh.2.1, pending := fresh.2.2
        tick := rfl, calls := rfl, others := rfl }
    -- 3000 calls in three seconds for each millisecond of the period
    obtain ⟨x, ran, busy⟩ := exec_rounds backlog interested 3000 start
    have many := kept _ x ran busy.idle throttle.period (3 * throttle.period)
    rw [busy.callsIn (by omega)] at many
    have total : 3 * throttle.period * r = 3 * (throttle.period * r) := by ring
    omega
  · intro exact_ schedule x ran idle start seconds
    have inv := Run.invariant (fun _ _ _ inv stepped => inv_step inv stepped)
      (inv_start n throttle) ran
    exact callsIn_le inv idle exact_ start

theorem rate_600_exceeded :
    period 600 = some 1 ∧ ¬ ∀ schedule x,
      Run.exec (step DisconnectOnce.everyone 4096)
          (.start DisconnectOnce.empty { period := 1, positive := Nat.one_pos }) schedule = some x →
        x.node.shutdown = .idle →
        ∀ start seconds, callsIn x start seconds ≤ seconds * 600 + 2 := by
  have iff := rate_kept_iff 600 { period := 1, positive := Nat.one_pos } 4096 DisconnectOnce.empty
    DisconnectOnce.everyone (fun _ => rfl) ⟨rfl, rfl, rfl⟩ (by decide)
  exact ⟨by decide, fun kept => absurd (iff.mp kept) (by decide)⟩

end AnyCable.Guarantees.DisconnectRate
