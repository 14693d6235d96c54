/-!
# The pool of goroutines

Source: `utils/gopool.go`. `schedule` hands a task over by whichever way is ready: into the buffer
of the channel, to a worker that waits at it, or to a new worker if there is a free slot. A worker
leaves its loop after a fixed number of tasks and frees its slot in a deferred call. Tasks are
numbered in the order in which they are accepted; the workers of a new pool start with an empty one.

The timeout of `ScheduleTimeout` leaves the pool as it is and is left out.
-/

set_option autoImplicit false

namespace AnyCable.Source

/-- How many tasks a worker performs. -/
def workerRespawnThreshold : Nat := 1 <<< 16

/-- Where a goroutine of `worker` stands: at its first task, at a later one, at the channel, or past
the loop. -/
inductive Worker where
  | starting (task : Option Nat)
  | running (task counter : Nat)
  | waiting (counter : Nat)
  | returning
  deriving DecidableEq, Repr

structure GoPool where
  size : Nat
  /-- The capacity of the channel. -/
  queue : Nat
  work : List Nat := []
  /-- One for each slot taken. -/
  workers : List Worker
  accepted : Nat := 0
  /-- The tasks that were run, in the order in which they ended. -/
  ran : List Nat := []
  deriving DecidableEq, Repr

namespace GoPool

/-- `NewGoPool`. -/
def new (size : Nat) : GoPool :=
  { size, queue := min (size / 2) 1
    workers := List.replicate (min (max (size / 5) 1) 1024) (.starting none) }

/-- The first three are the ways through `schedule`, the others what a worker does. -/
inductive Act where
  | buffer
  | handOver (w : Nat)
  | spawn
  | receive (w : Nat)
  | finish (w : Nat)
  | release (w : Nat)
  deriving DecidableEq, Repr

/-- After a task of the loop. -/
def afterTask (counter : Nat) : Worker :=
  if counter + 1 ≥ workerRespawnThreshold then .returning else .waiting (counter + 1)

def step (p : GoPool) : Act → Option GoPool
  | .buffer =>
    if p.work.length < p.queue then
      some { p with work := p.work ++ [p.accepted], accepted := p.accepted + 1 }
    else none
  | .handOver w =>
    match p.workers[w]?, p.work with
    | some (.waiting counter), [] =>
      some { p with workers := p.workers.set w (.running p.accepted counter),
                    accepted := p.accepted + 1 }
    | _, _ => none
  | .spawn =>
    if p.workers.length < p.size then
      some { p with workers := p.workers ++ [.starting (some p.accepted)],
                    accepted := p.accepted + 1 }
    else none
  | .receive w =>
    match p.workers[w]?, p.work with
    | some (.waiting counter), task :: work =>
      some { p with workers := p.workers.set w (.running task counter), work }
    | _, _ => none
  | .finish w =>
    match p.workers[w]? with
    | some (.starting task) =>
      some { p with workers := p.workers.set w (.waiting 1), ran := p.ran ++ task.toList }
    | some (.running task counter) =>
      some { p with workers := p.workers.set w (afterTask counter), ran := p.ran ++ [task] }
    | _ => none
  | .release w =>
    match p.workers[w]? with
    | some .returning => some { p with workers := p.workers.eraseIdx w }
    | _ => none

/-- What a step can do. -/
theorem step_cases {p q : GoPool} {a : Act} (stepped : p.step a = some q) :
    (a = .buffer ∧ p.work.length < p.queue ∧
      q = { p with work := p.work ++ [p.accepted], accepted := p.accepted + 1 }) ∨
    (∃ w counter, a = .handOver w ∧ p.workers[w]? = some (.waiting counter) ∧ p.work = [] ∧
      q = { p with workers := p.workers.set w (.running p.accepted counter),
                   accepted := p.accepted + 1 }) ∨
    (a = .spawn ∧ p.workers.length < p.size ∧
      q = { p with workers := p.workers ++ [.starting (some p.accepted)],
                   accepted := p.accepted + 1 }) ∨
    (∃ w counter task work, a = .receive w ∧ p.workers[w]? = some (.waiting counter) ∧
      p.work = task :: work ∧
      q = { p with workers := p.workers.set w (.running task counter), work }) ∨
    (∃ w task, a = .finish w ∧ p.workers[w]? = some (.starting task) ∧
      q = { p with workers := p.workers.set w (.waiting 1), ran := p.ran ++ task.toList }) ∨
    (∃ w task counter, a = .finish w ∧ p.workers[w]? = some (.running task counter) ∧
      q = { p with workers := p.workers.set w (afterTask counter), ran := p.ran ++ [task] }) ∨
    (∃ w, a = .release w ∧ p.workers[w]? = some .returning ∧
      q = { p with workers := p.workers.eraseIdx w }) := by
  cases a with
  | buffer =>
    simp only [step] at stepped
    split at stepped
    next room => exact Or.inl ⟨rfl, room, (Option.some.inj stepped).symm⟩
    next => cases stepped
  | handOver w =>
    refine Or.inr (Or.inl ?_)
    simp only [step] at stepped
    split at stepped
    next counter found empty =>
      exact ⟨w, counter, rfl, found, empty, (Option.some.inj stepped).symm⟩
    next => cases stepped
  | spawn =>
    refine Or.inr (Or.inr (Or.inl ?_))
    simp only [step] at stepped
    split at stepped
    next room => exact ⟨rfl, room, (Option.some.inj stepped).symm⟩
    next => cases stepped
  | receive w =>
    refine Or.inr (Or.inr (Or.inr (Or.inl ?_)))
    simp only [step] at stepped
    split at stepped
    next counter task work found shape =>
      exact ⟨w, counter, task, work, rfl, found, shape, (Option.some.inj stepped).symm⟩
    next => cases stepped
  | finish w =>
    refine Or.inr (Or.inr (Or.inr (Or.inr ?_)))
    simp only [step] at stepped
    split at stepped
    next task found => exact Or.inl ⟨w, task, rfl, found, (Option.some.inj stepped).symm⟩
    next task counter found =>
      exact Or.inr (Or.inl ⟨w, task, counter, rfl, found, (Option.some.inj stepped).symm⟩)
    next => cases stepped
  | release w =>
    refine Or.inr (Or.inr (Or.inr (Or.inr (Or.inr (Or.inr ?_)))))
    simp only [step] at stepped
    split at stepped
    next found => exact ⟨w, rfl, found, (Option.some.inj stepped).symm⟩
    next => cases stepped

end GoPool

end AnyCable.Source
