import AnyCable.Lib.Pending
import AnyCable.Lib.Run
import AnyCable.Source.GoPool

/-!
# Tasks that the pool has accepted

A worker is to be "re-started" after `workerRespawnThreshold` tasks (`utils/gopool.go:12-14`), but
it only returns (`utils/gopool.go:97-99`); the next worker comes with a later call of `schedule`,
and only if that call takes the free slot and not the buffer. A task that is in the buffer when the
last worker decides to return is left there, and so is one that is put there afterwards
(`task_left_behind`).

In every run a task is taken at most once and no more workers are alive than the pool has slots. A
buffered task has a worker that still comes for it, throughout a run, if and only if no task is
buffered and no last worker returns at such a time (`served_iff_attended`). A pool of size one has
no buffer and is not affected (`served_of_size_one`).
-/

set_option autoImplicit false

namespace AnyCable.Guarantees.PoolService
open AnyCable.Lib AnyCable.Source

/-- The task a worker is at. -/
def held : Worker → List Nat
  | .starting task => task.toList
  | .running task _ => [task]
  | .waiting _ | .returning => []

/-- The tasks that workers have taken, those under way included. -/
def taken (p : GoPool) : List Nat := p.ran ++ p.workers.flatMap held

/-- No task is run twice, and the workers alive fit the pool. -/
def Sound (p : GoPool) : Prop :=
  (∀ task, (taken p).count task ≤ 1) ∧ p.workers.length ≤ p.size

/-- Some worker has not decided to exit. -/
def Undecided (workers : List Worker) : Prop := ∃ worker ∈ workers, worker ≠ .returning

instance (workers : List Worker) : Decidable (Undecided workers) :=
  inferInstanceAs (Decidable (∃ worker ∈ workers, worker ≠ .returning))

def Served (p : GoPool) : Prop := p.work ≠ [] → Undecided p.workers

instance (p : GoPool) : Decidable (Served p) :=
  inferInstanceAs (Decidable (p.work ≠ [] → Undecided p.workers))

/-- A task is buffered only while a worker comes for it, and a worker that performs its last task
beside a full buffer is not the last one. -/
def Attended (p : GoPool) : GoPool.Act → Prop
  | .buffer => Undecided p.workers
  | .finish w => ∀ task counter, p.workers[w]? = some (.running task counter) →
      counter + 1 ≥ workerRespawnThreshold → p.work ≠ [] → Undecided (p.workers.eraseIdx w)
  | _ => True

section Workers

variable {workers : List Worker} {w : Nat} {worker other : Worker}

theorem undecided_of_set (found : workers[w]? = some other) (active : worker ≠ .returning) :
    Undecided (workers.set w worker) := by
  obtain ⟨inside, -⟩ := List.getElem?_eq_some_iff.mp found
  exact ⟨worker, List.mem_set inside worker, active⟩

/-- Once a worker has decided, the others are looked at. -/
theorem undecided_set_returning (found : workers[w]? = some other) :
    Undecided (workers.set w .returning) ↔ Undecided (workers.eraseIdx w) := by
  have decided : (workers.set w .returning)[w]? = some .returning := by
    obtain ⟨inside, -⟩ := List.getElem?_eq_some_iff.mp found
    simp [inside]
  constructor
  · rintro ⟨worker, member, active⟩
    rcases mem_eraseIdx_or_eq decided member with rfl | rest
    · exact absurd rfl active
    · rw [List.eraseIdx_set_eq] at rest
      exact ⟨worker, rest, active⟩
  · rintro ⟨worker, member, active⟩
    rw [← List.eraseIdx_set_eq (a := Worker.returning)] at member
    exact ⟨worker, List.mem_of_mem_eraseIdx member, active⟩

theorem undecided_release (found : workers[w]? = some .returning)
    (undecided : Undecided workers) : Undecided (workers.eraseIdx w) := by
  obtain ⟨worker, member, active⟩ := undecided
  rcases mem_eraseIdx_or_eq found member with rfl | rest
  · exact absurd rfl active
  · exact ⟨worker, rest, active⟩

end Workers

/-- Every accepted task is in one place: run, buffered or with a worker. -/
structure Inv (p : GoPool) : Prop where
  placed : ∀ task, (taken p).count task + p.work.count task = if task < p.accepted then 1 else 0
  fits : p.workers.length ≤ p.size

theorem Inv.sound {p : GoPool} (inv : Inv p) : Sound p := by
  refine ⟨fun task => ?_, inv.fits⟩
  have placed := inv.placed task
  split at placed <;> omega

theorem inv_new {size : Nat} (positive : 1 ≤ size) : Inv (.new size) where
  placed := by
    intro task
    have idle : (GoPool.new size).workers.flatMap held = [] := by
      rw [List.flatMap_eq_nil_iff]
      intro worker member
      rw [List.eq_of_mem_replicate member]
      rfl
    rw [taken, idle]
    simp [GoPool.new]
  fits := by
    simp only [GoPool.new, List.length_replicate]
    omega

section Steps

variable {p next : GoPool} {a : GoPool.Act}

theorem count_singleton_accepted (task accepted : Nat) :
    (if task < accepted then 1 else 0) + [accepted].count task =
      if task < accepted + 1 then 1 else 0 := by
  rw [List.count_singleton]
  by_cases same : accepted = task
  · simp [same]
  · have before : task < accepted + 1 ↔ task < accepted := by omega
    simp [same, before]

theorem Inv.step (inv : Inv p) (stepped : p.step a = some next) : Inv next := by
  obtain ⟨-, -, rfl⟩ | ⟨w, counter, -, found, empty, rfl⟩ | ⟨-, room, rfl⟩ |
    ⟨w, counter, task, work, -, found, shape, rfl⟩ | ⟨w, task, -, found, rfl⟩ |
    ⟨w, task, counter, -, found, rfl⟩ | ⟨w, -, found, rfl⟩ := GoPool.step_cases stepped
  · refine ⟨fun t => ?_, inv.fits⟩
    have placed := inv.placed t
    have new := count_singleton_accepted t p.accepted
    simp only [taken, List.count_append] at placed ⊢
    omega
  · refine ⟨fun t => ?_, by simpa using inv.fits⟩
    have placed := inv.placed t
    have new := count_singleton_accepted t p.accepted
    have moved := count_flatMap_set held found (.running p.accepted counter) t
    simp only [taken, List.count_append, held, List.count_nil] at placed moved ⊢
    omega
  · refine ⟨fun t => ?_, by simpa using Nat.succ_le_of_lt room⟩
    have placed := inv.placed t
    have new := count_singleton_accepted t p.accepted
    simp only [taken, List.flatMap_append, List.count_append, List.flatMap_cons,
      List.flatMap_nil, List.append_nil, held, Option.toList] at placed ⊢
    omega
  · refine ⟨fun t => ?_, by simpa using inv.fits⟩
    have placed := inv.placed t
    have moved := count_flatMap_set held found (.running task counter) t
    have head : (task :: work).count t = [task].count t + work.count t := by
      rw [← List.count_append, List.singleton_append]
    rw [shape, head] at placed
    simp only [taken, List.count_append, held, List.count_nil] at placed moved ⊢
    omega
  · refine ⟨fun t => ?_, by simpa using inv.fits⟩
    have placed := inv.placed t
    have moved := count_flatMap_set held found (.waiting 1) t
    simp only [taken, List.count_append, held, List.count_nil] at placed moved ⊢
    omega
  · refine ⟨fun t => ?_, by simpa using inv.fits⟩
    have placed := inv.placed t
    have moved := count_flatMap_set held found (GoPool.afterTask counter) t
    have free : held (GoPool.afterTask counter) = [] := by
      unfold GoPool.afterTask
      split <;> rfl
    rw [free] at moved
    simp only [taken, List.count_append, held, List.count_nil] at placed moved ⊢
    omega
  · refine ⟨fun t => ?_, Nat.le_trans (List.length_eraseIdx_le p.workers w) inv.fits⟩
    have placed := inv.placed t
    have moved := count_flatMap_eraseIdx held found t
    simp only [taken, List.count_append, held, List.count_nil] at placed moved ⊢
    omega

theorem Served.step (served : Served p) (attended : Attended p a)
    (stepped : p.step a = some next) : Served next := by
  obtain ⟨rfl, -, rfl⟩ | ⟨w, counter, -, -, empty, rfl⟩ | ⟨-, -, rfl⟩ |
    ⟨w, counter, task, work, -, found, -, rfl⟩ | ⟨w, task, -, found, rfl⟩ |
    ⟨w, task, counter, rfl, found, rfl⟩ | ⟨w, -, found, rfl⟩ := GoPool.step_cases stepped
  · exact fun _ => attended
  · exact fun full => absurd empty full
  · exact fun _ => ⟨.starting (some p.accepted), by simp, by simp⟩
  · exact fun _ => undecided_of_set found (by simp)
  · exact fun _ => undecided_of_set found (by simp)
  · intro full
    show Undecided (p.workers.set w (GoPool.afterTask counter))
    unfold GoPool.afterTask
    split
    next last => exact (undecided_set_returning found).mpr (attended task counter found last full)
    next => exact undecided_of_set found (by simp)
  · exact fun full => undecided_release found (served full)

/-- A step that is not attended leaves a task that no worker comes for. -/
theorem attended_of_served (stepped : p.step a = some next) (served : Served next) :
    Attended p a := by
  obtain ⟨rfl, -, rfl⟩ | ⟨w, counter, rfl, -, -, rfl⟩ | ⟨rfl, -, rfl⟩ |
    ⟨w, counter, task, work, rfl, -, -, rfl⟩ | ⟨w, task, rfl, found, rfl⟩ |
    ⟨w, task, counter, rfl, found, rfl⟩ | ⟨w, rfl, -, rfl⟩ := GoPool.step_cases stepped
  · exact served (by simp)
  · trivial
  · trivial
  · trivial
  · intro task' counter' running
    rw [found] at running
    cases running
  · intro task' counter' running last full
    rw [found] at running
    cases running
    have undecided : Undecided (p.workers.set w (GoPool.afterTask counter)) := served full
    rw [GoPool.afterTask, if_pos last] at undecided
    exact (undecided_set_returning found).mp undecided
  · trivial

end Steps

/-- For every run of a pool. -/
theorem served_iff_attended {size : Nat} (positive : 1 ≤ size) {schedule : List GoPool.Act}
    {final : GoPool} (ran : Run.exec GoPool.step (.new size) schedule = some final) :
    Run.Always GoPool.step Sound (.new size) schedule ∧
      (Run.Always GoPool.step Served (.new size) schedule ↔
        Run.Meets GoPool.step Attended (.new size) schedule) := by
  constructor
  · exact Run.always_of_invariant (fun _ _ _ inv stepped => inv.step stepped)
      (fun _ inv => inv.sound) (inv_new positive) schedule
  · have start : Served (.new size) := fun full => absurd rfl full
    apply Run.always_iff_meets _ _ (fun _ served => served) start ran
    · exact fun _ _ _ served attended stepped => served.step attended stepped
    · exact fun _ _ _ _ stepped served => attended_of_served stepped served

/-- A task goes through the buffer of a pool of two. -/
theorem buffered_served : 1 ≤ 2 ∧
    Run.Always GoPool.step Sound (.new 2) [.finish 0, .buffer, .receive 0, .finish 0] ∧
      (Run.Always GoPool.step Served (.new 2) [.finish 0, .buffer, .receive 0, .finish 0] ↔
        Run.Meets GoPool.step Attended (.new 2) [.finish 0, .buffer, .receive 0, .finish 0]) := by
  obtain ⟨final, ran⟩ : ∃ final, Run.exec GoPool.step (.new 2)
      [.finish 0, .buffer, .receive 0, .finish 0] = some final :=
    Option.isSome_iff_exists.mp (by decide +kernel)
  exact ⟨by decide, served_iff_attended (by decide) ran⟩

/-- Without a buffer, a task is with a worker as soon as it is accepted. -/
theorem served_of_size_one {schedule : List GoPool.Act} {final : GoPool}
    (ran : Run.exec GoPool.step (.new 1) schedule = some final) : Served final := by
  have keeps : ∀ (p : GoPool) (a : GoPool.Act) (next : GoPool), p.queue = 0 ∧ p.work = [] →
      p.step a = some next → next.queue = 0 ∧ next.work = [] := by
    rintro p a next ⟨unbuffered, empty⟩ stepped
    obtain ⟨-, room, -⟩ | ⟨w, counter, -, -, -, rfl⟩ | ⟨-, -, rfl⟩ |
      ⟨w, counter, task, work, -, -, shape, -⟩ | ⟨w, task, -, -, rfl⟩ |
      ⟨w, task, counter, -, -, rfl⟩ | ⟨w, -, -, rfl⟩ := GoPool.step_cases stepped
    · omega
    · exact ⟨unbuffered, empty⟩
    · exact ⟨unbuffered, empty⟩
    · rw [empty] at shape
      cases shape
    · exact ⟨unbuffered, empty⟩
    · exact ⟨unbuffered, empty⟩
    · exact ⟨unbuffered, empty⟩
  have start : (GoPool.new 1).queue = 0 ∧ (GoPool.new 1).work = [] := by decide
  obtain ⟨-, empty⟩ := Run.invariant keeps start ran
  exact fun full => absurd empty full

/-- The only worker of a pool of two, after some tasks that all went through the buffer. -/
def idle (tasks : Nat) : GoPool :=
  { size := 2, queue := 1, workers := [.waiting (tasks + 1)], accepted := tasks,
    ran := List.range tasks }

def rounds : Nat → List GoPool.Act
  | 0 => []
  | n + 1 => rounds n ++ [.buffer, .receive 0, .finish 0]

theorem exec_rounds {tasks : Nat} (short : tasks + 2 ≤ workerRespawnThreshold) :
    Run.exec GoPool.step (idle 0) (rounds tasks) = some (idle tasks) := by
  induction tasks with
  | zero => rfl
  | succ n ih =>
    have goesOn : GoPool.afterTask (n + 1) = .waiting (n + 2) := by
      rw [GoPool.afterTask, if_neg (by omega)]
    rw [rounds, Run.exec_append, ih (by omega)]
    simp [Run.exec, GoPool.step, idle, goesOn, List.range_succ]

/-- The worker takes its last task, the next one is buffered, and the worker returns. -/
def leaving : List GoPool.Act := [.buffer, .receive 0, .buffer, .finish 0, .release 0]

/-- A pool of two is left with a task in the buffer and without a worker: nothing moves before
another task is scheduled. -/
theorem task_left_behind : ∃ schedule final,
    Run.exec GoPool.step (.new 2) schedule = some final ∧ ¬ Served final ∧
      (∃ task, task < final.accepted ∧ task ∉ final.ran) ∧
      ∀ w, final.step (.receive w) = none ∧ final.step (.finish w) = none ∧
        final.step (.release w) = none := by
  let tasks := workerRespawnThreshold - 2
  have enough : tasks + 2 = workerRespawnThreshold := by decide
  have last : GoPool.afterTask (tasks + 1) = .returning := by
    rw [GoPool.afterTask, if_pos (by omega)]
  have started : GoPool.step (.new 2) (.finish 0) = some (idle 0) := by decide
  refine ⟨.finish 0 :: (rounds tasks ++ leaving),
    { size := 2, queue := 1, work := [tasks + 1], workers := [], accepted := tasks + 2,
      ran := List.range tasks ++ [tasks] }, ?_, ?_, ⟨tasks + 1, by simp, by simp⟩, fun w => ?_⟩
  · rw [Run.exec, started, Option.bind_some, Run.exec_append, exec_rounds (Nat.le_of_eq enough)]
    simp [leaving, Run.exec, GoPool.step, idle, last]
  · simp [Served, Undecided]
  · simp [GoPool.step]

end AnyCable.Guarantees.PoolService
