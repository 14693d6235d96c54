import AnyCable.Lib.Run
import AnyCable.Source.Common
import Mathlib.Data.List.Basic
import Mathlib.Logic.Function.Basic

/-!
# Sessions in the key-value store of NATS

`CommitSession` puts the state of a session into a bucket. `FinishSession` gets the value and puts
it back, to renew its time to live (`broker/nats.go:385-452`); it runs when the session disconnects
(`node/node.go:804-809`), and a command of the session may commit on another goroutine. A commit
between the two operations is undone (`commit_rolled_back`).

`RestoreSession` returns the last committed state, whatever the calls and their order, as long as
no `CommitSession` of the session puts between the `Get` and the `Put` of a `FinishSession`. If such
a commit brings another value than the one that was got, the order is also necessary
(`kept_iff_undisturbed`). Single operations of the store are atomic and do not fail.
-/

set_option autoImplicit false

namespace AnyCable.Guarantees.NatsSessions
open AnyCable.Lib AnyCable.Source

/-- The bucket of the sessions. -/
abbrev Bucket (D : Type) := String → Option D

/-- The key of a session: `sessionsPrefix + sid`. -/
def sessionsPrefix : String := ""

def sessionKey (sid : String) : String := sessionsPrefix ++ sid

variable {D : Type}

def Bucket.put (kv : Bucket D) (key : String) (value : D) : Bucket D :=
  Function.update kv key (some value)

def commitSession (kv : Bucket D) (sid : String) (data : D) : Bucket D :=
  kv.put (sessionKey sid) data

/-- A missing key is no error. -/
def restoreSession (kv : Bucket D) (sid : String) : Option D := kv (sessionKey sid)

/-- `missing` is the error of `kv.Get` for a key that is not there. -/
def finishSession (decorate : String → String → String) (missing : String) (kv : Bucket D)
    (sid : String) : Bucket D × Except String Unit :=
  match kv (sessionKey sid) with
  | none => (kv, .error (decorate missing "failed to restore session from NATS"))
  | some value => (kv.put (sessionKey sid) value, .ok ())

/-- A call, before its next operation. -/
inductive Call (D : Type) where
  | commit (sid : String) (data : D)
  | finish (sid : String)
  /-- `FinishSession` with the value it has got, after so many commits of the session. -/
  | touch (sid : String) (value : D) (seen : Nat)

/-- The bucket, the calls on their way, and the commits of each session, newest first. -/
structure State (D : Type) where
  kv : Bucket D := fun _ => none
  calls : List (Call D) := []
  commits : String → List D := fun _ => []

inductive Act (D : Type) where
  | commitSession (sid : String) (data : D)
  | finishSession (sid : String)
  | get (i : Nat)
  | put (i : Nat)

def step (x : State D) : Act D → Option (State D)
  | .commitSession sid data => some { x with calls := x.calls ++ [.commit sid data] }
  | .finishSession sid => some { x with calls := x.calls ++ [.finish sid] }
  | .get i =>
    match x.calls[i]? with
    | some (.finish sid) =>
      match x.kv (sessionKey sid) with
      | none => some { x with calls := x.calls.eraseIdx i }
      | some value =>
        some { x with calls := x.calls.eraseIdx i ++ [.touch sid value (x.commits sid).length] }
    | _ => none
  | .put i =>
    match x.calls[i]? with
    | some (.commit sid data) =>
      some { kv := x.kv.put (sessionKey sid) data, calls := x.calls.eraseIdx i
             commits := Function.update x.commits sid (data :: x.commits sid) }
    | some (.touch sid value _) =>
      some { x with kv := x.kv.put (sessionKey sid) value, calls := x.calls.eraseIdx i }
    | _ => none

/-- Every session is restored as it was committed last. -/
def Kept (x : State D) : Prop := ∀ sid, restoreSession x.kv sid = (x.commits sid).head?

/-- No commit of the session was put since `FinishSession` got the value. -/
def Unpassed (x : State D) : Call D → Prop
  | .touch sid _ seen => (x.commits sid).length = seen
  | .commit .. | .finish _ => True

instance (x : State D) : (c : Call D) → Decidable (Unpassed x c)
  | .touch sid _ seen => inferInstanceAs (Decidable ((x.commits sid).length = seen))
  | .commit .. | .finish _ => isTrue trivial

/-- The condition on a step: a value is put back only if no commit came in between. -/
def Undisturbed (x : State D) : Act D → Prop
  | .put i => ∀ c ∈ x.calls[i]?, Unpassed x c
  | .commitSession .. | .finishSession _ | .get _ => True

instance (x : State D) : (a : Act D) → Decidable (Undisturbed x a)
  | .put i => inferInstanceAs (Decidable (∀ c ∈ x.calls[i]?, Unpassed x c))
  | .commitSession .. | .finishSession _ | .get _ => isTrue trivial

/-- A commit brings another value than those that a `FinishSession` of the session holds. -/
def Changes (x : State D) : Act D → Prop
  | .put i => ∀ sid data, x.calls[i]? = some (.commit sid data) →
      ∀ value seen, Call.touch sid value seen ∈ x.calls → value ≠ data
  | .commitSession .. | .finishSession _ | .get _ => True

section Sections

variable {x : State D} {sid : String} {decorate : String → String → String} {missing : String}

/-- `CommitSession` without other operations in between. -/
theorem undisturbed_commit (data : D) :
    Run.exec step x [.commitSession sid data, .put x.calls.length] =
      some { x with kv := commitSession x.kv sid data
                    commits := Function.update x.commits sid (data :: x.commits sid) } := by
  simp [Run.exec, step, commitSession, List.eraseIdx_append_of_length_le]

/-- `FinishSession` without other operations in between. -/
theorem undisturbed_finish {value : D} (found : x.kv (sessionKey sid) = some value) :
    Run.exec step x [.finishSession sid, .get x.calls.length, .put x.calls.length] =
      some { x with kv := (finishSession decorate missing x.kv sid).1 } := by
  simp [Run.exec, step, finishSession, found, List.eraseIdx_append_of_length_le]

/-- By itself `FinishSession` changes no value. -/
theorem finishSession_same (kv : Bucket D) : (finishSession decorate missing kv sid).1 = kv := by
  unfold finishSession
  split
  · rfl
  next value found => exact Function.update_eq_self_iff.mpr found.symm

end Sections

section Steps

variable {x y : State D} {a : Act D} {sid : String} {value : D} {seen : Nat}

theorem sessionKey_injective : Function.Injective sessionKey := by
  intro sid sid' same
  simpa [sessionKey, sessionsPrefix] using same

theorem restoreSession_put (kv : Bucket D) (sid sid' : String) (value : D) :
    restoreSession (kv.put (sessionKey sid) value) sid' =
      Function.update (restoreSession kv) sid (some value) sid' := by
  by_cases same : sid' = sid
  · subst same
    simp [restoreSession, Bucket.put]
  · have other : sessionKey sid' ≠ sessionKey sid := fun equal =>
      same (sessionKey_injective equal)
    simp [restoreSession, Bucket.put, same, other]

/-- What a step does: a commit, a value put back, a value got, or none of these. -/
inductive Did (x : State D) : Act D → State D → Prop where
  | committed {i : Nat} {sid : String} {data : D} {y : State D}
      (found : x.calls[i]? = some (.commit sid data)) (calls : y.calls = x.calls.eraseIdx i)
      (kv : y.kv = x.kv.put (sessionKey sid) data)
      (commits : y.commits = Function.update x.commits sid (data :: x.commits sid)) :
      Did x (.put i) y
  | touched {i : Nat} {sid : String} {value : D} {seen : Nat} {y : State D}
      (found : x.calls[i]? = some (.touch sid value seen)) (calls : y.calls = x.calls.eraseIdx i)
      (kv : y.kv = x.kv.put (sessionKey sid) value) (commits : y.commits = x.commits) :
      Did x (.put i) y
  | got {i : Nat} {sid : String} {value : D} {y : State D}
      (stored : x.kv (sessionKey sid) = some value)
      (calls : y.calls = x.calls.eraseIdx i ++ [.touch sid value (x.commits sid).length])
      (kv : y.kv = x.kv) (commits : y.commits = x.commits) : Did x (.get i) y
  | other {a : Act D} {y : State D} (quiet : ∀ i, a ≠ .put i)
      (calls : ∀ sid value seen, Call.touch sid value seen ∈ y.calls →
        Call.touch sid value seen ∈ x.calls)
      (kv : y.kv = x.kv) (commits : y.commits = x.commits) : Did x a y

theorem step_did (stepped : step x a = some y) : Did x a y := by
  cases a with
  | commitSession sid data =>
    cases stepped
    exact .other (by simp) (by simp) rfl rfl
  | finishSession sid =>
    cases stepped
    exact .other (by simp) (by simp) rfl rfl
  | get i =>
    simp only [step] at stepped
    split at stepped
    · split at stepped
      · cases stepped
        exact .other (by simp) (fun _ _ _ member => List.mem_of_mem_eraseIdx member) rfl rfl
      next value stored =>
        cases stepped
        exact .got stored rfl rfl rfl
    · cases stepped
  | put i =>
    simp only [step] at stepped
    split at stepped
    next sid data found =>
      cases stepped
      exact .committed found rfl rfl rfl
    next sid value seen found =>
      cases stepped
      exact .touched found rfl rfl rfl
    · cases stepped

/-- A `FinishSession` between its operations: if nothing was committed since its `Get`, it holds the
value that was committed last. -/
structure Inv (x : State D) : Prop where
  kept : Kept x
  bound : ∀ sid value seen, Call.touch sid value seen ∈ x.calls → seen ≤ (x.commits sid).length
  got : ∀ sid value seen, Call.touch sid value seen ∈ x.calls →
    (x.commits sid).length = seen → (x.commits sid).head? = some value

theorem inv_start : Inv ({} : State D) where
  kept := fun _ => rfl
  bound := by simp
  got := by simp

/-- The commits of a session after another commit. -/
theorem commits_cases (commits : String → List D) (sid sid' : String) (data : D) :
    (sid' = sid ∧ Function.update commits sid (data :: commits sid) sid' = data :: commits sid) ∨
      (sid' ≠ sid ∧ Function.update commits sid (data :: commits sid) sid' = commits sid') := by
  by_cases same : sid' = sid
  · subst same
    exact Or.inl ⟨rfl, Function.update_self ..⟩
  · exact Or.inr ⟨same, Function.update_of_ne same ..⟩

theorem step_inv (inv : Inv x) (undisturbed : Undisturbed x a) (stepped : step x a = some y) :
    Inv y := by
  have same : restoreSession x.kv = fun sid => (x.commits sid).head? := funext inv.kept
  cases step_did stepped with
  | @committed i sid data _ found calls kv commits =>
    refine ⟨fun sid' => ?_, fun sid' value seen member => ?_, fun sid' value seen member all => ?_⟩
    · rw [kv, restoreSession_put, same, commits]
      rcases commits_cases x.commits sid sid' data with ⟨rfl, eq⟩ | ⟨other, eq⟩
      · rw [eq, Function.update_self, List.head?_cons]
      · rw [eq, Function.update_of_ne other]
    · rw [calls] at member
      have before := inv.bound sid' value seen (List.mem_of_mem_eraseIdx member)
      rw [commits]
      rcases commits_cases x.commits sid sid' data with ⟨rfl, eq⟩ | ⟨other, eq⟩
      · rw [eq, List.length_cons]
        omega
      · rwa [eq]
    · rw [calls] at member
      have listed := List.mem_of_mem_eraseIdx member
      rw [commits] at all ⊢
      rcases commits_cases x.commits sid sid' data with ⟨rfl, eq⟩ | ⟨other, eq⟩
      · -- the commit was put after the `Get`
        have before := inv.bound sid' value seen listed
        rw [eq, List.length_cons] at all
        omega
      · rw [eq] at all ⊢
        exact inv.got sid' value seen listed all
  | @touched i sid value seen _ found calls kv commits =>
    have current : (x.commits sid).head? = some value :=
      inv.got sid value seen (List.mem_of_getElem? found) (undisturbed _ found)
    refine ⟨fun sid' => ?_, fun sid' value seen member => ?_, fun sid' value seen member => ?_⟩
    · rw [kv, commits, restoreSession_put, same, ← current]
      exact congrFun (Function.update_eq_self sid fun sid => (x.commits sid).head?) sid'
    · rw [commits]
      exact inv.bound sid' value seen (List.mem_of_mem_eraseIdx (calls ▸ member))
    · rw [commits]
      exact inv.got sid' value seen (List.mem_of_mem_eraseIdx (calls ▸ member))
  | @got i sid value _ stored calls kv commits =>
    have current : (x.commits sid).head? = some value := (inv.kept sid).symm.trans stored
    refine ⟨by rw [Kept, kv, commits]; exact inv.kept, fun sid' value' seen member => ?_,
      fun sid' value' seen member => ?_⟩
    all_goals
      rw [commits]
      rw [calls, List.mem_append, List.mem_singleton] at member
      rcases member with listed | new
    · exact inv.bound sid' value' seen (List.mem_of_mem_eraseIdx listed)
    · cases new
      exact le_refl _
    · exact inv.got sid' value' seen (List.mem_of_mem_eraseIdx listed)
    · cases new
      exact fun _ => current
  | other quiet calls kv commits =>
    refine ⟨by rw [Kept, kv, commits]; exact inv.kept, fun sid' value seen member => ?_,
      fun sid' value seen member => ?_⟩
    · rw [commits]
      exact inv.bound sid' value seen (calls sid' value seen member)
    · rw [commits]
      exact inv.got sid' value seen (calls sid' value seen member)

/-- A `FinishSession` that was overtaken by a commit holds another value than the last one. -/
def Stale (x : State D) : Prop :=
  ∀ sid value seen, Call.touch sid value seen ∈ x.calls → (x.commits sid).length ≠ seen →
    (x.commits sid).head? ≠ some value

theorem step_stale (stale : Stale x) (changes : Changes x a) (stepped : step x a = some y) :
    Stale y := by
  intro sid' value seen member passed
  cases step_did stepped with
  | @committed i sid data _ found calls kv commits =>
    rw [calls] at member
    have listed := List.mem_of_mem_eraseIdx member
    rw [commits] at passed ⊢
    rcases commits_cases x.commits sid sid' data with ⟨rfl, eq⟩ | ⟨other, eq⟩
    · rw [eq, List.head?_cons, ne_eq, Option.some.injEq]
      exact fun same => changes _ data found value seen listed same.symm
    · rw [eq] at passed ⊢
      exact stale sid' value seen listed passed
  | touched found calls kv commits =>
    rw [commits] at passed ⊢
    exact stale sid' value seen (List.mem_of_mem_eraseIdx (calls ▸ member)) passed
  | got stored calls kv commits =>
    rw [commits] at passed ⊢
    rw [calls, List.mem_append, List.mem_singleton] at member
    rcases member with listed | new
    · exact stale sid' value seen (List.mem_of_mem_eraseIdx listed) passed
    · cases new
      exact absurd rfl passed
  | other quiet calls kv commits =>
    rw [commits] at passed ⊢
    exact stale sid' value seen (calls sid' value seen member) passed

theorem undisturbed_of_kept (stale : Stale x) (stepped : step x a = some y) (kept : Kept y) :
    Undisturbed x a := by
  cases step_did stepped with
  | committed found calls kv commits =>
    intro c taken
    cases found.symm.trans taken
    trivial
  | @touched i sid value seen _ found calls kv commits =>
    intro c taken
    cases found.symm.trans taken
    by_contra passed
    have restored := kept sid
    rw [kv, commits, restoreSession_put, Function.update_self] at restored
    exact stale sid value seen (List.mem_of_getElem? found) passed restored.symm
  | got stored calls kv commits => trivial
  | other quiet calls kv commits =>
    cases a with
    | put i => exact absurd rfl (quiet i)
    | _ => trivial

end Steps

/-- No commit is lost, in any state of a run, if none is put between the two operations of a
`FinishSession`; and only then, if the commits put there bring other values. -/
theorem kept_iff_undisturbed (schedule : List (Act D)) (x : State D)
    (ran : Run.exec step {} schedule = some x) :
    (Run.Meets step Undisturbed ({} : State D) schedule →
      Run.Always step Kept ({} : State D) schedule) ∧
    (Run.Meets step Changes ({} : State D) schedule →
      Run.Always step Kept ({} : State D) schedule →
      Run.Meets step Undisturbed ({} : State D) schedule) := by
  constructor
  · exact Run.always_of_meets (fun _ _ _ inv ok stepped => step_inv inv ok stepped)
      (fun _ inv => inv.kept) inv_start
  · intro changes
    have keeps : ∀ (x : State D) a y, Inv x ∧ Stale x → Changes x a → Undisturbed x a →
        step x a = some y → Inv y ∧ Stale y :=
      fun _ _ _ inv changes ok stepped =>
        ⟨step_inv inv.1 ok stepped, step_stale inv.2 changes stepped⟩
    exact (Run.always_iff_meets_within keeps
      (fun _ _ _ inv _ stepped kept => undisturbed_of_kept inv.2 stepped kept)
      (fun _ inv => inv.1.kept) ⟨inv_start, by simp [Stale]⟩ changes ran).mp

/-- A session is committed twice, and finished in between and at the end. -/
def visit : List (Act String) :=
  [.commitSession "sid" "first", .put 0, .finishSession "sid", .get 0, .put 0,
   .commitSession "sid" "second", .finishSession "sid", .put 0, .get 0, .put 0]

theorem visit_kept :
    ∃ x, Run.exec step {} visit = some x ∧ x.calls.length = 0 ∧
      restoreSession x.kv "sid" = some "second" ∧
      Run.Always step Kept ({} : State String) visit :=
  ⟨_, rfl, rfl, by decide, (kept_iff_undisturbed visit _ rfl).1 (by decide)⟩

/-- The disconnect reads the session before a command commits it, and writes after it. -/
theorem commit_rolled_back :
    ∃ x, Run.exec step ({} : State String)
        [.commitSession "sid" "first", .put 0, .finishSession "sid",
         .commitSession "sid" "second", .get 0, .put 0, .put 0] = some x ∧
      x.calls.length = 0 ∧ (x.commits "sid").head? = some "second" ∧
      restoreSession x.kv "sid" = some "first" ∧ ¬Kept x := by
  refine ⟨_, rfl, rfl, by decide, by decide, fun kept => ?_⟩
  exact absurd (kept "sid") (by decide)

end AnyCable.Guarantees.NatsSessions
