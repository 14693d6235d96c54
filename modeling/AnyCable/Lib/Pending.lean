import Mathlib.Algebra.GroupWithZero.Nat
import Mathlib.Data.List.Basic
import Mathlib.Logic.Function.Basic

/-!
# Pending work

Calls that several goroutines have in flight are a list, and the next one to move is
chosen by its position.

Where goroutines differ in what they still have to do, each party has a program, the list of
its next operations. An operation is replaced by those it leads to, in front of the rest.
-/

set_option autoImplicit false

namespace AnyCable.Lib

variable {α : Type}

/-- Taking out the element at a position. -/
theorem eraseIdx_split {l : List α} {i : Nat} {x : α} (found : l[i]? = some x) :
    l = l.take i ++ x :: l.drop (i + 1) ∧ l.eraseIdx i = l.take i ++ l.drop (i + 1) := by
  obtain ⟨inside, rfl⟩ := List.getElem?_eq_some_iff.mp found
  refine ⟨?_, List.eraseIdx_eq_take_drop_succ l i⟩
  rw [← List.drop_eq_getElem_cons inside, List.take_append_drop]

theorem mem_eraseIdx_or_eq {l : List α} {i : Nat} {x y : α} (found : l[i]? = some y)
    (member : x ∈ l) : x = y ∨ x ∈ l.eraseIdx i := by
  obtain ⟨split, erased⟩ := eraseIdx_split found
  rw [split] at member
  rw [erased]
  simp only [List.mem_append, List.mem_cons] at member ⊢
  tauto

/-- What the elements stand for, counted without the one that is taken out. -/
theorem count_flatMap_eraseIdx {β : Type} [DecidableEq β] {l : List α} {i : Nat} {x : α}
    (f : α → List β) (found : l[i]? = some x) (b : β) :
    (l.flatMap f).count b = (f x).count b + ((l.eraseIdx i).flatMap f).count b := by
  obtain ⟨split, erased⟩ := eraseIdx_split found
  calc (l.flatMap f).count b
      = ((l.take i ++ x :: l.drop (i + 1)).flatMap f).count b := by rw [← split]
    _ = (f x).count b + ((l.eraseIdx i).flatMap f).count b := by
      rw [erased]
      simp only [List.flatMap_append, List.flatMap_cons, List.count_append]
      omega

/-- The same where the element is replaced. -/
theorem count_flatMap_set {β : Type} [DecidableEq β] {l : List α} {i : Nat} {x : α}
    (f : α → List β) (found : l[i]? = some x) (y : α) (b : β) :
    ((l.set i y).flatMap f).count b + (f x).count b =
      (l.flatMap f).count b + (f y).count b := by
  have replaced : (l.set i y)[i]? = some y := by
    obtain ⟨inside, -⟩ := List.getElem?_eq_some_iff.mp found
    simp [inside]
  have before := count_flatMap_eraseIdx f found b
  have after := count_flatMap_eraseIdx f replaced b
  rw [List.eraseIdx_set_eq] at after
  omega

/-- A property of everything in a family of queues, after one queue is replaced. -/
theorem forall_mem_update {κ : Type} [DecidableEq κ] {P : κ → α → Prop} {queues : κ → List α}
    (all : ∀ k, ∀ a ∈ queues k, P k a) {k : κ} {queue : List α} (new : ∀ a ∈ queue, P k a) :
    ∀ k', ∀ a ∈ Function.update queues k queue k', P k' a := by
  intro k' a member
  by_cases same : k' = k
  · subst same
    rw [Function.update_self] at member
    exact new a member
  · rw [Function.update_of_ne same] at member
    exact all k' a member

namespace Programs

variable {ρ Op : Type} {Q : Op → Prop} {programs : ρ → List Op} {p : ρ} {op : Op}
  {follow rest : List Op}

/-- Some party still has such an operation to do. -/
def Pending (Q : Op → Prop) (programs : ρ → List Op) : Prop := ∃ p, ∃ op ∈ programs p, Q op

variable [DecidableEq ρ]

/-- What is pending stays so, unless it was the operation done and leads to no other such. -/
theorem Pending.step (pending : Pending Q programs) (now : programs p = op :: rest)
    (leads : Q op → ∃ next ∈ follow, Q next) :
    Pending Q (Function.update programs p (follow ++ rest)) := by
  obtain ⟨p', op', member, found⟩ := pending
  by_cases own : p' = p
  · subst own
    rw [now, List.mem_cons] at member
    rcases member with rfl | later
    · obtain ⟨next, first, found⟩ := leads found
      exact ⟨p', next, by simp [first], found⟩
    · exact ⟨p', op', by simp [later], found⟩
  · exact ⟨p', op', by rwa [Function.update_of_ne own], found⟩

/-- What the operation leads to is pending. -/
theorem Pending.of_follow {next : Op} (first : next ∈ follow) (found : Q next) :
    Pending Q (Function.update programs p (follow ++ rest)) :=
  ⟨p, next, by simp [first], found⟩

theorem Pending.of_update {program : List Op}
    (pending : Pending Q (Function.update programs p program)) :
    (∃ op ∈ program, Q op) ∨ Pending Q programs := by
  obtain ⟨p', op', member, found⟩ := pending
  by_cases own : p' = p
  · subst own
    rw [Function.update_self] at member
    exact Or.inl ⟨op', member, found⟩
  · rw [Function.update_of_ne own] at member
    exact Or.inr ⟨p', op', member, found⟩

/-- What is pending after a step was so before, or the operation has led to it. -/
theorem Pending.before (pending : Pending Q (Function.update programs p (follow ++ rest)))
    (now : programs p = op :: rest) : Pending Q programs ∨ ∃ next ∈ follow, Q next := by
  rcases pending.of_update with ⟨op', member, found⟩ | before
  · rcases List.mem_append.mp member with first | later
    · exact Or.inr ⟨op', first, found⟩
    · exact Or.inl ⟨p, op', by simp [now, later], found⟩
  · exact Or.inl before

/-- A party with nothing to do is given a program. -/
theorem Pending.begin (pending : Pending Q programs) (idle : programs p = []) :
    Pending Q (Function.update programs p follow) := by
  obtain ⟨p', op', member, found⟩ := pending
  have other : p' ≠ p := by
    rintro rfl
    rw [idle] at member
    cases member
  exact ⟨p', op', by rwa [Function.update_of_ne other], found⟩

end Programs

end AnyCable.Lib
