import Mathlib.Logic.Function.Basic

/-!
# Memoised walks

A walk over a list that computes a value once per key and gives it to every element of that key.
It gives every element its own value exactly when elements of one key have one value.
-/

set_option autoImplicit false

namespace AnyCable.Lib

variable {X K V : Type} [DecidableEq K]

/-- The values given out, with those `seen` so far. -/
def memo (key : X → K) (f : X → V) : (K → Option V) → List X → List V
  | _, [] => []
  | seen, x :: xs => match seen (key x) with
    | some v => v :: memo key f seen xs
    | none => f x :: memo key f (Function.update seen (key x) (some (f x))) xs

/-- Elements of one key have one value. -/
def Uniform (key : X → K) (f : X → V) (xs : List X) : Prop :=
  ∀ x ∈ xs, ∀ y ∈ xs, key x = key y → f x = f y

variable {key : X → K} {f : X → V} {seen : K → Option V} {xs : List X} {x : X}

omit [DecidableEq K] in
theorem uniform_cons :
    Uniform key f (x :: xs) ↔ (∀ y ∈ xs, key x = key y → f x = f y) ∧ Uniform key f xs := by
  simp only [Uniform, List.forall_mem_cons]
  constructor
  · intro ⟨⟨_, head⟩, tail⟩
    exact ⟨head, fun y member => (tail y member).2⟩
  · intro ⟨head, tail⟩
    refine ⟨⟨by simp, head⟩, ?_⟩
    intro y member
    exact ⟨fun alike => (head y member alike.symm).symm, tail y member⟩

theorem memo_eq_map_iff_of_seen :
    memo key f seen xs = xs.map f ↔
      (∀ x ∈ xs, ∀ v ∈ seen (key x), v = f x) ∧ Uniform key f xs := by
  induction xs generalizing seen with
  | nil => simp [memo, Uniform]
  | cons x xs ih =>
    rw [uniform_cons, List.forall_mem_cons]
    cases known : seen (key x) with
    | some v =>
      rw [memo, known, List.map_cons, List.cons.injEq, ih]
      constructor
      · rintro ⟨rfl, right, same⟩
        refine ⟨⟨by simp, right⟩, ?_, same⟩
        intro y member alike
        exact right y member (f x) (by rw [← alike, known]; rfl)
      · intro ⟨⟨first, right⟩, _, same⟩
        exact ⟨first v rfl, right, same⟩
    | none =>
      rw [memo, known, List.map_cons, List.cons.injEq, ih]
      constructor
      · rintro ⟨-, right, same⟩
        refine ⟨⟨by simp, ?_⟩, ?_, same⟩
        · intro y member v given
          have other : key y ≠ key x := by
            intro alike
            rw [alike, known] at given
            cases given
          exact right y member v (by rwa [Function.update_of_ne other])
        · intro y member alike
          exact right y member (f x) (by rw [← alike, Function.update_self]; rfl)
      · intro ⟨⟨_, right⟩, head, same⟩
        refine ⟨rfl, ?_, same⟩
        intro y member v given
        by_cases alike : key y = key x
        · rw [alike, Function.update_self] at given
          rw [← Option.some.inj given]
          exact head y member alike.symm
        · rw [Function.update_of_ne alike] at given
          exact right y member v given

/-- With nothing seen before. -/
theorem memo_eq_map_iff :
    memo key f (fun _ => none) xs = xs.map f ↔ Uniform key f xs := by
  rw [memo_eq_map_iff_of_seen]
  simp

end AnyCable.Lib
