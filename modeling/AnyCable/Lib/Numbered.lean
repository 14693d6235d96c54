import Mathlib.Data.List.Basic

/-!
# Lists sorted by a number

Elements carry numbers that grow along the list. An element is looked up by the distance of its
number from the first one: that is its place where no number is missing before it, and too far on
otherwise. `drop_eq_filter_iff` says when the elements behind that place are those with a larger
number.
-/

set_option autoImplicit false

namespace AnyCable.Lib.Numbered

variable {α : Type} {number : α → Nat} {l : List α} {i j : Nat} {a b first : α}

theorem lt_of_getElem? (sorted : l.Pairwise fun a b => number a < number b) (at_i : l[i]? = some a)
    (at_j : l[j]? = some b) (before : i < j) : number a < number b := by
  obtain ⟨small, rfl⟩ := List.getElem?_eq_some_iff.mp at_i
  obtain ⟨large, rfl⟩ := List.getElem?_eq_some_iff.mp at_j
  exact List.pairwise_iff_getElem.mp sorted i j small large before

/-- Numbers grow by at least one from place to place. -/
theorem add_le_of_getElem? (sorted : l.Pairwise fun a b => number a < number b)
    (at_i : l[i]? = some a) {d : Nat} (at_d : l[i + d]? = some b) : number a + d ≤ number b := by
  induction d generalizing b with
  | zero =>
    cases at_i.symm.trans at_d
    exact Nat.le_refl _
  | succ d ih =>
    have inside := (List.getElem?_eq_some_iff.mp at_d).1
    obtain ⟨c, at_c⟩ : ∃ c, l[i + d]? = some c := ⟨_, List.getElem?_eq_getElem (by omega)⟩
    have step := lt_of_getElem? sorted at_c at_d (by omega)
    have rest := ih at_c
    omega

/-- Where no number is missing, the distance is the place. -/
theorem number_eq (sorted : l.Pairwise fun a b => number a < number b)
    (head : l[0]? = some first) {o : Nat}
    (all : ∀ k, number first ≤ k → k ≤ o → ∃ a ∈ l, number a = k) (i : Nat) :
    ∀ a, l[i]? = some a → number first + i ≤ o → number a = number first + i := by
  induction i using Nat.strongRecOn with
  | ind i ih =>
    intro a at_i within
    obtain ⟨b, member, numbered⟩ := all (number first + i) (by omega) within
    obtain ⟨j, at_j⟩ := List.mem_iff_getElem?.mp member
    have far := add_le_of_getElem? sorted head (d := j) (by rwa [Nat.zero_add])
    by_cases same : j = i
    · subst same
      cases at_i.symm.trans at_j
      exact numbered
    · have early := ih j (by omega) b at_j (by omega)
      omega

/-- Behind the distance all numbers are larger, whether some are missing or not. -/
theorem filter_drop (sorted : l.Pairwise fun a b => number a < number b)
    (head : l[0]? = some first) {o : Nat} :
    (l.drop (o - number first + 1)).filter (fun a => o < number a) =
      l.drop (o - number first + 1) := by
  refine List.filter_eq_self.mpr fun a member => ?_
  obtain ⟨d, at_d⟩ := List.mem_iff_getElem?.mp member
  rw [List.getElem?_drop] at at_d
  have far := add_le_of_getElem? sorted head (d := o - number first + 1 + d)
    (by rwa [Nat.zero_add])
  simp only [decide_eq_true_eq]
  omega

theorem drop_sublist_filter (sorted : l.Pairwise fun a b => number a < number b)
    (head : l[0]? = some first) {o : Nat} :
    (l.drop (o - number first + 1)).Sublist (l.filter fun a => o < number a) := by
  rw [← filter_drop sorted head]
  exact (List.drop_sublist _ l).filter _

theorem drop_eq_filter_iff (sorted : l.Pairwise fun a b => number a < number b)
    (head : l[0]? = some first) {o : Nat} (reached : number first ≤ o)
    (inside : o - number first < l.length) :
    l.drop (o - number first + 1) = l.filter (fun a => o < number a) ↔
      ∀ k, number first ≤ k → k ≤ o → ∃ a ∈ l, number a = k := by
  constructor
  · intro same k above below
    -- the last element that is left out has a number of at most `o`, so none is missing before
    obtain ⟨last, at_last⟩ : ∃ b, l[o - number first]? = some b :=
      ⟨_, List.getElem?_eq_getElem inside⟩
    have low : number last ≤ o := by
      by_contra high
      have kept : last ∈ l.filter (fun a => o < number a) :=
        List.mem_filter.mpr ⟨List.mem_of_getElem? at_last, by simpa using high⟩
      rw [← same] at kept
      obtain ⟨d, at_d⟩ := List.mem_iff_getElem?.mp kept
      rw [List.getElem?_drop] at at_d
      exact Nat.lt_irrefl _ (lt_of_getElem? sorted at_last at_d (by omega))
    obtain ⟨a, at_k⟩ : ∃ a, l[k - number first]? = some a :=
      ⟨_, List.getElem?_eq_getElem (by omega)⟩
    have before := add_le_of_getElem? sorted head (d := k - number first) (by rwa [Nat.zero_add])
    have after := add_le_of_getElem? sorted at_k (d := o - k)
      (by rwa [show k - number first + (o - k) = o - number first by omega])
    exact ⟨a, List.mem_of_getElem? at_k, by omega⟩
  · intro all
    have left : (l.take (o - number first + 1)).filter (fun a => o < number a) = [] := by
      refine List.filter_eq_nil_iff.mpr fun a member => ?_
      obtain ⟨i, at_i⟩ := List.mem_iff_getElem?.mp member
      have short := (List.getElem?_eq_some_iff.mp at_i).1
      rw [List.length_take] at short
      rw [List.getElem?_take_of_lt (by omega)] at at_i
      have exact := number_eq sorted head all i a at_i (by omega)
      simp only [decide_eq_true_eq]
      omega
    conv_rhs => rw [← List.take_append_drop (o - number first + 1) l, List.filter_append]
    rw [left, filter_drop sorted head, List.nil_append]

end AnyCable.Lib.Numbered
