import AnyCable.Lib.GoMap
import Mathlib.Algebra.BigOperators.Group.Finset.Basic
import Mathlib.Algebra.GroupWithZero.Nat
import Mathlib.Algebra.Order.BigOperators.Group.Finset

/-!
# A map split over shards

A routing function assigns every key to a shard. The shards hold together what one map holds:
a key is found in its own shard and in no other. An operation that changes the entry of a
single key may then be done in the shard of that key.
-/

set_option autoImplicit false

namespace AnyCable.Lib

variable {K V : Type} [DecidableEq K]

/-- The shards hold exactly the entries of the whole map. -/
structure Splits (route : K → Nat) (shards : Nat → GoMap K V) (whole : GoMap K V) : Prop where
  lookup : ∀ key, (shards (route key)).lookup key = whole.lookup key
  placed : ∀ i key, key ∈ shards i → route key = i

/-- The operation replaces the entry of one key by a function of that entry. -/
def ChangesOnly (key : K) (f : Option V → Option V) (op : GoMap K V → GoMap K V) : Prop :=
  ∀ m other, (op m).lookup other = if other = key then f (m.lookup key) else m.lookup other

namespace Splits

variable {route : K → Nat} {shards : Nat → GoMap K V} {whole : GoMap K V}

theorem empty : Splits route (fun _ => (∅ : GoMap K V)) ∅ where
  lookup := fun _ => rfl
  placed := fun _ _ member => absurd member (AList.notMem_empty _)

theorem change (splits : Splits route shards whole) {key : K} {f : Option V → Option V}
    {op : GoMap K V → GoMap K V} (changes : ChangesOnly key f op) :
    Splits route (Function.update shards (route key) (op (shards (route key)))) (op whole) where
  lookup := by
    intro other
    rw [changes whole other]
    by_cases home : route other = route key
    · rw [home, Function.update_self, changes, splits.lookup, ← home, splits.lookup]
    · have different : other ≠ key := fun same => home (by rw [same])
      rw [Function.update_of_ne home, if_neg different, splits.lookup]
  placed := by
    intro i other member
    by_cases home : i = route key
    · subst home
      rw [Function.update_self] at member
      by_cases same : other = key
      · rw [same]
      · refine splits.placed _ other ?_
        rw [GoMap.mem_iff_lookup] at member ⊢
        rwa [changes, if_neg same] at member
    · rw [Function.update_of_ne home] at member
      exact splits.placed i other member

theorem mem_shard (splits : Splits route shards whole) {i : Nat} {key : K} :
    key ∈ shards i ↔ key ∈ whole ∧ route key = i := by
  constructor
  · intro member
    have home := splits.placed i key member
    subst home
    rw [GoMap.mem_iff_lookup, splits.lookup, ← GoMap.mem_iff_lookup] at member
    exact ⟨member, rfl⟩
  · rintro ⟨member, rfl⟩
    rwa [GoMap.mem_iff_lookup, splits.lookup, ← GoMap.mem_iff_lookup]

/-- The sizes of the shards add up to the size of the whole map. -/
theorem sum_sizes (splits : Splits route shards whole) {n : Nat}
    (bounded : ∀ key, route key < n) :
    ((List.range n).map fun i => (shards i).keys.length).sum = whole.keys.length := by
  have size : ∀ m : GoMap K V, m.keys.length = m.keys.toFinset.card :=
    fun m => (List.toFinset_card_of_nodup m.keys_nodup).symm
  have shard : ∀ i, (shards i).keys.length =
      (whole.keys.toFinset.filter fun key => route key = i).card := by
    intro i
    rw [size]
    congr 1
    ext key
    simp [AList.mem_keys.symm, splits.mem_shard]
  have into : Set.MapsTo route whole.keys.toFinset (Finset.range n) :=
    fun key _ => Finset.mem_coe.mpr (Finset.mem_range.mpr (bounded key))
  rw [size whole, Finset.card_eq_sum_card_fiberwise into]
  simp only [shard]
  rfl

end Splits

end AnyCable.Lib
