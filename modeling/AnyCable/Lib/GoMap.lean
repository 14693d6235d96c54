import Mathlib.Data.List.AList

/-!
# Maps with an observable size

Association lists without duplicate keys, for maps whose length or enumeration
the modelled program looks at. A map of which only single entries are read and
written is a function into `Option` instead.

The enumeration order of an association list is one of the orders an unordered
map may be walked in; results that depend on the order take it as a parameter.
-/

set_option autoImplicit false

namespace AnyCable.Lib

/-- A finite map with keys `K` and values `V`. -/
abbrev GoMap (K V : Type) := AList (fun _ : K => V)

namespace GoMap

variable {K V : Type}

/-- `len(m) == 0`. -/
def isEmpty (m : GoMap K V) : Bool := m.entries.isEmpty

/-- The pairs of the map, for a `range` loop. -/
def toPairs (m : GoMap K V) : List (K × V) := m.entries.map fun e => (e.1, e.2)

/-- The same keys with other values. -/
def mapValues {W : Type} (f : V → W) (m : GoMap K V) : GoMap K W where
  entries := m.entries.map fun e => ⟨e.1, f e.2⟩
  nodupKeys := by
    have same : (m.entries.map fun e => (⟨e.1, f e.2⟩ : (_ : K) × W)).keys = m.entries.keys := by
      simp [List.keys, Function.comp_def]
    rw [List.NodupKeys, same]
    exact m.nodupKeys

theorem isEmpty_iff {m : GoMap K V} : isEmpty m ↔ ∀ k, k ∉ m := by
  unfold isEmpty
  rw [List.isEmpty_iff]
  constructor
  · intro empty k member
    have listed : k ∈ m.keys := member
    simp [AList.keys, empty] at listed
  · intro none
    by_contra nonempty
    obtain ⟨e, rest, shape⟩ := List.exists_cons_of_ne_nil nonempty
    have listed : e.1 ∈ m.keys := by simp [AList.keys, shape]
    exact none e.1 listed

theorem toPairs_distinct (m : GoMap K V) : (toPairs m).Pairwise fun p q => p.1 ≠ q.1 :=
  List.pairwise_map.mpr (List.nodupKeys_iff_pairwise.mp m.nodupKeys)

/-- Entries of two maps under one key, compared by `R`; both may be missing. -/
instance decidableRel {α β : Type} (R : α → β → Prop) [∀ a b, Decidable (R a b)] :
    (x : Option α) → (y : Option β) → Decidable (Option.Rel R x y)
  | none, none => isTrue .none
  | some a, some b => decidable_of_iff (R a b) Option.rel_some_some.symm
  | none, some _ => isFalse nofun
  | some _, none => isFalse nofun

theorem rel_refl {α : Type} {R : α → α → Prop} (all : ∀ a, R a a) (o : Option α) :
    Option.Rel R o o := by
  cases o with
  | none => exact .none
  | some a => exact .some (all a)

variable [DecidableEq K]

theorem mem_iff_lookup {m : GoMap K V} {k : K} : k ∈ m ↔ ∃ v, m.lookup k = some v := by
  rw [← AList.lookup_isSome, Option.isSome_iff_exists]

theorem lookup_insert_apply (m : GoMap K V) (k other : K) (v : V) :
    (m.insert k v).lookup other = if other = k then some v else m.lookup other := by
  split
  next same => rw [same, AList.lookup_insert]
  next different => rw [AList.lookup_insert_ne different]

theorem lookup_erase_apply (m : GoMap K V) (k other : K) :
    (m.erase k).lookup other = if other = k then none else m.lookup other := by
  split
  next same => rw [same, AList.lookup_erase]
  next different => rw [AList.lookup_erase_ne different]

/-- A value that is kept unless it has become empty. -/
theorem lookup_eraseOrInsert (m : GoMap K V) (k other : K) (v : V) (empty : Bool) :
    (if empty then m.erase k else m.insert k v).lookup other =
      if other = k then (if empty then none else some v) else m.lookup other := by
  cases empty with
  | true => simp [lookup_erase_apply]
  | false => simp [lookup_insert_apply]

theorem lookup_of_isEmpty {m : GoMap K V} (empty : isEmpty m) (k : K) : m.lookup k = none := by
  rw [AList.lookup_eq_none]
  exact isEmpty_iff.mp empty k

theorem lookup_of_mem_toPairs {m : GoMap K V} {k : K} {v : V} (member : (k, v) ∈ m.toPairs) :
    m.lookup k = some v := by
  simp only [toPairs, List.mem_map] at member
  obtain ⟨e, found, same⟩ := member
  cases same
  exact AList.mem_lookup_iff.mpr found

theorem mem_toPairs_iff {m : GoMap K V} {k : K} {v : V} :
    (k, v) ∈ m.toPairs ↔ m.lookup k = some v := by
  refine ⟨lookup_of_mem_toPairs, fun found => ?_⟩
  have member := AList.mem_lookup_iff.mp (Option.mem_def.mpr found)
  exact List.mem_map.mpr ⟨⟨k, v⟩, member, rfl⟩

theorem lookup_mapValues {W : Type} (f : V → W) (m : GoMap K V) (k : K) :
    (mapValues f m).lookup k = (m.lookup k).map f := by
  ext w
  rw [Option.map_eq_some_iff]
  simp only [← mem_toPairs_iff, toPairs, mapValues, List.mem_map, Prod.mk.injEq]
  constructor
  · rintro ⟨-, ⟨e, member, rfl⟩, rfl, rfl⟩
    exact ⟨e.2, ⟨e, member, rfl, rfl⟩, rfl⟩
  · rintro ⟨v, ⟨e, member, rfl, rfl⟩, rfl⟩
    exact ⟨⟨e.1, f e.2⟩, ⟨e, member, rfl⟩, rfl, rfl⟩

/-- Two maps compared entry by entry: the keys that occur are enough. -/
theorem forall_lookup_iff {W : Type} {P : Option V → Option W → Prop} (absent : P none none)
    (m : GoMap K V) (m' : GoMap K W) :
    (∀ k, P (m.lookup k) (m'.lookup k)) ↔
      ∀ k ∈ m.keys ++ m'.keys, P (m.lookup k) (m'.lookup k) := by
  refine ⟨fun all k _ => all k, fun listed k => ?_⟩
  by_cases member : k ∈ m.keys ++ m'.keys
  · exact listed k member
  · rw [List.mem_append, not_or, ← AList.mem_keys, ← AList.mem_keys] at member
    rw [AList.lookup_eq_none.mpr member.1, AList.lookup_eq_none.mpr member.2]
    exact absent

/-! A `range` loop that, for every entry, updates what a state holds under the key of that
entry: its order does not matter. -/

section Loop

variable {σ U : Type} {view : σ → K → Option U} {f : σ → K × V → σ}
  {g : V → Option U → Option U}

theorem foldl_absent
    (changes : ∀ s p k, view (f s p) k = if k = p.1 then g p.2 (view s k) else view s k)
    {pairs : List (K × V)} {k : K} (absent : ∀ p ∈ pairs, p.1 ≠ k) (s : σ) :
    view (pairs.foldl f s) k = view s k := by
  induction pairs generalizing s with
  | nil => rfl
  | cons p pairs ih =>
    have different := absent p (by simp)
    rw [List.foldl_cons, ih (fun q member => absent q (by simp [member])), changes,
      if_neg different.symm]

theorem foldl_present
    (changes : ∀ s p k, view (f s p) k = if k = p.1 then g p.2 (view s k) else view s k)
    {pairs : List (K × V)} (distinct : pairs.Pairwise fun p q => p.1 ≠ q.1) {k : K} {v : V}
    (member : (k, v) ∈ pairs) (s : σ) : view (pairs.foldl f s) k = g v (view s k) := by
  induction pairs generalizing s with
  | nil => cases member
  | cons p pairs ih =>
    rw [List.pairwise_cons] at distinct
    rw [List.foldl_cons]
    rcases List.mem_cons.mp member with rfl | later
    · rw [foldl_absent changes (fun q listed => (distinct.1 q listed).symm), changes, if_pos rfl]
    · have different : k ≠ p.1 := (distinct.1 (k, v) later).symm
      rw [ih distinct.2 later, changes, if_neg different]

theorem foldl_walk (view : σ → K → Option U) (g : V → Option U → Option U)
    (changes : ∀ s p k, view (f s p) k = if k = p.1 then g p.2 (view s k) else view s k)
    {m : GoMap K V} {walk : List (K × V)} (order : walk.Perm m.toPairs) (s : σ) (k : K) :
    view (walk.foldl f s) k = (m.lookup k).elim (view s k) fun v => g v (view s k) := by
  cases entry : m.lookup k with
  | none =>
    refine foldl_absent changes (fun p member same => ?_) s
    have found := lookup_of_mem_toPairs (show (p.1, p.2) ∈ m.toPairs from order.mem_iff.mp member)
    rw [same, entry] at found
    cases found
  | some v =>
    have distinct : walk.Pairwise fun p q => p.1 ≠ q.1 :=
      (order.pairwise_iff Ne.symm).mpr m.toPairs_distinct
    exact foldl_present changes distinct (order.mem_iff.mpr (mem_toPairs_iff.mpr entry)) s

theorem foldl_toPairs (view : σ → K → Option U) (g : V → Option U → Option U)
    (changes : ∀ s p k, view (f s p) k = if k = p.1 then g p.2 (view s k) else view s k)
    (m : GoMap K V) (s : σ) (k : K) :
    view (m.toPairs.foldl f s) k = (m.lookup k).elim (view s k) fun v => g v (view s k) :=
  foldl_walk view g changes (List.Perm.refl _) s k

end Loop

end GoMap

end AnyCable.Lib
