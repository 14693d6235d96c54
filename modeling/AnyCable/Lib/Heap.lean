import Mathlib.Logic.Equiv.Basic
import Mathlib.Order.Lattice

/-!
# Binary heaps behind an interface

The algorithms of Go's `container/heap`. They know a collection by its length, by comparisons and
by swaps of two positions; `none` is a panic of one of these. The loops are given as much fuel as
they can need.

A collection represents a sequence if it compares and swaps as the sequence does (`Lawful`). What
else the representation says of the collection is then kept by every algorithm, since they change it
by swaps alone.
-/

set_option autoImplicit false

namespace AnyCable.Lib.Heap

/-- `heap.Interface`. -/
structure Interface (σ ι : Type) where
  len : σ → Nat
  less : σ → Nat → Nat → Option Bool
  swap : σ → Nat → Nat → Option σ
  push : σ → ι → σ
  pop : σ → Option (σ × ι)

def parent (c : Nat) : Nat := (c - 1) / 2

section Algorithms

variable {σ ι : Type} (h : Interface σ ι)

def upLoop : Nat → σ → Nat → Option σ
  | 0, s, _ => some s
  | fuel + 1, s, j =>
    let i := parent j
    if i = j then some s
    else (h.less s j i).bind fun before =>
      if before then (h.swap s i j).bind fun s => upLoop fuel s i
      else some s

def up (s : σ) (j : Nat) : Option σ := upLoop h j s j

/-- The child of `i` to compare with: the right one if it is less than the left one. -/
def child (s : σ) (i n : Nat) : Option Nat :=
  if 2 * i + 2 < n then
    (h.less s (2 * i + 2) (2 * i + 1)).map fun right => if right then 2 * i + 2 else 2 * i + 1
  else some (2 * i + 1)

def downLoop : Nat → σ → Nat → Nat → Option (σ × Nat)
  | 0, s, i, _ => some (s, i)
  | fuel + 1, s, i, n =>
    if 2 * i + 1 ≥ n then some (s, i)
    else (child h s i n).bind fun j => (h.less s j i).bind fun before =>
      if before then (h.swap s i j).bind fun s => downLoop fuel s j n
      else some (s, i)

/-- Says whether the element has moved. -/
def down (s : σ) (i n : Nat) : Option (σ × Bool) :=
  (downLoop h n s i n).map fun result => (result.1, decide (result.2 > i))

/-- `if !down(h, i, n) { up(h, i) }`, of `Remove` and `Fix`. -/
def settle (s : σ) (i n : Nat) : Option σ :=
  (down h s i n).bind fun result => if result.2 then some result.1 else up h result.1 i

def init (s : σ) : Option σ :=
  (List.range (h.len s / 2)).reverse.foldlM
    (fun s' i => (down h s' i (h.len s)).map Prod.fst) s

def push (s : σ) (x : ι) : Option σ := up h (h.push s x) (h.len (h.push s x) - 1)

/-- The length of an empty collection minus one is no position, and swapping with it panics. -/
def pop (s : σ) : Option (σ × ι) :=
  if h.len s = 0 then none
  else (h.swap s 0 (h.len s - 1)).bind fun s' =>
    (down h s' 0 (h.len s - 1)).bind fun result => h.pop result.1

def remove (s : σ) (i : Nat) : Option (σ × ι) :=
  if h.len s - 1 = i then h.pop s
  else (h.swap s i (h.len s - 1)).bind fun s' => (settle h s' i (h.len s - 1)).bind h.pop

def fix (s : σ) (i : Nat) : Option σ := settle h s i (h.len s)

end Algorithms

section Swap

variable {β : Type} {f : Nat → β} {i j : Nat}

theorem comp_swap_of_ne {c : Nat} (first : c ≠ i) (second : c ≠ j) :
    (f ∘ Equiv.swap i j) c = f c :=
  congrArg f (Equiv.swap_apply_of_ne_of_ne first second)

theorem comp_swap_left : (f ∘ Equiv.swap i j) i = f j := congrArg f (Equiv.swap_apply_left i j)

theorem comp_swap_right : (f ∘ Equiv.swap i j) j = f i := congrArg f (Equiv.swap_apply_right i j)

end Swap

section Order

variable {κ : Type} [LinearOrder κ] {f g : Nat → κ} {n i j : Nat}

/-- No element is less than its parent. -/
def Ordered (f : Nat → κ) (n : Nat) : Prop := ∀ c, 0 < c → c < n → f (parent c) ≤ f c

/-- The element at `i` may be out of order, and nothing else is. -/
structure Loose (f : Nat → κ) (n i : Nat) : Prop where
  pairs : ∀ c, 0 < c → c < n → c ≠ i → parent c ≠ i → f (parent c) ≤ f c
  across : 0 < i → ∀ c, 0 < c → c < n → parent c = i → f (parent i) ≤ f c

/-- The element is in order with its children. -/
def Above (f : Nat → κ) (n i : Nat) : Prop := ∀ c, 0 < c → c < n → parent c = i → f i ≤ f c

theorem parent_lt {c : Nat} (positive : 0 < c) : parent c < c := by
  unfold parent
  omega

theorem parent_eq_iff {c i : Nat} (positive : 0 < c) :
    parent c = i ↔ c = 2 * i + 1 ∨ c = 2 * i + 2 := by
  unfold parent
  omega

theorem Ordered.root_le (ordered : Ordered f n) {x : Nat} (inside : x < n) : f 0 ≤ f x := by
  induction x using Nat.strongRecOn with
  | ind x ih =>
    by_cases positive : 0 < x
    · have smaller := parent_lt positive
      exact le_trans (ih (parent x) smaller (by omega)) (ordered x positive inside)
    · have root : x = 0 := by omega
      rw [root]

theorem Ordered.congr (ordered : Ordered f n) (same : ∀ x < n, g x = f x) : Ordered g n := by
  intro c positive inside
  have smaller := parent_lt positive
  rw [same (parent c) (by omega), same c inside]
  exact ordered c positive inside

/-- One element of an ordered sequence is replaced. -/
theorem Ordered.loose (ordered : Ordered f n) (same : ∀ x < n, x ≠ i → g x = f x) :
    Loose g n i where
  pairs := by
    intro c positive inside other apart
    have smaller := parent_lt positive
    rw [same (parent c) (by omega) apart, same c inside other]
    exact ordered c positive inside
  across := by
    intro below c positive inside child
    have smaller := parent_lt positive
    have smallest := parent_lt below
    rw [same (parent i) (by omega) (by omega), same c inside (by omega)]
    have first := ordered i below (by omega)
    have second := ordered c positive inside
    rw [child] at second
    exact le_trans first second

/-- An element is appended. -/
theorem Ordered.loose_last (ordered : Ordered f n) : Loose f (n + 1) n where
  pairs := fun c positive inside other _ => ordered c positive (by omega)
  across := by
    intro _ c positive inside child
    have smaller := parent_lt positive
    omega

theorem above_last : Above f (n + 1) n := by
  intro c positive inside child
  have smaller := parent_lt positive
  omega

theorem Loose.ordered (loose : Loose f n i) (above : Above f n i)
    (risen : 0 < i → f (parent i) ≤ f i) : Ordered f n := by
  intro c positive inside
  by_cases self : c = i
  · subst self
    exact risen positive
  · by_cases child : parent c = i
    · rw [child]
      exact above c positive inside child
    · exact loose.pairs c positive inside self child

/-- A step of `down`: the least child takes the place of its parent. -/
theorem Loose.sink (loose : Loose f n i) (positive : 0 < j) (child : parent j = i)
    (inside : j < n) (least : Above (Function.update f i (f j)) n i) (before : f j < f i) :
    Loose (f ∘ Equiv.swap i j) n j ∧
      (f ∘ Equiv.swap i j) (parent j) ≤ (f ∘ Equiv.swap i j) j := by
  have smaller := parent_lt positive
  have least' : ∀ c, 0 < c → c < n → parent c = i → f j ≤ f c := by
    intro c positive inside child
    have apart := parent_lt positive
    have bound := least c positive inside child
    rwa [Function.update_self, Function.update_of_ne (by omega)] at bound
  refine ⟨⟨?_, ?_⟩, ?_⟩
  · intro c positive' inside' other apart
    have smaller' := parent_lt positive'
    by_cases self : c = i
    · subst self
      rw [comp_swap_of_ne (by omega) apart, comp_swap_left]
      exact loose.across positive' j positive inside child
    · rw [comp_swap_of_ne self other]
      by_cases sibling : parent c = i
      · rw [sibling, comp_swap_left]
        exact least' c positive' inside' sibling
      · rw [comp_swap_of_ne sibling apart]
        exact loose.pairs c positive' inside' self sibling
  · intro _ c positive' inside' grandchild
    have smaller' := parent_lt positive'
    rw [child, comp_swap_left, comp_swap_of_ne (by omega) (by omega)]
    have ordered := loose.pairs c positive' inside' (by omega) (by omega)
    rwa [grandchild] at ordered
  · rw [child, comp_swap_left, comp_swap_right]
    exact le_of_lt before

/-- A step of `up`: the element takes the place of its parent. -/
theorem Loose.rise (loose : Loose f n j) (positive : 0 < j) (inside : j < n)
    (before : f j < f (parent j)) :
    Loose (f ∘ Equiv.swap (parent j) j) n (parent j) ∧
      Above (f ∘ Equiv.swap (parent j) j) n (parent j) := by
  have smaller := parent_lt positive
  -- the other children of the parent stay where they are
  have sibling : ∀ c, 0 < c → c < n → parent c = parent j → c ≠ j → f (parent j) ≤ f c := by
    intro c positive' inside' same other
    have ordered := loose.pairs c positive' inside' other (by omega)
    rwa [same] at ordered
  refine ⟨⟨?_, ?_⟩, ?_⟩
  · intro c positive' inside' other apart
    have different : c ≠ j := fun same => apart (by rw [same])
    rw [comp_swap_of_ne other different]
    by_cases child : parent c = j
    · rw [child, comp_swap_right]
      exact loose.across positive c positive' inside' child
    · rw [comp_swap_of_ne apart child]
      exact loose.pairs c positive' inside' different child
  · intro below c positive' inside' same
    have smallest := parent_lt below
    have smaller' := parent_lt positive'
    have first := loose.pairs (parent j) below (by omega) (by omega) (by omega)
    rw [comp_swap_of_ne (by omega) (by omega)]
    by_cases self : c = j
    · rw [self, comp_swap_right]
      exact first
    · rw [comp_swap_of_ne (by omega) self]
      exact le_trans first (sibling c positive' inside' same self)
  · intro c positive' inside' same
    have smaller' := parent_lt positive'
    rw [comp_swap_left]
    by_cases self : c = j
    · rw [self, comp_swap_right]
      exact le_of_lt before
    · rw [comp_swap_of_ne (by omega) self]
      exact le_trans (le_of_lt before) (sibling c positive' inside' same self)

end Order

section Correctness

variable {σ ι α κ : Type} [LinearOrder κ]

/-- Collections of length `n` compare and swap as the sequences they represent. -/
structure Lawful (h : Interface σ ι) (key : α → κ) (n : Nat) (R : σ → (Nat → α) → Prop) :
    Prop where
  len : ∀ s k, R s k → h.len s = n
  less : ∀ s k i j, R s k → i < n → j < n → h.less s i j = some (decide (key (k i) < key (k j)))
  swap : ∀ s k i j, R s k → i < n → j < n →
    ∃ s', h.swap s i j = some s' ∧ R s' (k ∘ Equiv.swap i j)

variable {h : Interface σ ι} {key : α → κ} {n : Nat} {R : σ → (Nat → α) → Prop}
  (lawful : Lawful h key n R) {s : σ} {k : Nat → α}
include lawful

theorem upLoop_spec {m : Nat} (within : m ≤ n) (fuel : Nat) {j : Nat} (inside : j < m)
    (enough : j ≤ fuel) (rep : R s k) (loose : Loose (key ∘ k) m j)
    (above : Above (key ∘ k) m j) :
    ∃ s' k', upLoop h fuel s j = some s' ∧ R s' k' ∧ (∀ x, m ≤ x → k' x = k x) ∧
      Ordered (key ∘ k') m := by
  induction fuel generalizing s k j with
  | zero =>
    refine ⟨s, k, rfl, rep, fun _ _ => rfl, loose.ordered above fun positive => ?_⟩
    omega
  | succ fuel ih =>
    unfold upLoop
    by_cases top : parent j = j
    · have root : ¬ 0 < j := fun positive => by
        have smaller := parent_lt positive
        omega
      exact ⟨s, k, by simp [top], rep, fun _ _ => rfl,
        loose.ordered above fun positive => absurd positive root⟩
    · have positive : 0 < j := by
        rcases Nat.eq_zero_or_pos j with root | positive
        · exact absurd (by rw [root]; rfl) top
        · exact positive
      have smaller := parent_lt positive
      simp only [if_neg top,
        lawful.less s k j (parent j) rep (by omega) (by omega), Option.bind_some]
      by_cases before : key (k j) < key (k (parent j))
      · obtain ⟨s', swapped, rep'⟩ := lawful.swap s k (parent j) j rep (by omega) (by omega)
        obtain ⟨loose', above'⟩ := loose.rise positive inside before
        obtain ⟨s'', k', ran, rep'', kept, ordered⟩ :=
          ih (by omega) (by omega) rep' loose' above'
        refine ⟨s'', k', by simp [before, swapped, ran], rep'', fun x outside => ?_, ordered⟩
        rw [kept x outside]
        exact comp_swap_of_ne (by omega) (by omega)
      · exact ⟨s, k, by simp [before], rep, fun _ _ => rfl,
          loose.ordered above fun _ => not_lt.mp before⟩

/-- The child that is compared is the least one. -/
theorem child_spec {m : Nat} (within : m ≤ n) {i : Nat} (rep : R s k) (first : 2 * i + 1 < m) :
    ∃ j, child h s i m = some j ∧ 0 < j ∧ parent j = i ∧ j < m ∧
      Above (Function.update (key ∘ k) i (key (k j))) m i := by
  have least : ∀ j, (∀ c, c = 2 * i + 1 ∨ c = 2 * i + 2 → c < m → key (k j) ≤ key (k c)) →
      Above (Function.update (key ∘ k) i (key (k j))) m i := by
    intro j bound c positive inside child
    have smaller := parent_lt positive
    rw [Function.update_self, Function.update_of_ne (by omega)]
    exact bound c ((parent_eq_iff positive).mp child) inside
  unfold child
  by_cases second : 2 * i + 2 < m
  · rw [if_pos second,
      lawful.less s k (2 * i + 2) (2 * i + 1) rep (by omega) (by omega), Option.map_some]
    by_cases right : key (k (2 * i + 2)) < key (k (2 * i + 1))
    · refine ⟨2 * i + 2, by simp [right], by omega, (parent_eq_iff (by omega)).mpr (by omega),
        second, least _ ?_⟩
      rintro c (rfl | rfl) _
      · exact le_of_lt right
      · exact le_rfl
    · refine ⟨2 * i + 1, by simp [right], by omega, (parent_eq_iff (by omega)).mpr (by omega),
        first, least _ ?_⟩
      rintro c (rfl | rfl) _
      · exact le_rfl
      · exact not_lt.mp right
  · rw [if_neg second]
    refine ⟨2 * i + 1, rfl, by omega, (parent_eq_iff (by omega)).mpr (by omega), first,
      least _ ?_⟩
    rintro c (rfl | rfl) inside
    · exact le_rfl
    · exact absurd inside second

/-- Either nothing happens, or the element ends up further down and all is in order. -/
theorem downLoop_spec {m : Nat} (within : m ≤ n) (fuel : Nat) {i : Nat} (inside : i < m)
    (enough : m ≤ i + fuel) (rep : R s k) (loose : Loose (key ∘ k) m i) :
    ∃ s' k' i', downLoop h fuel s i m = some (s', i') ∧ R s' k' ∧ (∀ x, m ≤ x → k' x = k x) ∧
      ((i' = i ∧ k' = k ∧ Above (key ∘ k) m i) ∨ (i < i' ∧ Ordered (key ∘ k') m)) := by
  induction fuel generalizing s k i with
  | zero => omega
  | succ fuel ih =>
    unfold downLoop
    by_cases leaf : 2 * i + 1 ≥ m
    · refine ⟨s, k, i, if_pos leaf, rep, fun _ _ => rfl, Or.inl ⟨rfl, rfl, ?_⟩⟩
      intro c positive below child
      rcases (parent_eq_iff positive).mp child with rfl | rfl <;> omega
    · obtain ⟨j, chosen, positive, child, below, least⟩ :=
        child_spec lawful within rep (Nat.lt_of_not_le leaf)
      have smaller := parent_lt positive
      rw [if_neg leaf, chosen, Option.bind_some,
        lawful.less s k j i rep (by omega) (by omega), Option.bind_some]
      by_cases before : key (k j) < key (k i)
      · obtain ⟨s', swapped, rep'⟩ := lawful.swap s k i j rep (by omega) (by omega)
        obtain ⟨loose', risen⟩ := loose.sink positive child below least before
        obtain ⟨s'', k', i', ran, rep'', kept, outcome⟩ := ih below (by omega) rep' loose'
        refine ⟨s'', k', i', by simp [before, swapped, ran], rep'', fun x outside => ?_,
          Or.inr ?_⟩
        · rw [kept x outside]
          exact comp_swap_of_ne (by omega) (by omega)
        · rcases outcome with ⟨rfl, rfl, above⟩ | ⟨further, ordered⟩
          · exact ⟨by omega, loose'.ordered above fun _ => risen⟩
          · exact ⟨by omega, ordered⟩
      · refine ⟨s, k, i, by simp [before], rep, fun _ _ => rfl, Or.inl ⟨rfl, rfl, ?_⟩⟩
        intro c positive' inside' child'
        have smaller' := parent_lt positive'
        have bound := least c positive' inside' child'
        rw [Function.update_self, Function.update_of_ne (by omega)] at bound
        exact le_trans (not_lt.mp before) bound

theorem down_spec {m : Nat} (within : m ≤ n) {i : Nat} (inside : i < m) (rep : R s k)
    (loose : Loose (key ∘ k) m i) :
    ∃ s' k' moved, down h s i m = some (s', moved) ∧ R s' k' ∧ (∀ x, m ≤ x → k' x = k x) ∧
      ((moved = false ∧ k' = k ∧ Above (key ∘ k) m i) ∨
        (moved = true ∧ Ordered (key ∘ k') m)) := by
  obtain ⟨s', k', i', ran, rep', kept, outcome⟩ :=
    downLoop_spec lawful within m inside (by omega) rep loose
  refine ⟨s', k', decide (i' > i), by rw [down, ran]; rfl, rep', kept, ?_⟩
  rcases outcome with ⟨rfl, same, above⟩ | ⟨further, ordered⟩
  · exact Or.inl ⟨by simp, same, above⟩
  · exact Or.inr ⟨by simpa using further, ordered⟩

theorem settle_spec {m : Nat} (within : m ≤ n) {i : Nat} (inside : i < m) (rep : R s k)
    (loose : Loose (key ∘ k) m i) :
    ∃ s' k', settle h s i m = some s' ∧ R s' k' ∧ (∀ x, m ≤ x → k' x = k x) ∧
      Ordered (key ∘ k') m := by
  obtain ⟨s', k', moved, ran, rep', kept, outcome⟩ := down_spec lawful within inside rep loose
  unfold settle
  rw [ran, Option.bind_some]
  rcases outcome with ⟨rfl, rfl, above⟩ | ⟨rfl, ordered⟩
  · obtain ⟨s'', k'', risen, rep'', kept', ordered⟩ :=
      upLoop_spec lawful within i inside (Nat.le_refl i) rep' loose above
    exact ⟨s'', k'', risen, rep'', kept', ordered⟩
  · exact ⟨s', k', rfl, rep', kept, ordered⟩

/-- After `Push` of the collection. -/
theorem push_spec {m : Nat} {x : ι} (length : n = m + 1) (rep : R (h.push s x) k)
    (ordered : Ordered (key ∘ k) m) :
    ∃ s' k', push h s x = some s' ∧ R s' k' ∧ Ordered (key ∘ k') n := by
  subst length
  obtain ⟨s', k', ran, rep', -, ordered'⟩ :=
    upLoop_spec lawful (Nat.le_refl (m + 1)) m (Nat.lt_succ_self m) (Nat.le_refl m) rep
      ordered.loose_last above_last
  refine ⟨s', k', ?_, rep', ordered'⟩
  rw [push, lawful.len _ k rep, Nat.add_sub_cancel]
  exact ran

/-- Up to `Pop` of the collection, which takes the last element. -/
theorem pop_spec {m : Nat} (length : n = m + 1) (rep : R s k) (ordered : Ordered (key ∘ k) n) :
    ∃ s' k', pop h s = h.pop s' ∧ R s' k' ∧ k' m = k 0 ∧ Ordered (key ∘ k') m := by
  subst length
  obtain ⟨s', swapped, rep'⟩ := lawful.swap s k 0 m rep (by omega) (by omega)
  have last : (k ∘ Equiv.swap 0 m) m = k 0 := congrArg k (Equiv.swap_apply_right 0 m)
  have start : pop h s = (down h s' 0 m).bind fun result => h.pop result.1 := by
    rw [pop, lawful.len s k rep, if_neg (Nat.succ_ne_zero m), Nat.add_sub_cancel, swapped]
    rfl
  by_cases more : 0 < m
  · have shorter : Ordered (key ∘ k) m := fun c positive inside =>
      ordered c positive (by omega)
    have loose : Loose (key ∘ (k ∘ Equiv.swap 0 m)) m 0 :=
      shorter.loose fun x inside other =>
        comp_swap_of_ne (f := key ∘ k) other (Nat.ne_of_lt inside)
    obtain ⟨s'', k', moved, ran, rep'', kept, outcome⟩ :=
      down_spec lawful (Nat.le_succ m) more rep' loose
    refine ⟨s'', k', by rw [start, ran]; rfl, rep'', (kept m (Nat.le_refl m)).trans last, ?_⟩
    rcases outcome with ⟨-, rfl, above⟩ | ⟨-, ordered'⟩
    · exact loose.ordered above fun impossible => absurd impossible (Nat.lt_irrefl 0)
    · exact ordered'
  · have single : m = 0 := by omega
    subst single
    refine ⟨s', _, by rw [start]; rfl, rep', last, fun c _ inside => ?_⟩
    omega

theorem remove_spec {m i : Nat} (length : n = m + 1) (inside : i < n) (rep : R s k)
    (ordered : Ordered (key ∘ k) n) :
    ∃ s' k', remove h s i = h.pop s' ∧ R s' k' ∧ k' m = k i ∧ Ordered (key ∘ k') m := by
  subst length
  have shorter : Ordered (key ∘ k) m := fun c positive inside => ordered c positive (by omega)
  unfold remove
  rw [lawful.len s k rep, Nat.add_sub_cancel]
  by_cases last : m = i
  · subst last
    exact ⟨s, k, if_pos rfl, rep, rfl, shorter⟩
  · obtain ⟨s', swapped, rep'⟩ := lawful.swap s k i m rep inside (by omega)
    have loose : Loose (key ∘ (k ∘ Equiv.swap i m)) m i :=
      shorter.loose fun x inside other =>
        comp_swap_of_ne (f := key ∘ k) other (Nat.ne_of_lt inside)
    obtain ⟨s'', k', ran, rep'', kept, ordered'⟩ :=
      settle_spec lawful (Nat.le_succ m) (by omega) rep' loose
    refine ⟨s'', k', by rw [if_neg last, swapped, Option.bind_some, ran]; rfl, rep'', ?_, ordered'⟩
    exact (kept m (Nat.le_refl m)).trans (congrArg k (Equiv.swap_apply_right i m))

/-- After the element at `i` was given another key. -/
theorem fix_spec {i : Nat} (inside : i < n) (rep : R s k) (loose : Loose (key ∘ k) n i) :
    ∃ s' k', fix h s i = some s' ∧ R s' k' ∧ Ordered (key ∘ k') n := by
  obtain ⟨s', k', ran, rep', -, ordered⟩ :=
    settle_spec lawful (Nat.le_refl n) inside rep loose
  refine ⟨s', k', ?_, rep', ordered⟩
  rw [fix, lawful.len s k rep]
  exact ran

end Correctness

end AnyCable.Lib.Heap
