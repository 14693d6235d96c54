import Mathlib.Data.List.Basic

/-!
# Slices over a shared backing array

`append(s[:i], s[i+1:]...)` removes an element of a Go slice by moving the elements
behind it inside the backing array. A loop that ranges over the slice keeps the old
header and therefore sees the moved elements. A `Slice` is a backing array together
with the length of the live part. `append` fills the array before it takes a new one, also
after `s[:0]`.

A loop that removes what it is looking for from the slice it ranges over misses elements:
`reached` says which ones it comes across, and `visits` how often (`removeLoop_visits`).
-/

set_option autoImplicit false

namespace AnyCable.Lib

structure Slice (α : Type) where
  array : List α
  len : Nat
  deriving DecidableEq, Repr

namespace Slice

variable {α : Type}

def ofList (items : List α) : Slice α := ⟨items, items.length⟩

/-- The live elements. -/
def items (s : Slice α) : List α := s.array.take s.len

/-- Move everything behind position `i` one place down; the last live place keeps its
old content and is no longer live. -/
def removeAt (s : Slice α) (i : Nat) : Slice α :=
  ⟨s.array.take i ++ (s.array.take s.len).drop (i + 1) ++ s.array.drop (s.len - 1), s.len - 1⟩

/-- Remove the first live element equal to `x`, if there is one. -/
def removeFirst [BEq α] (s : Slice α) (x : α) : Slice α :=
  match s.items.idxOf? x with
  | none => s
  | some i => s.removeAt i

/-- `make([]T, 0, capacity)`. -/
def make (zero : α) (capacity : Nat) : Slice α := ⟨List.replicate capacity zero, 0⟩

/-- `s[:0]`: the array stays, for the next elements. -/
def cleared (s : Slice α) : Slice α := { s with len := 0 }

/-- `append(s, x)` writes into the array where there is room, and into a copy otherwise. -/
def append (s : Slice α) (x : α) : Slice α :=
  if s.len < s.array.length then ⟨s.array.set s.len x, s.len + 1⟩ else ofList (s.items ++ [x])

theorem items_ofList (l : List α) : (ofList l).items = l := by
  simp [items, ofList]

theorem items_append (s : Slice α) (x : α) : (s.append x).items = s.items ++ [x] := by
  unfold append
  split
  next room =>
    simp only [items]
    rw [List.take_add_one, List.take_set_of_le (Nat.le_refl _), List.getElem?_set_self room]
    rfl
  next => exact items_ofList _

theorem fits_append (s : Slice α) (x : α) : (s.append x).len ≤ (s.append x).array.length := by
  unfold append
  split
  next room =>
    rw [List.length_set]
    exact room
  next => exact Nat.le_refl _

theorem length_items {s : Slice α} (fits : s.len ≤ s.array.length) : s.items.length = s.len := by
  rw [items, List.length_take, Nat.min_eq_left fits]

theorem items_removeAt {s : Slice α} {i : Nat} (live : i < s.items.length) :
    (s.removeAt i).items = s.items.eraseIdx i := by
  unfold items at live ⊢
  have bound : i < s.len ∧ i < s.array.length := by simpa [Nat.lt_min] using live
  have len : (s.array.take i ++ (s.array.take s.len).drop (i + 1)).length =
      min s.len s.array.length - 1 := by
    simp only [List.length_append, List.length_take, List.length_drop]
    omega
  rw [List.eraseIdx_eq_take_drop_succ, List.take_take, Nat.min_eq_left (by omega)]
  simp only [removeAt]
  by_cases fits : s.len ≤ s.array.length
  · exact List.take_left' (by rw [len]; omega)
  · rw [List.take_of_length_le (by simp; omega), List.drop_of_length_le (l := s.array) (by omega),
      List.append_nil]

theorem items_removeFirst [BEq α] [LawfulBEq α] (s : Slice α) (x : α) :
    (s.removeFirst x).items = s.items.erase x := by
  unfold removeFirst
  rw [List.erase_eq_eraseIdx]
  cases found : s.items.idxOf? x with
  | none => rfl
  | some i =>
    refine items_removeAt ?_
    exact (List.findIdx?_eq_some_iff_getElem.mp found).1

theorem length_removeAt {s : Slice α} {i : Nat} (live : i < s.len) (fits : s.len ≤ s.array.length) :
    (s.removeAt i).array.length = s.array.length := by
  simp only [removeAt, List.length_append, List.length_take, List.length_drop]
  omega

/-- From the removed place on, every live place has the content of the next one. -/
theorem getElem?_removeAt {s : Slice α} {i k : Nat} (live : i < s.len)
    (fits : s.len ≤ s.array.length) (behind : i ≤ k) :
    (s.removeAt i).array[k]? = if k + 1 < s.len then s.array[k + 1]? else s.array[k]? := by
  have first : (s.array.take i).length = i := by
    rw [List.length_take]
    omega
  have moved : ((s.array.take s.len).drop (i + 1)).length = s.len - (i + 1) := by
    rw [List.length_drop, List.length_take]
    omega
  simp only [removeAt]
  split
  next inside =>
    rw [List.append_assoc, List.getElem?_append_right (by omega),
      List.getElem?_append_left (by omega), List.getElem?_drop,
      List.getElem?_take_of_lt (by omega)]
    congr 1
    omega
  next outside =>
    rw [List.getElem?_append_right (by rw [List.length_append]; omega), List.getElem?_drop,
      List.length_append]
    congr 1
    omega

section Loop

/-- The hits of a `range` loop that removes every hit. The element behind a hit moves into its
place and is not looked at; the last element is, because its old place keeps a copy. -/
def reached (hit : α → Bool) : List α → List α
  | [] => []
  | [x] => if hit x then [x] else []
  | [x, y] => (if hit x then [x] else []) ++ if hit y then [y] else []
  | x :: y :: z :: rest =>
    if hit x then x :: reached hit (z :: rest) else reached hit (y :: z :: rest)

theorem hit_of_mem_reached {hit : α → Bool} {x : α} {items : List α}
    (member : x ∈ reached hit items) : hit x = true := by
  fun_induction reached hit items with
  | case1 => cases member
  | case2 y found =>
    rw [List.mem_singleton] at member
    exact member ▸ found
  | case3 y miss => cases member
  | case4 y z =>
    rcases List.mem_append.mp member with first | second
    · split at first
      next found => exact List.mem_singleton.mp first ▸ found
      · cases first
    · split at second
      next found => exact List.mem_singleton.mp second ▸ found
      · cases second
  | case5 y z w rest found ih =>
    rcases List.mem_cons.mp member with own | later
    · exact own ▸ found
    · exact ih later
  | case6 y z w rest miss ih => exact ih member

theorem reached_subset {hit : α → Bool} {items : List α} : reached hit items ⊆ items := by
  fun_induction reached hit items with
  | case1 | case2 => simp
  | case3 => simp
  | case4 y z => split <;> split <;> simp
  | case5 y z w rest found ih =>
    exact List.cons_subset_cons y (List.Subset.trans ih (List.subset_cons_self z (w :: rest)))
  | case6 y z w rest miss ih =>
    exact List.Subset.trans ih (List.subset_cons_self y (z :: w :: rest))

/-- No two neighbours are hits, unless the second one is the last element. -/
def Apart (hit : α → Bool) : List α → Prop
  | x :: y :: z :: rest => ¬ (hit x = true ∧ hit y = true) ∧ Apart hit (y :: z :: rest)
  | _ => True

instance decidableApart (hit : α → Bool) : (items : List α) → Decidable (Apart hit items)
  | [] => isTrue trivial
  | [_] => isTrue trivial
  | [_, _] => isTrue trivial
  | x :: y :: z :: rest =>
    have := decidableApart hit (y :: z :: rest)
    inferInstanceAs (Decidable (¬ (hit x = true ∧ hit y = true) ∧ Apart hit (y :: z :: rest)))

theorem apart_cons_of_miss {hit : α → Bool} {x : α} (miss : hit x = false) (rest : List α) :
    Apart hit (x :: rest) ↔ Apart hit rest := by
  match rest with
  | [] => simp [Apart]
  | [y] => simp [Apart]
  | y :: z :: rest => simp [Apart, miss]

/-- Where no element occurs twice, the loop comes across all hits exactly if they are apart. -/
theorem all_reached_iff_apart {hit : α → Bool} {items : List α} (nodup : items.Nodup) :
    (∀ x ∈ items, hit x = true → x ∈ reached hit items) ↔ Apart hit items := by
  fun_induction reached hit items with
  | case1 => simp [Apart]
  | case2 y found => simp [Apart]
  | case3 y miss => simp [Apart, miss]
  | case4 y z =>
    refine iff_of_true (fun x member found => ?_) trivial
    rcases List.mem_cons.mp member with rfl | second
    · simp [found]
    · rw [List.mem_singleton] at second
      subst second
      simp [found]
  | case5 y z w rest found ih =>
    obtain ⟨first, nodup⟩ := List.nodup_cons.mp nodup
    obtain ⟨behind, nodup⟩ := List.nodup_cons.mp nodup
    cases skipped : hit z with
    | true =>
      -- the element behind the hit is not looked at
      refine iff_of_false (fun all => ?_) (fun apart => apart.1 ⟨found, skipped⟩)
      rcases List.mem_cons.mp (all z (by simp) skipped) with same | later
      · exact first (by simp [same])
      · exact behind (reached_subset later)
    | false =>
      have rest_apart : Apart hit (y :: z :: w :: rest) ↔ Apart hit (w :: rest) := by
        rw [← apart_cons_of_miss skipped (w :: rest)]
        simp [Apart, skipped]
      rw [rest_apart, ← ih nodup]
      constructor
      · intro all x member hits
        rcases List.mem_cons.mp (all x (by simp [member]) hits) with rfl | later
        · exact absurd (List.mem_cons_of_mem _ member) first
        · exact later
      · intro all x member hits
        rcases List.mem_cons.mp member with rfl | member
        · exact List.mem_cons_self
        · rcases List.mem_cons.mp member with rfl | member
          · rw [skipped] at hits
            cases hits
          · exact List.mem_cons_of_mem _ (all x member hits)
  | case6 y z w rest miss ih =>
    have missed : hit y = false := by simpa using miss
    obtain ⟨-, nodup⟩ := List.nodup_cons.mp nodup
    rw [apart_cons_of_miss missed, ← ih nodup]
    refine ⟨fun all x member => all x (List.mem_cons_of_mem _ member), fun all x member hits => ?_⟩
    rcases List.mem_cons.mp member with rfl | member
    · rw [missed] at hits
      cases hits
    · exact all x member hits

/-- The hits turn by turn, after some removals: every place that a removal left behind has a copy of
the last element, which is therefore looked at again. -/
def visits (hit : α → Bool) : Nat → List α → List α
  | _, [] => []
  | removed, [x] => if hit x then List.replicate (removed + 1) x else []
  | removed, [x, y] =>
    (if hit x then [x] else []) ++ if hit y then List.replicate (removed + 1) y else []
  | removed, x :: y :: z :: rest =>
    if hit x then x :: visits hit (removed + 1) (z :: rest) else visits hit removed (y :: z :: rest)

theorem mem_visits_iff {hit : α → Bool} {removed : Nat} {items : List α} {x : α} :
    x ∈ visits hit removed items ↔ x ∈ reached hit items := by
  fun_induction visits hit removed items with
  | case1 => simp [reached]
  | case2 removed y found => simp [reached, found]
  | case3 removed y miss => simp [reached, miss]
  | case4 removed y z =>
    simp only [reached, List.mem_append]
    refine or_congr_right ?_
    split <;> simp
  | case5 removed y z w rest found ih => simp [reached, found, ih]
  | case6 removed y z w rest miss ih => simp [reached, miss, ih]

theorem visits_cons_of_miss {hit : α → Bool} {x : α} (miss : hit x = false) (removed : Nat)
    (rest : List α) : visits hit removed (x :: rest) = visits hit removed rest := by
  match rest with
  | [] => simp [visits, miss]
  | [y] => simp [visits, miss]
  | y :: z :: rest => simp [visits, miss]

/-- What is still to come at place `i` of the loop over `items`: the elements moved down by the
number of removals, and copies of the last one. -/
structure Ahead (items : List α) (i : Nat) (s : Slice α) : Prop where
  length : s.array.length = items.length
  live : s.len ≤ items.length
  content : ∀ k, i ≤ k → k < items.length →
    s.array[k]? = items[min (k + (items.length - s.len)) (items.length - 1)]?

theorem ahead_ofList (items : List α) : Ahead items 0 (ofList items) where
  length := rfl
  live := Nat.le_refl _
  content := by
    intro k _ inside
    simp only [ofList]
    congr 1
    omega

theorem Ahead.next {items : List α} {i : Nat} {s : Slice α} (ahead : Ahead items i s) :
    Ahead items (i + 1) s :=
  ⟨ahead.length, ahead.live, fun k later inside => ahead.content k (by omega) inside⟩

/-- Removing a live element that is not behind place `i`. -/
theorem Ahead.removeAt {items : List α} {i j : Nat} {s : Slice α} (ahead : Ahead items i s)
    (live : j < s.len) (before : j ≤ i) : Ahead items (i + 1) (s.removeAt j) where
  length := (length_removeAt live (ahead.length ▸ ahead.live)).trans ahead.length
  live := by
    have := ahead.live
    simp only [Slice.removeAt]
    omega
  content := by
    intro k later inside
    have bound := ahead.live
    rw [getElem?_removeAt live (ahead.length ▸ bound) (by omega)]
    simp only [Slice.removeAt]
    split
    · rw [ahead.content (k + 1) (by omega) (by omega)]
      congr 1
      omega
    · rw [ahead.content k (by omega) inside]
      congr 1
      omega

/-- The element that is looked at is the first one still to come. -/
theorem Ahead.here {items : List α} {i v : Nat} {s : Slice α} (ahead : Ahead items i s)
    (inside : i < items.length)
    (at_v : v = min (i + (items.length - s.len)) (items.length - 1)) :
    ∃ x, s.array[i]? = some x ∧ items.drop v = x :: items.drop (v + 1) := by
  have behind : v < items.length := by omega
  refine ⟨items[v], ?_, List.drop_eq_getElem_cons behind⟩
  rw [ahead.content i (Nat.le_refl i) inside, ← at_v, List.getElem?_eq_getElem behind]

/-- After a hit at `v` the loop goes on at `w`, with one live place less unless only copies are
left. -/
theorem visits_of_hit {hit : α → Bool} {items : List α} {x : α} {i v w len fewer : Nat}
    (found : hit x = true) (first : items.drop v = x :: items.drop (v + 1))
    (more : i + 1 < items.length) (live : len ≤ items.length) (shorter : fewer ≤ len)
    (one_less : i < len → fewer = len - 1)
    (at_v : v = min (i + (items.length - len)) (items.length - 1))
    (at_w : w = min (i + 1 + (items.length - fewer)) (items.length - 1)) :
    visits hit (v - i) (items.drop v) = x :: visits hit (w - (i + 1)) (items.drop w) := by
  by_cases last : v + 1 < items.length
  · have next := one_less (by omega)
    by_cases skipped : v + 2 < items.length
    · rw [first, show w = v + 2 by omega, show v + 2 - (i + 1) = v - i + 1 by omega,
        List.drop_eq_getElem_cons (i := v + 1) last,
        List.drop_eq_getElem_cons (i := v + 2) skipped]
      simp [visits, found]
    · rw [first, show w = v + 1 by omega, show v + 1 - (i + 1) = v - i by omega,
        List.drop_eq_getElem_cons (i := v + 1) last,
        List.drop_of_length_le (i := v + 1 + 1) (by omega)]
      simp [visits, found]
  · rw [show w = v by omega, first, List.drop_of_length_le (i := v + 1) (by omega),
      show v - i = v - (i + 1) + 1 by omega]
    simp [visits, found, List.replicate_succ]

variable [BEq α] [LawfulBEq α] {β : Type}

/-- A hit at place `i` is live, or it is the copy of the last element. -/
theorem Ahead.removeFirst {items : List α} {i : Nat} {s : Slice α} {x : α}
    (ahead : Ahead items i s) (here : s.array[i]? = some x) :
    Ahead items (i + 1) (s.removeFirst x) ∧
      (s.removeFirst x).len ≤ s.len ∧ (i < s.len → (s.removeFirst x).len = s.len - 1) := by
  unfold Slice.removeFirst
  cases found : s.items.idxOf? x with
  | none =>
    refine ⟨ahead.next, Nat.le_refl _, fun live => ?_⟩
    have member : x ∈ s.items := by
      refine List.mem_of_getElem? (i := i) ?_
      rw [Slice.items, List.getElem?_take_of_lt live]
      exact here
    exact absurd member (List.idxOf?_eq_none_iff.mp found)
  | some j =>
    obtain ⟨inside, same, first⟩ := List.findIdx?_eq_some_iff_getElem.mp found
    have live : j < s.len := by
      have := inside
      simp only [Slice.items, List.length_take] at this
      omega
    have before : j ≤ i := by
      by_contra behind
      have at' : i < s.items.length := by omega
      have own : s.items[i] = x := by
        have := here
        rw [← List.getElem?_take_of_lt (show i < s.len by omega)] at this
        exact (List.getElem?_eq_some_iff.mp this).2
      exact first i (by omega) (by simp [own])
    exact ⟨ahead.removeAt live before, by simp [Slice.removeAt], fun _ => rfl⟩

/-- One turn of such a loop, at place `i`. -/
def removeTurn (hit : α → Bool) (f : β → α → β) (acc : β × Slice α) (i : Nat) : β × Slice α :=
  match acc.2.array[i]? with
  | none => acc
  | some x => if hit x then (f acc.1 x, acc.2.removeFirst x) else acc

/-- The loop from place `i` on, which is not the end. -/
theorem removeTurns_visits (hit : α → Bool) (f : β → α → β) {items : List α} (m : Nat) :
    ∀ (i v : Nat) (b : β) (s : Slice α), i + (m + 1) = items.length → Ahead items i s →
      v = min (i + (items.length - s.len)) (items.length - 1) →
      ((List.range' i (m + 1)).foldl (removeTurn hit f) (b, s)).1 =
          (visits hit (v - i) (items.drop v)).foldl f b ∧
        ((List.range' i (m + 1)).foldl (removeTurn hit f) (b, s)).2.items =
          (visits hit (v - i) (items.drop v)).foldl List.erase s.items := by
  induction m with
  | zero =>
    intro i v b s last ahead at_v
    obtain ⟨x, here, first⟩ := ahead.here (by omega) at_v
    rw [first, List.drop_of_length_le (i := v + 1) (by omega), show v - i = 0 by omega]
    simp only [List.range'_succ, List.range'_zero, List.foldl_cons, List.foldl_nil, removeTurn,
      here]
    cases found : hit x with
    | true => simp [visits, found, items_removeFirst]
    | false => simp [visits, found]
  | succ m ih =>
    intro i v b s last ahead at_v
    obtain ⟨x, here, first⟩ := ahead.here (by omega) at_v
    have turn : removeTurn hit f (b, s) i =
        if hit x then (f b x, s.removeFirst x) else (b, s) := by
      simp only [removeTurn, here]
    rw [List.range'_succ, List.foldl_cons, turn]
    cases found : hit x with
    | false =>
      simp only [Bool.false_eq_true, if_false]
      rw [first, visits_cons_of_miss found]
      by_cases end' : v + 1 < items.length
      · have later := ih (i + 1) (v + 1) b s (by omega) ahead.next (by omega)
        rwa [show v + 1 - (i + 1) = v - i by omega] at later
      · -- the copy of the last element again
        have later := ih (i + 1) v b s (by omega) ahead.next (by omega)
        rw [first, visits_cons_of_miss found] at later
        rw [List.drop_of_length_le (i := v + 1) (by omega)] at later ⊢
        exact later
    | true =>
      obtain ⟨next, shorter, one_less⟩ := ahead.removeFirst here
      have later := ih (i + 1) _ (f b x) (s.removeFirst x) (by omega) next rfl
      rw [visits_of_hit found first (by omega) ahead.live shorter one_less at_v rfl]
      simpa [items_removeFirst] using later

theorem removeLoop_visits (hit : α → Bool) (f : β → α → β) (items : List α) (b : β) :
    ((List.range items.length).foldl (removeTurn hit f) (b, ofList items)).1 =
        (visits hit 0 items).foldl f b ∧
      ((List.range items.length).foldl (removeTurn hit f) (b, ofList items)).2.items =
        (visits hit 0 items).foldl List.erase items := by
  cases length : items.length with
  | zero =>
    rw [List.eq_nil_of_length_eq_zero length]
    exact ⟨rfl, rfl⟩
  | succ m =>
    have loop := removeTurns_visits hit f m 0 0 b _ (by omega) (ahead_ofList items)
      (by simp [ofList])
    rw [List.range_eq_range']
    simpa [items_ofList] using loop

theorem removeLoop_reached (hit : α → Bool) (f : β → α → β) (items : List α) (b : β) :
    ∃ visited : List α, ((List.range items.length).foldl (removeTurn hit f) (b, ofList items)).1 =
        visited.foldl f b ∧ ∀ x, x ∈ visited ↔ x ∈ reached hit items :=
  ⟨visits hit 0 items, (removeLoop_visits hit f items b).1, fun _ => mem_visits_iff⟩

end Loop

end Slice

end AnyCable.Lib
