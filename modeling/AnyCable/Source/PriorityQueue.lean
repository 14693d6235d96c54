import AnyCable.Lib.Heap
import Mathlib.Data.List.Nodup
import Mathlib.Data.List.Perm.Basic
import Mathlib.Order.WithBot

/-!
# The priority queue

Source: `utils/priority_queue.go`. A queue is a slice of pointers to items, and `container/heap`
works on it through `Len`, `Less`, `Swap`, `Push` and `Pop`. An item keeps its position in the
slice, and `Update` and `Remove` find it there. Pointers are addresses in the list of all items that
were ever pushed; `none` is a panic.

The type of priorities is any linear order. `constraints.Ordered` also admits floats, whose NaN is
not ordered with anything.
-/

set_option autoImplicit false

namespace AnyCable.Source
open AnyCable.Lib

structure PriorityQueueItem (T P : Type) where
  value : T
  priority : P
  index : Int := 0
  deriving DecidableEq, Repr

structure PriorityQueue (T P : Type) where
  /-- The memory, by address. -/
  items : List (PriorityQueueItem T P) := []
  slice : List Nat := []
  deriving DecidableEq, Repr

namespace PriorityQueue

variable {T P : Type}

/-- `item.index = i`. -/
def setIndex (q : PriorityQueue T P) (a : Nat) (i : Int) : PriorityQueue T P :=
  { q with items := q.items.modify a fun item => { item with index := i } }

/-- `item.priority = priority`. -/
def setPriority (q : PriorityQueue T P) (a : Nat) (priority : P) : PriorityQueue T P :=
  { q with items := q.items.modify a fun item => { item with priority } }

/-- `pq[i]`, followed to the item. -/
def itemAt (q : PriorityQueue T P) (i : Nat) : Option (PriorityQueueItem T P) :=
  (q.slice[i]?).bind fun a => q.items[a]?

def less [LinearOrder P] (q : PriorityQueue T P) (i j : Nat) : Option Bool :=
  (q.itemAt i).bind fun x => (q.itemAt j).map fun y => decide (x.priority < y.priority)

/-- The pointer `a` goes from `i` to `j`, and `b` the other way. -/
def exchange (q : PriorityQueue T P) (i j a b : Nat) : PriorityQueue T P :=
  ({ q with slice := (q.slice.set i b).set j a }.setIndex b i).setIndex a j

def swap (q : PriorityQueue T P) (i j : Nat) : Option (PriorityQueue T P) :=
  (q.slice[i]?).bind fun a => (q.slice[j]?).map fun b => q.exchange i j a b

def push (q : PriorityQueue T P) (a : Nat) : PriorityQueue T P :=
  { q.setIndex a q.slice.length with slice := q.slice ++ [a] }

def pop (q : PriorityQueue T P) : Option (PriorityQueue T P × Nat) :=
  (q.slice.getLast?).map fun a => ({ q.setIndex a (-1) with slice := q.slice.dropLast }, a)

def interface [LinearOrder P] : Heap.Interface (PriorityQueue T P) Nat where
  len := fun q => q.slice.length
  less := less
  swap := swap
  push := push
  pop := pop

/-- `NewPriorityQueue`. -/
def new [LinearOrder P] : Option (PriorityQueue T P) := Heap.init interface {}

/-- The new item, with index 0 until it is pushed. -/
def allocate (q : PriorityQueue T P) (value : T) (priority : P) : PriorityQueue T P :=
  { q with items := q.items ++ [{ value, priority }] }

def pushItem [LinearOrder P] (q : PriorityQueue T P) (value : T) (priority : P) :
    Option (PriorityQueue T P × Nat) :=
  (Heap.push interface (q.allocate value priority) q.items.length).map fun pushed =>
    (pushed, q.items.length)

def popItem [LinearOrder P] (q : PriorityQueue T P) : Option (PriorityQueue T P × Nat) :=
  Heap.pop interface q

/-- At a negative index both loops of `Fix` stop at once. -/
def update [LinearOrder P] (q : PriorityQueue T P) (a : Nat) (priority : P) :
    Option (PriorityQueue T P) :=
  (q.items[a]?).bind fun item =>
    match item.index with
    | .ofNat i => Heap.fix interface (q.setPriority a priority) i
    | .negSucc _ => some (q.setPriority a priority)

def peek (q : PriorityQueue T P) : Option Nat := q.slice[0]?

/-- At a negative index `Swap` panics, or `Pop` if the queue is empty. -/
def remove [LinearOrder P] (q : PriorityQueue T P) (a : Nat) : Option (PriorityQueue T P) :=
  (q.items[a]?).bind fun item =>
    match item.index with
    | .ofNat i => (Heap.remove interface q i).map Prod.fst
    | .negSucc _ => none

/-- What an item holds, apart from its index. -/
def contents (q : PriorityQueue T P) (a : Nat) : Option (T × P) :=
  (q.items[a]?).map fun item => (item.value, item.priority)

/-- The addresses in the slice, as a sequence. -/
def seq (q : PriorityQueue T P) (i : Nat) : Nat := q.slice.getD i 0

/-- The order in a memory. -/
def keyOf (memory : Nat → Option (T × P)) (a : Nat) : WithBot P := (memory a).map Prod.snd

/-- Every item in the slice has its position for its index. -/
def Indexed (q : PriorityQueue T P) : Prop :=
  ∀ (i a : Nat), q.slice[i]? = some a →
    ∃ item : PriorityQueueItem T P, q.items[a]? = some item ∧ item.index = i

structure WellFormed [LinearOrder P] (q : PriorityQueue T P) : Prop where
  indexed : q.Indexed
  ordered : Heap.Ordered (keyOf q.contents ∘ q.seq) q.slice.length

section Memory

variable {q : PriorityQueue T P} {a b : Nat} {i : Int} {priority : P}

theorem items_setIndex (q : PriorityQueue T P) (a b : Nat) (i : Int) :
    (q.setIndex a i).items[b]? =
      (q.items[b]?).map fun item => if a = b then { item with index := i } else item :=
  List.getElem?_modify ..

theorem items_setPriority (q : PriorityQueue T P) (a b : Nat) (priority : P) :
    (q.setPriority a priority).items[b]? =
      (q.items[b]?).map fun item => if a = b then { item with priority } else item :=
  List.getElem?_modify ..

@[simp] theorem contents_setIndex : (q.setIndex a i).contents b = q.contents b := by
  unfold contents
  rw [items_setIndex, Option.map_map]
  congr 1
  funext item
  by_cases same : a = b <;> simp [same]

theorem contents_push : (q.push a).contents b = q.contents b := contents_setIndex

theorem contents_setPriority :
    (q.setPriority a priority).contents b =
      if a = b then (q.contents b).map fun held => (held.1, priority) else q.contents b := by
  unfold contents
  rw [items_setPriority, Option.map_map]
  by_cases same : a = b
  · simp only [same, if_true, Option.map_map]
    rfl
  · simp only [same, if_false]
    rfl

theorem contents_allocate (value : T) :
    (q.allocate value priority).contents a =
      if a = q.items.length then some (value, priority) else q.contents a := by
  unfold contents allocate
  by_cases last : a = q.items.length
  · simp [last]
  · rw [if_neg last]
    by_cases inside : a < q.items.length
    · rw [List.getElem?_append_left inside]
    · rw [List.getElem?_eq_none (by simp; omega), List.getElem?_eq_none (by omega)]

/-- Exchanging two elements. -/
theorem perm_set_set {l : List Nat} {i j : Nat} (first : l[i]? = some a) (second : l[j]? = some b) :
    ((l.set i b).set j a).Perm l := by
  obtain ⟨insideI, rfl⟩ := List.getElem?_eq_some_iff.mp first
  obtain ⟨insideJ, rfl⟩ := List.getElem?_eq_some_iff.mp second
  exact List.set_set_perm insideI insideJ

theorem seq_of_getElem? {i : Nat} (found : q.slice[i]? = some a) : q.seq i = a := by
  simp [seq, found]

theorem getElem?_seq {i : Nat} (inside : i < q.slice.length) : q.slice[i]? = some (q.seq i) := by
  simp [seq, inside]

/-- A pointer occurs once. -/
theorem Indexed.position {i j : Nat} (indexed : q.Indexed) (first : q.slice[i]? = some a)
    (second : q.slice[j]? = some a) : i = j := by
  obtain ⟨item, found, at_i⟩ := indexed i a first
  obtain ⟨item', found', at_j⟩ := indexed j a second
  rw [found] at found'
  cases found'
  omega

theorem Indexed.nodup (indexed : q.Indexed) : q.slice.Nodup := by
  refine List.nodup_iff_getElem?_ne_getElem?.mpr fun i j before inside same => ?_
  have found := getElem?_seq inside
  have position := indexed.position (same.trans found) found
  omega

theorem Indexed.exchange {i j : Nat} (indexed : q.Indexed) (first : q.slice[i]? = some a)
    (second : q.slice[j]? = some b) : (q.exchange i j a b).Indexed := by
  obtain ⟨insideI, -⟩ := List.getElem?_eq_some_iff.mp first
  obtain ⟨insideJ, -⟩ := List.getElem?_eq_some_iff.mp second
  intro x c found
  have found' : ((q.slice.set i b).set j a)[x]? = some c := found
  simp only [List.getElem?_set, List.length_set] at found'
  simp only [PriorityQueue.exchange, items_setIndex]
  by_cases atJ : j = x
  · subst atJ
    have same : a = c := by simpa [insideJ] using found'
    subst same
    obtain ⟨item, stored, -⟩ := indexed i a first
    exact ⟨_, by rw [stored]; rfl, by simp⟩
  · by_cases atI : i = x
    · subst atI
      have same : b = c := by simpa [atJ, insideI] using found'
      subst same
      have apart : a ≠ b := fun same => atJ (indexed.position second (same ▸ first))
      obtain ⟨item, stored, -⟩ := indexed j b second
      exact ⟨_, by rw [stored]; rfl, by simp [apart]⟩
    · -- the others are at neither of the two positions, and no item is at two
      have still : q.slice[x]? = some c := by simpa [atJ, atI] using found'
      have apartA : a ≠ c := fun same => atI (indexed.position first (same ▸ still))
      have apartB : b ≠ c := fun same => atJ (indexed.position second (same ▸ still))
      obtain ⟨item, stored, index⟩ := indexed x c still
      exact ⟨_, by rw [stored]; rfl, by simp [apartA, apartB, index]⟩

end Memory

/-- The slice in its order, the stored items in any, and what they hold. -/
structure Rep (memory : Nat → Option (T × P)) (stored : List Nat) (n : Nat)
    (q : PriorityQueue T P) (k : Nat → Nat) : Prop where
  length : q.slice.length = n
  slice : ∀ i < n, q.slice[i]? = some (k i)
  indexed : q.Indexed
  contents : ∀ a, q.contents a = memory a
  perm : q.slice.Perm stored

section Representation

variable {memory : Nat → Option (T × P)} {stored : List Nat} {n : Nat} {q : PriorityQueue T P}
  {k : Nat → Nat}

theorem Indexed.rep (indexed : q.Indexed) : Rep q.contents q.slice q.slice.length q q.seq where
  length := rfl
  slice := fun _ inside => getElem?_seq inside
  indexed := indexed
  contents := fun _ => rfl
  perm := List.Perm.refl _

theorem Rep.seq_eq (rep : Rep memory stored n q k) {i : Nat} (inside : i < n) : q.seq i = k i :=
  seq_of_getElem? (rep.slice i inside)

/-- Two positions exchange their items. -/
theorem Rep.swap (rep : Rep memory stored n q k) {i j : Nat} (first : i < n) (second : j < n) :
    ∃ q', q.swap i j = some q' ∧ Rep memory stored n q' (k ∘ Equiv.swap i j) := by
  have atFirst := rep.slice i first
  have atSecond := rep.slice j second
  have length := rep.length
  refine ⟨q.exchange i j (k i) (k j), by rw [PriorityQueue.swap, atFirst, atSecond]; rfl,
    by simpa [exchange, setIndex] using length, ?_, rep.indexed.exchange atFirst atSecond,
    fun a => ?_, (perm_set_set atFirst atSecond).trans rep.perm⟩
  · intro x inside
    show ((q.slice.set i (k j)).set j (k i))[x]? = _
    simp only [List.getElem?_set, List.length_set, length, Function.comp]
    by_cases atJ : j = x
    · subst atJ
      simp [second]
    · by_cases atI : i = x
      · subst atI
        simp [atJ, first]
      · rw [if_neg atJ, if_neg atI, rep.slice x inside,
          Equiv.swap_apply_of_ne_of_ne (Ne.symm atI) (Ne.symm atJ)]
  · rw [exchange, contents_setIndex, contents_setIndex]
    exact rep.contents a

/-- The item at a position, and its key. -/
theorem Rep.itemAt (rep : Rep memory stored n q k) {i : Nat} (inside : i < n) :
    ∃ item, q.itemAt i = some item ∧ keyOf memory (k i) = (item.priority : WithBot P) := by
  obtain ⟨item, found, -⟩ := rep.indexed i (k i) (rep.slice i inside)
  refine ⟨item, by rw [PriorityQueue.itemAt, rep.slice i inside, Option.bind_some, found], ?_⟩
  rw [keyOf, ← rep.contents, PriorityQueue.contents, found]
  rfl

variable [LinearOrder P]

theorem Rep.wellFormed (rep : Rep memory stored n q k)
    (ordered : Heap.Ordered (keyOf memory ∘ k) n) : q.WellFormed where
  indexed := rep.indexed
  ordered := by
    rw [rep.length]
    refine ordered.congr fun x inside => ?_
    have same : q.contents = memory := funext rep.contents
    simp only [Function.comp, same, rep.seq_eq inside]

theorem Rep.less (rep : Rep memory stored n q k) {i j : Nat} (first : i < n) (second : j < n) :
    q.less i j = some (decide (keyOf memory (k i) < keyOf memory (k j))) := by
  obtain ⟨x, atFirst, keyFirst⟩ := rep.itemAt first
  obtain ⟨y, atSecond, keySecond⟩ := rep.itemAt second
  rw [PriorityQueue.less, atFirst, atSecond, keyFirst, keySecond]
  simp [WithBot.coe_lt_coe]

theorem lawful : Heap.Lawful interface (keyOf memory) n (Rep memory stored n) where
  len := fun _ _ rep => rep.length
  less := fun _ _ _ _ rep first second => rep.less first second
  swap := fun _ _ _ _ rep first second => rep.swap first second

end Representation

section Operations

variable [LinearOrder P] {q : PriorityQueue T P}

theorem new_eq : new = some ({} : PriorityQueue T P) := by
  simp [new, Heap.init, interface]

theorem wellFormed_empty : ({} : PriorityQueue T P).WellFormed where
  indexed := fun i a found => by simp at found
  ordered := fun c _ inside => absurd inside (Nat.not_lt_zero c)

theorem WellFormed.rep (wf : q.WellFormed) : Rep q.contents q.slice q.slice.length q q.seq :=
  wf.indexed.rep

/-- A pointer of the slice leads to an item. -/
theorem WellFormed.lt_of_mem (wf : q.WellFormed) {a : Nat} (member : a ∈ q.slice) :
    a < q.items.length := by
  obtain ⟨i, found⟩ := List.mem_iff_getElem?.mp member
  obtain ⟨item, stored, -⟩ := wf.indexed i a found
  exact (List.getElem?_eq_some_iff.mp stored).1

theorem WellFormed.peek_le (wf : q.WellFormed) {a b : Nat} (first : q.peek = some a)
    (member : b ∈ q.slice) : keyOf q.contents a ≤ keyOf q.contents b := by
  obtain ⟨i, found⟩ := List.mem_iff_getElem?.mp member
  have inside := (List.getElem?_eq_some_iff.mp found).1
  have least := wf.ordered.root_le inside
  simp only [Function.comp] at least
  rwa [seq_of_getElem? first, seq_of_getElem? found] at least

/-- The item is appended, before it moves up. -/
theorem WellFormed.push_allocate (wf : q.WellFormed) (value : T) (priority : P) :
    ((q.allocate value priority).push q.items.length).Indexed := by
  intro i a found
  simp only [PriorityQueue.push, items_setIndex]
  have found' : (q.slice ++ [q.items.length])[i]? = some a := found
  by_cases inside : i < q.slice.length
  · rw [List.getElem?_append_left inside] at found'
    have old := wf.lt_of_mem (List.mem_of_getElem? found')
    obtain ⟨item, stored, index⟩ := wf.indexed i a found'
    refine ⟨item, ?_, index⟩
    rw [allocate, List.getElem?_append_left old, stored]
    simp [Nat.ne_of_gt old]
  · have bound := (List.getElem?_eq_some_iff.mp found').1
    have last : i = q.slice.length := by
      simp at bound
      omega
    subst last
    have same : q.items.length = a := by simpa using found'
    subst same
    simp [allocate]

theorem pushItem_spec (wf : q.WellFormed) (value : T) (priority : P) :
    ∃ q', q.pushItem value priority = some (q', q.items.length) ∧ q'.WellFormed ∧
      q'.slice.Perm (q.slice ++ [q.items.length]) ∧
      ∀ a, q'.contents a =
        if a = q.items.length then some (value, priority) else q.contents a := by
  have rep := (wf.push_allocate value priority).rep
  have ordered : Heap.Ordered
      (keyOf ((q.allocate value priority).push q.items.length).contents ∘
        ((q.allocate value priority).push q.items.length).seq) q.slice.length := by
    refine wf.ordered.congr fun x inside => ?_
    have found := getElem?_seq inside
    have old := wf.lt_of_mem (List.mem_of_getElem? found)
    have same : ((q.allocate value priority).push q.items.length).seq x = q.seq x :=
      seq_of_getElem? ((List.getElem?_append_left inside).trans found)
    simp only [Function.comp, same, keyOf]
    rw [PriorityQueue.contents_push, contents_allocate, if_neg (Nat.ne_of_lt old)]
  obtain ⟨q', k, ran, rep', ordered'⟩ :=
    Heap.push_spec lawful (by simp [PriorityQueue.push, allocate]) rep ordered
  refine ⟨q', by rw [pushItem, ran]; rfl, rep'.wellFormed ordered', rep'.perm, fun a => ?_⟩
  rw [rep'.contents, PriorityQueue.contents_push, contents_allocate]

/-- `Pop` takes the last pointer off. -/
theorem pop_rep {memory : Nat → Option (T × P)} {stored : List Nat} {m : Nat} {k : Nat → Nat}
    (rep : Rep memory stored (m + 1) q k) (ordered : Heap.Ordered (keyOf memory ∘ k) m) :
    ∃ q', q.pop = some (q', k m) ∧ q'.WellFormed ∧ (k m :: q'.slice).Perm stored ∧
      ∀ a, q'.contents a = memory a := by
  have last := rep.slice m (Nat.lt_succ_self m)
  have ends : q.slice.getLast? = some (k m) := by
    rw [List.getLast?_eq_getElem?, rep.length]
    exact last
  have front : ∀ i a, q.slice.dropLast[i]? = some a → q.slice[i]? = some a ∧ i < m := by
    intro i a found
    rw [List.getElem?_dropLast, rep.length] at found
    split at found
    next inside => exact ⟨found, by omega⟩
    next => cases found
  let q' : PriorityQueue T P := { q.setIndex (k m) (-1) with slice := q.slice.dropLast }
  have indexed : q'.Indexed := by
    intro i a found
    obtain ⟨before, inside⟩ := front i a found
    have apart : k m ≠ a := fun same => by
      have position := rep.indexed.position last (same ▸ before)
      omega
    obtain ⟨item, stored, index⟩ := rep.indexed i a before
    refine ⟨item, ?_, index⟩
    show (q.setIndex (k m) (-1)).items[a]? = some item
    rw [items_setIndex, stored]
    simp [apart]
  have contents : ∀ a, q'.contents a = memory a := by
    intro a
    show (q.setIndex (k m) (-1)).contents a = memory a
    rw [contents_setIndex]
    exact rep.contents a
  have split : q.slice = q'.slice ++ [k m] := by
    rw [← List.dropLast_append_getLast? (k m) ends]
  refine ⟨q', by rw [PriorityQueue.pop, ends]; rfl, ⟨indexed, ?_⟩, ?_, contents⟩
  · have length : q'.slice.length = m := by simp [q', rep.length]
    rw [length]
    refine ordered.congr fun x inside => ?_
    have found := getElem?_seq (q := q') (by omega : x < q'.slice.length)
    obtain ⟨before, -⟩ := front x (q'.seq x) found
    have same : q'.seq x = k x := by
      rw [rep.slice x (by omega)] at before
      exact (Option.some.inj before).symm
    have memories : q'.contents = memory := funext contents
    simp only [Function.comp, same, memories]
  · have perm := rep.perm
    rw [split] at perm
    exact (List.perm_append_singleton (k m) q'.slice).symm.trans perm

theorem popItem_spec (wf : q.WellFormed) (some_item : q.slice ≠ []) :
    ∃ q' a, q.popItem = some (q', a) ∧ q.peek = some a ∧ q'.WellFormed ∧
      (a :: q'.slice).Perm q.slice ∧ ∀ b, q'.contents b = q.contents b := by
  obtain ⟨m, length⟩ := Nat.exists_eq_succ_of_ne_zero (mt List.length_eq_zero_iff.mp some_item)
  obtain ⟨q', k, ran, rep, first, ordered⟩ :=
    Heap.pop_spec lawful length wf.rep wf.ordered
  rw [length] at rep
  obtain ⟨q'', popped, wf', perm, contents⟩ := pop_rep rep ordered
  refine ⟨q'', k m, ran.trans popped, ?_, wf', perm, contents⟩
  rw [first]
  exact getElem?_seq (by omega)

/-- The position of a stored item is the index it keeps. -/
theorem WellFormed.index_of_mem (wf : q.WellFormed) {a : Nat} (member : a ∈ q.slice) :
    ∃ i item, i < q.slice.length ∧ q.seq i = a ∧ q.items[a]? = some item ∧
      item.index = Int.ofNat i := by
  obtain ⟨i, found⟩ := List.mem_iff_getElem?.mp member
  obtain ⟨item, stored, index⟩ := wf.indexed i a found
  exact ⟨i, item, (List.getElem?_eq_some_iff.mp found).1, seq_of_getElem? found, stored, index⟩

theorem remove_spec (wf : q.WellFormed) {a : Nat} (member : a ∈ q.slice) :
    ∃ q', q.remove a = some q' ∧ q'.WellFormed ∧ (a :: q'.slice).Perm q.slice ∧
      ∀ b, q'.contents b = q.contents b := by
  obtain ⟨i, item, inside, here, stored, index⟩ := wf.index_of_mem member
  obtain ⟨m, length⟩ := Nat.exists_eq_succ_of_ne_zero (Nat.ne_of_gt (Nat.zero_lt_of_lt inside))
  obtain ⟨q', k, ran, rep, last, ordered⟩ :=
    Heap.remove_spec lawful length inside wf.rep wf.ordered
  rw [length] at rep
  obtain ⟨q'', popped, wf', perm, contents⟩ := pop_rep rep ordered
  rw [last, here] at perm
  refine ⟨q'', ?_, wf', perm, contents⟩
  rw [PriorityQueue.remove, stored, Option.bind_some, index]
  show (Heap.remove interface q i).map Prod.fst = some q''
  rw [ran]
  exact congrArg (Option.map Prod.fst) popped

theorem update_spec (wf : q.WellFormed) {a : Nat} (member : a ∈ q.slice) (priority : P) :
    ∃ q', q.update a priority = some q' ∧ q'.WellFormed ∧ q'.slice.Perm q.slice ∧
      ∀ b, q'.contents b =
        if a = b then (q.contents b).map fun held => (held.1, priority) else q.contents b := by
  obtain ⟨i, item, inside, here, stored, index⟩ := wf.index_of_mem member
  have indexed : (q.setPriority a priority).Indexed := by
    intro j b found
    obtain ⟨other, stored, index⟩ := wf.indexed j b found
    refine ⟨_, by rw [items_setPriority, stored]; rfl, ?_⟩
    by_cases same : a = b <;> simp [same, index]
  have loose : Heap.Loose (keyOf (q.setPriority a priority).contents ∘
      (q.setPriority a priority).seq) q.slice.length i := by
    refine wf.ordered.loose fun x bound other => ?_
    have apart : a ≠ q.seq x := by
      intro same
      have position := wf.indexed.position (here ▸ getElem?_seq inside)
        (same ▸ getElem?_seq bound)
      omega
    show keyOf (q.setPriority a priority).contents (q.seq x) = _
    simp only [keyOf, Function.comp, contents_setPriority, if_neg apart]
    rfl
  obtain ⟨q', k, ran, rep, ordered⟩ := Heap.fix_spec lawful inside indexed.rep loose
  refine ⟨q', ?_, rep.wellFormed ordered, rep.perm, fun b => ?_⟩
  · rw [PriorityQueue.update, stored, Option.bind_some, index]
    exact ran
  · rw [rep.contents, contents_setPriority]

end Operations

end PriorityQueue

end AnyCable.Source
