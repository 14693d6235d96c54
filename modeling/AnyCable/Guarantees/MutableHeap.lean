import AnyCable.Lib.Run
import AnyCable.Source.PriorityQueue

/-!
# The priority queue is a mutable heap

Items are pushed, popped, updated and removed in any order (`utils/priority_queue.go:35-61`). Beside
the queue goes a bag that says what should be in it: an entry comes with a push, gets another
priority by an update, and leaves it with a pop or a removal.

As long as only items of the bag are updated and removed, and nothing is popped from an empty bag,
no call panics, and at all times the queue holds exactly the bag, every item knows its position,
`Peek` and `PopItem` give an entry of least priority, and popping until nothing is left gives the
priorities in order (`queue_holds_bag`).
-/

set_option autoImplicit false

namespace AnyCable.Guarantees.MutableHeap
open AnyCable.Lib AnyCable.Source

variable {T P : Type}

structure Entry (T P : Type) where
  item : Nat
  value : T
  priority : P
  deriving DecidableEq, Repr

structure Session (T P : Type) where
  queue : PriorityQueue T P
  bag : List (Entry T P) := []
  deriving DecidableEq, Repr

inductive Act (T P : Type) where
  | push (value : T) (priority : P)
  | pop
  | update (item : Nat) (priority : P)
  | remove (item : Nat)
  deriving DecidableEq, Repr

def without (bag : List (Entry T P)) (item : Nat) : List (Entry T P) :=
  bag.filter fun entry => decide (entry.item ≠ item)

def reprioritize (item : Nat) (priority : P) (entry : Entry T P) : Entry T P :=
  if item = entry.item then { entry with priority } else entry

def Session.step [LinearOrder P] (s : Session T P) : Act T P → Option (Session T P)
  | .push value priority => (s.queue.pushItem value priority).map fun (queue, item) =>
      { queue, bag := s.bag ++ [{ item, value, priority }] }
  | .pop => s.queue.popItem.map fun (queue, item) => { queue, bag := without s.bag item }
  | .update item priority => (s.queue.update item priority).map fun queue =>
      { queue, bag := s.bag.map (reprioritize item priority) }
  | .remove item => (s.queue.remove item).map fun queue => { queue, bag := without s.bag item }

/-- Items are in the queue when they are used. -/
def Allowed (s : Session T P) : Act T P → Prop
  | .push _ _ => True
  | .pop => s.bag ≠ []
  | .update item _ | .remove item => ∃ entry ∈ s.bag, entry.item = item

instance [DecidableEq T] [DecidableEq P] (s : Session T P) : (a : Act T P) → Decidable (Allowed s a)
  | .push _ _ => isTrue trivial
  | .pop => inferInstanceAs (Decidable (s.bag ≠ []))
  | .update item _ | .remove item =>
    inferInstanceAs (Decidable (∃ entry ∈ s.bag, entry.item = item))

/-- What a pointer leads to. -/
def entryAt (q : PriorityQueue T P) (item : Nat) : Option (Entry T P) :=
  (q.contents item).map fun held => ⟨item, held.1, held.2⟩

def entries (q : PriorityQueue T P) : List (Entry T P) := q.slice.filterMap (entryAt q)

/-- `PopItem` as often as there are items, and the priorities of what it gives. -/
def drainLoop [LinearOrder P] :
    Nat → PriorityQueue T P → Option (List P × PriorityQueue T P)
  | 0, q => some ([], q)
  | n + 1, q => q.popItem.bind fun (popped, item) => (popped.items[item]?).bind fun found =>
      (drainLoop n popped).map fun (priorities, rest) => (found.priority :: priorities, rest)

def drain [LinearOrder P] (q : PriorityQueue T P) : Option (List P × PriorityQueue T P) :=
  drainLoop q.slice.length q

def Least [LinearOrder P] (bag : List (Entry T P)) (entry : Entry T P) : Prop :=
  entry ∈ bag ∧ ∀ other ∈ bag, entry.priority ≤ other.priority

structure Correct [LinearOrder P] (s : Session T P) : Prop where
  stored : (entries s.queue).Perm s.bag
  indexed : s.queue.Indexed
  peek_none : s.queue.peek = none ↔ s.bag = []
  peek_least : ∀ item, s.queue.peek = some item → ∃ entry, entry.item = item ∧ Least s.bag entry
  pop_least : s.bag ≠ [] → ∃ queue entry, s.queue.popItem = some (queue, entry.item) ∧
    Least s.bag entry
  drained : ∃ priorities rest, drain s.queue = some (priorities, rest) ∧ rest.slice = [] ∧
    priorities.Pairwise (· ≤ ·) ∧ priorities.Perm (s.bag.map Entry.priority)

section Entries

variable {q q' : PriorityQueue T P} {item : Nat}

theorem mem_entries {entry : Entry T P} : entry ∈ entries q ↔
    entry.item ∈ q.slice ∧ q.contents entry.item = some (entry.value, entry.priority) := by
  simp only [entries, entryAt, List.mem_filterMap, Option.map_eq_some_iff]
  constructor
  · rintro ⟨item, member, held, found, rfl⟩
    exact ⟨member, found⟩
  · rintro ⟨member, found⟩
    exact ⟨entry.item, member, _, found, rfl⟩

variable [LinearOrder P]

theorem contents_of_mem (wf : q.WellFormed) (member : item ∈ q.slice) :
    ∃ held, q.contents item = some held := by
  obtain ⟨-, found, -, -, stored, -⟩ := wf.index_of_mem member
  exact ⟨_, by rw [PriorityQueue.contents, stored]; rfl⟩

/-- An item is taken out. -/
theorem entries_taken (wf : q.WellFormed) (perm : (item :: q'.slice).Perm q.slice)
    (same : ∀ a, q'.contents a = q.contents a) :
    ∃ entry, entry.item = item ∧ (entries q).Perm (entry :: entries q') ∧
      without (entry :: entries q') item = entries q' ∧
      q.contents item = some (entry.value, entry.priority) := by
  have distinct : (item :: q'.slice).Nodup := perm.nodup_iff.mpr wf.indexed.nodup
  obtain ⟨held, found⟩ := contents_of_mem wf (perm.mem_iff.mp (List.mem_cons_self ..))
  refine ⟨⟨item, held.1, held.2⟩, rfl, ?_, ?_, found⟩
  · have here : entryAt q item = some ⟨item, held.1, held.2⟩ := by rw [entryAt, found]; rfl
    have lookups : entryAt q' = entryAt q := by
      funext a
      rw [entryAt, entryAt, same]
    have mapped := perm.symm.filterMap (entryAt q)
    rw [List.filterMap_cons_some here] at mapped
    rw [entries, entries, lookups]
    exact mapped
  · have others : ∀ entry ∈ entries q', decide (entry.item ≠ item) = true := by
      intro entry member
      have inside := (mem_entries.mp member).1
      exact decide_eq_true fun same => (List.nodup_cons.mp distinct).1 (same ▸ inside)
    simp only [without, List.filter_cons, ne_eq, not_true, decide_false]
    exact List.filter_eq_self.mpr others

theorem least_of_peek (wf : q.WellFormed) {entry : Entry T P} (first : q.peek = some entry.item)
    (holds : q.contents entry.item = some (entry.value, entry.priority)) :
    Least (entries q) entry := by
  have member : entry.item ∈ q.slice := List.mem_of_getElem? first
  refine ⟨mem_entries.mpr ⟨member, holds⟩, fun other inside => ?_⟩
  obtain ⟨stored, holds'⟩ := mem_entries.mp inside
  have bound := wf.peek_le first stored
  rw [PriorityQueue.keyOf, PriorityQueue.keyOf, holds, holds'] at bound
  exact WithBot.coe_le_coe.mp bound

theorem Least.perm {bag other : List (Entry T P)} {entry : Entry T P} (least : Least bag entry)
    (perm : bag.Perm other) : Least other entry :=
  ⟨perm.mem_iff.mp least.1, fun e member => least.2 e (perm.mem_iff.mpr member)⟩

/-- The first priority is the least, and the rest is in order by the induction. -/
theorem drainLoop_spec (n : Nat) (wf : q.WellFormed) (length : q.slice.length = n) :
    ∃ priorities rest, drainLoop n q = some (priorities, rest) ∧ rest.slice = [] ∧
      priorities.Pairwise (· ≤ ·) ∧ priorities.Perm ((entries q).map Entry.priority) := by
  induction n generalizing q with
  | zero =>
    have empty : q.slice = [] := List.length_eq_zero_iff.mp length
    exact ⟨[], q, rfl, empty, List.Pairwise.nil, by simp [entries, empty]⟩
  | succ n ih =>
    have filled : q.slice ≠ [] := by
      intro empty
      rw [empty] at length
      cases length
    obtain ⟨q', item, popped, first, wf', perm, same⟩ := PriorityQueue.popItem_spec wf filled
    obtain ⟨entry, rfl, taken, -, holds⟩ := entries_taken wf perm same
    have shorter : q'.slice.length = n := by
      have lengths := perm.length_eq
      rw [List.length_cons] at lengths
      omega
    obtain ⟨priorities, rest, ran, empty, sorted, complete⟩ := ih wf' shorter
    obtain ⟨found, stored, read⟩ : ∃ found, q'.items[entry.item]? = some found ∧
        (found.value, found.priority) = (entry.value, entry.priority) := by
      have held := (same entry.item).trans holds
      exact Option.map_eq_some_iff.mp held
    have priority : found.priority = entry.priority := congrArg Prod.snd read
    refine ⟨entry.priority :: priorities, rest, ?_, empty, ?_, ?_⟩
    · simp [drainLoop, popped, stored, ran, priority]
    · refine List.pairwise_cons.mpr ⟨fun p member => ?_, sorted⟩
      obtain ⟨other, inside, rfl⟩ := List.mem_map.mp (complete.mem_iff.mp member)
      have before : other ∈ entries q := taken.mem_iff.mpr (List.mem_cons_of_mem entry inside)
      exact (least_of_peek wf first holds).2 other before
    · exact (complete.cons entry.priority).trans (taken.map Entry.priority).symm

end Entries

section Sessions

variable [LinearOrder P] {s : Session T P}

structure Inv (s : Session T P) : Prop where
  wellFormed : s.queue.WellFormed
  stored : (entries s.queue).Perm s.bag

theorem Inv.mem_slice (inv : Inv s) {item : Nat} (used : ∃ entry ∈ s.bag, entry.item = item) :
    item ∈ s.queue.slice := by
  obtain ⟨entry, member, rfl⟩ := used
  exact (mem_entries.mp (inv.stored.mem_iff.mpr member)).1

theorem Inv.slice_eq_nil (inv : Inv s) : s.queue.slice = [] ↔ s.bag = [] := by
  constructor
  · intro empty
    have none : entries s.queue = [] := by simp [entries, empty]
    exact (none ▸ inv.stored).nil_eq.symm
  · intro empty
    refine List.eq_nil_iff_forall_not_mem.mpr fun item member => ?_
    obtain ⟨held, found⟩ := contents_of_mem inv.wellFormed member
    have inside : (⟨item, held.1, held.2⟩ : Entry T P) ∈ s.bag :=
      inv.stored.mem_iff.mp (mem_entries.mpr ⟨member, found⟩)
    rw [empty] at inside
    cases inside

/-- An item leaves the queue and the bag. -/
theorem Inv.taken (inv : Inv s) {queue : PriorityQueue T P} {item : Nat} (wf : queue.WellFormed)
    (perm : (item :: queue.slice).Perm s.queue.slice)
    (same : ∀ a, queue.contents a = s.queue.contents a) :
    Inv { queue, bag := without s.bag item } := by
  obtain ⟨entry, -, taken, rest, -⟩ := entries_taken inv.wellFormed perm same
  refine ⟨wf, ?_⟩
  have filtered : (without (entry :: entries queue) item).Perm (without s.bag item) :=
    (taken.symm.trans inv.stored).filter _
  rwa [rest] at filtered

theorem Inv.push (inv : Inv s) (value : T) (priority : P) :
    ∃ next, s.step (.push value priority) = some next ∧ Inv next := by
  obtain ⟨queue, pushed, wf, perm, contents⟩ :=
    PriorityQueue.pushItem_spec inv.wellFormed value priority
  refine ⟨_, by rw [Session.step, pushed]; rfl, wf, ?_⟩
  have old : s.queue.slice.filterMap (entryAt queue) = entries s.queue := by
    refine List.filterMap_congr fun item member => ?_
    have before := inv.wellFormed.lt_of_mem member
    rw [entryAt, contents, if_neg (Nat.ne_of_lt before)]
    rfl
  have new : entryAt queue s.queue.items.length =
      some ⟨s.queue.items.length, value, priority⟩ := by
    rw [entryAt, contents, if_pos rfl]
    rfl
  have mapped := perm.filterMap (entryAt queue)
  rw [List.filterMap_append, old, List.filterMap_cons_some new] at mapped
  exact mapped.trans (inv.stored.append_right _)

theorem Inv.update (inv : Inv s) {item : Nat} (used : ∃ entry ∈ s.bag, entry.item = item)
    (priority : P) : ∃ next, s.step (.update item priority) = some next ∧ Inv next := by
  obtain ⟨queue, updated, wf, perm, contents⟩ :=
    PriorityQueue.update_spec inv.wellFormed (inv.mem_slice used) priority
  refine ⟨_, by rw [Session.step, updated]; rfl, wf, ?_⟩
  have changed : s.queue.slice.filterMap (entryAt queue) =
      (entries s.queue).map (reprioritize item priority) := by
    rw [entries, List.map_filterMap]
    refine List.filterMap_congr fun a _ => ?_
    rw [entryAt, entryAt, contents, Option.map_map]
    by_cases same : item = a
    · rw [if_pos same, Option.map_map]
      congr 1
      funext held
      simp [reprioritize, same]
    · rw [if_neg same]
      congr 1
      funext held
      simp [reprioritize, same]
  have mapped := perm.filterMap (entryAt queue)
  rw [changed] at mapped
  exact mapped.trans (inv.stored.map _)

theorem Inv.step (inv : Inv s) {a : Act T P} (allowed : Allowed s a) :
    ∃ next, s.step a = some next ∧ Inv next := by
  cases a with
  | push value priority => exact inv.push value priority
  | pop =>
    have filled : s.queue.slice ≠ [] := fun empty => allowed (inv.slice_eq_nil.mp empty)
    obtain ⟨queue, item, popped, -, wf, perm, same⟩ :=
      PriorityQueue.popItem_spec inv.wellFormed filled
    exact ⟨_, by rw [Session.step, popped]; rfl, inv.taken wf perm same⟩
  | update item priority => exact inv.update allowed priority
  | remove item =>
    obtain ⟨queue, removed, wf, perm, same⟩ :=
      PriorityQueue.remove_spec inv.wellFormed (inv.mem_slice allowed)
    exact ⟨_, by rw [Session.step, removed]; rfl, inv.taken wf perm same⟩

theorem Inv.correct (inv : Inv s) : Correct s where
  stored := inv.stored
  indexed := inv.wellFormed.indexed
  peek_none := by
    rw [← inv.slice_eq_nil, PriorityQueue.peek, List.getElem?_eq_none_iff, Nat.le_zero,
      List.length_eq_zero_iff]
  peek_least := by
    intro item first
    obtain ⟨held, found⟩ := contents_of_mem inv.wellFormed (List.mem_of_getElem? first)
    let entry : Entry T P := ⟨item, held.1, held.2⟩
    have least : Least (entries s.queue) entry := least_of_peek inv.wellFormed first found
    exact ⟨entry, rfl, least.perm inv.stored⟩
  pop_least := by
    intro filled
    obtain ⟨queue, item, popped, first, -, perm, same⟩ :=
      PriorityQueue.popItem_spec inv.wellFormed (mt inv.slice_eq_nil.mp filled)
    obtain ⟨entry, rfl, -, -, holds⟩ := entries_taken inv.wellFormed perm same
    exact ⟨queue, entry, popped, (least_of_peek inv.wellFormed first holds).perm inv.stored⟩
  drained := by
    obtain ⟨priorities, rest, ran, empty, sorted, complete⟩ :=
      drainLoop_spec s.queue.slice.length inv.wellFormed rfl
    exact ⟨priorities, rest, ran, empty, sorted, complete.trans (inv.stored.map _)⟩

end Sessions

/-- For every sequence of calls on a new queue. -/
theorem queue_holds_bag [LinearOrder P] {queue : PriorityQueue T P}
    (made : PriorityQueue.new = some queue) {schedule : List (Act T P)}
    (allowed : Run.Meets Session.step Allowed { queue } schedule) :
    (∃ final, Run.exec Session.step { queue } schedule = some final) ∧
      Run.Always Session.step Correct { queue } schedule := by
  rw [PriorityQueue.new_eq] at made
  cases made
  have start : Inv ({ queue := {} } : Session T P) :=
    ⟨PriorityQueue.wellFormed_empty, List.Perm.refl _⟩
  exact Run.exec_of_meets (fun _ _ inv met => inv.step met) (fun _ inv => inv.correct) start allowed

/-- Equal priorities, an update in both directions, a removal from the middle and a pop. -/
def someCalls : List (Act String Int) :=
  [.push "a" 2, .push "b" 1, .push "c" 2, .push "d" 1, .update 1 5, .update 2 0, .remove 3, .pop]

theorem someCalls_holds_bag :
    (∃ final, Run.exec Session.step { queue := {} } someCalls = some final) ∧
      Run.Always Session.step Correct { queue := {} } someCalls :=
  queue_holds_bag PriorityQueue.new_eq (by decide +kernel)

end AnyCable.Guarantees.MutableHeap
