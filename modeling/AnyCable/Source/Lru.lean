import AnyCable.Lib.GoMap
import AnyCable.Source.Clock

/-!
# A cache with a time to live

Source: `broker/nats.go:774-835`. Every operation runs under the lock of the cache. `read` refreshes
a copy of the entry, so an entry is as old as its last `write`. `expire` reads the clock for every
entry; the entries that go are returned with their values, for the cleanup the caller has given
them.

A `fetch` reads the clock several times. The readings are given by the time that passes between
them.
-/

set_option autoImplicit false

namespace AnyCable.Source
open AnyCable.Lib

structure LruEntry (T : Type) where
  value : T
  lastActive : Instant

structure Lru (T : Type) where
  entries : GoMap String (LruEntry T) := ∅
  ttl : Int

/-- The time that a `fetch` takes until it reads, from there until it writes, and from there until
it looks at each entry. -/
structure Pace where
  read : Nat := 0
  write : Nat := 0
  expire : String → Nat := fun _ => 0

/-- When a `fetch` that starts at `now` writes. -/
def Pace.written (pace : Pace) (now : Instant) : Instant := now + pace.read + pace.write

/-- When it looks at an entry. -/
def Pace.expired (pace : Pace) (now : Instant) (key : String) : Instant :=
  pace.written now + pace.expire key

theorem Pace.le_expired (pace : Pace) (now : Instant) (key : String) :
    now ≤ pace.expired now key :=
  calc now ≤ now + pace.read := Int.le_add_of_nonneg_right (Int.natCast_nonneg _)
    _ ≤ now + pace.read + pace.write := Int.le_add_of_nonneg_right (Int.natCast_nonneg _)
    _ ≤ pace.expired now key := Int.le_add_of_nonneg_right (Int.natCast_nonneg _)

namespace Lru

variable {T : Type}

/-- `entry.lastActive.Add(m.ttl).Before(now)`. -/
def isStale (m : Lru T) (entry : LruEntry T) (now : Instant) : Bool :=
  entry.lastActive + m.ttl < now

def read (m : Lru T) (key : String) (now : Instant) : Option T :=
  match m.entries.lookup key with
  | none => none
  | some entry => if m.isStale entry now then none else some entry.value

def expireEntry (ttl : Int) (now : String → Instant) (acc : Lru T × List (String × T))
    (p : String × LruEntry T) : Lru T × List (String × T) :=
  if p.2.lastActive + ttl < now p.1 then
    ({ acc.1 with entries := acc.1.entries.erase p.1 }, acc.2 ++ [(p.1, p.2.value)])
  else acc

def expire (m : Lru T) (now : String → Instant) : Lru T × List (String × T) :=
  m.entries.toPairs.foldl (expireEntry m.ttl now) (m, [])

/-- The first line of `write`. -/
def put (m : Lru T) (key : String) (value : T) (now : Instant) : Lru T :=
  { m with entries := m.entries.insert key { value := value, lastActive := now } }

def write (m : Lru T) (key : String) (value : T) (now : Instant) (later : String → Instant) :
    Lru T × List (String × T) :=
  (m.put key value now).expire later

/-- What came of a `fetch`: `called` if it called `create`, `gone` the entries that expired. -/
structure Fetched (T : Type) where
  cache : Lru T
  value : Except String T
  called : Bool
  gone : List (String × T)

/-- `create` is what the function of that name returns if it is called. -/
def fetch (m : Lru T) (key : String) (create : Except String T) (now : Instant) (pace : Pace) :
    Fetched T :=
  match m.read key (now + pace.read) with
  | some value => { cache := m, value := .ok value, called := false, gone := [] }
  | none =>
    match create with
    | .error err => { cache := m, value := .error err, called := true, gone := [] }
    | .ok value =>
      let (cache, gone) := m.write key value (pace.written now) (pace.expired now)
      { cache, value := .ok value, called := true, gone }

theorem fetch_hit {m : Lru T} {key : String} {now : Instant} {pace : Pace} {value : T}
    (hit : m.read key (now + pace.read) = some value) (create : Except String T) :
    m.fetch key create now pace =
      { cache := m, value := .ok value, called := false, gone := [] } := by
  simp [fetch, hit]

theorem fetch_error {m : Lru T} {key : String} {now : Instant} {pace : Pace}
    (miss : m.read key (now + pace.read) = none) (err : String) :
    m.fetch key (.error err) now pace =
      { cache := m, value := .error err, called := true, gone := [] } := by
  simp [fetch, miss]

theorem fetch_create {m : Lru T} {key : String} {now : Instant} {pace : Pace}
    (miss : m.read key (now + pace.read) = none) (value : T) :
    m.fetch key (.ok value) now pace =
      { cache := ((m.put key value (pace.written now)).expire (pace.expired now)).1
        value := .ok value, called := true
        gone := ((m.put key value (pace.written now)).expire (pace.expired now)).2 } := by
  simp [fetch, miss, write]

theorem read_eq_some {m : Lru T} {key : String} {now : Instant} {value : T} :
    m.read key now = some value ↔
      ∃ entry, m.entries.lookup key = some entry ∧ entry.value = value ∧
        now ≤ entry.lastActive + m.ttl := by
  unfold read isStale
  cases m.entries.lookup key with
  | none => simp
  | some entry =>
    by_cases old : entry.lastActive + m.ttl < now
    · simp [old]
    · simp [old, Int.not_lt.mp old]

/-- The entries that go, in the order of the map. -/
theorem expired_eq (m : Lru T) (now : String → Instant) :
    (m.expire now).2 = (m.entries.toPairs.filter fun p => m.isStale p.2 (now p.1)).map
      fun p => (p.1, p.2.value) := by
  have listed : ∀ (pairs : List (String × LruEntry T)) (acc : Lru T × List (String × T)),
      (pairs.foldl (expireEntry m.ttl now) acc).2 = acc.2 ++
        (pairs.filter fun p => m.isStale p.2 (now p.1)).map fun p => (p.1, p.2.value) := by
    intro pairs
    induction pairs with
    | nil => simp
    | cons p pairs ih =>
      intro acc
      rw [List.foldl_cons, ih]
      unfold expireEntry
      by_cases old : p.2.lastActive + m.ttl < now p.1 <;> simp [old, isStale]
  rw [expire, listed, List.nil_append]

theorem mem_expired {m : Lru T} {now : String → Instant} {key : String} {value : T} :
    (key, value) ∈ (m.expire now).2 ↔
      ∃ entry, m.entries.lookup key = some entry ∧ m.isStale entry (now key) = true ∧
        entry.value = value := by
  rw [expired_eq]
  simp only [List.mem_map, List.mem_filter, Prod.mk.injEq, Prod.exists]
  constructor
  · rintro ⟨k, entry, ⟨member, stale⟩, rfl, rfl⟩
    exact ⟨entry, GoMap.lookup_of_mem_toPairs member, stale, rfl⟩
  · rintro ⟨entry, found, stale, rfl⟩
    exact ⟨key, entry, ⟨GoMap.mem_toPairs_iff.mpr found, stale⟩, rfl, rfl⟩

/-- No entry goes twice. -/
theorem expired_nodup (m : Lru T) (now : String → Instant) : (m.expire now).2.Nodup := by
  rw [expired_eq, List.nodup_iff_pairwise_ne, List.pairwise_map]
  refine ((GoMap.toPairs_distinct m.entries).filter _).imp fun {p q} different same => ?_
  exact different (Prod.mk.inj same).1

/-- The entries that stay. -/
theorem lookup_expire {m : Lru T} {now : String → Instant} {key : String} {entry : LruEntry T} :
    (m.expire now).1.entries.lookup key = some entry ↔
      m.entries.lookup key = some entry ∧ m.isStale entry (now key) = false := by
  have erased : ∀ (pairs : List (String × LruEntry T)) (acc : Lru T × List (String × T)),
      (pairs.foldl (expireEntry m.ttl now) acc).1.entries.lookup key = some entry ↔
        acc.1.entries.lookup key = some entry ∧
          ∀ p ∈ pairs, p.1 = key → m.isStale p.2 (now key) = false := by
    intro pairs
    induction pairs with
    | nil => simp
    | cons p pairs ih =>
      intro acc
      rw [List.foldl_cons, ih, List.forall_mem_cons, ← and_assoc]
      refine and_congr_left fun _ => ?_
      unfold expireEntry
      by_cases same : p.1 = key
      · subst same
        by_cases old : p.2.lastActive + m.ttl < now p.1 <;> simp [old, isStale]
      · have other : key ≠ p.1 := fun equal => same equal.symm
        by_cases old : p.2.lastActive + m.ttl < now p.1 <;> simp [old, same, other]
  rw [expire, erased]
  refine and_congr_right fun found => ?_
  constructor
  · intro all
    exact all (key, entry) (GoMap.mem_toPairs_iff.mpr found) rfl
  · intro fresh p member same
    have own := GoMap.lookup_of_mem_toPairs (show (p.1, p.2) ∈ m.entries.toPairs from member)
    rw [same, found, Option.some.injEq] at own
    rw [← own]
    exact fresh

theorem expire_ttl (m : Lru T) (now : String → Instant) : (m.expire now).1.ttl = m.ttl := by
  have kept : ∀ (pairs : List (String × LruEntry T)) (acc : Lru T × List (String × T)),
      (pairs.foldl (expireEntry m.ttl now) acc).1.ttl = acc.1.ttl := by
    intro pairs
    induction pairs with
    | nil => simp
    | cons p pairs ih =>
      intro acc
      rw [List.foldl_cons, ih]
      unfold expireEntry
      split <;> rfl
  exact kept _ _

/-- The value is in the cache under the key. -/
def Holds (m : Lru T) (p : String × T) : Prop :=
  ∃ entry, m.entries.lookup p.1 = some entry ∧ entry.value = p.2

instance [DecidableEq T] (m : Lru T) (p : String × T) : Decidable (m.Holds p) :=
  decidable_of_iff (((m.entries.lookup p.1).map LruEntry.value) = some p.2) (by simp [Holds])

theorem holds_put {m : Lru T} {key : String} {value : T} {now : Instant} {p : String × T} :
    (m.put key value now).Holds p ↔ p = (key, value) ∨ (p.1 ≠ key ∧ m.Holds p) := by
  obtain ⟨k, v⟩ := p
  unfold Holds put
  by_cases same : k = key
  · subst same
    simp [eq_comm]
  · simp [AList.lookup_insert_ne same, same]

/-- Expiry takes a value away and returns it once, or does neither. -/
theorem expire_ledger [DecidableEq T] (m : Lru T) (now : String → Instant) (p : String × T) :
    (m.Holds p → ((m.expire now).1.Holds p ∧ (m.expire now).2.count p = 0) ∨
      (¬ (m.expire now).1.Holds p ∧ (m.expire now).2.count p = 1)) ∧
    (¬ m.Holds p → ¬ (m.expire now).1.Holds p ∧ (m.expire now).2.count p = 0) := by
  obtain ⟨key, value⟩ := p
  have left : (m.expire now).1.Holds (key, value) ↔
      ∃ entry, m.entries.lookup key = some entry ∧ m.isStale entry (now key) = false ∧
        entry.value = value := by
    simp only [Holds, lookup_expire, and_assoc]
  constructor
  · rintro ⟨entry, found, same⟩
    cases stale : m.isStale entry (now key) with
    | false =>
      refine Or.inl ⟨left.mpr ⟨entry, found, stale, same⟩, List.count_eq_zero_of_not_mem ?_⟩
      rw [mem_expired]
      rintro ⟨entry', found', stale', -⟩
      cases found.symm.trans found'
      exact absurd (stale.symm.trans stale') (by decide)
    | true =>
      refine Or.inr ⟨?_, ?_⟩
      · rw [left]
        rintro ⟨entry', found', fresh, -⟩
        cases found.symm.trans found'
        exact absurd (stale.symm.trans fresh) (by decide)
      · exact List.count_eq_one_of_mem (expired_nodup m now)
          (mem_expired.mpr ⟨entry, found, stale, same⟩)
  · intro absent
    constructor
    · rw [left]
      rintro ⟨entry, found, -, same⟩
      exact absent ⟨entry, found, same⟩
    · refine List.count_eq_zero_of_not_mem ?_
      rw [mem_expired]
      rintro ⟨entry, found, -, same⟩
      exact absent ⟨entry, found, same⟩

end Lru

end AnyCable.Source
