import AnyCable.Lib.Run
import AnyCable.Source.Lru
import Mathlib.Data.List.Range

/-!
# Values in the cache of the NATS broker

`lru.fetch` returns the cached value of a key or creates one, and a write takes the entries away
whose time has passed (`broker/nats.go:787-835`). Two things that the code sets out to do fail.

* A read is meant to extend the life of an entry (`touch entry`), but the entry is a copy. A key is
  still cached exactly if its value was *created* no more than the time to live ago, however recently
  it was fetched (`kept_iff_young`).
* Every value that goes is meant to be cleaned up. A key that is fetched after its entry has expired,
  and before a write for another key has taken the entry away, gets a new entry in the place of the
  old one, whose value is forgotten. The ledger of values balances in a run exactly if this never
  happens (`balanced_iff_clear`).

The values are numbered in the order in which `create` returned them. Time passes between the calls
and within them.
-/

set_option autoImplicit false

namespace AnyCable.Guarantees.CachedValues
open AnyCable.Lib AnyCable.Source

structure State where
  cache : Lru Nat
  clock : Instant
  /-- The values that `create` has returned, with their keys. -/
  made : List (String × Nat) := []
  /-- When a value was written to the cache. -/
  born : Nat → Instant := fun _ => 0
  /-- What the last `fetch` of a key returned, and when it looked at the entry or made it. -/
  last : String → Option (Nat × Instant) := fun _ => none
  /-- The values whose cleanup was called. -/
  cleaned : List (String × Nat) := []

/-- An empty cache. -/
def State.start (ttl : Int) (clock : Instant) : State := { cache := { ttl }, clock }

/-- A call that comes at `now` and returns at `done`. -/
structure Fetch where
  key : String
  succeeds : Bool := true
  now : Instant
  pace : Pace := {}
  done : Instant := now

/-- The clock does not go back. -/
def InTime (x : State) (a : Fetch) : Prop :=
  x.clock ≤ a.now ∧ ∀ k ∈ a.key :: x.cache.entries.keys, a.pace.expired a.now k ≤ a.done

instance (x : State) (a : Fetch) : Decidable (InTime x a) :=
  inferInstanceAs (Decidable (_ ∧ ∀ k ∈ a.key :: x.cache.entries.keys, _ ≤ a.done))

def State.create (x : State) (a : Fetch) : Except String Nat :=
  if a.succeeds then .ok x.made.length else .error "failed to create"

def step (x : State) (a : Fetch) : Option State :=
  if InTime x a then
    let f := x.cache.fetch a.key (x.create a) a.now a.pace
    let x := { x with cache := f.cache, clock := a.done, cleaned := x.cleaned ++ f.gone }
    match f.value, f.called with
    | .error _, _ => some x
    | .ok value, false =>
      some { x with last := Function.update x.last a.key (some (value, a.now + a.pace.read)) }
    | .ok value, true =>
      some { x with
        made := x.made ++ [(a.key, value)]
        born := Function.update x.born value (a.pace.written a.now)
        last := Function.update x.last a.key (some (value, a.pace.written a.now)) }
  else none

section Steps

variable {x y : State} {a : Fetch}

/-- The cache with the new value, before anything expires. -/
def written (x : State) (a : Fetch) : Lru Nat :=
  x.cache.put a.key x.made.length (a.pace.written a.now)

/-- The state after a value was created. -/
def entered (x : State) (a : Fetch) : State where
  cache := ((written x a).expire (a.pace.expired a.now)).1
  clock := a.done
  made := x.made ++ [(a.key, x.made.length)]
  born := Function.update x.born x.made.length (a.pace.written a.now)
  last := Function.update x.last a.key (some (x.made.length, a.pace.written a.now))
  cleaned := x.cleaned ++ ((written x a).expire (a.pace.expired a.now)).2

/-- What a call can do: return a cached value, fail, or create a value. -/
theorem step_cases (stepped : step x a = some y) :
    InTime x a ∧
    ((∃ value, x.cache.read a.key (a.now + a.pace.read) = some value ∧
      y = { x with clock := a.done,
                   last := Function.update x.last a.key (some (value, a.now + a.pace.read)) }) ∨
    (x.cache.read a.key (a.now + a.pace.read) = none ∧ a.succeeds = false ∧
      y = { x with clock := a.done }) ∨
    (x.cache.read a.key (a.now + a.pace.read) = none ∧ a.succeeds = true ∧ y = entered x a)) := by
  unfold step at stepped
  split at stepped
  next inTime =>
    refine ⟨inTime, ?_⟩
    cases read : x.cache.read a.key (a.now + a.pace.read) with
    | some value =>
      refine Or.inl ⟨value, rfl, ?_⟩
      simp only [Lru.fetch_hit read, List.append_nil, Option.some.injEq] at stepped
      exact stepped.symm
    | none =>
      refine Or.inr ?_
      cases succeeds : a.succeeds with
      | false =>
        have create : x.create a = .error "failed to create" := by simp [State.create, succeeds]
        simp only [create, Lru.fetch_error read, List.append_nil, Option.some.injEq] at stepped
        exact Or.inl ⟨rfl, rfl, stepped.symm⟩
      | true =>
        have create : x.create a = .ok x.made.length := by simp [State.create, succeeds]
        simp only [create, Lru.fetch_create read, Option.some.injEq] at stepped
        exact Or.inr ⟨rfl, rfl, stepped.symm⟩
  next => cases stepped

/-- Values are numbered, and cached and cleaned up under the keys they were made for. -/
structure Owned (x : State) : Prop where
  numbered : ∀ p ∈ x.made, p.2 < x.made.length
  cached : ∀ p, x.cache.Holds p → p ∈ x.made
  cleaned : ∀ p ∈ x.cleaned, p ∈ x.made

theorem owned_start (ttl : Int) (clock : Instant) : Owned (.start ttl clock) where
  numbered := by simp [State.start]
  cached := by simp [State.start, Lru.Holds]
  cleaned := by simp [State.start]

theorem Owned.fresh (owned : Owned x) (key : String) : (key, x.made.length) ∉ x.made :=
  fun member => Nat.lt_irrefl _ (owned.numbered _ member)

theorem Owned.written (owned : Owned x) {p : String × Nat} (holds : (written x a).Holds p) :
    p ∈ x.made ++ [(a.key, x.made.length)] := by
  rcases Lru.holds_put.mp holds with rfl | ⟨-, before⟩
  · exact List.mem_append_right _ (List.mem_singleton_self _)
  · exact List.mem_append_left _ (owned.cached p before)

theorem Owned.entered (owned : Owned x) : Owned (entered x a) where
  numbered := by
    intro p member
    simp only [CachedValues.entered, List.length_append, List.length_singleton] at member ⊢
    rcases List.mem_append.mp member with old | new
    · exact Nat.lt_succ_of_lt (owned.numbered p old)
    · rw [List.mem_singleton.mp new]
      exact Nat.lt_succ_self _
  cached := by
    intro p holds
    apply owned.written
    by_contra absent
    exact ((Lru.expire_ledger (CachedValues.written x a) _ p).2 absent).1 holds
  cleaned := by
    intro p member
    rcases List.mem_append.mp member with old | gone
    · exact List.mem_append_left _ (owned.cleaned p old)
    · apply owned.written
      by_contra absent
      have none := ((Lru.expire_ledger (CachedValues.written x a) (a.pace.expired a.now) p).2 absent).2
      exact List.count_eq_zero.mp none gone

theorem Owned.step (owned : Owned x) (stepped : step x a = some y) : Owned y := by
  obtain ⟨-, ⟨value, -, rfl⟩ | ⟨-, -, rfl⟩ | ⟨-, -, rfl⟩⟩ := step_cases stepped
  · exact ⟨owned.numbered, owned.cached, owned.cleaned⟩
  · exact ⟨owned.numbered, owned.cached, owned.cleaned⟩
  · exact owned.entered

end Steps

/-! ### What is in use -/

/-- Fetching the key again returns the value without a call of `create`, and the value was not
cleaned up. -/
def StillCached (x : State) (key : String) (value : Nat) (now : Instant) : Prop :=
  (∀ create pace, pace.read = 0 →
    (x.cache.fetch key create now pace).value = .ok value ∧
    (x.cache.fetch key create now pace).called = false) ∧
  (key, value) ∉ x.cleaned

theorem stillCached_iff {x : State} {key : String} {value : Nat} {now : Instant} :
    StillCached x key value now ↔
      x.cache.read key now = some value ∧ (key, value) ∉ x.cleaned := by
  refine and_congr_left fun _ => ?_
  constructor
  · intro all
    obtain ⟨returned, quiet⟩ := all (.error "") {} rfl
    cases read : x.cache.read key now with
    | none =>
      have miss : x.cache.read key (now + (({} : Pace).read : Int)) = none := by simpa using read
      rw [Lru.fetch_error miss] at quiet
      cases quiet
    | some found =>
      have hit : x.cache.read key (now + (({} : Pace).read : Int)) = some found := by
        simpa using read
      rw [Lru.fetch_hit hit] at returned
      rw [Except.ok.inj returned]
  · intro read create pace start
    have hit : x.cache.read key (now + pace.read) = some value := by simpa [start] using read
    rw [Lru.fetch_hit hit]
    exact ⟨rfl, rfl⟩

/-- The last value of every key is in its entry, which is as old as the value, or the value is too
old. -/
structure Inv (ttl : Int) (x : State) : Prop where
  lasts : x.cache.ttl = ttl
  owned : Owned x
  current : ∀ key entry, x.cache.entries.lookup key = some entry →
    entry.lastActive = x.born entry.value ∧ ∃ used, x.last key = some (entry.value, used)
  last : ∀ key value used, x.last key = some (value, used) → (key, value) ∈ x.made ∧
    ((x.cache.Holds (key, value) ∧ (key, value) ∉ x.cleaned) ∨ x.born value + ttl < x.clock)

theorem inv_start (ttl : Int) (clock : Instant) : Inv ttl (.start ttl clock) where
  lasts := rfl
  owned := owned_start ttl clock
  current := by simp [State.start]
  last := by simp [State.start]

section Use

variable {ttl : Int} {x y : State} {a : Fetch}

theorem inTime_clock (inTime : InTime x a) : x.clock ≤ a.done := by
  have own := inTime.2 a.key List.mem_cons_self
  exact Int.le_trans (Int.le_trans inTime.1 (a.pace.le_expired a.now a.key)) own

/-- An entry is looked at before the call returns. -/
theorem inTime_expired (inTime : InTime x a) {key : String} {entry : LruEntry Nat}
    (found : (written x a).entries.lookup key = some entry) :
    a.pace.expired a.now key ≤ a.done := by
  apply inTime.2
  by_cases same : key = a.key
  · rw [same]
    exact List.mem_cons_self
  · simp only [written, Lru.put, AList.lookup_insert_ne same] at found
    exact List.mem_cons_of_mem _ (GoMap.mem_iff_lookup.mpr ⟨entry, found⟩)

theorem Inv.hit (inv : Inv ttl x) (inTime : InTime x a) {value : Nat} {used : Instant}
    (read : x.cache.read a.key (a.now + a.pace.read) = some value) :
    Inv ttl { x with clock := a.done,
                     last := Function.update x.last a.key (some (value, used)) } where
  lasts := inv.lasts
  owned := ⟨inv.owned.numbered, inv.owned.cached, inv.owned.cleaned⟩
  current := by
    obtain ⟨own, found, same, -⟩ := Lru.read_eq_some.mp read
    intro key entry there
    refine ⟨(inv.current key entry there).1, ?_⟩
    by_cases equal : key = a.key
    · subst equal
      cases found.symm.trans there
      exact ⟨used, by simp [same]⟩
    · obtain ⟨used', before⟩ := (inv.current key entry there).2
      exact ⟨used', (Function.update_of_ne equal _ _).trans before⟩
  last := by
    have later := inTime_clock inTime
    -- a value that was returned before is what it was; only the clock has moved
    have before : ∀ key value' used', x.last key = some (value', used') →
        (key, value') ∈ x.made ∧ ((x.cache.Holds (key, value') ∧ (key, value') ∉ x.cleaned) ∨
          x.born value' + ttl < a.done) := by
      intro key value' used' known
      obtain ⟨made, kept | old⟩ := inv.last key value' used' known
      · exact ⟨made, Or.inl kept⟩
      · exact ⟨made, Or.inr (Int.lt_of_lt_of_le old later)⟩
    intro key value' used' known
    by_cases equal : key = a.key
    · subst equal
      obtain ⟨rfl, -⟩ : value = value' ∧ used = used' := by simpa using known
      obtain ⟨entry, found, same, -⟩ := Lru.read_eq_some.mp read
      obtain ⟨used'', former⟩ := (inv.current a.key entry found).2
      rw [same] at former
      exact before a.key value used'' former
    · exact before key value' used' (by simpa [equal] using known)

theorem Inv.failed (inv : Inv ttl x) (inTime : InTime x a) : Inv ttl { x with clock := a.done } where
  lasts := inv.lasts
  owned := ⟨inv.owned.numbered, inv.owned.cached, inv.owned.cleaned⟩
  current := inv.current
  last := by
    have later := inTime_clock inTime
    intro key value used known
    obtain ⟨made, kept | old⟩ := inv.last key value used known
    · exact ⟨made, Or.inl kept⟩
    · exact ⟨made, Or.inr (Int.lt_of_lt_of_le old later)⟩

/-- An entry of the written cache is as old as its value. -/
theorem Inv.born_written (inv : Inv ttl x) {key : String} {entry : LruEntry Nat}
    (found : (written x a).entries.lookup key = some entry) :
    entry.lastActive = (entered x a).born entry.value ∧
      ∃ used, (entered x a).last key = some (entry.value, used) := by
  by_cases same : key = a.key
  · subst same
    simp only [written, Lru.put, AList.lookup_insert, Option.some.injEq] at found
    subst found
    simp [entered]
  · simp only [written, Lru.put, AList.lookup_insert_ne same] at found
    obtain ⟨age, used, known⟩ := inv.current key entry found
    have old : entry.value ≠ x.made.length := by
      have := inv.owned.numbered _ (inv.owned.cached (key, entry.value) ⟨entry, found, rfl⟩)
      exact Nat.ne_of_lt this
    simp only [entered, Function.update_of_ne old, Function.update_of_ne same]
    exact ⟨age, used, known⟩

theorem Inv.entered (inv : Inv ttl x) (inTime : InTime x a) : Inv ttl (entered x a) where
  lasts := (Lru.expire_ttl _ _).trans inv.lasts
  owned := inv.owned.entered
  current := by
    intro key entry found
    exact inv.born_written (Lru.lookup_expire.mp found).1
  last := by
    have later := inTime_clock inTime
    intro key value used known
    -- the value is in the cache when the entries are looked at, or was too old before
    have settled : (key, value) ∈ (CachedValues.entered x a).made ∧
        (((written x a).Holds (key, value) ∧ (key, value) ∉ x.cleaned) ∨
          (CachedValues.entered x a).born value + ttl < a.done) := by
      by_cases same : key = a.key
      · subst same
        obtain ⟨rfl, -⟩ : x.made.length = value ∧ a.pace.written a.now = used := by
          simpa [CachedValues.entered] using known
        refine ⟨List.mem_append_right _ (List.mem_singleton_self _), Or.inl ⟨?_, ?_⟩⟩
        · exact Lru.holds_put.mpr (Or.inl rfl)
        · exact fun gone => inv.owned.fresh _ (inv.owned.cleaned _ gone)
      · have former : x.last key = some (value, used) := by
          simpa [CachedValues.entered, same] using known
        obtain ⟨made, state⟩ := inv.last key value used former
        have old : value ≠ x.made.length := Nat.ne_of_lt (inv.owned.numbered _ made)
        refine ⟨List.mem_append_left _ made, ?_⟩
        rcases state with ⟨holds, kept⟩ | gone
        · exact Or.inl ⟨Lru.holds_put.mpr (Or.inr ⟨same, holds⟩), kept⟩
        · refine Or.inr ?_
          simp only [CachedValues.entered, Function.update_of_ne old]
          exact Int.lt_of_lt_of_le gone later
    obtain ⟨made, ⟨holds, kept⟩ | old⟩ := settled
    · refine ⟨made, ?_⟩
      rcases (Lru.expire_ledger (written x a) (a.pace.expired a.now) (key, value)).1 holds with
        ⟨stays, free⟩ | ⟨gone, -⟩
      · refine Or.inl ⟨stays, fun cleaned => ?_⟩
        rcases List.mem_append.mp cleaned with before | now
        · exact kept before
        · exact List.count_eq_zero.mp free now
      · -- what goes is older than the clock was when it was looked at
        obtain ⟨entry, found, same⟩ := holds
        have stale : (written x a).isStale entry (a.pace.expired a.now key) = true := by
          by_contra fresh
          exact gone ⟨entry, Lru.lookup_expire.mpr ⟨found, by simpa using fresh⟩, same⟩
        have seen := inTime_expired inTime found
        have age := (inv.born_written found).1
        have past : entry.lastActive + ttl < a.pace.expired a.now key := by
          rw [← inv.lasts]
          exact of_decide_eq_true stale
        refine Or.inr ?_
        rw [age, same] at past
        exact Int.lt_of_lt_of_le past seen
    · exact ⟨made, Or.inr old⟩

theorem Inv.step (inv : Inv ttl x) (stepped : step x a = some y) : Inv ttl y := by
  obtain ⟨inTime, ⟨value, read, rfl⟩ | ⟨-, -, rfl⟩ | ⟨-, -, rfl⟩⟩ := step_cases stepped
  · exact inv.hit inTime read
  · exact inv.failed inTime
  · exact inv.entered inTime

theorem Inv.stillCached_iff (inv : Inv ttl x) {key : String} {value : Nat} {used now : Instant}
    (known : x.last key = some (value, used)) (later : x.clock ≤ now) :
    StillCached x key value now ↔ now ≤ x.born value + ttl := by
  rw [CachedValues.stillCached_iff, Lru.read_eq_some]
  constructor
  · rintro ⟨⟨entry, found, rfl, young⟩, -⟩
    rwa [(inv.current key entry found).1, inv.lasts] at young
  · intro young
    obtain ⟨-, ⟨⟨entry, found, same⟩, kept⟩ | old⟩ := inv.last key value used known
    · simp only at found same
      refine ⟨⟨entry, found, same, ?_⟩, kept⟩
      rwa [(inv.current key entry found).1, inv.lasts, same]
    · exact absurd (Int.le_trans later young) (Int.not_le.mpr old)

end Use

/-- After any calls, a key that was fetched no more than the time to live ago is still cached
exactly if its value was created no more than the time to live ago. -/
theorem kept_iff_young (ttl : Int) (clock : Instant) (schedule : List Fetch) (x : State)
    (ran : Run.exec step (.start ttl clock) schedule = some x) (key : String) (value : Nat)
    (used : Instant) (known : x.last key = some (value, used)) (now : Instant)
    (later : x.clock ≤ now) :
    (now ≤ used + ttl → StillCached x key value now) ↔
      (now ≤ used + ttl → now ≤ x.born value + ttl) := by
  have inv := Run.invariant (fun _ _ _ inv stepped => inv.step stepped) (inv_start ttl clock) ran
  exact forall_congr' fun _ => inv.stillCached_iff known later

theorem kept_at_once :
    ∃ x, Run.exec step (.start 300 0) [{ key := "a", now := 0 }, { key := "a", now := 200 }] =
        some x ∧ x.last "a" = some (0, 200) ∧ StillCached x "a" 0 300 := by
  refine ⟨_, rfl, rfl, ?_⟩
  refine (kept_iff_young 300 0 [{ key := "a", now := 0 }, { key := "a", now := 200 }] _ rfl "a" 0 200
    rfl 300 (by decide)).mpr (by decide) (by decide)

/-- A key that is read every two thirds of the time to live is gone after the second time, and its
value is cleaned up by a write for another key. -/
theorem touched_in_vain :
    ∃ x, Run.exec step (.start 300 0)
        [{ key := "a", now := 0 }, { key := "a", now := 200 }, { key := "b", now := 301 }] = some x ∧
      x.last "a" = some (0, 200) ∧ x.cleaned = [("a", 0)] ∧ ¬ StillCached x "a" 0 400 := by
  refine ⟨_, rfl, rfl, by decide, ?_⟩
  rintro ⟨-, kept⟩
  exact kept (by decide)

/-! ### The ledger -/

/-- Every value is cached for its key or was cleaned up once. -/
def Balanced (x : State) : Prop :=
  ∀ p ∈ x.made, (x.cache.Holds p ∧ x.cleaned.count p = 0) ∨
    (¬ x.cache.Holds p ∧ x.cleaned.count p = 1)

instance (x : State) : Decidable (Balanced x) :=
  inferInstanceAs (Decidable (∀ p ∈ x.made, _))

/-- A value is created for a key only if no entry is left of it. -/
def Clear (x : State) (a : Fetch) : Prop :=
  a.succeeds = true → x.cache.read a.key (a.now + a.pace.read) = none →
    x.cache.entries.lookup a.key = none

section Ledger

variable {x y : State} {a : Fetch}

theorem holds_written {p : String × Nat} :
    (written x a).Holds p ↔ p = (a.key, x.made.length) ∨ (p.1 ≠ a.key ∧ x.cache.Holds p) :=
  Lru.holds_put

/-- The books after an expiry. -/
theorem entered_settles {p : String × Nat}
    (before : if (written x a).Holds p then x.cleaned.count p = 0 else x.cleaned.count p = 1) :
    ((entered x a).cache.Holds p ∧ (entered x a).cleaned.count p = 0) ∨
      (¬ (entered x a).cache.Holds p ∧ (entered x a).cleaned.count p = 1) := by
  have ledger := Lru.expire_ledger (written x a) (a.pace.expired a.now) p
  simp only [entered, List.count_append]
  split at before
  next holds =>
    rcases ledger.1 holds with ⟨stays, free⟩ | ⟨gone, once⟩
    · exact Or.inl ⟨stays, by omega⟩
    · exact Or.inr ⟨gone, by omega⟩
  next absent =>
    obtain ⟨gone, free⟩ := ledger.2 absent
    exact Or.inr ⟨gone, by omega⟩

theorem balanced_entered (owned : Owned x) (balanced : Balanced x)
    (clear : x.cache.entries.lookup a.key = none) : Balanced (entered x a) := by
  intro p member
  apply entered_settles
  rcases List.mem_append.mp member with old | new
  · have other : p ≠ (a.key, x.made.length) := fun same => owned.fresh _ (same ▸ old)
    rcases balanced p old with ⟨holds, free⟩ | ⟨absent, once⟩
    · have elsewhere : p.1 ≠ a.key := by
        obtain ⟨entry, found, -⟩ := holds
        intro same
        rw [same, clear] at found
        cases found
      rw [if_pos (holds_written.mpr (Or.inr ⟨elsewhere, holds⟩))]
      exact free
    · rw [if_neg]
      · exact once
      · intro holds
        rcases holds_written.mp holds with same | ⟨-, before⟩
        · exact other same
        · exact absent before
  · rw [List.mem_singleton.mp new, if_pos (holds_written.mpr (Or.inl rfl))]
    exact List.count_eq_zero_of_not_mem fun gone => owned.fresh _ (owned.cleaned _ gone)

/-- A value whose entry is overwritten is neither cached nor cleaned up. -/
theorem clear_of_balanced (owned : Owned x) (balanced : Balanced x)
    (after : Balanced (entered x a)) : x.cache.entries.lookup a.key = none := by
  by_contra left
  obtain ⟨entry, found⟩ := Option.ne_none_iff_exists'.mp left
  have holds : x.cache.Holds (a.key, entry.value) := ⟨entry, found, rfl⟩
  have made := owned.cached _ holds
  have free : x.cleaned.count (a.key, entry.value) = 0 := by
    rcases balanced _ made with ⟨-, free⟩ | ⟨absent, -⟩
    · exact free
    · exact absurd holds absent
  have replaced : ¬ (written x a).Holds (a.key, entry.value) := by
    intro holds
    rcases holds_written.mp holds with same | ⟨other, -⟩
    · exact owned.fresh a.key (same ▸ made)
    · exact other rfl
  obtain ⟨gone, silent⟩ :=
    (Lru.expire_ledger (written x a) (a.pace.expired a.now) (a.key, entry.value)).2 replaced
  have total : (entered x a).cleaned.count (a.key, entry.value) = 0 := by
    simp only [entered, List.count_append]
    omega
  rcases after _ (List.mem_append_left _ made) with ⟨kept, -⟩ | ⟨-, once⟩
  · exact gone kept
  · omega

end Ledger

/-- In every run, the ledger balances all the time if and only if no value is created over an
expired entry of its key. -/
theorem balanced_iff_clear (ttl : Int) (clock : Instant) (schedule : List Fetch) (x : State)
    (ran : Run.exec step (.start ttl clock) schedule = some x) :
    Run.Always step Balanced (.start ttl clock) schedule ↔
      Run.Meets step Clear (.start ttl clock) schedule := by
  have keeps : ∀ x a y, Owned x ∧ Balanced x → Clear x a → step x a = some y →
      Owned y ∧ Balanced y := by
    rintro x a y ⟨owned, balanced⟩ clear stepped
    refine ⟨owned.step stepped, ?_⟩
    obtain ⟨-, ⟨value, -, rfl⟩ | ⟨-, -, rfl⟩ | ⟨miss, succeeds, rfl⟩⟩ := step_cases stepped
    · exact balanced
    · exact balanced
    · exact balanced_entered owned balanced (clear succeeds miss)
  have shows : ∀ x a y, Owned x ∧ Balanced x → step x a = some y → Balanced y → Clear x a := by
    rintro x a y ⟨owned, balanced⟩ stepped after succeeds miss
    obtain ⟨-, ⟨value, hit, rfl⟩ | ⟨-, fails, rfl⟩ | ⟨-, -, rfl⟩⟩ := step_cases stepped
    · rw [miss] at hit
      cases hit
    · rw [succeeds] at fails
      cases fails
    · exact clear_of_balanced owned balanced after
  exact Run.always_iff_meets keeps shows (fun x inv => inv.2)
    ⟨owned_start ttl clock, by simp [Balanced, State.start]⟩ ran

instance (x : State) (a : Fetch) : Decidable (Clear x a) :=
  inferInstanceAs (Decidable (a.succeeds = true → _ → _))

/-- A key comes back after a write for another key has cleaned its value up. -/
def spaced : List Fetch :=
  [{ key := "a", now := 0 }, { key := "b", now := 301 }, { key := "a", succeeds := false, now := 302 },
   { key := "a", now := 303 }]

theorem spaced_balanced :
    ∃ x, Run.exec step (.start 300 0) spaced = some x ∧ x.cleaned = [("a", 0)] ∧
      Run.Always step Balanced (.start 300 0) spaced :=
  ⟨_, rfl, by decide, (balanced_iff_clear 300 0 spaced _ rfl).mpr (by decide)⟩

/-- A key comes back after its entry has expired; the first value is never cleaned up. -/
theorem value_forgotten :
    ∃ x, Run.exec step (.start 300 0) [{ key := "a", now := 0 }, { key := "a", now := 301 }] =
        some x ∧ x.made = [("a", 0), ("a", 1)] ∧ x.cleaned = [] ∧
      ¬ x.cache.Holds ("a", 0) ∧ ¬ Balanced x :=
  ⟨_, rfl, by decide, by decide, by decide, by decide⟩

end AnyCable.Guarantees.CachedValues
