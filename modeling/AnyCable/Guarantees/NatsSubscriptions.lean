import AnyCable.Lib.GoMap
import AnyCable.Lib.Pending
import AnyCable.Lib.Run

/-!
# Subscriptions of the NATS connection

Source: `pubsub/nats.go:62-137`. `Subscribe` looks the stream up under the read lock and gives the
lock back. It then takes the write lock, makes a subscription on the server and writes it to the
table, without a second look. `Unsubscribe` is one step under the write lock: it deletes the entry
and ends the subscription found there.

Two calls that have both missed the stream make two subscriptions, and the table keeps only the
later one (`crossed_subscribes`). The server's subscriptions are those of the table in every state
of a run exactly if no call makes one for a stream that the table has by then (`live_exact_iff`).

The server numbers the subscriptions of a connection and takes a stream name as a subject without
wildcards. A call to it may fail; the error is logged.
-/

set_option autoImplicit false

namespace AnyCable.Guarantees.NatsSubscriptions
open AnyCable.Lib

/-- `nats.Subscription`. -/
structure Subscription where
  subject : String
  sid : Nat
  deriving DecidableEq, Repr

structure NATSSubscriber where
  subscriptions : GoMap String Subscription := ∅
  /-- Calls of `Subscribe` that have missed their stream and wait for the write lock. -/
  calls : List String := []
  /-- What the server has for the connection. -/
  live : List Subscription := []
  ssid : Nat := 0

inductive Act where
  /-- `Subscribe` under the read lock. -/
  | check (stream : String)
  /-- The call at the position, under the write lock. -/
  | create (i : Nat)
  /-- The same where the server answers with an error. -/
  | fail (i : Nat)
  | unsubscribe (stream : String)
  deriving DecidableEq, Repr

/-- `conn.Subscribe` and the store. -/
def store (x : NATSSubscriber) (stream : String) : NATSSubscriber :=
  let sub : Subscription := ⟨stream, x.ssid + 1⟩
  { x with live := x.live ++ [sub]
           ssid := x.ssid + 1
           subscriptions := x.subscriptions.insert stream sub }

def step (x : NATSSubscriber) : Act → Option NATSSubscriber
  | .check stream =>
    if stream ∈ x.subscriptions then some x else some { x with calls := x.calls ++ [stream] }
  | .create i =>
    (x.calls[i]?).map fun stream => { store x stream with calls := x.calls.eraseIdx i }
  | .fail i => (x.calls[i]?).map fun _ => { x with calls := x.calls.eraseIdx i }
  | .unsubscribe stream =>
    match x.subscriptions.lookup stream with
    | some sub =>
      some { x with subscriptions := x.subscriptions.erase stream, live := x.live.erase sub }
    | none => some x

/-- `Start`, with a server that answers. -/
def start (channel : String) : NATSSubscriber := store {} channel

/-- The subscriptions that get a message of the stream. -/
def handlers (x : NATSSubscriber) (stream : String) : List Subscription :=
  x.live.filter fun sub => sub.subject == stream

/-- What the server has is what the table has. -/
structure Exact (x : NATSSubscriber) : Prop where
  live_iff : ∀ sub, sub ∈ x.live ↔ ∃ stream, x.subscriptions.lookup stream = some sub
  /-- A message is handled once. -/
  handled_once : ∀ stream, (handlers x stream).length = if stream ∈ x.subscriptions then 1 else 0
  /-- A call of `Unsubscribe` leaves nothing behind. -/
  unsubscribed : ∀ stream y, step x (.unsubscribe stream) = some y → handlers y stream = []

/-- A call makes a subscription only for a stream that the table does not have. -/
def Misses (x : NATSSubscriber) : Act → Prop
  | .create i => ∀ stream ∈ x.calls[i]?, stream ∉ x.subscriptions
  | .check _ | .fail _ | .unsubscribe _ => True

instance (x : NATSSubscriber) : (a : Act) → Decidable (Misses x a)
  | .create i => inferInstanceAs (Decidable (∀ stream ∈ x.calls[i]?, stream ∉ x.subscriptions))
  | .check _ | .fail _ | .unsubscribe _ => isTrue trivial

/-! ### The table and the server -/

/-- The entries of the table are numbered and filed under their subject, and the server has each of
them once and nothing else. -/
structure Inv (x : NATSSubscriber) : Prop where
  live_iff : ∀ sub, sub ∈ x.live ↔ ∃ stream, x.subscriptions.lookup stream = some sub
  nodup : x.live.Nodup
  filed : ∀ stream, ∀ sub ∈ x.subscriptions.lookup stream, sub.subject = stream
  numbered : ∀ sub ∈ x.live, sub.sid ≤ x.ssid

section Steps

variable {x y : NATSSubscriber} {a : Act} {stream : String}

theorem step_cases (stepped : step x a = some y) :
    ((y.subscriptions, y.live, y.ssid) = (x.subscriptions, x.live, x.ssid) ∧
      (∀ st, a = .unsubscribe st → x.subscriptions.lookup st = none) ∧ ∀ i, a ≠ .create i) ∨
    (∃ i st, a = .create i ∧ x.calls[i]? = some st ∧
      y = { store x st with calls := x.calls.eraseIdx i }) ∨
    ∃ st sub, a = .unsubscribe st ∧ x.subscriptions.lookup st = some sub ∧
      y = { x with subscriptions := x.subscriptions.erase st, live := x.live.erase sub } := by
  cases a with
  | check st =>
    simp only [step] at stepped
    split at stepped <;> cases stepped <;> simp
  | create i =>
    obtain ⟨st, waiting, rfl⟩ := Option.map_eq_some_iff.mp stepped
    exact Or.inr (Or.inl ⟨i, st, rfl, waiting, rfl⟩)
  | fail i =>
    obtain ⟨st, -, rfl⟩ := Option.map_eq_some_iff.mp stepped
    simp
  | unsubscribe st =>
    simp only [step] at stepped
    split at stepped
    next sub found =>
      cases stepped
      exact Or.inr (Or.inr ⟨st, sub, rfl, found, rfl⟩)
    next missing =>
      cases stepped
      exact Or.inl ⟨rfl, fun other same => by cases same; exact missing, nofun⟩

theorem Inv.congr (inv : Inv x)
    (same : (y.subscriptions, y.live, y.ssid) = (x.subscriptions, x.live, x.ssid)) : Inv y := by
  simp only [Prod.mk.injEq] at same
  obtain ⟨table, live, ssid⟩ := same
  exact ⟨by rw [table, live]; exact inv.live_iff, by rw [live]; exact inv.nodup,
    by rw [table]; exact inv.filed, by rw [live, ssid]; exact inv.numbered⟩

theorem Inv.store (inv : Inv x) (absent : stream ∉ x.subscriptions) (calls : List String) :
    Inv { store x stream with calls := calls } := by
  have missing : x.subscriptions.lookup stream = none := AList.lookup_eq_none.mpr absent
  refine ⟨fun sub => ?_, ?_, fun other sub found => ?_, fun sub member => ?_⟩
  · simp only [NatsSubscriptions.store, List.mem_append, List.mem_singleton,
      GoMap.lookup_insert_apply, inv.live_iff sub]
    constructor
    · rintro (⟨other, found⟩ | rfl)
      · have different : other ≠ stream := by
          rintro rfl
          cases missing.symm.trans found
        exact ⟨other, (if_neg different).trans found⟩
      · exact ⟨stream, by simp⟩
    · rintro ⟨other, found⟩
      split at found
      · exact Or.inr (Option.some.inj found).symm
      · exact Or.inl ⟨other, found⟩
  · rw [NatsSubscriptions.store, List.nodup_append]
    refine ⟨inv.nodup, List.nodup_singleton _, fun sub member fresh listed same => ?_⟩
    have numbered := inv.numbered sub member
    rw [same, List.mem_singleton.mp listed] at numbered
    exact absurd numbered (by simp)
  · simp only [NatsSubscriptions.store, GoMap.lookup_insert_apply, Option.mem_def] at found
    split at found
    next same => rw [← Option.some.inj found, same]
    next => exact inv.filed other sub found
  · simp only [NatsSubscriptions.store, List.mem_append, List.mem_singleton] at member ⊢
    rcases member with old | rfl
    · exact Nat.le_succ_of_le (inv.numbered sub old)
    · exact le_refl _

theorem Inv.unsubscribe {sub : Subscription} (inv : Inv x)
    (found : x.subscriptions.lookup stream = some sub) :
    Inv { x with subscriptions := x.subscriptions.erase stream, live := x.live.erase sub } := by
  refine ⟨fun other => ?_, inv.nodup.erase sub, fun name other listed => ?_,
    fun other member => inv.numbered other (List.mem_of_mem_erase member)⟩
  · simp only [inv.nodup.mem_erase_iff, inv.live_iff other, GoMap.lookup_erase_apply]
    constructor
    · rintro ⟨different, name, listed⟩
      refine ⟨name, ?_⟩
      rw [if_neg]
      · exact listed
      · intro same
        rw [same, found] at listed
        exact different (Option.some.inj listed).symm
    · rintro ⟨name, listed⟩
      split at listed
      · cases listed
      next elsewhere =>
        refine ⟨fun same => elsewhere ?_, name, listed⟩
        -- the subject says under which name a subscription is filed
        rw [← inv.filed name other listed, ← inv.filed stream sub found, same]
  · simp only [GoMap.lookup_erase_apply, Option.mem_def] at listed
    split at listed
    · cases listed
    · exact inv.filed name other listed

theorem Inv.step (inv : Inv x) (misses : Misses x a) (stepped : step x a = some y) : Inv y := by
  obtain ⟨same, -, -⟩ | ⟨i, st, rfl, waiting, rfl⟩ | ⟨st, sub, -, found, rfl⟩ := step_cases stepped
  · exact inv.congr same
  · exact inv.store (misses st waiting) _
  · exact inv.unsubscribe found

theorem Inv.handlers_eq (inv : Inv x) (stream : String) :
    handlers x stream = (x.subscriptions.lookup stream).toList := by
  have members : ∀ sub, sub ∈ handlers x stream ↔ x.subscriptions.lookup stream = some sub := by
    intro sub
    simp only [handlers, List.mem_filter, inv.live_iff sub, beq_iff_eq]
    constructor
    · rintro ⟨⟨name, found⟩, rfl⟩
      rwa [inv.filed name sub found]
    · intro found
      exact ⟨⟨stream, found⟩, inv.filed stream sub found⟩
  cases found : x.subscriptions.lookup stream with
  | none =>
    refine List.eq_nil_iff_forall_not_mem.mpr fun sub member => ?_
    rw [members, found] at member
    cases member
  | some sub =>
    have single : ∀ other ∈ handlers x stream, other = sub := by
      intro other member
      rw [members, found] at member
      exact (Option.some.inj member).symm
    have nodup : (handlers x stream).Nodup := inv.nodup.filter _
    rw [List.eq_replicate_of_mem single] at nodup ⊢
    have positive := List.length_pos_of_mem ((members sub).mpr found)
    have short := List.nodup_replicate.mp nodup
    rw [show (handlers x stream).length = 1 by omega]
    rfl

theorem Inv.exact (inv : Inv x) : Exact x := by
  refine ⟨inv.live_iff, fun stream => ?_, fun stream y stepped => ?_⟩
  · rw [inv.handlers_eq]
    by_cases present : stream ∈ x.subscriptions
    · obtain ⟨sub, found⟩ := GoMap.mem_iff_lookup.mp present
      simp [present, found]
    · simp [present, AList.lookup_eq_none.mpr present]
  · have after : Inv y := inv.step (a := .unsubscribe stream) trivial stepped
    rw [after.handlers_eq]
    obtain ⟨same, missing, -⟩ | ⟨i, st, other, -⟩ | ⟨st, sub, same, -, rfl⟩ := step_cases stepped
    · rw [(Prod.mk.inj same).1, missing stream rfl]
      rfl
    · cases other
    · cases same
      rw [AList.lookup_erase]
      rfl

/-- A subscription that is overwritten stays on the server. -/
theorem misses_of_exact (inv : Inv x) (stepped : step x a = some y) (exact : Exact y) :
    Misses x a := by
  obtain ⟨-, -, other⟩ | ⟨i, st, rfl, waiting, rfl⟩ | ⟨st, sub, rfl, -⟩ := step_cases stepped
  · cases a with
    | create i => exact absurd rfl (other i)
    | check | fail | unsubscribe => trivial
  · intro stream at_call present
    cases waiting.symm.trans at_call
    obtain ⟨old, found⟩ := GoMap.mem_iff_lookup.mp present
    have live : old ∈ x.live := (inv.live_iff old).mpr ⟨st, found⟩
    obtain ⟨name, kept⟩ := (exact.live_iff old).mp (List.mem_append_left _ live)
    simp only [store, GoMap.lookup_insert_apply] at kept
    split at kept
    · -- the entry is the new subscription, whose number was not in use
      have numbered := inv.numbered old live
      rw [← Option.some.inj kept] at numbered
      exact absurd numbered (by simp)
    next elsewhere =>
      exact elsewhere ((inv.filed name old kept).symm.trans (inv.filed st old found))
  · trivial

end Steps

theorem inv_empty : Inv {} where
  live_iff sub := by simp
  nodup := List.nodup_nil
  filed stream sub found := by simp at found
  numbered sub member := by cases member

theorem live_exact_iff {acts : List Act} {final : NATSSubscriber}
    (ran : Run.exec step {} acts = some final) :
    Run.Always step Exact {} acts ↔ Run.Meets step Misses {} acts := by
  have keeps : ∀ x a y, Inv x → Misses x a → step x a = some y → Inv y :=
    fun _ _ _ inv misses stepped => inv.step misses stepped
  have shows : ∀ x a y, Inv x → step x a = some y → Exact y → Misses x a :=
    fun _ _ _ inv stepped exact => misses_of_exact inv stepped exact
  exact Run.always_iff_meets keeps shows (fun _ inv => inv.exact) inv_empty ran

/-- A stream that comes and goes while another one stays. -/
theorem live_exact_resubscribed :
    Run.Always step Exact {} [.check "a", .check "b", .create 1, .create 0, .check "a",
      .unsubscribe "a", .check "a", .create 0, .unsubscribe "a"] :=
  (live_exact_iff rfl).mpr (by decide)

/-- Both calls miss the stream; the subscription of the first one is left on the server for good. -/
theorem crossed_subscribes :
    ∃ x y, Run.exec step {} [.check "a", .check "a", .create 0, .create 0] = some x ∧
      step x (.unsubscribe "a") = some y ∧
      (handlers x "a").length = 2 ∧ "a" ∉ y.subscriptions ∧ handlers y "a" = [⟨"a", 1⟩] ∧
      ¬ Exact x :=
  ⟨_, _, rfl, rfl, by decide, by decide, by decide, fun exact =>
    absurd (exact.handled_once "a") (by decide)⟩

end AnyCable.Guarantees.NatsSubscriptions
