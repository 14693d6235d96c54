import AnyCable.Guarantees.RedisSubscriptions
import AnyCable.Lib.Slice

/-!
# The batches of `resubscribe`

Source: `pubsub/redis.go:313-350`. After a reconnect the keys of the table are subscribed to in
batches. One slice is filled again and again: it is passed on before the key with an index that is
a multiple of `batchSubscribeSize`, cut back to nothing and filled from its start, and what is left
after the loop is passed on as well. The first batch that fails ends the call.

The loop passes on `batches` of the keys, as the model of the connection has them (`fill_finish`).
These are the keys in their order, no batch is empty and none is larger than `batchSubscribeSize`;
with a failure, what has been subscribed is exactly what came before (`every_key_in_one_batch`).

What Redis answers is arbitrary. A command has copies of the texts of a batch and is answered before
`batchSubscribe` returns, so no command sees what is written into the slice later.
-/

set_option autoImplicit false

namespace AnyCable.Guarantees.ResubscribeBatches
open AnyCable.Lib AnyCable.Guarantees.RedisSubscriptions

/-- The new connection, and what was written to the log. -/
structure Client where
  /-- The arguments of `batchSubscribe`. -/
  passed : List (List String) := []
  /-- The commands that Redis carried out. -/
  subscribed : List (List String) := []
  /-- The errors logged as "failed to resubscribe". -/
  failures : List String := []
  deriving DecidableEq, Repr

/-- The error for a command, if any, by the number of commands before it. -/
abbrev Answer := Nat → List String → Option String

/-- With the error that is returned. -/
def batchSubscribe (answer : Answer) (client : Client) (channels : List String) :
    Option String × Client :=
  let client := { client with passed := client.passed ++ [channels] }
  if channels.length = 0 then (none, client)
  else match answer client.subscribed.length channels with
    | some err => (some err, client)
    | none => (none, { client with subscribed := client.subscribed ++ [channels] })

/-- The log, before `resubscribe` returns. -/
def Client.failed (client : Client) (err : String) : Client :=
  { client with failures := client.failures ++ [err] }

/-- The loop from the key with index `i` on; no slice if the call has returned. -/
def fill (answer : Answer) : Nat → Slice String → Client → List String →
    Client × Option (Slice String)
  | _, batch, client, [] => (client, some batch)
  | i, batch, client, id :: rest =>
    if i > 0 ∧ i % batchSubscribeSize = 0 then
      match batchSubscribe answer client batch.items with
      | (some err, client) => (client.failed err, none)
      | (none, client) => fill answer (i + 1) (batch.cleared.append id) client rest
    else fill answer (i + 1) (batch.append id) client rest

/-- After the loop. -/
def finish (answer : Answer) : Client × Option (Slice String) → Client
  | (client, none) => client
  | (client, some batch) =>
    if batch.len > 0 then
      match batchSubscribe answer client batch.items with
      | (some err, client) => client.failed err
      | (none, client) => client
    else client

/-- For the keys of the table in the order of `maps.Keys`. -/
def resubscribe (answer : Answer) (channels : List String) : Client :=
  finish answer (fill answer 0 (Slice.make "" batchSubscribeSize) {} channels)

/-! ### The loop passes on the batches -/

/-- One batch after the other, until one fails. -/
def passAll (answer : Answer) : Client → List (List String) → Client
  | client, [] => client
  | client, batch :: rest =>
    match batchSubscribe answer client batch with
    | (some err, client) => client.failed err
    | (none, client) => passAll answer client rest

theorem fill_finish (answer : Answer) (i : Nat) (batch : Slice String) (client : Client)
    (ids : List String) (fits : batch.len ≤ batch.array.length) :
    finish answer (fill answer i batch client ids) =
      passAll answer client (batches i batch.items ids) := by
  induction ids generalizing i batch client with
  | nil =>
    simp only [fill, finish, batches, Slice.length_items fits]
    split
    · simp only [passAll]
    · rfl
  | cons id rest ih =>
    simp only [fill, batches]
    split
    next =>
      simp only [passAll]
      split
      next => rfl
      next =>
        -- the slice is cut back to nothing, so the key comes first in it
        rw [ih (i + 1) _ _ (Slice.fits_append _ id), Slice.items_append]
        rfl
    next => rw [ih (i + 1) _ _ (Slice.fits_append _ id), Slice.items_append]

theorem resubscribe_eq (answer : Answer) (channels : List String) :
    resubscribe answer channels = passAll answer {} (batches 0 [] channels) := by
  unfold resubscribe
  rw [fill_finish answer 0 _ _ _ (Nat.zero_le _)]
  rfl

/-! ### The sizes of the batches -/

/-- The number of keys in the slice before the key with index `i`. -/
def filled (i : Nat) : Nat := if i = 0 then 0 else (i - 1) % batchSubscribeSize + 1

theorem filled_succ {i : Nat} (kept : ¬(i > 0 ∧ i % batchSubscribeSize = 0)) :
    filled (i + 1) = filled i + 1 := by
  unfold filled batchSubscribeSize at *
  rw [if_neg (Nat.succ_ne_zero i)]
  split <;> omega

theorem filled_flushed {i : Nat} (flushed : i > 0 ∧ i % batchSubscribeSize = 0) :
    filled i = batchSubscribeSize ∧ filled (i + 1) = 1 := by
  unfold filled batchSubscribeSize at *
  rw [if_neg (Nat.ne_of_gt flushed.1), if_neg (Nat.succ_ne_zero i)]
  omega

theorem filled_le (i : Nat) : filled i ≤ batchSubscribeSize := by
  unfold filled batchSubscribeSize
  split <;> omega

/-- The slice holds `filled i` keys at index `i`: at least one and at most a full batch when it is
passed on. -/
theorem size_of_mem_batches {i : Nat} {batch ids : List String} (size : batch.length = filled i)
    {b : List String} (member : b ∈ batches i batch ids) :
    b ≠ [] ∧ b.length ≤ batchSubscribeSize := by
  induction ids generalizing i batch with
  | nil =>
    simp only [batches] at member
    split at member
    next some =>
      rw [List.mem_singleton.mp member]
      exact ⟨List.ne_nil_of_length_pos some, size ▸ filled_le i⟩
    next => cases member
  | cons id rest ih =>
    simp only [batches] at member
    split at member
    next flushed =>
      obtain ⟨full, one⟩ := filled_flushed flushed
      rcases List.mem_cons.mp member with rfl | later
      · rw [full] at size
        exact ⟨List.ne_nil_of_length_pos (size ▸ Nat.zero_lt_succ _), Nat.le_of_eq size⟩
      · have single : [id].length = filled (i + 1) := one.symm
        exact ih single later
    next kept =>
      refine ih ?_ member
      rw [filled_succ kept, List.length_append, size]
      rfl

/-! ### Failures -/

section Answers

variable {answer : Answer} (client : Client)

theorem batchSubscribe_ok {batch : List String} (filled : batch ≠ [])
    (ok : answer client.subscribed.length batch = none) :
    batchSubscribe answer client batch =
      (none, ⟨client.passed ++ [batch], client.subscribed ++ [batch], client.failures⟩) := by
  simp [batchSubscribe, filled, ok]

theorem batchSubscribe_error {batch : List String} {err : String} (filled : batch ≠ [])
    (error : answer client.subscribed.length batch = some err) :
    batchSubscribe answer client batch =
      (some err, ⟨client.passed ++ [batch], client.subscribed, client.failures⟩) := by
  simp [batchSubscribe, filled, error]

/-- The batches in front have all been subscribed. -/
theorem passAll_append {front : List (List String)} (filled : ∀ b ∈ front, b ≠ [])
    (ok : ∀ n b, front[n]? = some b → answer (client.subscribed.length + n) b = none)
    (rest : List (List String)) :
    passAll answer client (front ++ rest) = passAll answer
      ⟨client.passed ++ front, client.subscribed ++ front, client.failures⟩ rest := by
  induction front generalizing client with
  | nil => simp
  | cons batch front ih =>
    have first := batchSubscribe_ok client (filled batch List.mem_cons_self) (ok 0 batch rfl)
    rw [List.cons_append]
    simp only [passAll, first]
    rw [ih _ (fun b member => filled b (List.mem_cons_of_mem _ member))]
    · simp
    · intro n b found
      have later := ok (n + 1) b found
      rw [List.length_append, List.length_singleton, Nat.add_assoc, Nat.add_comm 1 n]
      exact later

/-- Nothing is passed on after a batch that fails. -/
theorem passAll_error {bs : List (List String)} (filled : ∀ b ∈ bs, b ≠ []) {n : Nat}
    {b : List String} {err : String} (found : bs[n]? = some b)
    (error : answer (client.subscribed.length + n) b = some err)
    (before : ∀ m, m < n → ∀ b, bs[m]? = some b →
      answer (client.subscribed.length + m) b = none) :
    passAll answer client bs = ⟨client.passed ++ bs.take (n + 1),
      client.subscribed ++ bs.take n, client.failures ++ [err]⟩ := by
  obtain ⟨inside, same⟩ := List.getElem?_eq_some_iff.mp found
  have parts : bs = bs.take n ++ b :: bs.drop (n + 1) := by
    rw [← same, ← List.drop_eq_getElem_cons inside, List.take_append_drop]
  have ok : ∀ m b, (bs.take n)[m]? = some b →
      answer (client.subscribed.length + m) b = none := by
    intro m b found
    rw [List.getElem?_take] at found
    split at found
    next early => exact before m early b found
    next => cases found
  have front := passAll_append client (fun b member => filled b (List.mem_of_mem_take member)) ok
    (b :: bs.drop (n + 1))
  rw [← parts] at front
  have last : (client.subscribed ++ bs.take n).length = client.subscribed.length + n := by
    rw [List.length_append, List.length_take, Nat.min_eq_left (Nat.le_of_lt inside)]
  rw [← last] at error
  have failing := batchSubscribe_error ⟨client.passed ++ bs.take n, client.subscribed ++ bs.take n,
    client.failures⟩ (filled b (List.mem_of_getElem? found)) error
  rw [front, passAll, failing]
  simp [Client.failed, List.take_add_one, found]

end Answers

/-- The batches are the same whatever Redis answers; the answers say how many are passed on. -/
theorem every_key_in_one_batch (s : RedisSubscriber) {channels : List String}
    (order : channels.Perm s.subscriptions.keys) :
    ∃ bs : List (List String),
      bs.flatten = channels ∧
      (∀ id, channels.count id = if id ∈ s.subscriptions then 1 else 0) ∧
      (∀ b ∈ bs, b ≠ [] ∧ b.length ≤ 256) ∧
      (∀ answer : Answer, (∀ n b, bs[n]? = some b → answer n b = none) →
        resubscribe answer channels = { passed := bs, subscribed := bs, failures := [] }) ∧
      ∀ (answer : Answer) (n : Nat) (b : List String) (err : String),
        bs[n]? = some b → answer n b = some err →
        (∀ m, m < n → ∀ b, bs[m]? = some b → answer m b = none) →
        resubscribe answer channels =
          { passed := bs.take (n + 1), subscribed := bs.take n, failures := [err] } := by
  have sizes : ∀ b ∈ batches 0 [] channels, b ≠ [] ∧ b.length ≤ batchSubscribeSize :=
    fun b member => size_of_mem_batches (i := 0) rfl member
  have filled : ∀ b ∈ batches 0 [] channels, b ≠ [] := fun b member => (sizes b member).1
  refine ⟨batches 0 [] channels, flatten_batches 0 [] channels, fun id => ?_, sizes, ?_, ?_⟩
  · rw [order.count_eq]
    split
    next member => exact List.count_eq_one_of_mem s.subscriptions.keys_nodup member
    next absent => exact List.count_eq_zero.mpr absent
  · intro answer ok
    have all := passAll_append {} filled (fun n b found => (Nat.zero_add n).symm ▸ ok n b found) []
    rw [List.append_nil] at all
    rw [resubscribe_eq, all]
    rfl
  · intro answer n b err found error before
    have failing := passAll_error {} filled found ((Nat.zero_add n).symm ▸ error)
      (fun m early b found => (Nat.zero_add m).symm ▸ before m early b found)
    rw [resubscribe_eq, failing]
    rfl

/-- The channel with number `n`. -/
def room (n : Nat) : String := String.ofList (List.replicate n 'x')

theorem room_injective : Function.Injective room := by
  intro m n same
  have lengths := congrArg (fun name => name.toList.length) same
  simpa [room] using lengths

def rooms : List String := (List.range 300).map room

/-- More channels than fit into one batch. -/
def crowded : RedisSubscriber where
  subscriptions :=
    { entries := (List.range 300).map fun n => ⟨room n, ⟨room n⟩⟩
      nodupKeys := by
        rw [List.NodupKeys, List.keys, List.map_map]
        exact List.nodup_range.map room_injective }

theorem crowded_keys : crowded.subscriptions.keys = rooms := by
  simp [AList.keys, List.keys, crowded, rooms, Function.comp_def]

/-- A connection that is lost again before the second command. -/
theorem every_key_in_one_batch_crowded :
    rooms.Perm crowded.subscriptions.keys ∧
    ∃ bs : List (List String), bs.flatten = rooms ∧ 2 ≤ bs.length ∧
      resubscribe (fun n _ => if n = 1 then some "closed" else none) rooms =
        { passed := bs.take 2, subscribed := bs.take 1, failures := ["closed"] } := by
  have order : rooms.Perm crowded.subscriptions.keys := .of_eq crowded_keys.symm
  obtain ⟨bs, covers, -, sizes, -, fails⟩ := every_key_in_one_batch crowded order
  have total : bs.flatten.length = 300 := by simp [covers, rooms]
  refine ⟨order, bs, covers, ?_⟩
  match bs with
  | [] => cases total
  | [b] =>
    -- one batch does not hold them all
    have small := (sizes b List.mem_cons_self).2
    simp only [List.flatten_cons, List.flatten_nil, List.append_nil] at total
    omega
  | b :: c :: rest =>
    refine ⟨by simp, fails _ 1 c "closed" rfl rfl fun m early _ _ => ?_⟩
    rw [if_neg (Nat.ne_of_lt early)]

/-- Around the size of a batch. -/
example : (batches 0 [] (List.replicate 256 "c")).map List.length = [256] ∧
    (batches 0 [] (List.replicate 257 "c")).map List.length = [256, 1] := by
  decide +kernel

end AnyCable.Guarantees.ResubscribeBatches
