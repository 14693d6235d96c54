import AnyCable.Lib.Numbered
import AnyCable.Lib.Run
import AnyCable.Source.History

/-!
# Streams that are numbered elsewhere

Source: `broker/memory.go:53-95,128-151,334-407` and `broker/nats.go:589-606`. `Store` takes the
number of a message from JetStream and accepts any that is above the last one, so numbers may be
missing between the entries of a record. `HistoryFrom` still takes the distance from the lowest
number for an index: behind a gap it starts too late and leaves messages out (`gap_loses_message`).

A trace keeps what has been accepted for each record. In every run a read that succeeds returns the
entries above the requested offset, in order, exactly if all numbers from the lowest one up to the
requested one are there (`numbered_reads_iff`).
-/

set_option autoImplicit false

namespace AnyCable.Guarantees.NumberedStreams
open AnyCable.Lib AnyCable.Source

structure Trace where
  history : History
  /-- Offset and payload of every accepted `Store`, by stream and record, oldest first. -/
  accepted : String → Nat → List (Nat × String) := fun _ _ => []

inductive Op where
  | store (name data : String) (offset : Nat) (t : Option Instant) (now : Instant)
  | expire (now : Instant)

/-- The record that a call for the stream works on. -/
def recordOf (x : Trace) (name : String) : Nat := (x.history.lookup name).2

/-- One more pair for a record. -/
def note (accepted : String → Nat → List (Nat × String)) (name : String) (r : Nat)
    (p : Nat × String) : String → Nat → List (Nat × String) :=
  fun st r' => if st = name ∧ r' = r then accepted name r ++ [p] else accepted st r'

def step (x : Trace) : Op → Option Trace
  | .store name data offset t now => do
    let (history, res) ← x.history.store name data offset t now
    return ⟨history, match res with
      | .ok _ => note x.accepted name (recordOf x name) (offset, data)
      | .error _ => x.accepted⟩
  | .expire now => some { x with history := x.history.expire now }

/-- The last accepted offset of a record, 0 if there is none. -/
def lastAccepted (x : Trace) (name : String) (r : Nat) : Nat :=
  ((x.accepted name r).getLast?.map Prod.fst).getD 0

/-- All numbers from the lowest one held up to `o` are held. -/
def NoGap (ms : Memstream) (o : Nat) : Prop :=
  ∀ k, ms.low ≤ k → k ≤ o → ∃ e ∈ ms.data, e.offset = k

/-! ### Records and what they have accepted -/

structure Inv (x : Trace) : Prop where
  tracks : ∀ name r, (x.history.records name r).Tracks (x.accepted name r)
  counter : ∀ name r, (x.history.records name r).offset = lastAccepted x name r
  unused : ∀ name r, x.history.created name ≤ r → x.accepted name r = []
  mapped : ∀ name r, x.history.streams name = some r → r < x.history.created name

section Steps

variable {x y : Trace} {name data : String} {offset : Nat} {t : Option Instant} {now : Instant}

theorem inv_new (config : Config) (epoch : String) : Inv { history := .new config epoch } where
  tracks name r := Memstream.tracks_new _ _
  counter name r := rfl
  unused name r _ := rfl
  mapped name r found := by cases found

/-- The lookup may create an empty record that nothing has been accepted for. -/
theorem Inv.lookup (inv : Inv x) (name : String) :
    Inv { x with history := (x.history.lookup name).1 } := by
  rcases History.lookup_cases x.history name with ⟨r, -, eq⟩ | ⟨absent, eq⟩
  · rw [eq]
    exact inv
  · rw [eq]
    have fresh := inv.unused name (x.history.created name) (Nat.le_refl _)
    refine ⟨fun st r => ?_, fun st r => ?_, fun st r above => ?_, fun st r found => ?_⟩
    · simp only [History.setRecord_apply]
      split
      next same =>
        rw [same.1, same.2, fresh]
        exact Memstream.tracks_new _ _
      · exact inv.tracks st r
    · simp only [History.setRecord_apply]
      split
      next same =>
        rw [same.1, same.2]
        simp [lastAccepted, fresh, History.newRecord]
      · exact inv.counter st r
    · refine inv.unused st r (Nat.le_trans ?_ above)
      simp only [Function.update_apply]
      split
      next same => exact same ▸ Nat.le_succ _
      · exact Nat.le_refl _
    · simp only [Function.update_apply] at found ⊢
      split at found
      next same =>
        cases found
        simp [same]
      next other =>
        simp only [other, if_false]
        exact inv.mapped st r found

theorem recordOf_lt (inv : Inv x) (name : String) :
    recordOf x name < (x.history.lookup name).1.created name := by
  rcases History.lookup_cases x.history name with ⟨r, found, eq⟩ | ⟨-, eq⟩
  · simp only [recordOf, eq]
    exact inv.mapped name r found
  · simp [recordOf, eq]

/-- What a `Store` does: it is refused and changes no record, or it appends to its own one. -/
theorem store_cases {res : Except String Nat} {after : History}
    (stored : x.history.store name data offset t now = some (after, res)) :
    let looked := (x.history.lookup name).1
    (offset ≤ (looked.records name (recordOf x name)).offset ∧
        after = looked.setRecord name (recordOf x name)
          (looked.records name (recordOf x name)) ∧ ∃ err, res = .error err) ∨
      ((looked.records name (recordOf x name)).offset < offset ∧ res = .ok offset ∧
        ∃ ms, Memstream.appendEntry
            { looked.records name (recordOf x name) with offset := offset }
            ⟨unix (t.getD now), offset, data⟩ now = some ms ∧
          after = looked.setRecord name (recordOf x name) ms) :=
  History.insertTo_cases stored

theorem setRecord_self (b : History) (name : String) (r : Nat) :
    b.setRecord name r (b.records name r) = b := by
  simp [History.setRecord]

theorem Inv.store (inv : Inv x) (stepped : step x (.store name data offset t now) = some y) :
    Inv y := by
  simp only [step, Option.bind_eq_bind, Option.bind_eq_some_iff, pure, Option.some.injEq] at stepped
  obtain ⟨⟨after, res⟩, stored, rfl⟩ := stepped
  have looked := inv.lookup name
  obtain ⟨-, rfl, err, rfl⟩ | ⟨larger, rfl, ms, appended, rfl⟩ := store_cases stored
  · rw [setRecord_self]
    exact looked
  · have tracks := (looked.tracks name (recordOf x name)).append larger appended
    have counter : ms.offset = offset := (Memstream.appendEntry_spec appended).2.1
    refine ⟨fun st r => ?_, fun st r => ?_, fun st r above => ?_, looked.mapped⟩
    · simp only [History.setRecord_apply, note]
      split
      · exact tracks
      · exact looked.tracks st r
    · simp only [History.setRecord_apply, lastAccepted, note]
      split
      · simpa using counter
      · exact looked.counter st r
    · have below := recordOf_lt inv name
      have other : ¬ (st = name ∧ r = recordOf x name) := by
        rintro ⟨rfl, rfl⟩
        exact Nat.not_lt.mpr above below
      simp only [note, if_neg other]
      exact looked.unused st r above

theorem Inv.expire (inv : Inv x) (now : Instant) :
    Inv { x with history := x.history.expire now } where
  tracks name r := by
    simp only [History.expire]
    split
    · exact (inv.tracks name r).expire now
    · exact inv.tracks name r
  counter name r := by
    simp only [History.expire]
    split
    · exact inv.counter name r
    · exact inv.counter name r
  unused := inv.unused
  mapped name r found := inv.mapped name r (History.expire_streams.mp found).1

theorem inv_reachable {config : Config} {epoch : String} {ops : List Op}
    (ran : Run.exec step { history := .new config epoch } ops = some x) : Inv x := by
  have keeps : ∀ x op y, Inv x → step x op = some y → Inv y := by
    intro x op y inv stepped
    cases op with
    | store name data offset t now => exact inv.store stepped
    | expire now =>
      cases stepped
      exact inv.expire now
  exact Run.invariant keeps (inv_new config epoch) ran

/-! ### Reads -/

theorem increasing {ms : Memstream} {log : List (Nat × String)} (tracks : ms.Tracks log) :
    ms.data.Pairwise fun e f => e.offset < f.offset := by
  have retained := tracks.increasing.sublist tracks.suffix.sublist
  simpa only [Memstream.retained, List.pairwise_map] using retained

theorem positive {ms : Memstream} {log : List (Nat × String)} (tracks : ms.Tracks log) :
    ∀ e ∈ ms.data, 0 < e.offset :=
  fun _ member => tracks.positive _ (tracks.entry_mem member)

/-- A success returns some of the entries above the offset, and all of them if no number is
missing up to it. -/
theorem read_exact_iff {ms : Memstream} {log : List (Nat × String)} (tracks : ms.Tracks log)
    {o : Nat} {entries : List Entry} (read : ms.filterByOffset o = some (.ok entries)) :
    entries.Sublist (ms.data.filter fun e => o < e.offset) ∧
      (entries = ms.data.filter (fun e => o < e.offset) ↔ NoGap ms o) := by
  obtain ⟨res, result, ok, content⟩ :=
    Memstream.filterByOffset_spec tracks.low (positive tracks) o
  cases read.symm.trans result
  obtain ⟨reached, inside⟩ := ok.mp rfl
  obtain ⟨first, head⟩ : ∃ first, ms.data[0]? = some first :=
    ⟨_, List.getElem?_eq_getElem (by omega)⟩
  have low : ms.low = first.offset := by
    rw [tracks.low]
    cases shape : ms.data with
    | nil => simp [shape] at head
    | cons e rest =>
      rw [shape] at head
      cases head
      rfl
  rw [content entries rfl]
  unfold NoGap
  rw [low] at reached inside ⊢
  exact ⟨Numbered.drop_sublist_filter (increasing tracks) head,
    Numbered.drop_eq_filter_iff (increasing tracks) head reached inside⟩

/-- A read of the broker: it does not panic, and a success is one of the mapped record. -/
theorem historyFrom_spec {x : Trace} (inv : Inv x) (name epoch : String) (o : Nat) :
    ∃ res, x.history.historyFrom name epoch o = some res ∧
      ∀ msgs, res = .ok msgs → ∃ r entries, x.history.streams name = some r ∧
        (x.history.records name r).filterByOffset o = some (.ok entries) ∧
        msgs = entries.map (History.toMessage name epoch) := by
  cases got : x.history.historyGet name epoch with
  | error err => exact ⟨.error err, by simp [History.historyFrom, got], nofun⟩
  | ok r =>
    have tracks := inv.tracks name r
    obtain ⟨res, result, -⟩ := Memstream.filterByOffset_spec tracks.low (positive tracks) o
    refine ⟨_, by simp [History.historyFrom, got, History.historyRead, result]; rfl,
      fun msgs ok => ?_⟩
    cases res with
    | error err => cases ok
    | ok entries =>
      cases ok
      exact ⟨r, entries, (History.historyGet_ok got).2, result, rfl⟩

/-- The lookup of a call keeps what the map points to. -/
theorem lookup_mapped (b : History) {name st : String} {r : Nat} (found : b.streams st = some r) :
    (b.lookup name).1.streams st = some r ∧
      (b.lookup name).1.records st r = b.records st r := by
  by_cases other : st = name
  · subst other
    simp [History.lookup, found]
  · obtain ⟨streams, -, records⟩ := History.lookup_frame b other
    exact ⟨streams.trans found, records r⟩

/-- A record that the lookup has made is empty. -/
theorem lookup_unmapped (b : History) {name st : String} {r : Nat} (absent : b.streams st = none)
    (made : (b.lookup name).1.streams st = some r) :
    ((b.lookup name).1.records st r).data = [] := by
  rcases History.lookup_cases b name with ⟨r', -, eq⟩ | ⟨-, eq⟩
  · rw [eq, absent] at made
    cases made
  · rw [eq] at made ⊢
    simp only [Function.update_apply] at made
    split at made
    next same =>
      cases made
      simp [same, History.newRecord]
    · rw [absent] at made
      cases made

end Steps

/-- In every run a read does not panic. If it succeeds, the retained entries of the record are
accepted ones in increasing order, and it returns those above the offset exactly if no number is
missing up to the offset. A `Store` is accepted exactly if its offset is above the last accepted
one of the record. A refused one leaves every stream as it was; a stream that had no record may have
an empty one. -/
theorem numbered_reads_iff {config : Config} {epoch : String} {ops : List Op} {x : Trace}
    (ran : Run.exec step { history := .new config epoch } ops = some x) :
    (∀ name ep o, (x.history.historyFrom name ep o).isSome) ∧
    (∀ name ep o msgs, x.history.historyFrom name ep o = some (.ok msgs) →
      ∃ r, x.history.streams name = some r ∧
        (x.history.records name r).retained <:+ x.accepted name r ∧
        (x.history.records name r).data.Pairwise (fun e f => e.offset < f.offset) ∧
        (msgs = ((x.history.records name r).data.filter (fun e => o < e.offset)).map
            (History.toMessage name ep) ↔
          NoGap (x.history.records name r) o)) ∧
    ∀ name data offset t now after res,
      x.history.store name data offset t now = some (after, res) →
      (res.isOk = true ↔ lastAccepted x name (recordOf x name) < offset) ∧
      (res.isOk = false →
        (∀ st r, x.history.streams st = some r →
          after.streams st = some r ∧ after.records st r = x.history.records st r) ∧
        ∀ st r, x.history.streams st = none → after.streams st = some r →
          (after.records st r).data = []) := by
  have inv := inv_reachable ran
  refine ⟨fun name ep o => ?_, fun name ep o msgs read => ?_,
    fun name data offset t now after res stored => ?_⟩
  · obtain ⟨res, result, -⟩ := historyFrom_spec inv name ep o
    simp [result]
  · obtain ⟨res, result, content⟩ := historyFrom_spec inv name ep o
    obtain ⟨r, entries, found, filtered, rfl⟩ :=
      content msgs (Option.some.inj (result.symm.trans read))
    have tracks := inv.tracks name r
    obtain ⟨part, exact_iff⟩ := read_exact_iff tracks filtered
    refine ⟨r, found, tracks.suffix, increasing tracks, ?_⟩
    rw [← exact_iff]
    -- messages drop the timestamps, but a part of the entries that is as long is all of them
    refine ⟨fun same => part.eq_of_length ?_, congrArg _⟩
    simpa using congrArg List.length same
  · have counter := (inv.lookup name).counter name (recordOf x name)
    obtain ⟨taken, rfl, err, rfl⟩ | ⟨larger, rfl, ms, -, rfl⟩ := store_cases stored
    · rw [setRecord_self]
      refine ⟨iff_of_false nofun ?_, fun _ => ⟨fun st r found => ?_, fun st r absent made => ?_⟩⟩
      · rw [counter] at taken
        exact Nat.not_lt.mpr taken
      · exact lookup_mapped x.history found
      · exact lookup_unmapped x.history absent made
    · rw [counter] at larger
      exact ⟨iff_of_true rfl larger, nofun⟩

/-- Three stores at one moment, under the numbers 1, `k` and `k + 1`. -/
def threeStores (k : Nat) : List Op :=
  [.store "chat" "a" 1 none 0, .store "chat" "b" k none 0, .store "chat" "c" (k + 1) none 0]

def reached (k : Nat) : Option Trace :=
  Run.exec step { history := .new {} "e" } (threeStores k)

/-- Numbers 2 to 4 are missing: a reader that has seen everything up to 2 is told that it only
missed the message 6. -/
theorem gap_loses_message :
    (reached 5).bind (fun x => x.history.historyFrom "chat" "e" 2) =
        some (.ok [{ stream := "chat", data := "c", offset := 6, epoch := "e" }]) ∧
      (reached 5).map (fun x => (x.history.records "chat" 0).retained) =
        some [(1, "a"), (5, "b"), (6, "c")] := by
  decide

theorem consecutive_read_exact :
    ∃ x msgs, reached 2 = some x ∧ x.history.historyFrom "chat" "e" 1 = some (.ok msgs) ∧
      ∃ r, x.history.streams "chat" = some r ∧
        (msgs = ((x.history.records "chat" r).data.filter (fun e => 1 < e.offset)).map
            (History.toMessage "chat" "e") ↔ NoGap (x.history.records "chat" r) 1) := by
  obtain ⟨x, ran⟩ : ∃ x, reached 2 = some x := ⟨_, rfl⟩
  have read : (reached 2).bind (fun x => x.history.historyFrom "chat" "e" 1) =
      some (.ok [{ stream := "chat", data := "b", offset := 2, epoch := "e" },
        { stream := "chat", data := "c", offset := 3, epoch := "e" }]) := by decide
  rw [ran] at read
  obtain ⟨r, found, -, -, exact_iff⟩ := (numbered_reads_iff ran).2.1 "chat" "e" 1 _ read
  exact ⟨x, _, ran, read, r, found, exact_iff⟩

end AnyCable.Guarantees.NumberedStreams
