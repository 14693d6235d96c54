import AnyCable.Lib.Run
import AnyCable.Source.Common
import AnyCable.Source.StreamLog

/-!
# The history that a reader has missed

Source: `broker/memory.go:34-51,80-151,294-307`. A record is fed by `HandleBroadcast` and cut by
`expire`, on a clock that does not go back. Beside it a trace keeps every entry ever added and the
entries that `expire` has cut.

The record turns an offset into an index by its distance from `low`. That this is right rests on
`Window`: the entries added are numbered from 1 on, and the record holds them from some place on.
`missed_suffix_exact` derives from it what every read returns and which entries are held.
-/

set_option autoImplicit false

namespace AnyCable.Guarantees.MissedSuffix
open AnyCable.Lib AnyCable.Source

structure Trace where
  ms : Memstream
  /-- Every entry added, oldest first. -/
  added : List Entry := []
  /-- The entries that `expire` has cut. -/
  cut : List Entry := []
  /-- The last reading of the clock. -/
  clock : Instant

inductive Op where
  | broadcast (msg : StreamMessage) (now : Instant)
  | expire (now : Instant)

def Op.now : Op → Instant
  | .broadcast _ now | .expire now => now

/-- `HandleBroadcast` for a message of the stream: transient ones do not get to the record. -/
def broadcast (x : Trace) (msg : StreamMessage) (now : Instant) : Option Trace :=
  if msg.isTransient then some { x with clock := now }
  else do
    let (ms, offset) ← x.ms.add msg.data now
    return { x with ms := ms, added := x.added ++ [⟨unix now, offset, msg.data⟩], clock := now }

def expire (x : Trace) (now : Instant) : Trace :=
  let ms := x.ms.expire now
  { x with ms := ms
           cut := x.cut ++ x.ms.data.take (x.ms.data.length - ms.data.length)
           clock := now }

def step (x : Trace) (op : Op) : Option Trace :=
  if op.now < x.clock then none
  else match op with
    | .broadcast msg now => broadcast x msg now
    | .expire now => some (expire x now)

/-- A new record. -/
def start (ttl : Int64) (limit : Int) (clock : Instant) : Trace :=
  { ms := { ttl := ttl, limit := limit }, clock := clock }

/-- What is promised of a record, whatever has happened to it. -/
structure Exact (x : Trace) : Prop where
  /-- A read never panics. It succeeds for the offsets from `low` up to the last one assigned, and
  then returns the entries after the offset, without gaps or repetitions. -/
  read : ∀ o, ∃ res, x.ms.filterByOffset o = some res ∧
    (res.isOk = true ↔ x.ms.data ≠ [] ∧ x.ms.low ≤ o ∧ o ≤ x.ms.offset) ∧
    ∀ entries, res = .ok entries → entries = x.added.drop o ∧
      entries.map Entry.offset = List.range' (o + 1) (x.ms.offset - o)
  /-- The index is computed without wrapping around. -/
  noWrap : ∀ o < uint64Size, x.ms.low ≤ o → x.ms.low ≠ 0 → o - x.ms.low + 1 < uint64Size
  last : x.ms.offset = (x.added.getLast?.map Entry.offset).getD 0
  /-- The entries held are the longest end of all that has been added with at most `limit` entries
  and none that has been cut. -/
  suffix : x.ms.data <:+ x.added
  atMost : (x.ms.data.length : Int) ≤ x.ms.limit
  uncut : ∀ e ∈ x.ms.data, e ∉ x.cut
  longest : ∀ other, other <:+ x.added → (other.length : Int) ≤ x.ms.limit →
    (∀ e ∈ other, e ∉ x.cut) → other.length ≤ x.ms.data.length
  consecutive : x.ms.data.map Entry.offset =
    List.range' (x.ms.offset + 1 - x.ms.data.length) x.ms.data.length
  low : x.ms.low = (x.ms.data.head?.map Entry.offset).getD 0
  /-- An `expire` cuts what is older than the time to live; the subtraction does not wrap around at
  any time from 1970 on that `Unix()` can return. -/
  expires : ∀ now, x.clock ≤ now →
    (x.ms.expire now).data =
      x.ms.data.filter (fun e => ¬ e.timestamp < int64 (unix now - x.ms.ttl.toInt)) ∧
    (0 ≤ unix now → unix now < 2 ^ 63 →
      int64 (unix now - x.ms.ttl.toInt) = unix now - x.ms.ttl.toInt)
  /-- Every further operation is taken. -/
  goesOn : ∀ op, x.clock ≤ op.now → ∃ y, step x op = some y

/-! ### The window of entries held -/

/-- The entries are numbered from 1 on, and the record holds them from the place `c` of the last cut
on, as many as the limit allows. -/
structure Window (ttl : Int64) (limit : Nat) (x : Trace) (c : Nat) : Prop where
  room : 1 ≤ limit
  sameTtl : x.ms.ttl = ttl
  sameLimit : x.ms.limit = limit
  data : x.ms.data = x.added.drop (max c (x.added.length - limit))
  low : x.ms.low = Memstream.lowest x.ms.data
  numbered : ∀ i e, x.added[i]? = some e → e.offset = i + 1
  counter : x.ms.offset = x.added.length
  cutAt : c = 0 ∨ ∃ e ∈ x.cut, x.added[c - 1]? = some e
  cutBefore : ∀ e ∈ x.cut, ∃ i, i < c ∧ x.added[i]? = some e
  bound : c ≤ x.added.length
  sorted : x.added.Pairwise fun e f => e.timestamp ≤ f.timestamp
  past : ∀ e ∈ x.added, e.timestamp ≤ unix x.clock

section Window

variable {ttl : Int64} {limit c : Nat} {x y : Trace} {now : Instant}

theorem window_start (ttl : Int64) {limit : Nat} (room : 1 ≤ limit) (clock : Instant) :
    Window ttl limit (start ttl limit clock) 0 := by
  constructor <;> simp [start, Memstream.lowest, room]

/-- With room for an entry `appendEntry` does not panic. -/
theorem appendEntry_succeeds {ms : Memstream} (room : 1 ≤ ms.limit) (e : Entry) (now : Instant) :
    ∃ after, ms.appendEntry e now = some after := by
  apply Option.ne_none_iff_exists'.mp
  intro panicked
  have := (Memstream.appendEntry_eq_none_iff.mp panicked).1
  omega

theorem Window.broadcast (window : Window ttl limit x c) (few : y.added.length < uint64Size)
    (later : x.clock ≤ now) {msg : StreamMessage}
    (stepped : broadcast x msg now = some y) : Window ttl limit y c := by
  have time := unix_mono later
  have earlier : ∀ e ∈ x.added, e.timestamp ≤ unix now := fun e member =>
    Int.le_trans (window.past e member) time
  unfold MissedSuffix.broadcast at stepped
  split at stepped
  · cases stepped
    exact { window with past := earlier }
  · simp only [Memstream.add, Option.bind_eq_bind, Option.bind_eq_some_iff, pure,
      Option.some.injEq] at stepped
    obtain ⟨⟨ms, offset⟩, ⟨after, appended, pair⟩, rfl⟩ := stepped
    cases pair
    obtain ⟨shape, counter, sameTtl, sameLimit, -, low⟩ := Memstream.appendEntry_spec appended
    simp only [List.length_append, List.length_singleton] at few
    have next : (x.ms.offset + 1) % uint64Size = x.added.length + 1 := by
      rw [window.counter]
      exact Nat.mod_eq_of_lt few
    simp only [next] at shape counter sameTtl sameLimit low ⊢
    have place := window.bound
    have room := window.room
    refine ⟨room, sameTtl.trans window.sameTtl, sameLimit.trans window.sameLimit,
      ?_, ?_, ?_, ?_, ?_, ?_, ?_, ?_, ?_⟩
    · -- the first entry goes exactly if the window was as long as the limit
      have held := congrArg List.length window.data
      rw [List.length_drop] at held
      rw [window.sameLimit, held] at shape
      simp only [List.length_append, List.length_singleton]
      rcases shape with ⟨grown, free⟩ | ⟨moved, -, full⟩
      · rw [grown, window.data, List.drop_append_of_le_length (by omega)]
        congr 2
        omega
      · rw [moved, window.data, List.tail_drop, List.drop_append_of_le_length (by omega)]
        congr 2
        omega
    · refine low window.low fun e member => ?_
      rw [window.data] at member
      obtain ⟨i, found⟩ := List.mem_iff_getElem?.mp (List.mem_of_mem_drop member)
      rw [window.numbered i e found]
      exact Nat.succ_pos i
    · intro i e found
      rw [List.getElem?_append] at found
      split at found
      · exact window.numbered i e found
      next behind =>
        obtain ⟨first, rfl⟩ := List.getElem?_eq_some_iff.mp found
        simp only [List.length_singleton] at first
        simp only [List.getElem_singleton]
        omega
    · simp [counter]
    · refine window.cutAt.imp_right ?_
      rintro ⟨e, member, found⟩
      exact ⟨e, member, List.getElem?_append_left
        (List.getElem?_eq_some_iff.mp found).1 ▸ found⟩
    · intro e member
      obtain ⟨i, before, found⟩ := window.cutBefore e member
      exact ⟨i, before, List.getElem?_append_left
        (List.getElem?_eq_some_iff.mp found).1 ▸ found⟩
    · simp only [List.length_append]
      omega
    · refine List.pairwise_append.mpr ⟨window.sorted, List.pairwise_singleton _ _, ?_⟩
      intro e member f new
      rw [List.mem_singleton.mp new]
      exact earlier e member
    · intro e member
      rcases List.mem_append.mp member with old | new
      · exact earlier e old
      · obtain rfl := List.mem_singleton.mp new
        exact Int.le_refl _

theorem Window.length_data (window : Window ttl limit x c) :
    x.ms.data.length = x.added.length - max c (x.added.length - limit) := by
  rw [window.data, List.length_drop]

/-- The place of the last cut moves behind the entries that are cut now. -/
theorem Window.expire (window : Window ttl limit x c) (later : x.clock ≤ now) :
    ∃ c', Window ttl limit (expire x now) c' := by
  obtain ⟨front, split⟩ : (x.ms.expire now).data <:+ x.ms.data := List.dropWhile_suffix _
  have place := window.bound
  have held := window.length_data
  have lengths := congrArg List.length split
  rw [List.length_append] at lengths
  have gone : x.ms.data.take (x.ms.data.length - (x.ms.expire now).data.length) = front := by
    rw [← split]
    exact List.take_left' (by rw [List.length_append]; omega)
  have at_front : ∀ i e, front[i]? = some e →
      x.added[max c (x.added.length - limit) + i]? = some e := by
    intro i e found
    rw [← List.getElem?_drop, ← window.data, ← split]
    rw [List.getElem?_append_left (List.getElem?_eq_some_iff.mp found).1]
    exact found
  have rest : (x.ms.expire now).data =
      x.added.drop (max c (x.added.length - limit) + front.length) := by
    rw [← List.drop_drop, ← window.data, ← split, List.drop_left]
  have cut : (MissedSuffix.expire x now).cut = x.cut ++ front := by
    rw [MissedSuffix.expire, gone]
  have past : ∀ e ∈ x.added, e.timestamp ≤ unix now := fun e member =>
    Int.le_trans (window.past e member) (unix_mono later)
  cases shape : front with
  | nil =>
    rw [shape, List.append_nil] at cut
    rw [shape, List.length_nil, Nat.add_zero] at rest
    exact ⟨c, { window with data := rest, low := rfl, past := past
                            cutAt := by rw [cut]; exact window.cutAt
                            cutBefore := by rw [cut]; exact window.cutBefore }⟩
  | cons first more =>
    have positive : 0 < front.length := by simp [shape]
    obtain ⟨e, last⟩ : ∃ e, front[front.length - 1]? = some e :=
      ⟨_, List.getElem?_eq_getElem (by omega)⟩
    refine ⟨max c (x.added.length - limit) + front.length, { window with
      data := ?_, low := rfl, past := past, cutAt := ?_, cutBefore := ?_, bound := ?_ }⟩
    · have further : max (max c (x.added.length - limit) + front.length) (x.added.length - limit) =
          max c (x.added.length - limit) + front.length := by omega
      exact rest.trans (congrArg (List.drop · x.added) further.symm)
    · refine Or.inr ⟨e, ?_, ?_⟩
      · rw [cut]
        exact List.mem_append_right _ (List.mem_of_getElem? last)
      have found := at_front _ _ last
      rwa [show max c (x.added.length - limit) + (front.length - 1) =
        max c (x.added.length - limit) + front.length - 1 by omega] at found
    · intro e member
      rw [cut] at member
      rcases List.mem_append.mp member with old | new
      · obtain ⟨i, before, found⟩ := window.cutBefore e old
        exact ⟨i, by omega, found⟩
      · obtain ⟨i, found⟩ := List.mem_iff_getElem?.mp new
        have inside := (List.getElem?_eq_some_iff.mp found).1
        exact ⟨_, by omega, at_front i e found⟩
    · show _ ≤ x.added.length
      omega

theorem Window.numbered_data (window : Window ttl limit x c) {i : Nat} {e : Entry}
    (found : x.ms.data[i]? = some e) :
    e.offset = max c (x.added.length - limit) + i + 1 := by
  rw [window.data, List.getElem?_drop] at found
  exact window.numbered _ e found

theorem Window.low_eq (window : Window ttl limit x c) (nonempty : x.ms.data ≠ []) :
    x.ms.low = max c (x.added.length - limit) + 1 := by
  obtain ⟨first, rest, shape⟩ := List.exists_cons_of_ne_nil nonempty
  rw [window.low, shape, Memstream.lowest, window.numbered_data (i := 0) (by rw [shape]; rfl)]

theorem offsets_drop (window : Window ttl limit x c) (o : Nat) :
    (x.added.drop o).map Entry.offset = List.range' (o + 1) (x.added.length - o) := by
  apply List.ext_getElem?
  intro i
  rw [List.getElem?_map, List.getElem?_drop]
  by_cases inside : o + i < x.added.length
  · rw [List.getElem?_eq_getElem inside, List.getElem?_range' (by omega), Option.map_some,
      window.numbered _ _ (List.getElem?_eq_getElem inside)]
    congr 1
    omega
  · rw [List.getElem?_eq_none (by omega), List.getElem?_eq_none (by simp; omega)]
    rfl

theorem Window.read (window : Window ttl limit x c) (o : Nat) :
    ∃ res, x.ms.filterByOffset o = some res ∧
      (res.isOk = true ↔ x.ms.data ≠ [] ∧ x.ms.low ≤ o ∧ o ≤ x.ms.offset) ∧
      ∀ entries, res = .ok entries → entries = x.added.drop o ∧
        entries.map Entry.offset = List.range' (o + 1) (x.ms.offset - o) := by
  have positive : ∀ e ∈ x.ms.data, 0 < e.offset := by
    intro e member
    obtain ⟨i, found⟩ := List.mem_iff_getElem?.mp member
    rw [window.numbered_data found]
    exact Nat.succ_pos _
  obtain ⟨res, read, ok, content⟩ := Memstream.filterByOffset_spec window.low positive o
  have held := window.length_data
  have place := window.bound
  have success : res.isOk = true ↔ x.ms.data ≠ [] ∧ x.ms.low ≤ o ∧ o ≤ x.ms.offset := by
    rw [ok, window.counter]
    by_cases empty : x.ms.data = []
    · simp [empty]
    · have low := window.low_eq empty
      have nonempty := List.length_pos_iff.mpr empty
      simp only [ne_eq, empty, not_false_eq_true, true_and]
      omega
  refine ⟨res, read, success, fun entries result => ?_⟩
  obtain ⟨nonempty, reached, -⟩ := success.mp (by rw [result]; rfl)
  have low := window.low_eq nonempty
  have eq : entries = x.added.drop o := by
    rw [content entries result, window.data, List.drop_drop]
    congr 1
    omega
  exact ⟨eq, by rw [eq, window.counter, offsets_drop window]⟩

/-- Any end without a cut entry starts behind the last cut. -/
theorem Window.longest (window : Window ttl limit x c) {other : List Entry}
    (suffix : other <:+ x.added) (atMost : (other.length : Int) ≤ x.ms.limit)
    (uncut : ∀ e ∈ other, e ∉ x.cut) : other.length ≤ x.ms.data.length := by
  have place := window.bound
  rw [window.length_data]
  rw [window.sameLimit] at atMost
  obtain ⟨front, split⟩ := suffix
  have lengths := congrArg List.length split
  rw [List.length_append] at lengths
  have behind : c ≤ front.length := by
    rcases window.cutAt with none | ⟨e, cut, found⟩
    · omega
    · by_contra early
      refine uncut e ?_ cut
      rw [← split, List.getElem?_append_right (by omega)] at found
      exact List.mem_of_getElem? found
  omega

theorem Window.uncut (window : Window ttl limit x c) {e : Entry} (member : e ∈ x.ms.data) :
    e ∉ x.cut := by
  intro cut
  obtain ⟨i, found⟩ := List.mem_iff_getElem?.mp member
  obtain ⟨j, before, at_cut⟩ := window.cutBefore e cut
  have high := window.numbered_data found
  have low := window.numbered j e at_cut
  omega

/-- On a sorted list the old entries are the leading ones. -/
theorem dropWhile_eq_filter {entries : List Entry} (deadline : Int)
    (sorted : entries.Pairwise fun e f => e.timestamp ≤ f.timestamp) :
    entries.dropWhile (fun e => e.timestamp < deadline) =
      entries.filter (fun e => ¬ e.timestamp < deadline) := by
  induction entries with
  | nil => rfl
  | cons e entries ih =>
    obtain ⟨first, sorted⟩ := List.pairwise_cons.mp sorted
    by_cases old : e.timestamp < deadline
    · simp only [List.dropWhile_cons, List.filter_cons, old, decide_true, if_true, not_true,
        decide_false, Bool.false_eq_true, if_false]
      exact ih sorted
    · have young : ∀ f ∈ entries, ¬ f.timestamp < deadline := fun f member => by
        have := first f member
        omega
      simp only [List.dropWhile_cons, List.filter_cons, old, decide_false, Bool.false_eq_true,
        if_false, not_false_eq_true, decide_true, if_true]
      rw [List.filter_eq_self.mpr fun f member => by simpa using young f member]

theorem Window.expires (window : Window ttl limit x c) (now : Instant) :
    (x.ms.expire now).data =
      x.ms.data.filter (fun e => ¬ e.timestamp < int64 (unix now - x.ms.ttl.toInt)) := by
  have sorted : x.ms.data.Pairwise fun e f => e.timestamp ≤ f.timestamp := by
    rw [window.data]
    exact window.sorted.sublist (List.drop_sublist _ _)
  exact dropWhile_eq_filter _ sorted

theorem Window.goesOn (window : Window ttl limit x c) {op : Op} (later : x.clock ≤ op.now) :
    ∃ y, step x op = some y := by
  have room : 1 ≤ x.ms.limit := by
    rw [window.sameLimit]
    exact_mod_cast window.room
  unfold step
  rw [if_neg (Int.not_lt.mpr later)]
  cases op with
  | expire now => exact ⟨_, rfl⟩
  | broadcast msg now =>
    simp only [MissedSuffix.broadcast, Memstream.add]
    split
    · exact ⟨_, rfl⟩
    · have same : 1 ≤ { x.ms with offset := (x.ms.offset + 1) % uint64Size : Memstream }.limit :=
        room
      obtain ⟨after, appended⟩ := appendEntry_succeeds same
        ⟨unix now, (x.ms.offset + 1) % uint64Size, msg.data⟩ now
      rw [appended]
      exact ⟨_, rfl⟩

theorem Window.exact (window : Window ttl limit x c) (nonneg : 0 ≤ ttl.toInt) : Exact x where
  read := window.read
  noWrap o small reached nonzero := by omega
  last := by
    rw [window.counter, List.getLast?_eq_getElem?]
    cases last : x.added[x.added.length - 1]? with
    | none =>
      have short := List.getElem?_eq_none_iff.mp last
      show x.added.length = 0
      omega
    | some e =>
      have number := window.numbered _ e last
      have inside := (List.getElem?_eq_some_iff.mp last).1
      show x.added.length = e.offset
      omega
  suffix := by
    rw [window.data]
    exact List.drop_suffix _ _
  atMost := by
    have held := window.length_data
    rw [window.sameLimit]
    omega
  uncut e := window.uncut
  longest other := window.longest
  consecutive := by
    have held := window.length_data
    have place := window.bound
    rw [held, window.data, offsets_drop window, window.counter]
    congr 1
    omega
  low := by
    rw [window.low]
    cases x.ms.data <;> rfl
  expires now _ := by
    refine ⟨window.expires now, fun after before => ?_⟩
    rw [window.sameTtl]
    have bound := ttl.toInt_lt
    exact int64_of_range (by omega) (by omega)
  goesOn op := window.goesOn

end Window

theorem added_mono {x y : Trace} {op : Op} (stepped : step x op = some y) :
    x.added.length ≤ y.added.length := by
  unfold step at stepped
  split at stepped
  · cases stepped
  · cases op with
    | expire now =>
      cases stepped
      exact Nat.le_refl _
    | broadcast msg now =>
      simp only [broadcast] at stepped
      split at stepped
      · cases stepped
        exact Nat.le_refl _
      · obtain ⟨added, -, rest⟩ := Option.bind_eq_some_iff.mp stepped
        cases rest
        simp

theorem window_step {ttl : Int64} {limit c : Nat} {x y : Trace} {op : Op}
    (window : Window ttl limit x c) (few : y.added.length < uint64Size)
    (stepped : step x op = some y) : ∃ c', Window ttl limit y c' := by
  unfold step at stepped
  split at stepped
  · cases stepped
  next later =>
    cases op with
    | broadcast msg now => exact ⟨c, window.broadcast few (Int.not_lt.mp later) stepped⟩
    | expire now =>
      cases stepped
      exact window.expire (Int.not_lt.mp later)

theorem missed_suffix_exact (ttl : Int64) (limit : Int) (clock : Instant) (ops : List Op)
    (x : Trace) (positive : 1 ≤ limit) (nonneg : 0 ≤ ttl.toInt)
    (few : x.added.length < uint64Size)
    (ran : Run.exec step (start ttl limit clock) ops = some x) : Exact x := by
  obtain ⟨room, rfl⟩ : ∃ room : Nat, limit = room := ⟨limit.toNat, by omega⟩
  have keeps : ∀ x op y, (x.added.length < uint64Size → ∃ c, Window ttl room x c) →
      step x op = some y → y.added.length < uint64Size → ∃ c, Window ttl room y c := by
    intro x op y before stepped few
    obtain ⟨c, window⟩ := before (Nat.lt_of_le_of_lt (added_mono stepped) few)
    exact window_step window few stepped
  obtain ⟨c, window⟩ := Run.invariant keeps
    (fun _ => ⟨0, window_start ttl (by omega) clock⟩) ran few
  exact window.exact nonneg

/-- Three messages and a transient one, a second apart, and an expiry. -/
def threeMessages : List Op :=
  [.broadcast { stream := "s", data := "a" } 0,
    .broadcast { stream := "s", data := "t", metadata := some { transient := true } } 0,
    .broadcast { stream := "s", data := "b" } second,
    .broadcast { stream := "s", data := "c" } (2 * second),
    .expire (302 * second)]

/-- With room for two entries the first one is trimmed and the second one expires. -/
theorem missed_suffix_trimmed :
    ∃ x, Run.exec step (start 300 2 0) threeMessages = some x ∧
      x.ms.data = [⟨2, 3, "c"⟩] ∧ x.cut = [⟨1, 2, "b"⟩] ∧ Exact x :=
  ⟨_, rfl, by decide, by decide,
    missed_suffix_exact 300 2 0 threeMessages _ (by decide) (by decide) (by decide) rfl⟩

end AnyCable.Guarantees.MissedSuffix
