import AnyCable.Source.Memstream

/-!
# A history record against the log of its stream

The log of a stream lists the offset and payload of every append, oldest first.
`Tracks` ties a record to it: the retained entries are the end of the log, and
offsets only grow. `Contiguous` adds that no offset is skipped among the retained
entries, which is what `filterByOffset` relies on when it turns an offset into a
slice index.
-/

set_option autoImplicit false

namespace AnyCable.Source.Memstream

/-- Everything a successful append does. The oldest entry goes exactly when the
record was full. -/
theorem appendEntry_spec {ms after : Memstream} {e : Entry} {now : Instant}
    (appended : appendEntry ms e now = some after) :
    (after.data = ms.data ++ [e] ∧ (ms.data.length : Int) < ms.limit ∨
      after.data = ms.data.tail ++ [e] ∧ ms.data ≠ [] ∧ ms.limit ≤ ms.data.length) ∧
    after.offset = ms.offset ∧ after.ttl = ms.ttl ∧ after.limit = ms.limit ∧
    after.deadline = unix (now + keepAlive ms.ttl) ∧
    (ms.low = lowest ms.data → (∀ old ∈ ms.data, 0 < old.offset) →
      after.low = lowest after.data) := by
  simp only [appendEntry, trim, Option.bind_eq_bind, Option.bind_eq_some_iff, pure,
    Option.some.injEq] at appended
  obtain ⟨⟨data, low⟩, trimmed, first, head, rfl⟩ := appended
  dsimp only at head ⊢
  split at trimmed
  next full =>
    split at trimmed
    · cases trimmed
    next a rest tail =>
      simp only [Option.some.injEq, Prod.mk.injEq] at trimmed
      obtain ⟨rfl, rfl⟩ := trimmed
      simp only [List.head?_cons, Option.some.injEq] at head
      subst head
      have nonempty : ms.data ≠ [] := by
        intro empty
        simp [empty] at tail
      simp only [List.length_append, List.length_singleton] at full
      refine ⟨Or.inr ⟨?_, nonempty, by omega⟩, rfl, rfl, rfl, rfl, fun _ _ => ?_⟩
      · rw [← tail, List.tail_append_of_ne_nil nonempty]
      · simp [lowest]
  next room =>
    simp only [Option.some.injEq, Prod.mk.injEq] at trimmed
    obtain ⟨rfl, rfl⟩ := trimmed
    simp only [List.length_append, List.length_singleton] at room
    refine ⟨Or.inl ⟨rfl, by omega⟩, rfl, rfl, rfl, rfl, fun wasLow positive => ?_⟩
    cases old : ms.data with
    | nil =>
      simp only [old, lowest, List.nil_append, List.head?_cons, Option.some.injEq] at wasLow head ⊢
      simp [wasLow, head]
    | cons a rest =>
      have := positive a (by simp [old])
      simp only [old, lowest, List.cons_append, List.head?_cons, Option.some.injEq] at wasLow head ⊢
      rw [wasLow, if_neg (by omega)]

/-- An append panics if the limit leaves no room for its own entry, and nothing else is held. -/
theorem appendEntry_eq_none_iff {ms : Memstream} {e : Entry} {now : Instant} :
    ms.appendEntry e now = none ↔ ms.limit < 1 ∧ ms.data = [] := by
  simp only [appendEntry, trim, Option.bind_eq_bind]
  cases shape : ms.data with
  | nil =>
    simp only [List.nil_append, List.length_singleton, List.tail_cons, and_true]
    split
    next full => simpa using full
    next room => simpa using room
  | cons first rest =>
    simp only [List.cons_append, List.tail_cons, reduceCtorEq, and_false, iff_false]
    split
    · cases rest <;> simp
    · simp

/-- The retained offsets and payloads, oldest first. -/
def retained (ms : Memstream) : List (Nat × String) := ms.data.map fun e => (e.offset, e.data)

structure Tracks (ms : Memstream) (log : List (Nat × String)) : Prop where
  suffix : ms.retained <:+ log
  increasing : log.Pairwise fun p q => p.1 < q.1
  last : ∀ p ∈ log, p.1 ≤ ms.offset
  positive : ∀ p ∈ log, 0 < p.1
  low : ms.low = lowest ms.data

/-- The retained offsets end at the counter and skip nothing. -/
def Contiguous (ms : Memstream) : Prop :=
  ∀ (i : Nat) (e : Entry), ms.data[i]? = some e → e.offset + ms.data.length = ms.offset + i + 1

theorem Tracks.entry_mem {ms : Memstream} {log : List (Nat × String)} (tracks : ms.Tracks log)
    {e : Entry} (member : e ∈ ms.data) : (e.offset, e.data) ∈ log :=
  tracks.suffix.subset (List.mem_map.mpr ⟨e, member, rfl⟩)

theorem Tracks.unique {ms : Memstream} {log : List (Nat × String)} (tracks : ms.Tracks log)
    {p q : Nat × String} (left : p ∈ log) (right : q ∈ log) (same : p.1 = q.1) : p = q := by
  have distinct : (log.map Prod.fst).Nodup :=
    (List.pairwise_map.mpr tracks.increasing).imp Nat.ne_of_lt
  exact List.inj_on_of_nodup_map distinct left right same

/-- A record that has just been created tracks the empty log. -/
theorem tracks_new (ttl : Int64) (limit : Int) : ({ ttl := ttl, limit := limit } : Memstream).Tracks [] :=
  ⟨List.suffix_rfl, List.Pairwise.nil, by simp, by simp, rfl⟩

theorem contiguous_new (ttl : Int64) (limit : Int) :
    ({ ttl := ttl, limit := limit } : Memstream).Contiguous := by
  intro i e found
  simp at found

/-- Appending an offset above the counter extends the log by that entry. -/
theorem Tracks.append {ms after : Memstream} {log : List (Nat × String)} {offset : Nat}
    {ts : Int} {data : String} {now : Instant} (tracks : ms.Tracks log)
    (larger : ms.offset < offset)
    (appended : appendEntry { ms with offset := offset } ⟨ts, offset, data⟩ now = some after) :
    after.Tracks (log ++ [(offset, data)]) := by
  obtain ⟨shape, counter, -, -, -, low⟩ := appendEntry_spec appended
  simp only at shape counter low
  refine ⟨?_, ?_, ?_, ?_, ?_⟩
  · obtain ⟨front, split⟩ := tracks.suffix
    rcases shape with ⟨grown, -⟩ | ⟨moved, nonempty, -⟩
    · refine ⟨front, ?_⟩
      simp only [retained, grown, List.map_append, List.map_cons, List.map_nil] at split ⊢
      rw [← split, List.append_assoc]
    · obtain ⟨a, rest, cons⟩ := List.exists_cons_of_ne_nil nonempty
      refine ⟨front ++ [(a.offset, a.data)], ?_⟩
      simp only [retained, moved, cons, List.tail_cons, List.map_append, List.map_cons,
        List.map_nil] at split ⊢
      rw [← split]
      simp
  · refine List.pairwise_append.mpr ⟨tracks.increasing, List.pairwise_singleton _ _, ?_⟩
    intro p member q new
    rw [List.mem_singleton.mp new]
    exact Nat.lt_of_le_of_lt (tracks.last p member) larger
  · intro p member
    rw [counter]
    rcases List.mem_append.mp member with old | new
    · exact Nat.le_of_lt (Nat.lt_of_le_of_lt (tracks.last p old) larger)
    · exact Nat.le_of_eq (congrArg Prod.fst (List.mem_singleton.mp new))
  · intro p member
    rcases List.mem_append.mp member with old | new
    · exact tracks.positive p old
    · rw [List.mem_singleton.mp new]
      exact Nat.zero_lt_of_lt larger
  · exact low tracks.low fun e member => tracks.positive _ (tracks.entry_mem member)

/-- Appending the next offset, or any offset to an empty record, skips nothing. -/
theorem Contiguous.append {ms after : Memstream} {offset : Nat} {ts : Int} {data : String}
    {now : Instant} (contiguous : ms.Contiguous)
    (next : ms.data ≠ [] → offset = ms.offset + 1)
    (appended : appendEntry { ms with offset := offset } ⟨ts, offset, data⟩ now = some after) :
    after.Contiguous := by
  obtain ⟨shape, counter, -⟩ := appendEntry_spec appended
  simp only at shape counter
  intro i e found
  rcases shape with ⟨grown, -⟩ | ⟨moved, nonempty, -⟩
  · rw [grown] at found ⊢
    rw [counter, List.length_append, List.length_singleton]
    by_cases inside : i < ms.data.length
    · rw [List.getElem?_append_left inside] at found
      have := contiguous i e found
      have := next (by intro empty; simp [empty] at inside)
      omega
    · rw [List.getElem?_append_right (by omega), List.getElem?_singleton] at found
      split at found
      · cases found
        simp only
        omega
      · cases found
  · obtain ⟨a, rest, cons⟩ := List.exists_cons_of_ne_nil nonempty
    have offsetEq := next nonempty
    rw [moved, cons, List.tail_cons] at found ⊢
    rw [counter, List.length_append, List.length_singleton]
    by_cases inside : i < rest.length
    · rw [List.getElem?_append_left inside] at found
      have := contiguous (i + 1) e (by simpa [cons] using found)
      simp only [cons, List.length_cons] at this
      omega
    · rw [List.getElem?_append_right (by omega), List.getElem?_singleton] at found
      split at found
      · cases found
        simp only
        omega
      · cases found

/-- Expiry only shortens the retained end of the log. -/
theorem Tracks.expire {ms : Memstream} {log : List (Nat × String)} (tracks : ms.Tracks log)
    (now : Instant) : (ms.expire now).Tracks log :=
  ⟨((List.dropWhile_suffix _).map _).trans tracks.suffix, tracks.increasing, tracks.last,
    tracks.positive, rfl⟩

theorem Contiguous.expire {ms : Memstream} (contiguous : ms.Contiguous) (now : Instant) :
    (ms.expire now).Contiguous := by
  intro i e found
  obtain ⟨front, split⟩ :=
    List.dropWhile_suffix (l := ms.data) fun e => decide (e.timestamp < int64 (unix now - ms.ttl.toInt))
  simp only [Memstream.expire] at found ⊢
  have shifted := contiguous (front.length + i) e (by
    rw [← split, List.getElem?_append_right (by omega)]
    simpa using found)
  have lengths := congrArg List.length split
  simp only [List.length_append] at lengths
  omega

/-- A read does not panic. It succeeds if the distance from the lowest offset is an index, and
returns the entries behind that index. -/
theorem filterByOffset_spec {ms : Memstream} (low : ms.low = lowest ms.data)
    (positive : ∀ e ∈ ms.data, 0 < e.offset) (offset : Nat) :
    ∃ res, ms.filterByOffset offset = some res ∧
      (res.isOk = true ↔ ms.low ≤ offset ∧ offset - ms.low < ms.data.length) ∧
      ∀ entries, res = .ok entries → entries = ms.data.drop (offset - ms.low + 1) := by
  unfold filterByOffset
  split
  next below => exact ⟨_, rfl, iff_of_false nofun (by omega), nofun⟩
  next reached =>
    split
    next zero =>
      have empty : ms.data = [] := by
        cases shape : ms.data with
        | nil => rfl
        | cons first rest =>
          have first_pos := positive first (by simp [shape])
          rw [low, shape, lowest] at zero
          omega
      exact ⟨_, rfl, iff_of_false nofun (by simp [empty]), nofun⟩
    next nonzero =>
      dsimp only
      split
      next beyond =>
        obtain ⟨latest, last⟩ : ∃ latest, ms.data.getLast? = some latest := by
          cases shape : ms.data with
          | nil => exact absurd (by rw [low, shape, lowest]) nonzero
          | cons first rest => exact ⟨_, List.getLast?_cons⟩
        rw [last]
        exact ⟨_, rfl, iff_of_false nofun (by omega), nofun⟩
      next inside =>
        refine ⟨_, rfl, iff_of_true rfl (by omega), fun entries ok => ?_⟩
        cases ok
        rfl

/-- A successful read returns every logged entry above the requested offset. -/
theorem filterByOffset_subset {ms : Memstream} {offset : Nat} {entries : List Entry}
    (read : ms.filterByOffset offset = some (.ok entries)) {e : Entry} (member : e ∈ entries) :
    e ∈ ms.data := by
  unfold filterByOffset at read
  split at read
  · cases read
  · split at read
    · cases read
    · dsimp only at read
      split at read
      · obtain ⟨latest, -, read⟩ := Option.bind_eq_some_iff.mp read
        cases read
      · cases read
        exact List.mem_of_mem_drop member

theorem filterByOffset_complete {ms : Memstream} {log : List (Nat × String)} {offset : Nat}
    {entries : List Entry} (tracks : ms.Tracks log) (contiguous : ms.Contiguous)
    (read : ms.filterByOffset offset = some (.ok entries)) {p : Nat × String}
    (member : p ∈ log) (above : offset < p.1) :
    ∃ e ∈ entries, e.offset = p.1 ∧ e.data = p.2 := by
  unfold filterByOffset at read
  split at read
  · cases read
  next covered =>
    split at read
    · cases read
    next nonzero =>
      dsimp only at read
      split at read
      · simp [Option.bind_eq_some_iff] at read
      next =>
        simp only [Option.some.injEq, Except.ok.injEq] at read
        subst read
        have lowEq := tracks.low
        cases shape : ms.data with
        | nil => simp [shape, lowest] at lowEq; omega
        | cons first rest =>
          simp only [shape, lowest] at lowEq
          have firstEq := contiguous 0 first (by simp [shape])
          have lastLe := tracks.last p member
          simp only [shape, List.length_cons] at firstEq
          -- the entry that carries the offset, by its distance from the lowest one
          have inside : p.1 - ms.low < ms.data.length := by
            simp only [shape, List.length_cons]
            omega
          obtain ⟨e, found⟩ : ∃ e, ms.data[p.1 - ms.low]? = some e :=
            ⟨_, List.getElem?_eq_getElem inside⟩
          have eq := contiguous _ _ found
          simp only [shape, List.length_cons] at eq
          have offsetEq : e.offset = p.1 := by omega
          have same := tracks.unique (tracks.entry_mem (List.mem_of_getElem? found)) member offsetEq
          refine ⟨e, ?_, offsetEq, by rw [← same]⟩
          rw [List.mem_iff_getElem?]
          refine ⟨p.1 - ms.low - (offset - ms.low + 1), ?_⟩
          rw [← shape, List.getElem?_drop, ← found]
          congr 1
          omega

end AnyCable.Source.Memstream
