import AnyCable.Lib.Run
import AnyCable.Source.History

/-!
# History records under every configured limit

Source: `broker/memory.go:34-151`, `broker/config.go:8-32`. The configuration takes any integer for
`HistoryLimit` and the broker hands it to every record it creates.

`appendEntry` drops the oldest entry of a record that has become too long and reads the first one of
what is left. With a limit of at least 1 there is one. With a smaller limit the entry just appended
is dropped as well, and the read is out of range. `record_safe_iff` says that nothing else can go
wrong: the reads of `filterByOffset` are covered by `low`, which is 0 in an empty record.
-/

set_option autoImplicit false

namespace AnyCable.Guarantees.HistoryLimit
open AnyCable.Lib AnyCable.Source

inductive Op where
  | add (data : String) (now : Instant)
  | insert (data : String) (offset : Nat) (t : Option Instant) (now : Instant)
  | expire (now : Instant)
  | filterByOffset (offset : Nat)
  | filterByTime (since : Int)

/-- One call on a record; the reads leave it as it is. `none` is an index out of range. -/
def step (ms : Memstream) : Op → Option Memstream
  | .add data now => do
    let (ms, _) ← ms.add data now
    return ms
  | .insert data offset t now => do
    let (ms, _) ← ms.insert data offset t now
    return ms
  | .expire now => some (ms.expire now)
  | .filterByOffset offset => do
    let _ ← ms.filterByOffset offset
    return ms
  | .filterByTime since =>
    let _ := ms.filterByTime since
    some ms

/-- The calls that append to a record whose counter is still 0. -/
def Op.appends : Op → Bool
  | .add .. => true
  | .insert _ offset _ _ => 0 < offset
  | .expire _ | .filterByOffset _ | .filterByTime _ => false

/-- The entries held are within a positive limit. -/
def Within (ms : Memstream) : Prop := 0 < ms.limit → (ms.data.length : Int) ≤ ms.limit

/-- What `filterByOffset` relies on, and the bound on the entries held. -/
structure Sound (limit : Int) (ms : Memstream) : Prop where
  sameLimit : ms.limit = limit
  low : ms.data = [] → ms.low = 0
  within : Within ms

theorem sound_newRecord (config : Config) :
    Sound config.historyLimit (History.newRecord config) :=
  ⟨rfl, fun _ => rfl, fun positive => by simp [History.newRecord] at positive ⊢; omega⟩

section Steps

variable {limit : Int} {ms after : Memstream}

/-- The offset is a place of the slice, one behind its end, or beyond it; the latter is answered
with the last entry, which exists because `low` is not 0. -/
theorem Sound.filterByOffset (sound : Sound limit ms) (offset : Nat) :
    ∃ res, ms.filterByOffset offset = some res := by
  unfold Memstream.filterByOffset
  split
  · exact ⟨_, rfl⟩
  · split
    · exact ⟨_, rfl⟩
    next nonzero =>
      dsimp only
      split
      · have nonempty : ms.data ≠ [] := fun empty => nonzero (sound.low empty)
        rw [List.getLast?_eq_some_getLast nonempty]
        exact ⟨_, rfl⟩
      · exact ⟨_, rfl⟩

theorem Sound.expire (sound : Sound limit ms) (now : Instant) : Sound limit (ms.expire now) := by
  refine ⟨sound.sameLimit, fun empty => ?_, fun positive => ?_⟩
  · simp only [Memstream.expire] at empty ⊢
    rw [empty, Memstream.lowest]
  · have bound := sound.within positive
    have shorter : (ms.expire now).data.length ≤ ms.data.length :=
      (List.dropWhile_suffix _).length_le
    simp only [Memstream.expire] at shorter bound ⊢
    omega

theorem Sound.appendEntry {e : Entry} {now : Instant} (sound : Sound limit ms) {offset : Nat}
    (appended : Memstream.appendEntry { ms with offset := offset } e now = some after) :
    Sound limit after := by
  obtain ⟨shape, -, -, sameLimit, -⟩ := Memstream.appendEntry_spec appended
  simp only at shape sameLimit
  refine ⟨sameLimit.trans sound.sameLimit, fun empty => ?_, fun positive => ?_⟩
  · rcases shape with ⟨grown, -⟩ | ⟨moved, -⟩
    · simp [grown] at empty
    · simp [moved] at empty
  · rw [sameLimit] at positive ⊢
    have bound := sound.within positive
    rcases shape with ⟨grown, room⟩ | ⟨moved, nonempty, -⟩
    · rw [grown, List.length_append, List.length_singleton]
      omega
    · have := List.length_pos_iff.mpr nonempty
      rw [moved, List.length_append, List.length_tail, List.length_singleton]
      omega

/-- Everything a call can do: it appends an entry, cuts the old ones, or changes nothing. -/
theorem step_cases {op : Op} (stepped : step ms op = some after) :
    (∃ offset e now, Memstream.appendEntry { ms with offset := offset } e now = some after) ∨
      (∃ now, after = ms.expire now) ∨ after = ms := by
  cases op with
  | add data now =>
    simp only [step, Memstream.add, Option.bind_eq_bind, Option.bind_eq_some_iff, pure,
      Option.some.injEq] at stepped
    obtain ⟨_, ⟨grown, appended, rfl⟩, rfl⟩ := stepped
    exact .inl ⟨_, _, _, appended⟩
  | insert data offset t now =>
    simp only [step, Memstream.insert, Option.bind_eq_bind, Option.bind_eq_some_iff, pure,
      Option.some.injEq] at stepped
    obtain ⟨_, inserted, rfl⟩ := stepped
    split at inserted
    · cases inserted
      exact .inr (.inr rfl)
    · obtain ⟨grown, appended, same⟩ := Option.bind_eq_some_iff.mp inserted
      cases same
      exact .inl ⟨_, _, _, appended⟩
  | expire now =>
    cases stepped
    exact .inr (.inl ⟨now, rfl⟩)
  | filterByOffset offset =>
    simp only [step, Option.bind_eq_bind, Option.bind_eq_some_iff, pure,
      Option.some.injEq] at stepped
    obtain ⟨_, -, rfl⟩ := stepped
    exact .inr (.inr rfl)
  | filterByTime since =>
    cases stepped
    exact .inr (.inr rfl)

theorem Sound.step {op : Op} (sound : Sound limit ms) (stepped : step ms op = some after) :
    Sound limit after := by
  obtain ⟨offset, e, now, appended⟩ | ⟨now, rfl⟩ | rfl := step_cases stepped
  · exact sound.appendEntry appended
  · exact sound.expire now
  · exact sound

/-- A call whose appends have room does not panic. -/
theorem step_succeeds {op : Op} (sound : Sound limit ms)
    (room : ∀ offset e now, Memstream.appendEntry { ms with offset := offset } e now ≠ none) :
    ∃ after, HistoryLimit.step ms op = some after := by
  cases op with
  | add data now =>
    simp only [HistoryLimit.step, Memstream.add]
    obtain ⟨grown, appended⟩ := Option.ne_none_iff_exists'.mp (room _ _ _)
    exact ⟨grown, by rw [appended]; rfl⟩
  | insert data offset t now =>
    obtain ⟨grown, appended⟩ := Option.ne_none_iff_exists'.mp (room _ _ _)
    simp only [HistoryLimit.step, Memstream.insert]
    split
    · exact ⟨ms, rfl⟩
    · exact ⟨grown, by rw [appended]; rfl⟩
  | expire now => exact ⟨_, rfl⟩
  | filterByOffset offset =>
    obtain ⟨res, read⟩ := sound.filterByOffset offset
    exact ⟨ms, by simp only [HistoryLimit.step, read]; rfl⟩
  | filterByTime since => exact ⟨ms, rfl⟩

end Steps

/-- Without room for an entry, a record that holds nothing panics at the calls that append, and
stays as it is at the others. -/
theorem step_noRoom {ms : Memstream} (noRoom : ms.limit < 1) (empty : ms.data = [])
    (low : ms.low = 0) (counter : ms.offset = 0) (op : Op) :
    step ms op = if op.appends then none else some ms := by
  have panics : ∀ offset e now,
      Memstream.appendEntry { ms with offset := offset } e now = none :=
    fun offset e now => Memstream.appendEntry_eq_none_iff.mpr ⟨noRoom, empty⟩
  cases op with
  | add data now => simp [step, Op.appends, Memstream.add, panics]
  | insert data offset t now =>
    simp only [step, Op.appends, Memstream.insert, counter, panics]
    by_cases zero : offset = 0
    · simp [zero]
    · have positive : 0 < offset := by omega
      simp [positive, zero]
  | expire now =>
    have same : ms.expire now = ms := by
      cases ms
      simp_all [Memstream.expire, Memstream.lowest]
    simp [step, Op.appends, same]
  | filterByOffset offset => simp [step, Op.appends, Memstream.filterByOffset, low]
  | filterByTime since => simp [step, Op.appends]

/-- Induction on the calls: the record stays as it was created up to the first append. -/
theorem exec_noRoom {ms : Memstream} (noRoom : ms.limit < 1) (empty : ms.data = [])
    (low : ms.low = 0) (counter : ms.offset = 0) (ops : List Op) :
    Run.exec step ms ops = if ops.any Op.appends then none else some ms := by
  induction ops with
  | nil => simp [Run.exec]
  | cons op rest ih =>
    simp only [Run.exec, step_noRoom noRoom empty low counter, List.any_cons, Bool.or_eq_true]
    cases op.appends with
    | true => simp
    | false => simpa using ih

theorem exec_sound {limit : Int} {ms : Memstream} (room : 1 ≤ limit) (sound : Sound limit ms)
    (ops : List Op) : ∃ final, Run.exec step ms ops = some final := by
  induction ops generalizing ms with
  | nil => exact ⟨ms, rfl⟩
  | cons op rest ih =>
    obtain ⟨next, stepped⟩ : ∃ next, step ms op = some next := by
      apply step_succeeds sound
      intro offset e now panicked
      have tooSmall := (Memstream.appendEntry_eq_none_iff.mp panicked).1
      have := sound.sameLimit
      simp only at tooSmall
      omega
    obtain ⟨final, ran⟩ := ih (sound.step stepped)
    exact ⟨final, by simp only [Run.exec, stepped, Option.bind_some, ran]⟩

theorem always_within {limit : Int} {ms : Memstream} (sound : Sound limit ms) (ops : List Op) :
    Run.Always step Within ms ops := by
  induction ops generalizing ms with
  | nil => exact sound.within
  | cons op rest ih => exact ⟨sound.within, fun next stepped => ih (sound.step stepped)⟩

/-- For every configuration and every sequence of calls on a record of the broker: no call indexes
out of range exactly if the limit is at least 1 or no call of the sequence appends, and the entries
held are within a positive limit throughout. -/
theorem record_safe_iff (config : Config) (ops : List Op) :
    ((∃ final, Run.exec step (History.newRecord config) ops = some final) ↔
      1 ≤ config.historyLimit ∨ ∀ op ∈ ops, op.appends = false) ∧
    Run.Always step Within (History.newRecord config) ops := by
  refine ⟨?_, always_within (sound_newRecord config) ops⟩
  by_cases room : 1 ≤ config.historyLimit
  · exact iff_of_true (exec_sound room (sound_newRecord config) ops) (.inl room)
  · have noRoom : (History.newRecord config).limit < 1 := by
      simp only [History.newRecord]
      omega
    rw [exec_noRoom noRoom rfl rfl rfl]
    simp [room]

/-- A limit of 0 and the first message of a stream. -/
theorem record_safe_iff_zero :
    Run.exec step (History.newRecord { historyLimit := 0 }) [.add "hello" 0] = none := by
  decide

end AnyCable.Guarantees.HistoryLimit
