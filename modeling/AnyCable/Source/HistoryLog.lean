import AnyCable.Source.History

/-!
# The memory broker against the messages it has issued

`issued` lists the messages that were given an offset, oldest first. `Logged` ties the
records of `broker/memory.go:294-407,593-645` to that list, stream by stream, as long as no
broadcast or store has gone to a stream whose record `expire` had dropped.
-/

set_option autoImplicit false

namespace AnyCable.Source.History

/-- No earlier `expire` has dropped the stream's record. -/
def NotDropped (b : History) (name : String) : Prop :=
  b.streams name = none → b.created name = 0

instance (b : History) (name : String) : Decidable (NotDropped b name) :=
  inferInstanceAs (Decidable (b.streams name = none → b.created name = 0))

/-- The offsets and payloads issued for a stream. -/
def logOf (issued : List StreamMessage) (name : String) : List (Nat × String) :=
  (issued.filter (·.stream == name)).map fun m => (m.offset, m.data)

theorem logOf_append_same (issued : List StreamMessage) (m : StreamMessage) :
    logOf (issued ++ [m]) m.stream = logOf issued m.stream ++ [(m.offset, m.data)] := by
  simp [logOf]

theorem logOf_append_other (issued : List StreamMessage) (m : StreamMessage) {name : String}
    (other : name ≠ m.stream) : logOf (issued ++ [m]) name = logOf issued name := by
  have : (m.stream == name) = false := by simpa using Ne.symm other
  simp [logOf, this]

/-- The state of one stream: nothing happened to it yet, or it has had exactly one
record, which tracks everything issued for it. -/
def Logged (b : History) (issued : List StreamMessage) (name : String) : Prop :=
  (b.created name = 0 ∧ b.streams name = none ∧ logOf issued name = []) ∨
  (b.created name = 1 ∧ (∀ r ∈ b.streams name, r = 0) ∧
    (b.records name 0).Tracks (logOf issued name) ∧ (b.records name 0).Contiguous)

/-- A lookup on another stream. -/
theorem Logged.lookup_other {b : History} {issued : List StreamMessage} {name st : String}
    (logged : Logged b issued st) (other : st ≠ name) : Logged (b.lookup name).1 issued st := by
  obtain ⟨streams, created, records⟩ := b.lookup_frame other
  unfold Logged at logged ⊢
  rwa [streams, created, records]

/-- A lookup on a stream that was not dropped ends at its one record. -/
theorem Logged.lookup {b : History} {issued : List StreamMessage} {name : String}
    (logged : Logged b issued name) (fresh : NotDropped b name) :
    (b.lookup name).2 = 0 ∧ Logged (b.lookup name).1 issued name ∧
    (b.lookup name).1.streams name = some 0 ∧
    ((b.lookup name).1.records name 0 = b.records name 0 ∧ b.streams name = some 0 ∨
      (b.lookup name).1.records name 0 = newRecord b.config ∧ b.streams name = none ∧
        logOf issued name = []) := by
  rcases lookup_cases b name with ⟨r, mapped, eq⟩ | ⟨missing, eq⟩
  · rw [eq]
    have zero : r = 0 := by
      rcases logged with ⟨-, none, -⟩ | ⟨-, only, -⟩
      · rw [none] at mapped; cases mapped
      · exact only r mapped
    subst zero
    exact ⟨rfl, logged, mapped, Or.inl ⟨rfl, mapped⟩⟩
  · rw [eq]
    have never := fresh missing
    have empty : logOf issued name = [] := by
      rcases logged with ⟨-, -, log⟩ | ⟨one, -⟩
      · exact log
      · omega
    simp only [never]
    refine ⟨trivial, Or.inr ⟨by simp, by simp, ?_, ?_⟩, by simp, Or.inr ⟨by simp, missing, empty⟩⟩
    · rw [empty]
      simpa [newRecord] using Memstream.tracks_new _ _
    · simpa [newRecord] using Memstream.contiguous_new _ _

/-- Writing a record of another stream. -/
theorem Logged.setRecord_other {b : History} {issued : List StreamMessage} {name st : String}
    (logged : Logged b issued st) (other : st ≠ name) (r : Nat) (ms : Memstream) :
    Logged (b.setRecord name r ms) issued st := by
  unfold Logged at logged ⊢
  simpa [History.setRecord_other b ms (Or.inl other)] using logged

theorem Logged.issue_other {b : History} {issued : List StreamMessage} {st : String}
    {m : StreamMessage} (logged : Logged b issued st) (other : st ≠ m.stream) :
    Logged b (issued ++ [m]) st := by
  unfold Logged at logged ⊢
  rwa [logOf_append_other issued m other]

/-- Appending the next offset to the one record of a mapped stream. -/
theorem Logged.append {b : History} {issued : List StreamMessage} {m : StreamMessage} {ts : Int}
    {now : Instant} {ms : Memstream} (logged : Logged b issued m.stream)
    (mapped : b.streams m.stream = some 0) (larger : (b.records m.stream 0).offset < m.offset)
    (next : (b.records m.stream 0).data ≠ [] → m.offset = (b.records m.stream 0).offset + 1)
    (appended : Memstream.appendEntry { b.records m.stream 0 with offset := m.offset }
      ⟨ts, m.offset, m.data⟩ now = some ms) :
    Logged (b.setRecord m.stream 0 ms) (issued ++ [m]) m.stream := by
  rcases logged with ⟨-, none, -⟩ | ⟨one, only, tracks, contiguous⟩
  · rw [none] at mapped; cases mapped
  · refine Or.inr ⟨one, only, ?_, ?_⟩
    · rw [setRecord_same, logOf_append_same]
      exact tracks.append larger appended
    · rw [setRecord_same]
      exact contiguous.append next appended

theorem Logged.expire {b : History} {issued : List StreamMessage} {st : String}
    (logged : Logged b issued st) (now : Instant) : Logged (b.expire now) issued st := by
  rcases logged with ⟨zero, none, empty⟩ | ⟨one, only, tracks, contiguous⟩
  · exact Or.inl ⟨zero, by simp [History.expire, none], empty⟩
  · refine Or.inr ⟨one, ?_, ?_, ?_⟩
    · intro r mapped
      exact only r (expire_streams.mp mapped).1
    · simp only [History.expire]
      split
      · exact tracks.expire now
      · exact tracks
    · simp only [History.expire]
      split
      · exact contiguous.expire now
      · exact contiguous

theorem mem_logOf {issued : List StreamMessage} {m : StreamMessage} (member : m ∈ issued) :
    (m.offset, m.data) ∈ logOf issued m.stream :=
  List.mem_map.mpr ⟨m, List.mem_filter.mpr ⟨member, by simp⟩, rfl⟩

/-- The offsets of a stream grow from message to message. -/
theorem Logged.increasing {b : History} {issued : List StreamMessage} {name : String}
    (logged : Logged b issued name) :
    (issued.filter (·.stream == name)).Pairwise (·.offset < ·.offset) := by
  have order : (logOf issued name).Pairwise fun p q => p.1 < q.1 := by
    rcases logged with ⟨-, -, empty⟩ | ⟨-, -, tracks, -⟩
    · rw [empty]
      exact List.Pairwise.nil
    · exact tracks.increasing
  simpa only [logOf, List.pairwise_map] using order

/-- A successful read returns every issued message above the requested offset. -/
theorem Logged.read_complete {b : History} {issued history : List StreamMessage}
    {name epoch : String} {r offset : Nat} (logged : Logged b issued name)
    (mapped : b.streams name = some r)
    (read : b.historyRead name epoch r offset = some (.ok history)) {m : StreamMessage}
    (member : m ∈ issued) (same : m.stream = name) (above : offset < m.offset) :
    ∃ found ∈ history, found.offset = m.offset ∧ found.data = m.data := by
  subst same
  have listed := mem_logOf member
  rcases logged with ⟨-, -, empty⟩ | ⟨-, only, tracks, contiguous⟩
  · rw [empty] at listed; cases listed
  · have zero := only r mapped
    subst zero
    obtain ⟨entries, filtered, rfl⟩ := historyRead_ok read
    obtain ⟨e, found, offsetEq, dataEq⟩ :=
      Memstream.filterByOffset_complete tracks contiguous filtered listed above
    exact ⟨toMessage m.stream epoch e, List.mem_map.mpr ⟨e, found, rfl⟩, offsetEq, dataEq⟩

end AnyCable.Source.History
