import AnyCable.Lib.Run
import AnyCable.Source.Presence
import Mathlib.Tactic.Tauto

/-!
# The two presence tables

The memory broker keeps who is present on a stream and through which sessions, and for every
session the presence id it has on each stream (`broker/memory.go:166-221`). The tables mirror
each other and are updated piece by piece (`broker/memory.go:448-558,667-729`): a join creates
maps before it checks the presence id, and a leave deletes from one table before it looks into
the other. The tables stay consistent, and because they are, a call that fails has changed
nothing (`tables_consistent`).

`expirePresence` ranges over maps; the order is a parameter of the run, and the order of the
model's own maps is one of them (`expirePresence_walk`).
-/

set_option autoImplicit false

namespace AnyCable.Guarantees.PresenceTables
open AnyCable.Lib AnyCable.Source

/-- `streams[st][pid]`. -/
def record (p : PresenceState) (st pid : String) : Option PresenceEntry :=
  (p.streams.lookup st).bind fun records => records.lookup pid

/-- `sessions[sid].streams[st]`. -/
def pidOf (p : PresenceState) (sid st : String) : Option String :=
  (p.sessions.lookup sid).bind fun session => session.streams.lookup st

/-- The tables agree with each other and keep nothing empty. -/
structure Consistent (p : PresenceState) : Prop where
  mirror : ∀ st pid sid, (∃ entry, record p st pid = some entry ∧ sid ∈ entry.sessions) ↔
    pidOf p sid st = some pid
  unique : ∀ st pid entry, record p st pid = some entry → entry.sessions.Nodup
  entries : ∀ st pid entry, record p st pid = some entry → entry.sessions ≠ []
  streams : ∀ st records, p.streams.lookup st = some records → ∃ pid, pid ∈ records
  sessions : ∀ sid session, p.sessions.lookup sid = some session → ∃ st, st ∈ session.streams

/-- The same entries everywhere. -/
def Unchanged (p q : PresenceState) : Prop :=
  (∀ st, q.streams.lookup st = p.streams.lookup st) ∧
    ∀ sid, q.sessions.lookup sid = p.sessions.lookup sid

/-- A call that returns an error has not changed the tables. -/
structure FailsClean (p : PresenceState) : Prop where
  add : ∀ stream sid pid info err, (p.presenceAdd stream sid pid info).2 = .error err →
    Unchanged p (p.presenceAdd stream sid pid info).1
  remove : ∀ stream sid err, (p.presenceRemove stream sid).2 = .error err →
    Unchanged p (p.presenceRemove stream sid).1

variable {p q : PresenceState}

section Drop

/-- What is left of a record without a session. -/
def leftOf (entry : PresenceEntry) (sid : String) : Option PresenceEntry :=
  if entry.sessions.erase sid = [] then none
  else some { entry with sessions := entry.sessions.erase sid }

theorem isNone_leftOf (entry : PresenceEntry) (sid : String) :
    (leftOf entry sid).isNone = (entry.sessions.erase sid).isEmpty := by
  unfold leftOf
  cases entry.sessions.erase sid <;> rfl

theorem remove_eq {entry : PresenceEntry} (used : entry.sessions ≠ []) (sid : String) :
    entry.remove sid = ({ entry with sessions := entry.sessions.erase sid },
      (entry.sessions.erase sid).isEmpty) := by
  unfold PresenceEntry.remove
  split
  · rfl
  next absent =>
    rw [List.erase_of_not_mem absent]
    cases entry with
    | mk info id sessions =>
      cases sessions with
      | nil => exact absurd rfl used
      | cons first rest => rfl

/-- Other records for a stream; a stream without records goes. -/
def withRecords (p : PresenceState) (stream : String) (records : GoMap String PresenceEntry) :
    PresenceState :=
  { p with streams := if GoMap.isEmpty records then p.streams.erase stream
                      else p.streams.insert stream records }

theorem record_withRecords (stream : String) (records : GoMap String PresenceEntry)
    (st pid : String) :
    record (withRecords p stream records) st pid =
      if st = stream then records.lookup pid else record p st pid := by
  unfold record withRecords
  dsimp only
  rw [GoMap.lookup_eraseOrInsert]
  split
  · split
    next emptied => rw [GoMap.lookup_of_isEmpty emptied, Option.bind_none]
    · rfl
  · rfl

theorem streams_withRecords (stream : String) (records : GoMap String PresenceEntry)
    (full : ∀ st records, p.streams.lookup st = some records → ∃ pid, pid ∈ records) :
    ∀ st found, (withRecords p stream records).streams.lookup st = some found →
      ∃ pid, pid ∈ found := by
  intro st found lookup
  unfold withRecords at lookup
  dsimp only at lookup
  rw [GoMap.lookup_eraseOrInsert] at lookup
  split at lookup
  · split at lookup
    · cases lookup
    next left =>
      cases lookup
      simpa [GoMap.isEmpty_iff] using left
  · exact full st found lookup

/-- `drop` finds the record, and changes it alone. -/
theorem drop_spec {entry : PresenceEntry} {stream pid : String}
    (found : record p stream pid = some entry) (used : entry.sessions ≠ []) (sid : String) :
    ∃ records, p.drop stream pid sid =
        some (withRecords p stream records, (leftOf entry sid).isNone) ∧
      ∀ st pid', record (withRecords p stream records) st pid' =
        if st = stream ∧ pid' = pid then leftOf entry sid else record p st pid' := by
  obtain ⟨records, outer, inner⟩ := Option.bind_eq_some_iff.mp found
  refine ⟨if (entry.sessions.erase sid).isEmpty = true then records.erase pid
    else records.insert pid { entry with sessions := entry.sessions.erase sid }, ?_, ?_⟩
  · unfold PresenceState.drop
    rw [outer, Option.bind_eq_bind, Option.bind_some, inner, Option.bind_eq_bind,
      Option.bind_some, remove_eq used, isNone_leftOf]
    rfl
  · intro st pid'
    rw [record_withRecords]
    by_cases same : st = stream
    · subst same
      rw [if_pos rfl]
      unfold leftOf
      cases left : entry.sessions.erase sid with
      | nil => simp [GoMap.lookup_erase_apply, record, outer]
      | cons first rest => simp [GoMap.lookup_insert_apply, record, outer]
    · simp [same]

theorem drop_none {stream pid sid : String} (missing : record p stream pid = none) :
    p.drop stream pid sid = none := by
  unfold record at missing
  unfold PresenceState.drop
  cases outer : p.streams.lookup stream with
  | none => rfl
  | some records =>
    rw [outer, Option.bind_some] at missing
    simp [missing]

/-- The session is present on the stream under the presence id. -/
def Present (p : PresenceState) (st pid sid : String) : Prop :=
  ∃ entry, record p st pid = some entry ∧ sid ∈ entry.sessions

/-- The part of the invariant that speaks about the records. -/
structure Kept (p : PresenceState) : Prop where
  unique : ∀ st pid entry, record p st pid = some entry → entry.sessions.Nodup
  entries : ∀ st pid entry, record p st pid = some entry → entry.sessions ≠ []
  streams : ∀ st records, p.streams.lookup st = some records → ∃ pid, pid ∈ records

/-- The state after `drop`, which does nothing where there is no record. -/
def dropped (p : PresenceState) (stream pid sid : String) : PresenceState :=
  ((p.drop stream pid sid).map Prod.fst).getD p

/-- The event of a `drop` that took the last session out of its record. -/
def leaveOf (p : PresenceState) (stream pid sid : String) : Option PresenceEvent :=
  (p.drop stream pid sid).bind fun r =>
    if r.2 then some { type := "leave", id := pid } else none

/-- `drop` changes a single record, and tells if it is the end of it. -/
theorem dropped_eq (kept : Kept p) (stream pid sid : String) :
    (∀ st pid', record (dropped p stream pid sid) st pid' =
      if st = stream ∧ pid' = pid then (record p stream pid).bind fun entry => leftOf entry sid
      else record p st pid') ∧
    leaveOf p stream pid sid = (record p stream pid).bind fun entry =>
      if (leftOf entry sid).isNone then some { type := "leave", id := pid } else none := by
  unfold dropped leaveOf
  cases found : record p stream pid with
  | none =>
    rw [drop_none found]
    refine ⟨fun st pid' => ?_, rfl⟩
    split
    next same =>
      obtain ⟨rfl, rfl⟩ := same
      exact found
    · rfl
  | some entry =>
    obtain ⟨records, step, after⟩ := drop_spec found (kept.entries stream pid entry found) sid
    rw [step]
    exact ⟨after, rfl⟩

/-- What a record left by a `drop` comes from. -/
theorem dropped_origin (kept : Kept p) {stream pid sid st pid' : String} {entry' : PresenceEntry}
    (found : record (dropped p stream pid sid) st pid' = some entry') :
    ∃ entry, record p st pid' = some entry ∧ entry'.id = entry.id ∧ entry'.info = entry.info ∧
      (entry' = entry ∨ entry'.sessions = entry.sessions.erase sid ∧ entry'.sessions ≠ []) := by
  rw [(dropped_eq kept stream pid sid).1] at found
  split at found
  next same =>
    obtain ⟨rfl, rfl⟩ := same
    obtain ⟨entry, before, left⟩ := Option.bind_eq_some_iff.mp found
    unfold leftOf at left
    split at left
    · cases left
    next some =>
      cases left
      exact ⟨entry, before, rfl, rfl, Or.inr ⟨rfl, some⟩⟩
  · exact ⟨entry', found, rfl, rfl, Or.inl rfl⟩

theorem streams_dropped (kept : Kept p) (stream pid sid : String) :
    ∀ st records, (dropped p stream pid sid).streams.lookup st = some records →
      ∃ pid, pid ∈ records := by
  unfold dropped
  cases found : record p stream pid with
  | none =>
    rw [drop_none found]
    exact kept.streams
  | some entry =>
    obtain ⟨records, step, -⟩ := drop_spec found (kept.entries stream pid entry found) sid
    rw [step]
    exact streams_withRecords stream records kept.streams

theorem sessions_dropped (kept : Kept p) (stream pid sid : String) :
    (dropped p stream pid sid).sessions = p.sessions := by
  unfold dropped
  cases found : record p stream pid with
  | none => rw [drop_none found]; rfl
  | some entry =>
    obtain ⟨records, step, -⟩ := drop_spec found (kept.entries stream pid entry found) sid
    rw [step]
    rfl

theorem dropped_spec (kept : Kept p) (stream pid sid : String) :
    Kept (dropped p stream pid sid) ∧ (dropped p stream pid sid).sessions = p.sessions ∧
      ∀ st pid' sid', Present (dropped p stream pid sid) st pid' sid' ↔
        Present p st pid' sid' ∧ ¬ (st = stream ∧ pid' = pid ∧ sid' = sid) := by
  refine ⟨⟨?_, ?_, streams_dropped kept stream pid sid⟩, sessions_dropped kept stream pid sid, ?_⟩
  · intro st pid' entry' lookup
    obtain ⟨entry, before, -, -, rfl | ⟨left, -⟩⟩ := dropped_origin kept lookup
    · exact kept.unique st pid' _ before
    · rw [left]
      exact (kept.unique st pid' entry before).erase sid
  · intro st pid' entry' lookup
    obtain ⟨entry, before, -, -, rfl | ⟨-, used⟩⟩ := dropped_origin kept lookup
    · exact kept.entries st pid' _ before
    · exact used
  · intro st pid' sid'
    unfold Present
    rw [(dropped_eq kept stream pid sid).1]
    by_cases same : st = stream ∧ pid' = pid
    · obtain ⟨rfl, rfl⟩ := same
      rw [if_pos ⟨rfl, rfl⟩]
      cases found : record p st pid' with
      | none => simp
      | some entry =>
        have once := kept.unique st pid' entry found
        simp only [true_and, Option.bind_some, Option.some.injEq, exists_eq_left']
        rw [and_comm, ← once.mem_erase_iff]
        unfold leftOf
        split
        next emptied => simp [emptied]
        · simp
    · rw [if_neg same]
      tauto

end Drop

section Calls

theorem Consistent.kept (consistent : Consistent p) : Kept p :=
  ⟨consistent.unique, consistent.entries, consistent.streams⟩

theorem consistent_start : Consistent {} where
  mirror := by simp [record, pidOf]
  unique := by simp [record]
  entries := by simp [record]
  streams := by simp
  sessions := by simp

theorem Consistent.of_unchanged (consistent : Consistent p) (same : Unchanged p q) :
    Consistent q := by
  have records : ∀ st pid, record q st pid = record p st pid := by
    intro st pid
    unfold record
    rw [same.1]
  have pids : ∀ sid st, pidOf q sid st = pidOf p sid st := by
    intro sid st
    unfold pidOf
    rw [same.2]
  refine ⟨?_, ?_, ?_, ?_, ?_⟩
  · simpa only [records, pids] using consistent.mirror
  · simpa only [records] using consistent.unique
  · simpa only [records] using consistent.entries
  · simpa only [same.1] using consistent.streams
  · simpa only [same.2] using consistent.sessions

/-- The presence id that a mismatch is found by has its record. -/
theorem Consistent.recorded (consistent : Consistent p) {sid st pid : String}
    (joined : pidOf p sid st = some pid) : ∃ entry, record p st pid = some entry := by
  obtain ⟨entry, found, -⟩ := (consistent.mirror st pid sid).mpr joined
  exact ⟨entry, found⟩

theorem pidOf_getD {sid stream : String} :
    (((p.sessions.lookup sid).getD {}).streams.lookup stream) = pidOf p sid stream := by
  unfold pidOf
  cases p.sessions.lookup sid <;> rfl

theorem record_getD {stream pid : String} :
    (((p.streams.lookup stream).getD ∅).lookup pid) = record p stream pid := by
  unfold record
  cases p.streams.lookup stream <;> rfl

/-- The state after a join that is accepted. -/
def joined (p : PresenceState) (stream sid pid : String) (info : Value) : PresenceState :=
  let records := (p.streams.lookup stream).getD ∅
  let session := (p.sessions.lookup sid).getD {}
  let entry := (records.lookup pid).getD { info := info, id := pid, sessions := [] }
  { streams := p.streams.insert stream (records.insert pid (entry.add sid info))
    sessions := p.sessions.insert sid { session with streams := session.streams.insert stream pid } }

theorem presenceAdd_cases (p : PresenceState) (stream sid pid : String) (info : Value) :
    (∃ oldPid, oldPid ≠ pid ∧ pidOf p sid stream = some oldPid ∧
      p.presenceAdd stream sid pid info =
        ({ streams := p.streams.insert stream ((p.streams.lookup stream).getD ∅)
           sessions := p.sessions.insert sid ((p.sessions.lookup sid).getD {}) },
          .error "presence ID mismatch")) ∨
    ((∀ oldPid, pidOf p sid stream = some oldPid → oldPid = pid) ∧
      p.presenceAdd stream sid pid info = (joined p stream sid pid info,
        .ok (if (record p stream pid).isNone then some { type := "join", id := pid, info := info }
             else none))) := by
  unfold PresenceState.presenceAdd
  dsimp only
  rw [pidOf_getD, record_getD]
  cases pidOf p sid stream with
  | none => exact Or.inr ⟨by simp, by simp [joined, record_getD]⟩
  | some oldPid =>
    by_cases same : oldPid = pid
    · subst same
      refine Or.inr ⟨fun _ equal => (Option.some.inj equal).symm, ?_⟩
      simp [joined, record_getD]
    · refine Or.inl ⟨oldPid, same, rfl, ?_⟩
      simp [same]

/-- A failed join has put back what it found. -/
theorem add_fails_clean (consistent : Consistent p) {stream sid pid : String} {info : Value}
    {err : String} (failed : (p.presenceAdd stream sid pid info).2 = .error err) :
    Unchanged p (p.presenceAdd stream sid pid info).1 := by
  rcases presenceAdd_cases p stream sid pid info with ⟨oldPid, -, before, call⟩ | ⟨-, call⟩
  · obtain ⟨entry, found⟩ := consistent.recorded before
    obtain ⟨records, outer, -⟩ := Option.bind_eq_some_iff.mp found
    obtain ⟨session, there, -⟩ := Option.bind_eq_some_iff.mp before
    rw [call, outer, there, Option.getD_some, Option.getD_some]
    constructor
    · intro st
      rw [GoMap.lookup_insert_apply]
      split
      next same => rw [same, outer]
      · rfl
    · intro sid'
      rw [GoMap.lookup_insert_apply]
      split
      next same => rw [same, there]
      · rfl
  · rw [call] at failed
    cases failed

theorem record_joined (stream sid pid : String) (info : Value) (st pid' : String) :
    record (joined p stream sid pid info) st pid' =
      if st = stream ∧ pid' = pid then
        some (((record p stream pid).getD { info := info, id := pid, sessions := [] }).add sid info)
      else record p st pid' := by
  unfold joined
  dsimp only
  rw [record_getD]
  by_cases same : st = stream
  · subst same
    unfold record
    rw [AList.lookup_insert, Option.bind_some, GoMap.lookup_insert_apply]
    by_cases own : pid' = pid
    · simp [own]
    · simp only [own, if_false, and_false]
      exact record_getD
  · unfold record
    rw [AList.lookup_insert_ne same]
    simp [same]

theorem pidOf_joined (stream sid pid : String) (info : Value) (sid' st : String) :
    pidOf (joined p stream sid pid info) sid' st =
      if sid' = sid ∧ st = stream then some pid else pidOf p sid' st := by
  unfold joined
  dsimp only
  by_cases same : sid' = sid
  · subst same
    unfold pidOf
    rw [AList.lookup_insert, Option.bind_some, GoMap.lookup_insert_apply]
    by_cases own : st = stream
    · simp [own]
    · simp only [own, if_false, and_false]
      exact pidOf_getD
  · unfold pidOf
    rw [AList.lookup_insert_ne same]
    simp [same]

theorem mem_add {entry : PresenceEntry} {sid other : String} {info : Value} :
    other ∈ (entry.add sid info).sessions ↔ other = sid ∨ other ∈ entry.sessions := by
  unfold PresenceEntry.add
  dsimp only
  split
  next there =>
    constructor
    · exact Or.inr
    · rintro (rfl | member)
      · exact there
      · exact member
  · simp [or_comm]

theorem nodup_add {entry : PresenceEntry} (once : entry.sessions.Nodup) (sid : String)
    (info : Value) : (entry.add sid info).sessions.Nodup := by
  unfold PresenceEntry.add
  dsimp only
  split
  · exact once
  next absent =>
    rw [List.nodup_append]
    refine ⟨once, by simp, fun a member b own => ?_⟩
    rw [List.mem_singleton] at own
    rintro rfl
    exact absent (own ▸ member)

theorem joined_consistent (consistent : Consistent p) {stream sid pid : String}
    (matching : ∀ oldPid, pidOf p sid stream = some oldPid → oldPid = pid) (info : Value) :
    Consistent (joined p stream sid pid info) where
  mirror := by
    intro st pid' sid'
    rw [record_joined, pidOf_joined]
    by_cases own : st = stream ∧ pid' = pid
    · obtain ⟨rfl, rfl⟩ := own
      simp only [and_self, if_true, Option.some.injEq, exists_eq_left', and_true, mem_add]
      by_cases same : sid' = sid
      · simp [same]
      · simp only [same, false_or, if_false]
        rw [← consistent.mirror]
        cases record p st pid' <;> simp
    · rw [if_neg own, consistent.mirror]
      split
      next same =>
        obtain ⟨rfl, rfl⟩ := same
        constructor
        · intro before
          rw [matching pid' before]
        · intro equal
          cases equal
          exact absurd ⟨rfl, rfl⟩ own
      · rfl
  unique := by
    intro st pid' entry found
    rw [record_joined] at found
    split at found
    · cases found
      refine nodup_add ?_ sid info
      cases before : record p stream pid with
      | none => exact List.nodup_nil
      | some old => exact consistent.unique stream pid old before
    · exact consistent.unique st pid' entry found
  entries := by
    intro st pid' entry found
    rw [record_joined] at found
    split at found
    · cases found
      exact List.ne_nil_of_mem (mem_add.mpr (Or.inl rfl))
    · exact consistent.entries st pid' entry found
  streams := by
    intro st records found
    simp only [joined, GoMap.lookup_insert_apply] at found
    split at found
    · cases found
      exact ⟨pid, by simp⟩
    · exact consistent.streams st records found
  sessions := by
    intro sid' session found
    simp only [joined, GoMap.lookup_insert_apply] at found
    split at found
    · cases found
      exact ⟨stream, by simp⟩
    · exact consistent.sessions sid' session found

/-- The two outcomes of a join. -/
theorem add_consistent (consistent : Consistent p) (stream sid pid : String) (info : Value) :
    Consistent (p.presenceAdd stream sid pid info).1 := by
  rcases presenceAdd_cases p stream sid pid info with ⟨oldPid, -, -, call⟩ | ⟨matching, call⟩
  · have failed : (p.presenceAdd stream sid pid info).2 = .error "presence ID mismatch" := by
      rw [call]
    exact consistent.of_unchanged (add_fails_clean consistent failed)
  · rw [call]
    exact joined_consistent consistent matching info

/-- The session's own table without a stream; a session without streams goes. -/
def withoutStream (p : PresenceState) (sid : String) (session : PresenceSessionEntry)
    (stream : String) : PresenceState :=
  { p with sessions := if GoMap.isEmpty (session.streams.erase stream) then p.sessions.erase sid
                       else p.sessions.insert sid
                         { session with streams := session.streams.erase stream } }

theorem pidOf_withoutStream {sid : String} {session : PresenceSessionEntry}
    (there : p.sessions.lookup sid = some session) (stream sid' st : String) :
    pidOf (withoutStream p sid session stream) sid' st =
      if sid' = sid ∧ st = stream then none else pidOf p sid' st := by
  unfold pidOf withoutStream
  dsimp only
  rw [GoMap.lookup_eraseOrInsert]
  by_cases same : sid' = sid
  · subst same
    rw [if_pos rfl, there, Option.bind_some]
    have left := GoMap.lookup_erase_apply session.streams stream st
    split
    next emptied =>
      rw [GoMap.lookup_of_isEmpty emptied] at left
      simpa using left
    · simpa using left
  · simp [same]

theorem sessions_withoutStream {sid : String} {session : PresenceSessionEntry} (stream : String)
    (full : ∀ sid session, p.sessions.lookup sid = some session → ∃ st, st ∈ session.streams) :
    ∀ sid' found, (withoutStream p sid session stream).sessions.lookup sid' = some found →
      ∃ st, st ∈ found.streams := by
  intro sid' found lookup
  unfold withoutStream at lookup
  dsimp only at lookup
  rw [GoMap.lookup_eraseOrInsert] at lookup
  split at lookup
  · split at lookup
    · cases lookup
    next left =>
      cases lookup
      simpa [GoMap.isEmpty_iff] using left
  · exact full sid' found lookup

theorem forget_cases (p : PresenceState) (stream sid : String) :
    p.forget stream sid = .ok (p, "") ∧ p.sessions.lookup sid = none ∨
    (∃ err, p.forget stream sid = .error err) ∨
    ∃ session pid, p.sessions.lookup sid = some session ∧ pidOf p sid stream = some pid ∧
      p.forget stream sid = .ok (withoutStream p sid session stream, pid) := by
  unfold PresenceState.forget
  cases there : p.sessions.lookup sid with
  | none => exact Or.inl ⟨rfl, rfl⟩
  | some session =>
    cases own : session.streams.lookup stream with
    | none =>
      refine Or.inr (Or.inl ?_)
      simp only [own]
      exact ⟨_, rfl⟩
    | some pid =>
      refine Or.inr (Or.inr ⟨session, pid, rfl, by simp [pidOf, there, own], ?_⟩)
      simp only [own]
      rfl

/-- A leave of a session that is present on the stream: both tables lose it. -/
theorem left_consistent (consistent : Consistent p) {stream sid pid : String}
    {session : PresenceSessionEntry} (there : p.sessions.lookup sid = some session)
    (before : pidOf p sid stream = some pid) :
    Consistent (dropped (withoutStream p sid session stream) stream pid sid) := by
  have kept : Kept (withoutStream p sid session stream) :=
    ⟨consistent.unique, consistent.entries, consistent.streams⟩
  obtain ⟨keeps, sessions, present⟩ := dropped_spec kept stream pid sid
  have pids : ∀ sid' st, pidOf (dropped (withoutStream p sid session stream) stream pid sid)
      sid' st = if sid' = sid ∧ st = stream then none else pidOf p sid' st := by
    intro sid' st
    rw [← pidOf_withoutStream there stream]
    unfold pidOf
    rw [sessions]
  refine ⟨?_, keeps.unique, keeps.entries, keeps.streams, ?_⟩
  · intro st pid' sid'
    refine (present st pid' sid').trans ?_
    have mirrored : Present (withoutStream p sid session stream) st pid' sid' ↔
        pidOf p sid' st = some pid' := consistent.mirror st pid' sid'
    rw [mirrored, pids]
    split
    next own =>
      obtain ⟨rfl, rfl⟩ := own
      rw [before]
      simp only [Option.some.injEq, true_and, and_true, reduceCtorEq, iff_false, not_and, not_not]
      exact fun equal => equal.symm
    next other =>
      refine and_iff_left ?_
      rintro ⟨rfl, rfl, rfl⟩
      exact other ⟨rfl, rfl⟩
  · rw [sessions]
    exact sessions_withoutStream stream consistent.sessions

/-- A leave of a session without an entry looks for the empty presence id, and does not find
the session there. -/
theorem stranger_consistent (consistent : Consistent p) {sid : String}
    (absent : p.sessions.lookup sid = none) (stream pid : String) :
    Consistent (dropped p stream pid sid) := by
  obtain ⟨keeps, sessions, present⟩ := dropped_spec consistent.kept stream pid sid
  have pids : ∀ sid' st, pidOf (dropped p stream pid sid) sid' st = pidOf p sid' st := by
    intro sid' st
    unfold pidOf
    rw [sessions]
  have full := consistent.sessions
  rw [← sessions] at full
  refine ⟨?_, keeps.unique, keeps.entries, keeps.streams, full⟩
  intro st pid' sid'
  refine (present st pid' sid').trans ?_
  have mirrored : Present p st pid' sid' ↔ pidOf p sid' st = some pid' :=
    consistent.mirror st pid' sid'
  rw [mirrored, pids]
  refine and_iff_left_of_imp fun before => ?_
  rintro ⟨-, -, rfl⟩
  simp [pidOf, absent] at before

/-- A session that is present leaves; its own table is changed first, then the record. -/
theorem presenceRemove_present (consistent : Consistent p) {stream sid pid : String}
    (own : pidOf p sid stream = some pid) :
    ∃ q, q.streams = p.streams ∧ Consistent (dropped q stream pid sid) ∧
      p.presenceRemove stream sid =
        (dropped q stream pid sid, .ok (leaveOf q stream pid sid)) := by
  obtain ⟨session, there, joined⟩ := Option.bind_eq_some_iff.mp own
  obtain ⟨entry, found⟩ := consistent.recorded own
  obtain ⟨records, outer, -⟩ := Option.bind_eq_some_iff.mp found
  have forgets : p.forget stream sid = .ok (withoutStream p sid session stream, pid) := by
    simp only [PresenceState.forget, there, joined]
    rfl
  obtain ⟨left, drop, -⟩ := drop_spec (p := withoutStream p sid session stream)
    found (consistent.entries stream pid entry found) sid
  refine ⟨withoutStream p sid session stream, rfl, left_consistent consistent there own, ?_⟩
  simp only [PresenceState.presenceRemove, outer, Option.isNone_some, Bool.false_eq_true, if_false,
    forgets, dropped, leaveOf, drop, Option.map_some, Option.getD_some, Option.bind_some]

/-- How a leave ends. -/
theorem presenceRemove_cases (consistent : Consistent p) (stream sid : String) :
    (∃ err, p.presenceRemove stream sid = (p, .error err)) ∨
    ∃ q pid, q.streams = p.streams ∧ Consistent (dropped q stream pid sid) ∧
      p.presenceRemove stream sid =
        (dropped q stream pid sid, .ok (leaveOf q stream pid sid)) := by
  cases own : pidOf p sid stream with
  | some pid =>
    obtain ⟨q, streams, after, call⟩ := presenceRemove_present consistent own
    exact Or.inr ⟨q, pid, streams, after, call⟩
  | none =>
    unfold PresenceState.presenceRemove
    split
    · exact Or.inl ⟨_, rfl⟩
    · rcases forget_cases p stream sid with ⟨call, absent⟩ | ⟨err, call⟩ | ⟨-, pid, -, joined, -⟩
      · rw [call]
        dsimp only
        cases drop : p.drop stream "" sid with
        | none => exact Or.inl ⟨_, rfl⟩
        | some r =>
          refine Or.inr ⟨p, "", rfl, stranger_consistent consistent absent stream "", ?_⟩
          simp only [dropped, leaveOf, drop, Option.map_some, Option.getD_some, Option.bind_some]
      · rw [call]
        exact Or.inl ⟨err, rfl⟩
      · rw [own] at joined
        cases joined

theorem remove_consistent (consistent : Consistent p) (stream sid : String) :
    Consistent (p.presenceRemove stream sid).1 := by
  rcases presenceRemove_cases consistent stream sid with ⟨err, call⟩ | ⟨q, pid, -, after, call⟩
  · rw [call]
    exact consistent
  · rw [call]
    exact after

theorem remove_fails_clean (consistent : Consistent p) {stream sid err : String}
    (failed : (p.presenceRemove stream sid).2 = .error err) :
    Unchanged p (p.presenceRemove stream sid).1 := by
  rcases presenceRemove_cases consistent stream sid with ⟨_, call⟩ | ⟨q, pid, -, -, call⟩
  · rw [call]
    exact ⟨fun _ => rfl, fun _ => rfl⟩
  · rw [call] at failed
    cases failed

theorem finishPresence_streams (p : PresenceState) (sid : String) (ttl : Int64) (now : Instant) :
    (p.finishPresence sid ttl now).streams = p.streams := by
  unfold PresenceState.finishPresence
  split <;> rfl

theorem pidOf_finishPresence (sid : String) (ttl : Int64) (now : Instant) (sid' st : String) :
    pidOf (p.finishPresence sid ttl now) sid' st = pidOf p sid' st := by
  unfold PresenceState.finishPresence
  split
  · rfl
  next session there =>
    unfold pidOf
    dsimp only
    rw [GoMap.lookup_insert_apply]
    split
    next same => rw [same, there]; rfl
    · rfl

theorem finish_consistent (consistent : Consistent p) (sid : String) (ttl : Int64)
    (now : Instant) : Consistent (p.finishPresence sid ttl now) := by
  have pids := pidOf_finishPresence (p := p) sid ttl now
  unfold PresenceState.finishPresence at pids ⊢
  split
  · exact consistent
  next session there =>
    simp only [there] at pids
    refine ⟨?_, consistent.unique, consistent.entries, consistent.streams, ?_⟩
    · intro st pid sid'
      rw [pids]
      exact consistent.mirror st pid sid'
    · intro sid' found lookup
      dsimp only at lookup
      rw [GoMap.lookup_insert_apply] at lookup
      split at lookup
      · cases lookup
        exact consistent.sessions sid session there
      · exact consistent.sessions sid' found lookup

end Calls

section Expiry

/-- One due session after the other, each with its streams in some order. -/
def expireAlong (p : PresenceState) (order : List (String × List (String × String))) :
    PresenceState :=
  order.foldl (fun p item =>
    let p := item.2.foldl (fun p s => dropped p s.1 s.2 item.1) p
    { p with sessions := p.sessions.erase item.1 }) p

/-- The order visits every due session once, and for each of them every stream once. -/
def Walk (p : PresenceState) (now : Instant) (order : List (String × List (String × String))) :
    Prop :=
  (order.map Prod.fst).Perm
      ((p.sessions.toPairs.filter fun item => PresenceState.expired now item.2).map Prod.fst) ∧
    ∀ item ∈ order, ∃ session ∈ p.sessions.lookup item.1, item.2.Perm session.streams.toPairs

instance (p : PresenceState) (now : Instant) (order : List (String × List (String × String))) :
    Decidable (Walk p now order) :=
  inferInstanceAs (Decidable (_ ∧ _))

/-- The order in which the model's own maps are enumerated. -/
def enumeration (p : PresenceState) (now : Instant) : List (String × List (String × String)) :=
  (p.sessions.toPairs.filter fun item => PresenceState.expired now item.2).map fun item =>
    (item.1, item.2.streams.toPairs)

theorem expireStream_fst (sid : String) (acc : PresenceState × List (String × PresenceEvent))
    (item : String × String) :
    (PresenceState.expireStream sid acc item).1 = dropped acc.1 item.1 item.2 sid := by
  unfold PresenceState.expireStream dropped
  cases acc.1.drop item.1 item.2 sid <;> rfl

theorem expireStreams_fst (sid : String) (items : List (String × String))
    (acc : PresenceState × List (String × PresenceEvent)) :
    (items.foldl (PresenceState.expireStream sid) acc).1 =
      items.foldl (fun p s => dropped p s.1 s.2 sid) acc.1 := by
  induction items generalizing acc with
  | nil => rfl
  | cons item items ih =>
    rw [List.foldl_cons, List.foldl_cons, ih, expireStream_fst]

/-- `expirePresence` is the expiry along the order of the model's maps. -/
theorem expirePresence_walk (p : PresenceState) (now : Instant) :
    Walk p now (enumeration p now) ∧
      (p.expirePresence now).1 = expireAlong p (enumeration p now) := by
  constructor
  · constructor
    · simp [enumeration, Function.comp_def]
    · intro item member
      simp only [enumeration, List.mem_map, List.mem_filter] at member
      obtain ⟨⟨sid, session⟩, ⟨listed, -⟩, rfl⟩ := member
      exact ⟨session, GoMap.lookup_of_mem_toPairs listed, List.Perm.refl _⟩
  · unfold PresenceState.expirePresence expireAlong enumeration
    generalize p.sessions.toPairs.filter (fun item => PresenceState.expired now item.2) = due
    have fused : ∀ acc : PresenceState × List (String × PresenceEvent),
        (due.foldl PresenceState.expireSession acc).1 =
          (due.map fun item => (item.1, item.2.streams.toPairs)).foldl (fun p item =>
            let p := item.2.foldl (fun p s => dropped p s.1 s.2 item.1) p
            { p with sessions := p.sessions.erase item.1 }) acc.1 := by
      induction due with
      | nil => exact fun _ => rfl
      | cons item due ih =>
        intro acc
        rw [List.foldl_cons, ih, List.map_cons, List.foldl_cons]
        simp only [PresenceState.expireSession, expireStreams_fst]
    exact fused (p, [])

theorem droppedEach_spec (sid : String) (items : List (String × String)) (kept : Kept p) :
    Kept (items.foldl (fun p s => dropped p s.1 s.2 sid) p) ∧
      (items.foldl (fun p s => dropped p s.1 s.2 sid) p).sessions = p.sessions ∧
      ∀ st pid sid', Present (items.foldl (fun p s => dropped p s.1 s.2 sid) p) st pid sid' ↔
        Present p st pid sid' ∧ ¬ (sid' = sid ∧ (st, pid) ∈ items) := by
  induction items generalizing p with
  | nil => exact ⟨kept, rfl, by simp⟩
  | cons item items ih =>
    obtain ⟨keeps, sessions, present⟩ := dropped_spec kept item.1 item.2 sid
    obtain ⟨keeps', sessions', present'⟩ := ih keeps
    refine ⟨keeps', sessions'.trans sessions, fun st pid sid' => ?_⟩
    rw [List.foldl_cons, present', present, List.mem_cons, Prod.ext_iff]
    tauto

/-- A due session leaves both tables. -/
theorem expireOne_consistent (consistent : Consistent p) {sid : String}
    {session : PresenceSessionEntry} {items : List (String × String)}
    (there : p.sessions.lookup sid = some session) (all : items.Perm session.streams.toPairs) :
    Consistent
      { items.foldl (fun p s => dropped p s.1 s.2 sid) p with
        sessions := (items.foldl (fun p s => dropped p s.1 s.2 sid) p).sessions.erase sid } := by
  obtain ⟨keeps, sessions, present⟩ := droppedEach_spec sid items consistent.kept
  generalize items.foldl (fun p s => dropped p s.1 s.2 sid) p = q at keeps sessions present ⊢
  have pids : ∀ sid' st, pidOf { q with sessions := q.sessions.erase sid } sid' st =
      if sid' = sid then none else pidOf p sid' st := by
    intro sid' st
    unfold pidOf
    dsimp only
    rw [sessions, GoMap.lookup_erase_apply]
    split <;> rfl
  refine ⟨?_, keeps.unique, keeps.entries, keeps.streams, ?_⟩
  · intro st pid sid'
    refine (present st pid sid').trans ?_
    have mirrored : Present p st pid sid' ↔ pidOf p sid' st = some pid :=
      consistent.mirror st pid sid'
    rw [mirrored, pids]
    split
    next same =>
      subst same
      simp only [reduceCtorEq, iff_false, not_and, not_not, true_and]
      intro before
      have own : session.streams.lookup st = some pid := by simpa [pidOf, there] using before
      exact all.mem_iff.mpr (GoMap.mem_toPairs_iff.mpr own)
    next other => exact and_iff_left fun gone => other gone.1
  · intro sid' found lookup
    dsimp only at lookup
    rw [sessions, GoMap.lookup_erase_apply] at lookup
    split at lookup
    · cases lookup
    · exact consistent.sessions sid' found lookup

theorem expireAlong_consistent {order : List (String × List (String × String))}
    (consistent : Consistent p) (once : (order.map Prod.fst).Nodup)
    (all : ∀ item ∈ order, ∃ session ∈ p.sessions.lookup item.1,
      item.2.Perm session.streams.toPairs) :
    Consistent (expireAlong p order) := by
  unfold expireAlong
  induction order generalizing p with
  | nil => exact consistent
  | cons item order ih =>
    rw [List.map_cons, List.nodup_cons] at once
    obtain ⟨session, there, visited⟩ := all item (by simp)
    have sessions := (droppedEach_spec item.1 item.2 consistent.kept).2.1
    refine ih (expireOne_consistent consistent there visited) once.2 fun later member => ?_
    -- the other due sessions are still there
    have different : later.1 ≠ item.1 := by
      intro same
      exact once.1 (same ▸ List.mem_map_of_mem member)
    dsimp only
    rw [sessions, AList.lookup_erase_ne different]
    exact all later (by simp [member])

theorem walk_consistent (consistent : Consistent p) {now : Instant}
    {order : List (String × List (String × String))} (walk : Walk p now order) :
    Consistent (expireAlong p order) := by
  refine expireAlong_consistent consistent ?_ walk.2
  rw [walk.1.nodup_iff]
  have distinct := (GoMap.toPairs_distinct p.sessions).filter
    fun item => PresenceState.expired now item.2
  exact List.pairwise_map.mpr distinct

end Expiry

inductive Act where
  | presenceAdd (stream sid pid : String) (info : Value)
  | presenceRemove (stream sid : String)
  | finishPresence (sid : String) (now : Instant)
  | expirePresence (now : Instant) (order : List (String × List (String × String)))

/-- The calls of the memory broker, one at a time; `ttl` is `PresenceTTL`. -/
def step (ttl : Int64) (p : PresenceState) : Act → Option PresenceState
  | .presenceAdd stream sid pid info => some (p.presenceAdd stream sid pid info).1
  | .presenceRemove stream sid => some (p.presenceRemove stream sid).1
  | .finishPresence sid now => some (p.finishPresence sid ttl now)
  | .expirePresence now order => if Walk p now order then some (expireAlong p order) else none

theorem step_consistent {ttl : Int64} {a : Act} (consistent : Consistent p)
    (stepped : step ttl p a = some q) : Consistent q := by
  cases a with
  | presenceAdd stream sid pid info =>
    cases stepped
    exact add_consistent consistent stream sid pid info
  | presenceRemove stream sid =>
    cases stepped
    exact remove_consistent consistent stream sid
  | finishPresence sid now =>
    cases stepped
    exact finish_consistent consistent sid ttl now
  | expirePresence now order =>
    simp only [step] at stepped
    split at stepped
    next walk =>
      cases stepped
      exact walk_consistent consistent walk
    · cases stepped

/-- After any calls the tables are consistent, and a call that fails then changes nothing. -/
theorem tables_consistent (ttl : Int64) (schedule : List Act) (p : PresenceState)
    (ran : Run.exec (step ttl) {} schedule = some p) : Consistent p ∧ FailsClean p := by
  have consistent := Run.invariant (fun _ _ _ kept stepped => step_consistent kept stepped)
    consistent_start ran
  exact ⟨consistent, fun _ _ _ _ _ failed => add_fails_clean consistent failed,
    fun _ _ _ failed => remove_fails_clean consistent failed⟩

/-- Two sessions of one person; the second one expires. -/
def visits : List Act :=
  [.presenceAdd "room" "a" "" .nil, .presenceAdd "room" "b" "" .nil,
   .presenceAdd "room" "b" "other" .nil, .finishPresence "b" 0,
   .expirePresence 20000000000 [("b", [("room", "")])], .presenceRemove "room" "c"]

theorem visits_consistent :
    ∃ p, Run.exec (step 15) {} visits = some p ∧ pidOf p "a" "room" = some "" ∧
      pidOf p "b" "room" = none ∧ Consistent p ∧ FailsClean p :=
  ⟨_, rfl, by decide, by decide, tables_consistent 15 visits _ rfl⟩

end AnyCable.Guarantees.PresenceTables
