import AnyCable.Guarantees.PresenceTables
import AnyCable.Lib.Attendance
import Mathlib.Data.List.Dedup

/-!
# Presence events

`PresenceAdd` returns a join event, `PresenceRemove` a leave event, and `expirePresence` hands its
leave events to the Broadcaster (`broker/memory.go:460-558,667-729`). Together they tell who is
present: for every stream and presence id joins and leaves alternate, and `PresenceInfo`
(`broker/memory.go:560-591`) lists the ids whose last event is a join, with the info of the last
successful `PresenceAdd` (`events_truthful`).

The runs are those of the presence tables, with the events in the order of the calls. The
Broadcaster is there, as it is for the memory broker of a node.
-/

set_option autoImplicit false

namespace AnyCable.Guarantees.PresenceEvents
open AnyCable.Lib AnyCable.Source AnyCable.Guarantees.PresenceTables

/-- The tables, the events with their streams, and the successful joins. -/
structure State where
  tables : PresenceState := {}
  events : List (String × PresenceEvent) := []
  adds : List ((String × String) × Value) := []

/-- An event of a call on a stream. -/
def told (stream : String) : Except String (Option PresenceEvent) → List (String × PresenceEvent)
  | .ok (some event) => [(stream, event)]
  | .ok none | .error _ => []

/-- `expirePresence` along an order: the tables and the leave events. -/
def expireTelling (p : PresenceState) (order : List (String × List (String × String))) :
    PresenceState × List (String × PresenceEvent) :=
  order.foldl (fun acc item =>
    let (p, leaves) := item.2.foldl (PresenceState.expireStream item.1) acc
    ({ p with sessions := p.sessions.erase item.1 }, leaves)) (p, [])

def step (ttl : Int64) (x : State) : Act → Option State
  | .presenceAdd stream sid pid info =>
    let (p, res) := x.tables.presenceAdd stream sid pid info
    some { tables := p, events := x.events ++ told stream res
           adds := if res.isOk then x.adds ++ [((stream, pid), info)] else x.adds }
  | .presenceRemove stream sid =>
    let (p, res) := x.tables.presenceRemove stream sid
    some { x with tables := p, events := x.events ++ told stream res }
  | .finishPresence sid now =>
    some { x with tables := x.tables.finishPresence sid ttl now }
  | .expirePresence now order =>
    if Walk x.tables now order then
      let (p, leaves) := expireTelling x.tables order
      some { x with tables := p, events := x.events ++ leaves }
    else none

/-- The notes of the events: which presence id on which stream, and the type. -/
def notes (events : List (String × PresenceEvent)) : List ((String × String) × String) :=
  events.map fun e => ((e.1, e.2.id), e.2.type)

/-- The presence ids of a stream whose last event is a join. -/
def presentIds (events : List (String × PresenceEvent)) (stream : String) : List String :=
  ((events.filter fun e => e.1 = stream).map fun e => e.2.id).dedup.filter fun pid =>
    (notesOf (stream, pid) (notes events)).getLast? = some "join"

/-- The info of the last successful `PresenceAdd` for a presence id. -/
def latest (adds : List ((String × String) × Value)) (stream pid : String) : Option Value :=
  (notesOf (stream, pid) adds).getLast?

/-- The events and `PresenceInfo` tell the same. -/
structure Truthful (x : State) : Prop where
  alternate : ∀ stream pid, Alternates "join" "leave" (notesOf (stream, pid) (notes x.events))
  total : ∀ stream returnRecords,
    (x.tables.presenceInfo stream returnRecords).total = (presentIds x.events stream).length
  records : ∀ stream,
    (((x.tables.presenceInfo stream true).records.getD []).map fun r => (r.id, some r.info)).Perm
      ((presentIds x.events stream).map fun pid => (pid, latest x.adds stream pid))

variable {p q : PresenceState} {log : List ((String × String) × String)}
  {adds : List ((String × String) × Value)}

section Records

/-- Somebody is present under the id. -/
def Here (p : PresenceState) (key : String × String) : Prop := (record p key.1 key.2).isSome = true

/-- The log tells who is present. -/
abbrev Tells (p : PresenceState) (log : List ((String × String) × String)) : Prop :=
  Follows "join" "leave" log (Here p)

/-- A record has its id and the info of the last join. -/
def Informed (p : PresenceState) (adds : List ((String × String) × Value)) : Prop :=
  ∀ st pid entry, record p st pid = some entry →
    entry.id = pid ∧ latest adds st pid = some entry.info

theorem Tells.congr_records (tells : Tells p log)
    (same : ∀ st pid, record q st pid = record p st pid) : Tells q log :=
  tells.congr fun key => by rw [Here, Here, same]

theorem record_congr (same : q.streams = p.streams) (st pid : String) :
    record q st pid = record p st pid := by
  unfold record
  rw [same]

/-- A `drop` that ends a record is told. -/
theorem dropped_tells (kept : Kept p) (tells : Tells p log) (stream pid sid : String) :
    Tells (dropped p stream pid sid)
      (log ++ notes (told stream (.ok (leaveOf p stream pid sid)))) := by
  obtain ⟨records, leave⟩ := dropped_eq kept stream pid sid
  have others : ∀ key, key ≠ (stream, pid) →
      (Here (dropped p stream pid sid) key ↔ Here p key) := by
    intro key different
    rw [Here, Here, records, if_neg]
    rintro ⟨first, second⟩
    exact different (Prod.ext first second)
  have own : Here (dropped p stream pid sid) (stream, pid) ↔
      ((record p stream pid).bind fun entry => leftOf entry sid).isSome = true := by
    rw [Here, records, if_pos ⟨rfl, rfl⟩]
  rw [leave]
  cases found : record p stream pid with
  | none =>
    rw [Option.bind_none, told, notes, List.map_nil, List.append_nil]
    apply tells.kept others
    exact own.trans (by simp [Here, found])
  | some entry =>
    rw [found] at own
    rw [Option.bind_some]
    cases left : leftOf entry sid with
    | none =>
      rw [Option.isNone_none, if_pos rfl]
      apply tells.departed (by decide) _ others
      · simp [own, left]
      · simp [Here, found]
    | some rest =>
      rw [Option.isNone_some, if_neg Bool.false_ne_true, told, notes, List.map_nil,
        List.append_nil]
      apply tells.kept others
      exact own.trans (by simp [Here, found, left])

theorem dropped_informed (kept : Kept p) (informed : Informed p adds) (stream pid sid : String) :
    Informed (dropped p stream pid sid) adds := by
  intro st pid' entry' found
  obtain ⟨entry, before, id, info, -⟩ := dropped_origin kept found
  rw [id, info]
  exact informed st pid' entry before

/-- A join that creates the record is told. -/
theorem joined_tells (tells : Tells p log) (stream sid pid : String) (info : Value) :
    Tells (joined p stream sid pid info) (log ++ notes (told stream (.ok
      (if (record p stream pid).isNone then some { type := "join", id := pid, info := info }
       else none)))) := by
  have others : ∀ key, key ≠ (stream, pid) →
      (Here (joined p stream sid pid info) key ↔ Here p key) := by
    intro key different
    rw [Here, Here, record_joined, if_neg]
    rintro ⟨first, second⟩
    exact different (Prod.ext first second)
  have present : Here (joined p stream sid pid info) (stream, pid) := by
    simp [Here, record_joined]
  cases found : record p stream pid with
  | none =>
    rw [Option.isNone_none, if_pos rfl]
    apply tells.arrived (by decide) _ others present
    simp [Here, found]
  | some entry =>
    rw [Option.isNone_some, if_neg Bool.false_ne_true, told, notes, List.map_nil, List.append_nil]
    apply tells.kept others
    exact iff_of_true present (by simp [Here, found])

theorem joined_informed (informed : Informed p adds) (stream sid pid : String) (info : Value) :
    Informed (joined p stream sid pid info) (adds ++ [((stream, pid), info)]) := by
  intro st pid' entry found
  rw [record_joined] at found
  unfold latest
  rw [notesOf_append]
  split at found
  next same =>
    obtain ⟨rfl, rfl⟩ := same
    cases found
    rw [notesOf_same, List.getLast?_concat]
    refine ⟨?_, rfl⟩
    cases before : record p st pid' with
    | none => rfl
    | some old => exact (informed st pid' old before).1
  next other =>
    have different : (st, pid') ≠ (stream, pid) := fun same =>
      other ⟨congrArg Prod.fst same, congrArg Prod.snd same⟩
    rw [notesOf_other different, List.append_nil]
    exact informed st pid' entry found

theorem Informed.congr_records (informed : Informed p adds)
    (same : ∀ st pid, record q st pid = record p st pid) : Informed q adds := by
  intro st pid entry found
  rw [same] at found
  exact informed st pid entry found

theorem record_unchanged (same : Unchanged p q) (st pid : String) :
    record q st pid = record p st pid := by
  unfold record
  rw [same.1]

theorem presenceAdd_tells (consistent : Consistent p) (tells : Tells p log)
    (stream sid pid : String) (info : Value) :
    Tells (p.presenceAdd stream sid pid info).1
      (log ++ notes (told stream (p.presenceAdd stream sid pid info).2)) := by
  rcases presenceAdd_cases p stream sid pid info with ⟨oldPid, -, -, call⟩ | ⟨-, call⟩
  · have failed : (p.presenceAdd stream sid pid info).2 = .error "presence ID mismatch" := by
      rw [call]
    rw [failed, told, notes, List.map_nil, List.append_nil]
    exact tells.congr_records (record_unchanged (add_fails_clean consistent failed))
  · rw [call]
    exact joined_tells tells stream sid pid info

theorem presenceAdd_informed (consistent : Consistent p) (informed : Informed p adds)
    (stream sid pid : String) (info : Value) :
    Informed (p.presenceAdd stream sid pid info).1
      (if (p.presenceAdd stream sid pid info).2.isOk then adds ++ [((stream, pid), info)]
       else adds) := by
  rcases presenceAdd_cases p stream sid pid info with ⟨oldPid, -, -, call⟩ | ⟨-, call⟩
  · have failed : (p.presenceAdd stream sid pid info).2 = .error "presence ID mismatch" := by
      rw [call]
    rw [failed]
    exact informed.congr_records (record_unchanged (add_fails_clean consistent failed))
  · rw [call]
    exact joined_informed informed stream sid pid info

theorem Consistent.kept_of_streams (consistent : Consistent p) (same : q.streams = p.streams) :
    Kept q := by
  have records := record_congr same
  refine ⟨?_, ?_, ?_⟩
  · simpa only [records] using consistent.unique
  · simpa only [records] using consistent.entries
  · simpa only [same] using consistent.streams

theorem presenceRemove_tells (consistent : Consistent p) (tells : Tells p log)
    (stream sid : String) :
    Tells (p.presenceRemove stream sid).1
      (log ++ notes (told stream (p.presenceRemove stream sid).2)) := by
  rcases presenceRemove_cases consistent stream sid with
    ⟨err, call⟩ | ⟨q, pid, streams, -, call⟩
  · rw [call, told, notes, List.map_nil, List.append_nil]
    exact tells
  · rw [call]
    exact dropped_tells (Consistent.kept_of_streams consistent streams)
      (tells.congr_records (record_congr streams)) stream pid sid

theorem presenceRemove_informed (consistent : Consistent p) (informed : Informed p adds)
    (stream sid : String) : Informed (p.presenceRemove stream sid).1 adds := by
  rcases presenceRemove_cases consistent stream sid with
    ⟨err, call⟩ | ⟨q, pid, streams, -, call⟩
  · rw [call]
    exact informed
  · rw [call]
    exact dropped_informed (Consistent.kept_of_streams consistent streams)
      (informed.congr_records (record_congr streams)) stream pid sid

end Records

section Expiry

theorem expireStream_eq (sid : String) (acc : PresenceState × List (String × PresenceEvent))
    (item : String × String) :
    PresenceState.expireStream sid acc item = (dropped acc.1 item.1 item.2 sid,
      acc.2 ++ told item.1 (.ok (leaveOf acc.1 item.1 item.2 sid))) := by
  unfold PresenceState.expireStream dropped leaveOf
  cases acc.1.drop item.1 item.2 sid with
  | none => simp [told]
  | some r => cases emptied : r.2 <;> simp [told, emptied]

/-- What holds of the tables `q` in the middle of an expiry of `p`, and of the events so far. -/
structure Telling (log : List ((String × String) × String)) (p q : PresenceState)
    (leaves : List (String × PresenceEvent)) : Prop where
  kept : Kept q
  tells : Tells q (log ++ notes leaves)
  informed : ∀ adds, Informed p adds → Informed q adds

theorem telling_start (consistent : Consistent p) (tells : Tells p log) : Telling log p p [] where
  kept := consistent.kept
  tells := by simpa [notes] using tells
  informed _ informed := informed

theorem expireStreams_telling {leaves : List (String × PresenceEvent)} (sid : String)
    (items : List (String × String)) (telling : Telling log p q leaves) :
    Telling log p (items.foldl (PresenceState.expireStream sid) (q, leaves)).1
      (items.foldl (PresenceState.expireStream sid) (q, leaves)).2 := by
  induction items generalizing q leaves with
  | nil => exact telling
  | cons item items ih =>
    rw [List.foldl_cons, expireStream_eq]
    apply ih
    refine ⟨(dropped_spec telling.kept item.1 item.2 sid).1, ?_, ?_⟩
    · have next := dropped_tells telling.kept telling.tells item.1 item.2 sid
      rwa [List.append_assoc, notes, notes, ← List.map_append] at next
    · intro adds informed
      exact dropped_informed telling.kept (telling.informed adds informed) item.1 item.2 sid

theorem expireTelling_telling (order : List (String × List (String × String)))
    (telling : Telling log p q []) :
    Telling log p (expireTelling q order).1 (expireTelling q order).2 := by
  unfold expireTelling
  generalize ([] : List (String × PresenceEvent)) = leaves at telling ⊢
  induction order generalizing q leaves with
  | nil => exact telling
  | cons item order ih =>
    rw [List.foldl_cons]
    apply ih
    -- the session entry that goes at the end is no part of the records
    have after := expireStreams_telling item.1 item.2 telling
    exact ⟨⟨after.kept.unique, after.kept.entries, after.kept.streams⟩, after.tells,
      after.informed⟩

theorem expireTelling_fst (p : PresenceState) (order : List (String × List (String × String))) :
    (expireTelling p order).1 = expireAlong p order := by
  unfold expireTelling expireAlong
  generalize ([] : List (String × PresenceEvent)) = leaves
  induction order generalizing p leaves with
  | nil => rfl
  | cons item order ih =>
    rw [List.foldl_cons, List.foldl_cons, ih]
    simp only [expireStreams_fst]

/-- `expirePresence` along the order of the model's maps. -/
theorem expirePresence_telling (p : PresenceState) (now : Instant) :
    p.expirePresence now = expireTelling p (enumeration p now) := by
  unfold PresenceState.expirePresence expireTelling enumeration
  rw [List.foldl_map]
  rfl

end Expiry

section Info

variable {x : State}

/-- What every call keeps. -/
structure Inv (x : State) : Prop where
  consistent : Consistent x.tables
  tells : Tells x.tables (notes x.events)
  informed : Informed x.tables x.adds

theorem inv_start : Inv {} where
  consistent := consistent_start
  tells := (Follows.start "join" "leave").congr fun key => by simp [Here, record]
  informed := by simp [Informed, record]

theorem mem_presentIds (inv : Inv x) {stream pid : String} :
    pid ∈ presentIds x.events stream ↔ Here x.tables (stream, pid) := by
  rw [presentIds, List.mem_filter, decide_eq_true_iff, inv.tells.last]
  refine and_iff_right_of_imp fun here => ?_
  -- the join itself is one of the events
  have last := List.mem_of_getLast? ((inv.tells.last (stream, pid)).mpr here)
  simp only [notesOf, notes, List.mem_map, List.mem_filter, decide_eq_true_iff] at last
  obtain ⟨note, ⟨⟨event, member, rfl⟩, same⟩, -⟩ := last
  obtain ⟨rfl, rfl⟩ := Prod.mk.inj same
  simp only [List.mem_dedup, List.mem_map, List.mem_filter, decide_eq_true_iff]
  exact ⟨event, ⟨member, rfl⟩, rfl⟩

theorem nodup_presentIds (events : List (String × PresenceEvent)) (stream : String) :
    (presentIds events stream).Nodup :=
  (List.nodup_dedup _).filter _

/-- The present ids of a stream are the keys of its records. -/
theorem keys_perm (inv : Inv x) {stream : String} {records : GoMap String PresenceEntry}
    (found : x.tables.streams.lookup stream = some records) :
    records.keys.Perm (presentIds x.events stream) := by
  apply (List.perm_ext_iff_of_nodup records.keys_nodup (nodup_presentIds _ _)).mpr
  intro pid
  rw [mem_presentIds inv, Here, record, found, Option.bind_some, AList.lookup_isSome,
    AList.mem_keys]

theorem presentIds_eq_nil (inv : Inv x) {stream : String}
    (missing : x.tables.streams.lookup stream = none) : presentIds x.events stream = [] := by
  apply List.eq_nil_iff_forall_not_mem.mpr
  intro pid member
  rw [mem_presentIds inv, Here, record, missing] at member
  cases member

theorem truthful_of_inv (inv : Inv x) : Truthful x where
  alternate stream pid := inv.tells.alternates (stream, pid)
  total stream returnRecords := by
    unfold PresenceState.presenceInfo
    cases found : x.tables.streams.lookup stream with
    | none =>
      rw [presentIds_eq_nil inv found]
      rfl
    | some records => exact (keys_perm inv found).length_eq
  records stream := by
    unfold PresenceState.presenceInfo
    cases found : x.tables.streams.lookup stream with
    | none =>
      rw [presentIds_eq_nil inv found]
      exact List.Perm.refl _
    | some records =>
      have listed : (records.toPairs.map fun r => (r.2.id, some r.2.info)) =
          records.keys.map fun pid => (pid, latest x.adds stream pid) := by
        have keys : records.keys = records.toPairs.map Prod.fst := by
          rw [GoMap.toPairs, List.map_map]
          rfl
        rw [keys, List.map_map]
        apply List.map_congr_left
        rintro ⟨pid, entry⟩ member
        have lookup : record x.tables stream pid = some entry := by
          rw [record, found, Option.bind_some]
          exact GoMap.lookup_of_mem_toPairs member
        obtain ⟨id, info⟩ := inv.informed stream pid entry lookup
        rw [Function.comp_apply, id, info]
      simp only [if_true, Option.getD_some, List.map_map, Function.comp_def]
      rw [listed]
      exact (keys_perm inv found).map _

end Info

theorem step_inv {ttl : Int64} {x y : State} {a : Act} (inv : Inv x)
    (stepped : step ttl x a = some y) : Inv y := by
  cases a with
  | presenceAdd stream sid pid info =>
    simp only [step, Option.some.injEq] at stepped
    subst stepped
    refine ⟨add_consistent inv.consistent stream sid pid info, ?_,
      presenceAdd_informed inv.consistent inv.informed stream sid pid info⟩
    rw [notes, List.map_append]
    exact presenceAdd_tells inv.consistent inv.tells stream sid pid info
  | presenceRemove stream sid =>
    simp only [step, Option.some.injEq] at stepped
    subst stepped
    refine ⟨remove_consistent inv.consistent stream sid, ?_,
      presenceRemove_informed inv.consistent inv.informed stream sid⟩
    rw [notes, List.map_append]
    exact presenceRemove_tells inv.consistent inv.tells stream sid
  | finishPresence sid now =>
    simp only [step, Option.some.injEq] at stepped
    subst stepped
    have records := record_congr (finishPresence_streams x.tables sid ttl now)
    exact ⟨finish_consistent inv.consistent sid ttl now, inv.tells.congr_records records,
      inv.informed.congr_records records⟩
  | expirePresence now order =>
    simp only [step] at stepped
    split at stepped
    next walk =>
      cases stepped
      have telling := expireTelling_telling order (telling_start inv.consistent inv.tells)
      refine ⟨?_, ?_, telling.informed _ inv.informed⟩
      · rw [expireTelling_fst]
        exact walk_consistent inv.consistent walk
      · rw [notes, List.map_append]
        exact telling.tells
    · cases stepped

/-- After any calls, in any order of the maps. -/
theorem events_truthful (ttl : Int64) (schedule : List Act) (x : State)
    (ran : Run.exec (step ttl) {} schedule = some x) : Truthful x :=
  truthful_of_inv (Run.invariant (fun _ _ _ inv stepped => step_inv inv stepped) inv_start ran)

/-- One person in two tabs and another one; the second tab expires and the first leaves. -/
def comings : List Act :=
  [.presenceAdd "room" "a" "1" (.text "Ann"), .presenceAdd "room" "b" "1" (.text "Anna"),
   .presenceAdd "room" "c" "2" .nil, .finishPresence "b" 0,
   .expirePresence 20000000000 [("b", [("room", "1")])], .presenceRemove "room" "a",
   .presenceAdd "room" "a" "1" (.text "Ann")]

theorem comings_truthful :
    ∃ x, Run.exec (step 15) {} comings = some x ∧
      notesOf ("room", "1") (notes x.events) = ["join", "leave", "join"] ∧
      presentIds x.events "room" = ["2", "1"] ∧ Truthful x :=
  ⟨_, rfl, by decide, by decide, events_truthful 15 comings _ rfl⟩

end AnyCable.Guarantees.PresenceEvents
