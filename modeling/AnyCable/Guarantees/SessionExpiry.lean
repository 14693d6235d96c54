import AnyCable.Lib.Run
import AnyCable.Source.Broker
import Mathlib.Data.List.TakeWhile

/-!
# The session cache of the memory broker

What the cache is for (`Ideal`): a committed session can be restored until it has been finished for
more than `SessionsTTL` seconds, and a session that is committed again has not been finished.

The broker keeps the sessions in a map, and those that were finished in a queue with their
deadlines (`broker/memory.go:409-446`). A round of `expire` takes what is due from the front of the
queue and deletes it from the map (`broker/memory.go:646-661`). A commit does not look into the
queue, so a session that comes back under its old id is deleted on account of the earlier finish
(`recommitted_expired`). Session ids come from the `X-Request-ID` header if there is one
(`server/request_info.go:86-94`).

Otherwise queue and map are as good as the ideal cache: `RestoreSession` follows it in every state
of a run if and only if no session is cut off by an entry of the queue before its own time
(`law_iff_timely`). Time is compared in the seconds of `time.Now().Unix()`, and sums with
`SessionsTTL` do not leave `int64`.
-/

set_option autoImplicit false

namespace AnyCable.Guarantees.SessionExpiry
open AnyCable.Source AnyCable.Lib

/-- A committed session and the second of its first finish since then. -/
structure Held where
  entry : CacheEntry
  finished : Option Int := none

/-- What can be restored. -/
abbrev Ideal := String → Option Held

namespace Ideal

def commit (ideal : Ideal) (sid : String) (entry : CacheEntry) : Ideal :=
  Function.update ideal sid (some { entry := entry })

def finish (ideal : Ideal) (sid : String) (now : Int) : Ideal :=
  Function.update ideal sid ((ideal sid).map fun held =>
    { held with finished := held.finished <|> some now })

/-- The session was finished more than `ttl` seconds ago. -/
def isDue (ttl now : Int) (held : Held) : Bool := held.finished.any fun t => ttl < now - t

def expire (ideal : Ideal) (ttl now : Int) : Ideal := fun sid =>
  (ideal sid).filter fun held => !isDue ttl now held

theorem isDue_iff {ttl now : Int} {held : Held} :
    isDue ttl now held = true ↔ ∃ t, held.finished = some t ∧ ttl < now - t := by
  unfold isDue
  cases held.finished <;> simp

end Ideal

structure State where
  memory : Memory
  clock : Instant
  ideal : Ideal := fun _ => none

def State.start (config : Config) (epoch : String) (clock : Instant) : State :=
  { memory := { history := .new config epoch }, clock := clock }

def State.ttl (x : State) : Int := x.memory.history.config.sessionsTTL.toInt

inductive Act where
  | commitSession (sid : String) (session : Session)
  | finishSession (sid : String) (now : Instant)
  | restoreSession (sid : String)
  | expire (now : Instant)

def step (x : State) : Act → Option State
  | .commitSession sid session => do
    let entry ← session.toCacheEntry
    let memory ← x.memory.commitSession sid session
    return { x with memory := memory, ideal := x.ideal.commit sid entry }
  | .finishSession sid now =>
    if x.clock ≤ now then
      some { memory := x.memory.finishSession sid now, clock := now
             ideal := x.ideal.finish sid (unix now) }
    else none
  | .restoreSession _ => some x
  | .expire now =>
    if x.clock ≤ now then
      some { memory := (x.memory.expire now).1, clock := now
             ideal := x.ideal.expire x.ttl (unix now) }
    else none

/-- The broker restores what the ideal cache has. -/
def Law (x : State) : Prop :=
  ∀ sid, x.memory.restoreSession sid = (x.ideal sid).map (·.entry)

/-- The deadline is an `int64`. -/
def InRange (x : State) : Act → Prop
  | .finishSession _ now => -(2 ^ 63) ≤ unix now + x.ttl ∧ unix now + x.ttl < 2 ^ 63
  | _ => True

/-- The entries that `expire` takes from the queue. -/
def cut (m : Memory) (now : Instant) : List ExpireSessionEntry :=
  m.expireSessions.takeWhile fun e => e.deadline < unix now

/-- A session that is cut off is due. -/
def Timely (x : State) : Act → Prop
  | .expire now => ∀ e ∈ cut x.memory now, ∀ held ∈ x.ideal e.sid,
    Ideal.isDue x.ttl (unix now) held = true
  | _ => True

instance (x : State) : (a : Act) → Decidable (InRange x a)
  | .finishSession _ now => inferInstanceAs (Decidable
      (-(2 ^ 63) ≤ unix now + x.ttl ∧ unix now + x.ttl < 2 ^ 63))
  | .commitSession .. | .restoreSession _ | .expire _ => isTrue trivial

instance (x : State) : (a : Act) → Decidable (Timely x a)
  | .expire now => inferInstanceAs (Decidable (∀ e ∈ cut x.memory now, ∀ held ∈ x.ideal e.sid,
      Ideal.isDue x.ttl (unix now) held = true))
  | .commitSession .. | .restoreSession _ | .finishSession .. => isTrue trivial

section Expire

variable {m : Memory} {now : Instant}

theorem sessions_expire (sid : String) :
    (m.expire now).1.sessions sid =
      if sid ∈ (cut m now).map (·.sid) then none else m.sessions sid := by
  change (m.expireCached now).sessions sid = _
  unfold Memory.expireCached
  change (List.foldl _ m.sessions (cut m now)) sid = _
  generalize cut m now = due
  generalize m.sessions = sessions
  induction due generalizing sessions with
  | nil => simp
  | cons e due ih =>
    rw [List.foldl_cons, ih]
    by_cases same : sid = e.sid
    · simp [same]
    · simp [same]

theorem queue_expire :
    (m.expire now).1.expireSessions = m.expireSessions.drop (cut m now).length := rfl

theorem queue_split (m : Memory) (now : Instant) :
    m.expireSessions = cut m now ++ (m.expire now).1.expireSessions := by
  rw [queue_expire, cut]
  exact (List.prefix_iff_eq_append.mp (List.takeWhile_prefix _)).symm

end Expire

structure Inv (x : State) : Prop where
  law : Law x
  /-- The finish of a session is in the queue. -/
  queued : ∀ sid held t, x.ideal sid = some held → held.finished = some t →
    ⟨t + x.ttl, sid⟩ ∈ x.memory.expireSessions
  sorted : x.memory.expireSessions.Pairwise fun e later => e.deadline ≤ later.deadline
  bounded : ∀ e ∈ x.memory.expireSessions, e.deadline ≤ unix x.clock + x.ttl

theorem inv_start (config : Config) (epoch : String) (clock : Instant) :
    Inv (.start config epoch clock) := by
  refine ⟨fun _ => rfl, ?_, ?_, ?_⟩ <;> simp [State.start]

section Steps

variable {x y : State} {sid : String} {now : Instant}

theorem commit_inv (inv : Inv x) (entry : CacheEntry) :
    Inv { x with
      memory := { x.memory with sessions := Function.update x.memory.sessions sid (some entry) }
      ideal := x.ideal.commit sid entry } where
  law sid' := by
    have before := inv.law sid'
    simp only [Memory.restoreSession, Ideal.commit, Function.update_apply] at before ⊢
    split
    · rfl
    · exact before
  queued sid' held t found finished := by
    simp only [Ideal.commit, Function.update_apply] at found
    split at found
    · cases found
      cases finished
    · exact inv.queued sid' held t found finished
  sorted := inv.sorted
  bounded := inv.bounded

/-- A session was finished before, or is now. -/
theorem finished_of_finish {ideal : Ideal} {sid' : String} {t since : Int} {held : Held}
    (found : ideal.finish sid since sid' = some held) (finished : held.finished = some t) :
    (∃ old, ideal sid' = some old ∧ old.finished = some t) ∨ sid' = sid ∧ t = since := by
  simp only [Ideal.finish, Function.update_apply] at found
  split at found
  next same =>
    subst same
    obtain ⟨old, before, rfl⟩ := Option.map_eq_some_iff.mp found
    cases earlier : old.finished with
    | none =>
      simp only [earlier, Option.orElse_eq_orElse, Option.orElse_none, Option.some.injEq]
        at finished
      exact Or.inr ⟨rfl, finished.symm⟩
    | some t' =>
      simp only [earlier, Option.orElse_eq_orElse, Option.orElse_some, Option.some.injEq]
        at finished
      subst finished
      exact Or.inl ⟨old, before, earlier⟩
  · exact Or.inl ⟨held, found, finished⟩

/-- A deadline that is put at the end of the queue is the latest. -/
theorem finish_inv (inv : Inv x) (forward : x.clock ≤ now)
    (inRange : InRange x (.finishSession sid now)) :
    Inv { memory := x.memory.finishSession sid now, clock := now
          ideal := x.ideal.finish sid (unix now) } := by
  have later := unix_mono forward
  have law := inv.law sid
  unfold Memory.restoreSession at law
  unfold Memory.finishSession
  split
  next there =>
    have deadline : int64 (unix now + x.memory.history.config.sessionsTTL.toInt) =
        unix now + x.ttl := int64_of_range inRange.1 inRange.2
    rw [deadline]
    refine ⟨?_, ?_, ?_, ?_⟩
    · intro sid'
      have before := inv.law sid'
      simp only [Memory.restoreSession, Ideal.finish, Function.update_apply] at before ⊢
      split
      next same =>
        subst same
        rw [before]
        cases x.ideal sid' <;> rfl
      · exact before
    · intro sid' held t found finished
      rcases finished_of_finish found finished with ⟨old, before, earlier⟩ | ⟨rfl, rfl⟩
      · exact List.mem_append_left _ (inv.queued sid' old t before earlier)
      · exact List.mem_append_right _ (List.mem_singleton_self _)
    · refine List.pairwise_append.mpr ⟨inv.sorted, List.pairwise_singleton _ _, ?_⟩
      intro e old last new
      have := inv.bounded e old
      rw [List.mem_singleton.mp new]
      simp only
      omega
    · intro e member
      change e.deadline ≤ unix now + x.ttl
      rcases List.mem_append.mp member with old | new
      · have := inv.bounded e old
        omega
      · rw [List.mem_singleton.mp new]
  next missing =>
    -- a session that is not cached is not finished either
    have none : x.ideal sid = Option.none := by
      cases ideal : x.ideal sid with
      | none => rfl
      | some held => simp [law, ideal] at missing
    have same : x.ideal.finish sid (unix now) = x.ideal := by
      rw [Ideal.finish, none]
      exact Function.update_eq_self_iff.mpr none.symm
    rw [same]
    refine ⟨inv.law, inv.queued, inv.sorted, fun e member => ?_⟩
    have := inv.bounded e member
    change e.deadline ≤ unix now + x.ttl
    omega

/-- A due entry is before the first one that is not due. -/
theorem mem_takeWhile_of_sorted {queue : List ExpireSessionEntry} {e : ExpireSessionEntry}
    {c : Int} (sorted : queue.Pairwise fun e later => e.deadline ≤ later.deadline)
    (member : e ∈ queue) (due : e.deadline < c) : e ∈ queue.takeWhile (·.deadline < c) := by
  induction queue with
  | nil => cases member
  | cons first rest ih =>
    rw [List.pairwise_cons] at sorted
    have front : first.deadline < c := by
      rcases List.mem_cons.mp member with rfl | later
      · exact due
      · have := sorted.1 e later
        omega
    rw [List.takeWhile_cons, if_pos (by simpa using front)]
    rcases List.mem_cons.mp member with rfl | later
    · exact List.mem_cons_self
    · exact List.mem_cons_of_mem _ (ih sorted.2 later)

/-- Sessions that are due are cut off. -/
theorem cut_of_due (inv : Inv x) {held : Held} (ideal : x.ideal sid = some held)
    (due : Ideal.isDue x.ttl (unix now) held = true) : sid ∈ (cut x.memory now).map (·.sid) := by
  obtain ⟨t, finished, passed⟩ := Ideal.isDue_iff.mp due
  have queued := inv.queued sid held t ideal finished
  have late : t + x.ttl < unix now := by omega
  exact List.mem_map.mpr ⟨_, mem_takeWhile_of_sorted inv.sorted queued late, rfl⟩

/-- The map and the ideal cache lose the same sessions, if the cut is timely. -/
theorem law_expire_iff (inv : Inv x) :
    (∀ sid, (x.memory.expire now).1.restoreSession sid =
      (x.ideal.expire x.ttl (unix now) sid).map (·.entry)) ↔ Timely x (.expire now) := by
  have before : ∀ sid, x.memory.sessions sid = (x.ideal sid).map (·.entry) := inv.law
  simp only [Memory.restoreSession, sessions_expire, Ideal.expire]
  constructor
  · intro law e member held ideal
    have own := law e.sid
    rw [if_pos (List.mem_map_of_mem member), Option.mem_def.mp ideal] at own
    by_contra early
    rw [Option.filter_some, if_pos (by simpa using early)] at own
    cases own
  · intro timely sid
    cases ideal : x.ideal sid with
    | none =>
      have missing : x.memory.sessions sid = none := by rw [before, ideal, Option.map_none]
      simp [missing]
    | some held =>
      have cached : x.memory.sessions sid = some held.entry := by
        rw [before, ideal, Option.map_some]
      by_cases gone : sid ∈ (cut x.memory now).map (·.sid)
      · obtain ⟨e, member, rfl⟩ := List.mem_map.mp gone
        have due := timely e member held ideal
        rw [if_pos gone, Option.filter_some, if_neg (by simp [due])]
        rfl
      · have early : Ideal.isDue x.ttl (unix now) held ≠ true := fun due =>
          gone (cut_of_due inv ideal due)
        rw [if_neg gone, Option.filter_some, if_pos (by simpa using early), cached]
        rfl

theorem expire_inv (inv : Inv x) (forward : x.clock ≤ now) (timely : Timely x (.expire now)) :
    Inv { memory := (x.memory.expire now).1, clock := now
          ideal := x.ideal.expire x.ttl (unix now) } := by
  have later := unix_mono forward
  have rest : ∀ e ∈ (x.memory.expire now).1.expireSessions, e ∈ x.memory.expireSessions := by
    intro e member
    rw [queue_split x.memory now]
    exact List.mem_append_right _ member
  refine ⟨(law_expire_iff inv).mpr timely, ?_, ?_, ?_⟩
  · intro sid held t found finished
    obtain ⟨ideal, early⟩ := Option.filter_eq_some_iff.mp found
    have queued := inv.queued sid held t ideal finished
    rw [queue_split x.memory now] at queued
    rcases List.mem_append.mp queued with front | back
    · -- an entry at the front is due, the session is not
      have passed : t + x.ttl < unix now := by simpa using List.mem_takeWhile_imp front
      have due := Ideal.isDue_iff.mpr ⟨t, finished, show x.ttl < unix now - t by omega⟩
      simp [due] at early
    · exact back
  · exact inv.sorted.sublist (List.drop_sublist _ _)
  · intro e member
    have := inv.bounded e (rest e member)
    change e.deadline ≤ unix now + x.ttl
    omega

end Steps

theorem step_inv {x y : State} {a : Act} (inv : Inv x) (inRange : InRange x a)
    (timely : Timely x a) (stepped : step x a = some y) : Inv y := by
  cases a with
  | commitSession sid session =>
    simp only [step, Memory.commitSession, Option.bind_eq_bind, Option.bind_eq_some_iff]
      at stepped
    obtain ⟨entry, stored, memory, ⟨entry', stored', committed⟩, stepped⟩ := stepped
    cases stored.symm.trans stored'
    cases committed
    cases stepped
    exact commit_inv inv entry
  | finishSession sid now =>
    simp only [step] at stepped
    split at stepped
    next forward =>
      cases stepped
      exact finish_inv inv forward inRange
    · cases stepped
  | restoreSession sid =>
    cases stepped
    exact inv
  | expire now =>
    simp only [step] at stepped
    split at stepped
    next forward =>
      cases stepped
      exact expire_inv inv forward timely
    · cases stepped

theorem timely_of_law {x y : State} {a : Act} (inv : Inv x) (stepped : step x a = some y)
    (law : Law y) : Timely x a := by
  cases a with
  | expire now =>
    simp only [step] at stepped
    split at stepped
    · cases stepped
      exact (law_expire_iff inv).mp law
    · cases stepped
  | _ => trivial

/-- The cache follows the ideal one exactly if no session is cut off before its own time. -/
theorem law_iff_timely (config : Config) (epoch : String) (clock : Instant)
    (schedule : List Act) (x : State)
    (inRange : Run.Meets step InRange (.start config epoch clock) schedule)
    (ran : Run.exec step (.start config epoch clock) schedule = some x) :
    Run.Always step Law (.start config epoch clock) schedule ↔
      Run.Meets step Timely (.start config epoch clock) schedule :=
  Run.always_iff_meets_within
    (fun _ _ _ inv inRange timely stepped => step_inv inv inRange timely stepped)
    (fun _ _ _ inv _ stepped law => timely_of_law inv stepped law) (fun _ inv => inv.law)
    (inv_start config epoch clock) inRange ran

def session (disconnectable : Bool) : Session :=
  { ref := 1, uid := "sid", disconnectInterest := disconnectable }

/-- A session comes back after it has expired, and is finished twice. -/
def visits : List Act :=
  [.commitSession "sid" (session false), .finishSession "sid" 0, .expire 301000000000,
   .restoreSession "sid", .commitSession "sid" (session true), .finishSession "sid" 302000000000,
   .finishSession "sid" 303000000000, .expire 602000000000]

theorem visits_lawful :
    ∃ x, Run.exec step (.start {} "epoch" 0) visits = some x ∧
      (x.memory.restoreSession "sid").map (·.disconnectable) = some true ∧
      Run.Always step Law (.start {} "epoch" 0) visits :=
  ⟨_, rfl, by decide, (law_iff_timely {} "epoch" 0 visits _ (by decide) rfl).mpr (by decide)⟩

/-- A session comes back before it has expired. -/
theorem recommitted_expired :
    ∃ x, Run.exec step (.start {} "epoch" 0)
        [.commitSession "sid" (session false), .finishSession "sid" 0,
         .commitSession "sid" (session true), .expire 301000000000] = some x ∧
      (x.ideal "sid").map (·.finished) = some none ∧ x.memory.restoreSession "sid" = none ∧
      ¬Law x := by
  refine ⟨_, rfl, by decide, rfl, fun law => ?_⟩
  have restored := law "sid"
  cases restored

end AnyCable.Guarantees.SessionExpiry
