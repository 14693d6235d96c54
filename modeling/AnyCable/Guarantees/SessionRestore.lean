import AnyCable.Lib.Run
import AnyCable.Source.SystemSteps

/-!
# Who can be restored

A resumable session is stored in the broker's cache and a later connection may name it as its
`prev_sid` to be restored without asking the controller (`node/node.go:327-434`). Every
connection of a run is written down with how it ended, and a session counts as authenticated
if the controller answered SUCCESS for it or it was restored from an authenticated one.

`Node.Authenticate` stores a resumable session also when the controller rejected it, so the
next connection gets in on the rejected one (`restored_from_rejected`). Where no such session
is rejected, only authenticated sessions are ever connected
(`only_authenticated_unless_rejected`).
-/

set_option autoImplicit false

namespace AnyCable.Guarantees.SessionRestore
open AnyCable.Lib AnyCable.Source AnyCable.Source.System

/-- How a connection ended; `restored` names the session that had been stored. -/
inductive Outcome where
  | accepted
  | rejected
  | failed
  | restored (source : SessionRef)
  deriving DecidableEq, Repr

/-- A run so far: the node and the connections, newest first. -/
structure Trace where
  system : System
  connections : List (SessionRef × Outcome) := []

/-- How `Authenticate` ends, judged by the cache and the controller's answer. -/
def outcome (n : Node) (s : Session) (answer : Answer ConnectResult) : Outcome :=
  match n.restorable s, answer.err, answer.res with
  | some entry, _, _ => .restored entry.writer
  | none, none, some res => if res.status = .success then .accepted else .rejected
  | none, _, _ => .failed

def observed (x : System) : Act → List (SessionRef × Outcome)
  | .connect ref client answer _ => [(ref, outcome x.node (newSession ref client) answer)]
  | _ => []

def step (t : Trace) (a : Act) : Option Trace := do
  let system ← t.system.step a
  return ⟨system, observed t.system a ++ t.connections⟩

inductive Authenticated (connections : List (SessionRef × Outcome)) : SessionRef → Prop where
  | accepted {ref : SessionRef} (answered : (ref, Outcome.accepted) ∈ connections) :
      Authenticated connections ref
  | restored {ref source : SessionRef} (taken : (ref, Outcome.restored source) ∈ connections)
      (earlier : Authenticated connections source) : Authenticated connections ref

/-- The property of one state: connected sessions are authenticated, and nothing was ever
restored from a session that the controller rejected. -/
def OnlyAuthenticated (t : Trace) : Prop :=
  (∀ ref s, t.system.sessions.lookup ref = some s → s.connected = true →
    Authenticated t.connections ref) ∧
  ∀ ref source, (ref, Outcome.restored source) ∈ t.connections →
    (source, Outcome.rejected) ∉ t.connections

/-- The condition on a step: the controller does not reject a resumable session. -/
def Vouched (t : Trace) : Act → Prop
  | .connect ref client answer _ => client.resumable = true →
      outcome t.system.node (newSession ref client) answer ≠ .rejected
  | _ => True

instance (t : Trace) : (a : Act) → Decidable (Vouched t a)
  | .connect ref client answer _ => inferInstanceAs (Decidable (client.resumable = true →
      outcome t.system.node (newSession ref client) answer ≠ .rejected))
  | .command .. | .disconnect .. | .disconnectNow .. | .register | .deliver
  | .handleBroadcast .. | .handlePubSub .. | .expire .. | .shutdown => isTrue trivial

structure Inv (t : Trace) : Prop where
  keyed : ∀ ref s, t.system.sessions.lookup ref = some s → s.ref = ref
  live : ∀ ref s, t.system.sessions.lookup ref = some s →
    s.closed = false ∨ s.connected = true → Authenticated t.connections ref
  /-- Commands are handled for authenticated sessions only. -/
  reading : ∀ ref ∈ t.system.readers, Authenticated t.connections ref
  cached : ∀ sid entry, t.system.node.broker.restoreSession sid = some entry →
    Authenticated t.connections entry.writer
  /-- Every connection has its session, and so ended in one way only. -/
  known : ∀ c ∈ t.connections, (t.system.sessions.lookup c.1).isSome = true
  once : (t.connections.map Prod.fst).Nodup
  sources : ∀ ref source, (ref, Outcome.restored source) ∈ t.connections →
    Authenticated t.connections source

variable {t u : Trace} {ref : SessionRef}

theorem Authenticated.more {connections : List (SessionRef × Outcome)}
    (authenticated : Authenticated connections ref) (c : List (SessionRef × Outcome)) :
    Authenticated (c ++ connections) ref := by
  induction authenticated with
  | accepted answered => exact .accepted (List.mem_append_right _ answered)
  | restored taken _ ih => exact .restored (List.mem_append_right _ taken) ih

theorem inv_start (setup : Setup) : Inv ⟨setup.start, []⟩ where
  keyed := by simp [Setup.start]
  live := by simp [Setup.start]
  reading := by simp [Setup.start]
  cached := by
    intro sid entry found
    cases memory : setup.memory <;>
      simp [Setup.start, Broker.restoreSession, Memory.restoreSession, memory] at found
  known := by simp
  once := by simp
  sources := by simp

/-- A step that opens no connection: every session was there before, opened no further than
it was, and stored itself only if it was live. -/
theorem Inv.carry {system : System} (inv : Inv t) (readers : system.readers = t.system.readers)
    (sessions : ∀ ref, (t.system.sessions.lookup ref).isSome = true →
      (system.sessions.lookup ref).isSome = true)
    (before : ∀ ref s, system.sessions.lookup ref = some s →
      ∃ old, t.system.sessions.lookup ref = some old ∧ s.ref = old.ref ∧
        (s.closed = false ∨ s.connected = true → old.closed = false ∨ old.connected = true))
    (writes : t.system.node.broker.Writes (Authenticated t.connections) system.node.broker) :
    Inv ⟨system, t.connections⟩ where
  keyed := by
    intro ref s found
    obtain ⟨old, there, same, -⟩ := before ref s found
    exact same.trans (inv.keyed ref old there)
  live := by
    intro ref s found open'
    obtain ⟨old, there, -, was⟩ := before ref s found
    exact inv.live ref old there (was open')
  reading := by
    rw [readers]
    exact inv.reading
  cached := by
    intro sid entry found
    rcases writes.cached sid entry found with earlier | written
    · exact inv.cached sid entry earlier
    · exact written
  known := fun c member => sessions c.1 (inv.known c member)
  once := inv.once
  sources := inv.sources

/-- The step of one session that exists. -/
theorem Inv.carry_put {before s : Session} {n : Node} {id : String} {c : StreamChange}
    (inv : Inv t) (found : t.system.sessions.lookup ref = some before)
    (turn : Turn id c t.system.node before n s)
    (writes : t.system.node.broker.Writes (Authenticated t.connections) n.broker) :
    Inv ⟨t.system.put ref (n, s), t.connections⟩ := by
  refine inv.carry rfl ?_ ?_ writes
  · intro r there
    by_cases same : r = ref
    · subst same
      simp [put_lookup]
    · simpa [put_lookup_ne _ _ same] using there
  · intro r s' lookup
    by_cases same : r = ref
    · subst same
      simp only [put_lookup, Option.some.injEq] at lookup
      subst lookup
      refine ⟨before, found, turn.ref, Or.imp (fun closed => ?_) turn.connected⟩
      rw [turn.closed, Bool.or_eq_false_iff] at closed
      exact closed.1
    · simp only [put_lookup_ne _ _ same] at lookup
      exact ⟨s', lookup, rfl, fun was => was⟩

/-- A new connection: its session may be live, or stored, only if it is authenticated. -/
theorem Inv.open {s : Session} {n : Node} {o : Outcome} (inv : Inv t)
    (fresh : t.system.sessions.lookup ref = none) (same : s.ref = ref)
    (live : s.closed = false ∨ s.connected = true →
      Authenticated ((ref, o) :: t.connections) ref)
    (writes : t.system.node.broker.Writes
      (Authenticated ((ref, o) :: t.connections)) n.broker)
    (source : ∀ r, o = .restored r → Authenticated t.connections r) :
    Inv ⟨(t.system.put ref (n, s)).serve s, (ref, o) :: t.connections⟩ where
  keyed := by
    intro r s' lookup
    rw [serve_sessions] at lookup
    by_cases this : r = ref
    · subst this
      simp only [put_lookup, Option.some.injEq] at lookup
      exact lookup ▸ same
    · simp only [put_lookup_ne _ _ this] at lookup
      exact inv.keyed r s' lookup
  live := by
    intro r s' lookup open'
    rw [serve_sessions] at lookup
    by_cases this : r = ref
    · subst this
      simp only [put_lookup, Option.some.injEq] at lookup
      exact live (lookup ▸ open')
    · simp only [put_lookup_ne _ _ this] at lookup
      exact (inv.live r s' lookup open').more [(ref, o)]
  reading := by
    intro r member
    rcases mem_readers_serve.mp member with before | ⟨still, rfl⟩
    · exact (inv.reading r before).more [(ref, o)]
    · rw [same]
      exact live (Or.inl still)
  cached := by
    intro sid entry found
    rw [serve_node] at found
    rcases writes.cached sid entry found with earlier | written
    · exact (inv.cached sid entry earlier).more [(ref, o)]
    · exact written
  known := by
    rintro ⟨r, o'⟩ member
    rw [serve_sessions]
    by_cases this : r = ref
    · subst this
      simp [put_lookup]
    · rcases List.mem_cons.mp member with new | old
      · exact absurd (congrArg Prod.fst new) this
      · simpa [put_lookup_ne _ _ this] using inv.known (r, o') old
  once := by
    refine List.nodup_cons.mpr ⟨fun member => ?_, inv.once⟩
    obtain ⟨⟨r, o'⟩, listed, rfl⟩ := List.mem_map.mp member
    have there := inv.known (r, o') listed
    simp [fresh] at there
  sources := by
    intro r r' member
    rcases List.mem_cons.mp member with new | old
    · cases new
      exact (source r' rfl).more [(ref, .restored r')]
    · exact (inv.sources r r' old).more [(ref, o)]

/-- A session that was not let in is closed and never was connected. -/
theorem not_live_of_ended {client : Client} {n n' : Node} {s : Session}
    (turn : Turn "" { ends := true } n (newSession ref client) n' s) :
    ¬ (s.closed = false ∨ s.connected = true) := by
  rintro (still | connected)
  · simp [turn.closed] at still
  · exact absurd (turn.connected connected) (by simp [newSession])

/-- What `Authenticate` does agrees with the recorded outcome. -/
theorem connect_inv {client : Client} {answer : Answer ConnectResult} {now : Instant} {n : Node}
    {s : Session} (inv : Inv t) (fresh : t.system.sessions.lookup ref = none)
    (vouched : Vouched t (.connect ref client answer now))
    (opened : Opened t.system.node (newSession ref client) answer n s) :
    Inv ⟨(t.system.put ref (n, s)).serve s,
      (ref, outcome t.system.node (newSession ref client) answer) :: t.connections⟩ := by
  cases opened with
  | restored entry found same closed subscriptions tracker writes =>
    have stored : Authenticated t.connections entry.writer := by
      unfold Node.restorable at found
      split at found
      · exact inv.cached _ entry found
      · cases found
    have ended : outcome t.system.node (newSession ref client) answer = .restored entry.writer := by
      simp [outcome, found]
    rw [ended]
    have new : Authenticated ((ref, .restored entry.writer) :: t.connections) ref :=
      .restored (by simp) (stored.more [(ref, .restored entry.writer)])
    refine inv.open fresh same (fun _ => new) (writes.imp fun writer commits => ?_) fun r taken => ?_
    · rwa [commits.2]
    · cases taken
      exact stored
  | accepted res missing clean answered success same closed subscriptions broker =>
    have ended : outcome t.system.node (newSession ref client) answer = .accepted := by
      simp [outcome, missing, clean, answered, success]
    rw [ended]
    have new : Authenticated ((ref, .accepted) :: t.connections) ref := .accepted (by simp)
    refine inv.open fresh same (fun _ => new) (broker.writes.imp fun writer commits => ?_)
      fun r taken => nomatch taken
    rwa [commits.2]
  | rejected res missing clean answered status turn =>
    have ended : outcome t.system.node (newSession ref client) answer = .rejected := by
      simp [outcome, missing, clean, answered, status]
    rw [ended]
    refine inv.open fresh turn.ref (fun live => absurd live (not_live_of_ended turn))
      (turn.writes.imp fun writer commits => ?_) fun r taken => nomatch taken
    exact absurd ended (vouched commits.1)
  | failed missing broken turn same =>
    have ended : outcome t.system.node (newSession ref client) answer = .failed := by
      obtain ⟨err, broken⟩ := Option.ne_none_iff_exists'.mp broken
      simp [outcome, missing, broken]
    rw [ended]
    exact inv.open fresh turn.ref (fun live => absurd live (not_live_of_ended turn))
      (same.writes.imp fun _ => False.elim) fun r taken => nomatch taken

theorem step_inv {a : Act} (inv : Inv t) (vouched : Vouched t a) (stepped : step t a = some u) :
    Inv u := by
  obtain ⟨system, moved, stepped⟩ := Option.bind_eq_some_iff.mp stepped
  cases stepped
  cases step_took moved with
  | connect fresh opened => exact connect_inv inv fresh vouched opened
  | @command ref msg answer now before n s found reading turn =>
    refine inv.carry_put found turn (turn.writes.imp fun writer commits => ?_)
    have authenticated := inv.reading ref reading
    rwa [commits.2, inv.keyed ref before found]
  | disconnect found turn same =>
    exact inv.carry_put found turn (same.writes.imp fun _ => False.elim)
  | disconnectNow found turn same =>
    exact inv.carry_put found turn (same.writes.imp fun _ => False.elim)
  | other general readers same sessions =>
    have none : observed t.system a = [] := by
      cases a with
      | connect => cases general
      | _ => rfl
    rw [none]
    refine inv.carry readers (fun ref there => ?_) (fun ref s found => ?_)
      (same.writes.imp fun _ => False.elim)
    · obtain ⟨old, before⟩ := Option.isSome_iff_exists.mp there
      obtain ⟨s, found, -⟩ := like_after (before ▸ sessions ref)
      simp [found]
    · obtain ⟨old, before, like⟩ := like_before (found ▸ sessions ref)
      exact ⟨old, before, like.ref, fun live => by rwa [← like.closed, ← like.connected]⟩

/-- A rejected session is not authenticated: its connection ended once. -/
theorem Inv.rejected_not_authenticated (inv : Inv t) (rejected : (ref, .rejected) ∈ t.connections) :
    ¬ Authenticated t.connections ref := by
  have unique := List.inj_on_of_nodup_map inv.once rejected
  intro authenticated
  cases authenticated with
  | accepted answered => cases unique answered rfl
  | restored taken _ => cases unique taken rfl

/-- In every run in which the controller rejects no resumable session, only authenticated
sessions are connected and nothing is restored from a rejected session. -/
theorem only_authenticated_unless_rejected (setup : Setup) (schedule : List Act) (t : Trace)
    (vouched : Run.Meets step Vouched ⟨setup.start, []⟩ schedule)
    (ran : Run.exec step ⟨setup.start, []⟩ schedule = some t) : OnlyAuthenticated t := by
  have inv := Run.invariant_of_meets (fun _ _ _ inv ok stepped => step_inv inv ok stepped)
    (inv_start setup) vouched ran
  refine ⟨fun ref s found connected => inv.live ref s found (Or.inr connected), ?_⟩
  intro ref source taken rejected
  exact inv.rejected_not_authenticated rejected (inv.sources ref source taken)

def setup : Setup := { codec := .blank, gatesNum := 1, memory := some ({}, "epoch") }

/-- The controller rejects the first connection; the second one names it. -/
def intrusion : List Act :=
  [.connect 1 { uid := "first", resumable := true } { res := some { status := .failure } } 0,
   .connect 2 { uid := "second", prevSid := "first", resumable := true }
     { res := some { status := .failure } } 0]

theorem intrusion_connected :
    ∃ t s, Run.exec step ⟨setup.start, []⟩ intrusion = some t ∧
      t.system.sessions.lookup 2 = some s ∧ s.connected = true ∧
      t.connections = [(2, .restored 1), (1, .rejected)] := by
  refine ⟨_, _, rfl, rfl, ?_⟩
  decide

theorem restored_from_rejected :
    ¬ ∀ (setup : Setup) (schedule : List Act) (t : Trace),
      Run.exec step ⟨setup.start, []⟩ schedule = some t → OnlyAuthenticated t := by
  intro always
  obtain ⟨t, s, ran, found, connected, connections⟩ := intrusion_connected
  have authenticated := (always setup intrusion t ran).1 2 s found connected
  rw [connections] at authenticated
  cases authenticated with
  | accepted answered => simp at answered
  | restored taken earlier =>
    simp only [List.mem_cons, Prod.mk.injEq, Outcome.restored.injEq, true_and, reduceCtorEq,
      and_false, List.not_mem_nil, or_false] at taken
    subst taken
    cases earlier with
    | accepted answered => simp at answered
    | restored taken _ => simp at taken

/-- A session is accepted, subscribes, leaves and is restored. -/
def reconnection : List Act :=
  [.connect 1 { uid := "first", resumable := true } { res := some { status := .success } } 0,
   .command 1 { command := "subscribe", identifier := "channel" }
     { res := some { status := .success, streams := some ["chat"] } } 0,
   .disconnectNow 1 0,
   .connect 2 { uid := "second", prevSid := "first", resumable := true }
     { err := some "down" } 0]

theorem reconnection_authenticated :
    ∃ t, Run.exec step ⟨setup.start, []⟩ reconnection = some t ∧
      (t.system.sessions.lookup 2).map (·.connected) = some true ∧ OnlyAuthenticated t :=
  ⟨_, rfl, rfl, only_authenticated_unless_rejected setup reconnection _ (by decide) rfl⟩

end AnyCable.Guarantees.SessionRestore
