import AnyCable.Source.SystemSteps

/-!
# Who holds a stream

A stream is held by a session under a channel identifier as long as the session is not closed
and its `SubscriptionState` has the pair. The steps of a run are read as changes of who holds
what, next to the changes of the tracker given by `Turn` and `Opened`.
-/

set_option autoImplicit false

namespace AnyCable.Source
open AnyCable.Lib

/-- A session and one of its channel identifiers. -/
abbrev Holder := SessionRef × String

namespace System

def Holds (x : System) (h : Holder) (st : String) : Prop :=
  ∃ s, x.sessions.lookup h.1 = some s ∧ s.closed = false ∧ s.subscriptions.Holds h.2 st

/-- The channels of one session that hold the stream. -/
def sessionHolders (st : String) (p : SessionRef × Session) : List Holder :=
  if p.2.closed then []
  else (p.2.subscriptions.pairs.filter fun q => q.2 = st).map fun q => (p.1, q.1)

/-- All holders of the stream. -/
def holders (x : System) (st : String) : List Holder :=
  x.sessions.toPairs.flatMap (sessionHolders st)

/-- The streams that a step adds to the tracker, once for each call of `Add`. -/
def started (x : System) : Act → List String
  | .connect ref client _ _ =>
    match x.node.restorable (newSession ref client) with
    | none => []
    | some entry => (Session.restoreSubscriptions {} entry.subscriptions).pairs.map Prod.snd
  | .command ref msg answer _ =>
    match x.sessions.lookup ref with
    | none => []
    | some s => (commandChange s msg answer).acquired
  | _ => []

variable {x y : System} {h : Holder} {st : String} {ref : SessionRef}

theorem mem_holders : h ∈ x.holders st ↔ x.Holds h st := by
  obtain ⟨r, id⟩ := h
  simp only [holders, List.mem_flatMap, Holds]
  constructor
  · rintro ⟨⟨r', s⟩, listed, member⟩
    unfold sessionHolders at member
    split at member
    · cases member
    next live =>
      simp only [List.mem_map, List.mem_filter, decide_eq_true_eq, Prod.mk.injEq] at member
      obtain ⟨⟨id', st'⟩, ⟨pair, rfl⟩, rfl, rfl⟩ := member
      exact ⟨s, GoMap.lookup_of_mem_toPairs listed, by simpa using live,
        SubscriptionState.mem_pairs.mp pair⟩
  · rintro ⟨s, found, live, holds⟩
    refine ⟨(r, s), GoMap.mem_toPairs_iff.mpr found, ?_⟩
    simp only [sessionHolders, live, Bool.false_eq_true, if_false, List.mem_map, List.mem_filter,
      decide_eq_true_eq, Prod.mk.injEq]
    exact ⟨(id, st), ⟨SubscriptionState.mem_pairs.mpr holds, rfl⟩, trivial, rfl⟩

theorem not_holds_start (setup : Setup) : ¬ setup.start.Holds h st := by
  rintro ⟨s, found, -⟩
  simp [Setup.start] at found

theorem holds_put_same {n : Node} {s : Session} {id : String} :
    (x.put ref (n, s)).Holds (ref, id) st ↔ s.closed = false ∧ s.subscriptions.Holds id st := by
  simp only [Holds, put_lookup, Option.some.injEq, exists_eq_left']

theorem holds_put_other {n : Node} {s : Session} {r : SessionRef} {id : String}
    (other : r ≠ ref) : (x.put ref (n, s)).Holds (r, id) st ↔ x.Holds (r, id) st := by
  simp only [Holds, put_lookup_ne _ _ other]

theorem holds_of_lookup {s : Session} {id : String} (found : x.sessions.lookup ref = some s)
    (live : s.closed = false) : x.Holds (ref, id) st ↔ s.subscriptions.Holds id st := by
  simp only [Holds, found, Option.some.injEq, exists_eq_left', live, true_and]

/-- Who holds the stream after a call about one channel of a live session. -/
theorem holds_turn {before s : Session} {n : Node} {id : String} {c : StreamChange}
    (found : x.sessions.lookup ref = some before) (live : before.closed = false)
    (turn : Turn id c x.node before n s) :
    (x.put ref (n, s)).Holds h st ↔
      (h.1 ≠ ref ∧ x.Holds h st) ∨
      (h.1 = ref ∧ c.ends = false ∧ ((h = (ref, id) ∧ st ∈ c.acquired ∧ c.present = true) ∨
        (x.Holds h st ∧ ¬ (h = (ref, id) ∧ st ∈ c.dropped)))) := by
  obtain ⟨r, id'⟩ := h
  by_cases same : r = ref
  · subst same
    rw [holds_put_same, turn.closed, live, Bool.false_or, turn.holds,
      holds_of_lookup found live]
    simp
  · rw [holds_put_other same]
    simp [same]

/-- A closed session holds nothing, before and after. -/
theorem holds_closed {before s : Session} {n : Node} {id : String} {c : StreamChange}
    (found : x.sessions.lookup ref = some before) (closed : before.closed = true)
    (turn : Turn id c x.node before n s) : (x.put ref (n, s)).Holds h st ↔ x.Holds h st := by
  obtain ⟨r, id'⟩ := h
  by_cases same : r = ref
  · subst same
    rw [holds_put_same, turn.closed, closed]
    simp [Holds, found, closed]
  · exact holds_put_other same

theorem holds_serve {s : Session} : (x.serve s).Holds h st ↔ x.Holds h st := by
  rw [Holds, Holds, serve_sessions]

theorem not_holds_fresh {id : String} (fresh : x.sessions.lookup ref = none) :
    ¬ x.Holds (ref, id) st := by
  rintro ⟨s, found, -⟩
  simp [fresh] at found

theorem holds_like (sessions : ∀ ref,
    Option.Rel Session.Like (x.sessions.lookup ref) (y.sessions.lookup ref)) :
    y.Holds h st ↔ x.Holds h st := by
  constructor
  · rintro ⟨s, found, live, holds⟩
    obtain ⟨old, before, like⟩ := like_before (found ▸ sessions h.1)
    exact ⟨old, before, like.closed ▸ live, like.subscriptions ▸ holds⟩
  · rintro ⟨old, before, live, holds⟩
    obtain ⟨s, found, like⟩ := like_after (before ▸ sessions h.1)
    exact ⟨s, found, like.closed.trans live, like.subscriptions.symm ▸ holds⟩

/-- What a new connection holds: all the streams of a restored session, or nothing. -/
theorem holds_opened {client : Client} {answer : Answer ConnectResult} {n : Node} {s : Session}
    (now : Instant) (fresh : x.sessions.lookup ref = none)
    (opened : Opened x.node (newSession ref client) answer n s) :
    ∃ taken : List (String × String),
      taken.map Prod.snd = x.started (.connect ref client answer now) ∧
      n.broker.tracker = x.node.broker.tracker.addEach (taken.map Prod.snd) ∧
      ∀ h st, ((x.put ref (n, s)).serve s).Holds h st ↔
        x.Holds h st ∨ (h.1 = ref ∧ (h.2, st) ∈ taken) := by
  -- a session that is closed or has no subscriptions holds nothing
  have nothing : (∀ id st, ¬ (s.closed = false ∧ s.subscriptions.Holds id st)) →
      ∀ h st, ((x.put ref (n, s)).serve s).Holds h st ↔
        x.Holds h st ∨ (h.1 = ref ∧ (h.2, st) ∈ []) := by
    rintro empty ⟨r, id⟩ st
    rw [holds_serve]
    by_cases same : r = ref
    · subst same
      simp [holds_put_same, empty, not_holds_fresh fresh]
    · simp [holds_put_other same]
  cases opened with
  | restored entry found ref' closed subscriptions tracker writes =>
    refine ⟨s.subscriptions.pairs, ?_, tracker, ?_⟩
    · rw [started, found, subscriptions]
      rfl
    · rintro ⟨r, id⟩ st
      rw [holds_serve]
      by_cases same : r = ref
      · subst same
        have live : s.closed = false := closed
        simp [holds_put_same, not_holds_fresh fresh, SubscriptionState.mem_pairs, live]
      · simp [holds_put_other same, same]
  | accepted res missing clean answered success ref' closed subscriptions broker =>
    refine ⟨[], by rw [started, missing]; rfl, broker.tracker, nothing fun id st holds => ?_⟩
    rw [subscriptions] at holds
    exact SubscriptionState.not_holds_empty holds.2
  | rejected res missing clean answered status turn =>
    exact ⟨[], by rw [started, missing]; rfl, turn.tracker,
      nothing fun id st holds => by simp [turn.closed] at holds⟩
  | failed missing broken turn same =>
    exact ⟨[], by rw [started, missing]; rfl, turn.tracker,
      nothing fun id st holds => by simp [turn.closed] at holds⟩

end System

end AnyCable.Source
