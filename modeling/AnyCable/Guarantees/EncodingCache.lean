import AnyCable.Lib.Memo
import AnyCable.Source.Encoders
import AnyCable.Source.Gate

/-!
# One encoding for all sessions of an identifier

Source: `encoders/encoding_cache.go:21-58`, `hub/gate.go:135-172`,
`node/session.go:376-384,714-724`. The cached message of an identifier is keyed by the id of the
encoder, and every SSE encoder has the same id whatever its settings. A walk of `performBroadcast`
is a memoised walk (`sendAll_eq_memo`), so each session is sent what its own encoder makes of the
message exactly if the SSE sessions of one identifier have the settings that matter for the message
in common: `UnwrapData` for a message without type, `RawData` for one with a type.
-/

set_option autoImplicit false

namespace AnyCable.Guarantees.EncodingCache
open AnyCable.Lib AnyCable.Source AnyCable.Source.Encoders

section Fetch

variable {enc : Encoder} {cm : CachedEncodedMessage}

/-- A cached encoding is given out again. -/
theorem encodeMessage_known {v : Option SentFrame} (known : cm.cache.lookup enc.id = some v) :
    enqueued (encodeMessage enc cm).1 = v ∧ (encodeMessage enc cm).2 = cm := by
  cases v <;> simp [encodeMessage, EncodingCache.fetch, known, enqueued]

/-- The first encoding under an id is cached, a failed or suppressed one as `nil`. -/
theorem encodeMessage_new (new : cm.cache.lookup enc.id = none) :
    enqueued (encodeMessage enc cm).1 = enqueued (enc.encode cm.target) ∧
      (encodeMessage enc cm).2 =
        { cm with cache := cm.cache.insert enc.id (enqueued (enc.encode cm.target)) } := by
  cases result : enc.encode cm.target with
  | error text => simp [encodeMessage, EncodingCache.fetch, new, result, enqueued]
  | ok b => cases b <;> simp [encodeMessage, EncodingCache.fetch, new, result, enqueued]

end Fetch

section Walk

variable (unmarshal : String → Option Json) (encoder : SessionRef → Encoder)
  (msg : StreamMessage)

/-- What the session's own encoder makes of the message built for the identifier. -/
def directFrame (t : SessionRef × String) : Option SentFrame :=
  enqueued ((encoder t.1).encode (.reply (buildReply unmarshal msg t.2)))

/-- What an encoding is cached under. -/
def cacheKey (t : SessionRef × String) : String × String := (t.2, (encoder t.1).id)

/-- The nested caches hold what has been seen. -/
structure Agrees (buf : Buf) (seen : String × String → Option (Option SentFrame)) : Prop where
  cached : ∀ id k, seen (id, k) = (buf.lookup id).bind fun cm => cm.cache.lookup k
  target : ∀ id cm, buf.lookup id = some cm → cm.target = .reply (buildReply unmarshal msg id)

variable {unmarshal encoder msg} {buf : Buf} {seen : String × String → Option (Option SentFrame)}
  {session : SessionRef} {id : String}

/-- The message of an identifier, built before or now. -/
theorem Agrees.message (agrees : Agrees unmarshal msg buf seen) (id : String) :
    let cm := (buf.lookup id).getD (buildMessage unmarshal msg id)
    cm.target = .reply (buildReply unmarshal msg id) ∧ ∀ k, cm.cache.lookup k = seen (id, k) := by
  cases found : buf.lookup id with
  | none => exact ⟨rfl, fun k => by simp [agrees.cached, found, buildMessage]⟩
  | some cm => exact ⟨agrees.target id cm found, fun k => by simp [agrees.cached, found]⟩

/-- Writing back the message of an identifier with a cache that holds what has been seen. -/
theorem Agrees.insert (agrees : Agrees unmarshal msg buf seen) {cm : CachedEncodedMessage}
    {seen' : String × String → Option (Option SentFrame)}
    (target : cm.target = .reply (buildReply unmarshal msg id))
    (same : ∀ k, seen' (id, k) = cm.cache.lookup k)
    (others : ∀ other k, other ≠ id → seen' (other, k) = seen (other, k)) :
    Agrees unmarshal msg (buf.insert id cm) seen' := by
  constructor
  · intro other k
    by_cases at_id : other = id
    · subst at_id
      simp [same]
    · rw [others other k at_id, AList.lookup_insert_ne at_id, agrees.cached]
  · intro other cm' found
    by_cases at_id : other = id
    · subst at_id
      rw [AList.lookup_insert] at found
      rw [← Option.some.inj found, target]
    · rw [AList.lookup_insert_ne at_id] at found
      exact agrees.target other cm' found

theorem sendTo_eq (enc : Encoder) (buf : Buf) :
    sendTo unmarshal msg enc id buf =
      let sent := encodeMessage enc ((buf.lookup id).getD (buildMessage unmarshal msg id))
      (enqueued sent.1, buf.insert id sent.2) :=
  rfl

theorem sendTo_known (agrees : Agrees unmarshal msg buf seen) {v : Option SentFrame}
    (known : seen (cacheKey encoder (session, id)) = some v) :
    (sendTo unmarshal msg (encoder session) id buf).1 = v ∧
      Agrees unmarshal msg (sendTo unmarshal msg (encoder session) id buf).2 seen := by
  obtain ⟨target, cached⟩ := agrees.message id
  obtain ⟨frame, same⟩ := encodeMessage_known ((cached (encoder session).id).trans known)
  rw [sendTo_eq]
  refine ⟨frame, agrees.insert ?_ ?_ fun _ _ _ => rfl⟩
  · rw [same, target]
  · intro k
    rw [same, cached]

theorem sendTo_new (agrees : Agrees unmarshal msg buf seen)
    (new : seen (cacheKey encoder (session, id)) = none) :
    (sendTo unmarshal msg (encoder session) id buf).1 =
        directFrame unmarshal encoder msg (session, id) ∧
      Agrees unmarshal msg (sendTo unmarshal msg (encoder session) id buf).2
        (Function.update seen (cacheKey encoder (session, id))
          (some (directFrame unmarshal encoder msg (session, id)))) := by
  obtain ⟨target, cached⟩ := agrees.message id
  obtain ⟨frame, changed⟩ := encodeMessage_new ((cached (encoder session).id).trans new)
  rw [target] at frame changed
  rw [sendTo_eq]
  refine ⟨frame, agrees.insert ?_ ?_ ?_⟩
  · rw [changed]
  · intro k
    rw [changed, GoMap.lookup_insert_apply]
    split
    next same =>
      rw [same]
      exact Function.update_self _ _ _
    next different =>
      rw [cached, Function.update_of_ne]
      intro same
      exact different (congrArg Prod.snd same)
  · intro other k different
    rw [Function.update_of_ne]
    intro same
    exact different (congrArg Prod.fst same)

theorem sendAll_eq_memo (agrees : Agrees unmarshal msg buf seen)
    (targets : List (SessionRef × String)) :
    sendAll unmarshal encoder msg targets buf =
      memo (cacheKey encoder) (directFrame unmarshal encoder msg) seen targets := by
  induction targets generalizing buf seen with
  | nil => rfl
  | cons t targets ih =>
    obtain ⟨session, id⟩ := t
    rw [sendAll, memo]
    cases known : seen (cacheKey encoder (session, id)) with
    | some v =>
      obtain ⟨frame, kept⟩ := sendTo_known agrees known
      simp only [frame, ih kept]
    | none =>
      obtain ⟨frame, kept⟩ := sendTo_new agrees known
      simp only [frame, ih kept]

end Walk

section Settings

/-- The type that `buildMessage` gives the reply. -/
def messageType (msg : StreamMessage) : String :=
  match msg.metadata with
  | some m => m.broadcastType
  | none => ""

/-- Two SSE encoders have the setting in common that matters for a message of the type. -/
def SameMode (type : String) (e e' : Sse) : Prop :=
  if type = "" then e.unwrapData = e'.unwrapData else e.rawData = e'.rawData

instance (type : String) (e e' : Sse) : Decidable (SameMode type e e') :=
  inferInstanceAs (Decidable (if type = "" then e.unwrapData = e'.unwrapData
    else e.rawData = e'.rawData))

theorem buildReply_type (unmarshal : String → Option Json) (msg : StreamMessage) (id : String) :
    (buildReply unmarshal msg id).type = messageType msg := by
  unfold buildReply messageType
  cases msg.metadata <;> rfl

theorem toReplyFor_message (unmarshal : String → Option Json) (msg : StreamMessage)
    (id : String) : (toReplyFor unmarshal msg id).message.isNil = false := by
  unfold toReplyFor
  dsimp only
  split <;> rfl

theorem buildReply_message (unmarshal : String → Option Json) (msg : StreamMessage)
    (id : String) : (buildReply unmarshal msg id).message.isNil = false := by
  unfold buildReply
  cases msg.metadata <;> exact toReplyFor_message unmarshal msg id

variable {r : Reply} {e e' : Sse}

theorem length_unwrap (body : Value) : (Sse.unwrap body).length ≤ body.json.chars.length := by
  cases body with
  | nil => simp [Sse.unwrap, Value.json, Json.text]
  | value json => simp [Sse.unwrap, Value.json, Json.text]
  | text s =>
    have quoted := length_lt_quote s.toList
    rw [String.length_toList] at quoted
    exact Nat.le_of_lt quoted

/-- The message alone is shorter than the whole reply. -/
theorem unwrap_ne_json (present : r.message.isNil = false) :
    Sse.unwrap r.message ≠ r.json.text := by
  intro same
  have field : r.message.json.chars.length < r.json.chars.length := by
    apply Json.length_field_lt "message"
    simp [omitEmpty, present]
  have inner := length_unwrap r.message
  rw [same, Json.text, String.length_ofList] at inner
  omega

theorem addId_injective {msg : EncodedMessage} {p q : String}
    (same : Sse.addId msg p = Sse.addId msg q) : p = q := by
  cases msg with
  | ping | disconnect => exact same
  | reply r =>
    by_cases resumable : r.offset > 0 ∧ r.epoch ≠ "" ∧ r.streamId ≠ ""
    · rw [Sse.addId, if_pos resumable, Sse.addId, if_pos resumable] at same
      exact String.toList_inj.mp (by simpa using congrArg String.toList same)
    · rwa [Sse.addId, if_neg resumable, Sse.addId, if_neg resumable] at same

theorem encode_untyped (untyped : r.type = "") :
    enqueued (e.encode (.reply r)) = some ⟨.text, Sse.addId (.reply r)
      ("data: " ++ if e.unwrapData then Sse.unwrap r.message else r.json.text)⟩ := by
  have data : e.dataLine (.reply r) =
      "data: " ++ if e.unwrapData then Sse.unwrap r.message else r.json.text := by
    cases unwrapped : e.unwrapData <;> simp [Sse.dataLine, untyped, unwrapped]
  simp [Sse.encode, EncodedMessage.getType, Reply.getType, untyped, Sse.addRetry, data, enqueued]

theorem encode_typed (typed : r.type ≠ "") :
    enqueued (e.encode (.reply r)) = if e.rawData then none else
      some ⟨.text, Sse.addId (.reply r)
        ("event: " ++ r.type ++ "\n" ++ ("data: " ++ r.json.text))⟩ := by
  have data : e.dataLine (.reply r) = "data: " ++ r.json.text := by
    simp [Sse.dataLine, typed]
  have plain : ∀ payload, Sse.addRetry (.reply r) payload = payload := by
    intro payload
    simp [Sse.addRetry]
  cases raw : e.rawData <;>
    simp [Sse.encode, EncodedMessage.getType, Reply.getType, typed, plain, data, enqueued, raw]

/-- Two SSE encoders make the same of a reply exactly if they share the setting that matters. -/
theorem encode_eq_iff (present : r.message.isNil = false) :
    enqueued (e.encode (.reply r)) = enqueued (e'.encode (.reply r)) ↔ SameMode r.type e e' := by
  unfold SameMode
  split
  next untyped =>
    rw [encode_untyped untyped, encode_untyped untyped]
    constructor
    · intro same
      rw [Option.some.injEq, SentFrame.mk.injEq] at same
      have lines := addId_injective same.2
      have texts : (if e.unwrapData then Sse.unwrap r.message else r.json.text) =
          if e'.unwrapData then Sse.unwrap r.message else r.json.text := by
        exact String.toList_inj.mp (by simpa using congrArg String.toList lines)
      have differ := unwrap_ne_json present
      cases one : e.unwrapData <;> cases other : e'.unwrapData
      · rfl
      · rw [one, other] at texts
        exact absurd texts.symm differ
      · rw [one, other] at texts
        exact absurd texts differ
      · rfl
    · intro same
      rw [same]
  next typed =>
    rw [encode_typed typed, encode_typed typed]
    cases e.rawData <;> cases e'.rawData <;> simp

end Settings

section Broadcast

variable {unmarshal : String → Option Json} {encoder : SessionRef → Encoder}
  {msg : StreamMessage} {ts : List (SessionRef × String)}

/-- SSE sessions visited under one identifier have the setting in common that matters. -/
def Alike (encoder : SessionRef → Encoder) (msg : StreamMessage)
    (ts : List (SessionRef × String)) : Prop :=
  ∀ t ∈ ts, ∀ u ∈ ts, t.2 = u.2 → ∀ e e', encoder t.1 = .sse e → encoder u.1 = .sse e' →
    SameMode (messageType msg) e e'

theorem directFrame_eq_iff {t u : SessionRef × String} (id : t.2 = u.2) {e e' : Sse}
    (first : encoder t.1 = .sse e) (second : encoder u.1 = .sse e') :
    directFrame unmarshal encoder msg t = directFrame unmarshal encoder msg u ↔
      SameMode (messageType msg) e e' := by
  rw [directFrame, directFrame, id, first, second, ← buildReply_type unmarshal msg u.2]
  exact encode_eq_iff (buildReply_message unmarshal msg u.2)

/-- The cache confuses only SSE encoders with each other. -/
theorem uniform_iff_alike :
    Uniform (cacheKey encoder) (directFrame unmarshal encoder msg) ts ↔
      Alike encoder msg ts := by
  constructor
  · intro uniform t listed u other id e e' first second
    apply (directFrame_eq_iff id first second).mp
    apply uniform t listed u other
    rw [cacheKey, cacheKey, id, first, second]
    rfl
  · intro alike t listed u other same
    obtain ⟨id, encoders⟩ := Prod.ext_iff.mp same
    replace id : t.2 = u.2 := id
    replace encoders : (encoder t.1).id = (encoder u.1).id := encoders
    cases first : encoder t.1 with
    | json =>
      cases second : encoder u.1 with
      | json => rw [directFrame, directFrame, id, first, second]
      | sse e' => simp [first, second, Encoder.id] at encoders
    | sse e =>
      cases second : encoder u.1 with
      | json => simp [first, second, Encoder.id] at encoders
      | sse e' =>
        exact (directFrame_eq_iff id first second).mpr
          (alike t listed u other id e e' first second)

theorem agrees_start : Agrees unmarshal msg ∅ fun _ => none :=
  ⟨fun _ _ => by simp, fun _ _ found => by simp at found⟩

/-- Over every walk, the frames put in the queues are those of the sessions' own encoders exactly if
the SSE sessions of one identifier share the setting that matters for the message. -/
theorem cached_iff_alike (unmarshal : String → Option Json) (uid : SessionRef → String)
    (encoder : SessionRef → Encoder) (msg : StreamMessage)
    (snapshot : List (SessionRef × List String)) :
    performBroadcast unmarshal uid encoder msg snapshot =
        (snapshot.flatMap (visits uid msg)).map (directFrame unmarshal encoder msg) ↔
      Alike encoder msg (snapshot.flatMap (visits uid msg)) := by
  rw [performBroadcast, sendAll_eq_memo agrees_start, memo_eq_map_iff, uniform_iff_alike]

/-- A plain message for a GET session and a POST session on one identifier, then one with a type for
a raw session and another one. -/
def mixed : SessionRef → Encoder
  | 0 => .sse { unwrapData := true }
  | 1 => .sse {}
  | _ => .sse { rawData := true }

/-- The second session is sent the frame of the first: the message without the reply around it, or
nothing at all. -/
theorem frame_of_other_session :
    let uid : SessionRef → String := fun session => toString session
    let plain : StreamMessage := { stream := "s", data := "hi" }
    let typed : StreamMessage := { plain with metadata := some { broadcastType := "note" } }
    (performBroadcast (fun _ => none) uid mixed plain [(0, ["i"]), (1, ["i"])] =
        [some ⟨.text, "data: hi"⟩, some ⟨.text, "data: hi"⟩] ∧
      directFrame (fun _ => none) mixed plain (1, "i") =
        some ⟨.text,
          "data: \x7b\"identifier\":\"i\",\"message\":\"hi\"\x7d"⟩) ∧
      (performBroadcast (fun _ => none) uid mixed typed [(2, ["i"]), (1, ["i"])] =
          [none, none] ∧
        (directFrame (fun _ => none) mixed typed (1, "i")).isSome) := by
  decide +kernel

/-- The walk over the snapshot of a gate makes the calls of its targets. -/
theorem visits_snapshot (g : Gate) (uid : SessionRef → String) (msg : StreamMessage) :
    (((g.streams.lookup msg.stream).getD ∅).toPairs.map fun p => (p.1, p.2.keys)).flatMap
      (visits uid msg) = g.targets uid msg := by
  rw [List.flatMap_map]
  rfl

end Broadcast

end AnyCable.Guarantees.EncodingCache
