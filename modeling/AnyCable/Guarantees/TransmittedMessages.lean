import AnyCable.Lib.Float64
import AnyCable.Source.Transmissions

/-!
# Messages sent directly and as transmissions

Source: `sse/encoder.go:34-91`, `common/common.go:473-506,588-591`. A message can be given to the
SSE encoder as it is, or as the JSON text that a transmission carries. The text is read as a
`Reply`.

* A disconnect message is no longer one: fields that are empty are left out of the data, and the
  `retry` field, which keeps a client from coming back, is written for the message itself only.
* A reply is read back up to its untyped parts, the message and the info of a presence event
  (`unmarshal_reply`), which are decoded and encoded again.

`transmissions_alike_iff` says for which messages the two frames are the same.
-/

set_option autoImplicit false

namespace AnyCable.Guarantees.TransmittedMessages
open AnyCable.Lib AnyCable.Source AnyCable.Source.Encoders

variable (floats : Floats)

/-! ### A reply that is read back -/

/-- An untyped value after it has been read from its text. -/
def again : Value → Value
  | .value j => Value.ofJson (j.reencode floats)
  | body => body

/-- It can be read. -/
def fits : Value → Bool
  | .value j => j.inRange floats
  | _ => true

def eventAgain (p : PresenceEvent) : PresenceEvent :=
  { p with info := again floats p.info }

def replyAgain (r : Reply) : Reply :=
  { r with message := again floats r.message, presence := r.presence.map (eventAgain floats) }

/-- Every untyped part of the reply can be read. -/
def replyFits (r : Reply) : Bool :=
  fits floats r.message && (r.presence.all fun p => fits floats p.info)

variable {floats}

theorem inRange_json (body : Value) : body.json.inRange floats = fits floats body := by
  cases body <;> rfl

theorem ofJson_reencode (body : Value) :
    Value.ofJson (body.json.reencode floats) = again floats body := by
  cases body <;> rfl

section Fields

variable {S : Type} {fields : List (JsonField S)}

theorem unmarshal_append (s : S) (front back : List (String × Json)) :
    unmarshal fields s (.obj (front ++ back)) =
      (unmarshal fields s (.obj front)).bind fun t => unmarshal fields t (.obj back) := by
  simp [unmarshal, List.foldlM_append]

/-- A field that may be left out, whether it can be read or not. -/
theorem unmarshal_field {s : S} {name : String} {value : Json} {empty : Bool} {result : Option S}
    (read : assign fields s (name, value) = result) (same : empty = true → result = some s) :
    unmarshal fields s (.obj (omitEmpty empty name value)) = result := by
  unfold omitEmpty
  split
  next nothing =>
    rw [same nothing]
    rfl
  · simp [unmarshal, read]

variable {s : S} {name : String}

theorem unmarshal_text (put : String → S → S) {text : String}
    (read : assign fields s (name, .str text) = some (put text s)) (unset : put "" s = s) :
    unmarshal fields s (.obj (omitEmpty (text == "") name (.str text))) = some (put text s) := by
  refine unmarshal_field read fun empty => ?_
  rw [beq_iff_eq.mp empty, unset]

theorem unmarshal_flag (put : Bool → S → S) {flag : Bool}
    (read : assign fields s (name, .bool flag) = some (put flag s)) (unset : put false s = s) :
    unmarshal fields s (.obj (omitEmpty (!flag) name (.bool flag))) = some (put flag s) := by
  refine unmarshal_field read fun off => ?_
  rw [Bool.not_eq_true'] at off
  rw [off, unset]

/-- An untyped field is read as the value after decoding, if it fits. -/
theorem unmarshal_untyped (put : Value → S → S) {body : Value}
    (read : ∀ value : Json, assign fields s (name, value) =
      if value.inRange floats then some (put (Value.ofJson (value.reencode floats)) s) else none)
    (unset : put .nil s = s) :
    unmarshal fields s (.obj (omitEmpty body.isNil name body.json)) =
      if fits floats body then some (put (again floats body) s) else none := by
  refine unmarshal_field ?_ fun nil => ?_
  · rw [read, inRange_json, ofJson_reencode]
  · cases body with
    | nil => simp [fits, again, unset]
    | text t => simp [Value.isNil] at nil
    | value j => simp [Value.isNil] at nil

end Fields

theorem unmarshal_event (p : PresenceEvent) :
    unmarshal (PresenceEvent.fields floats) { id := "" } p.json =
      if fits floats p.info then some (eventAgain floats p) else none := by
  rw [PresenceEvent.json, unmarshal_append, unmarshal_append,
    unmarshal_text (fun t p => { p with type := t }) rfl rfl, Option.bind_some,
    unmarshal_untyped (fun body p => { p with info := body }) (fun _ => rfl) rfl]
  split
  · rfl
  · rfl

theorem mapM_stringItem (texts : List String) :
    (texts.map Json.str).mapM stringItem = some texts := by
  induction texts with
  | nil => rfl
  | cons text texts ih => simp [stringItem, ih]

section Reply

variable {r : Reply}

/-- The fields after the untyped ones come back as they are. -/
theorem unmarshal_typed (small : r.offset < 2 ^ 64) (type identifier : String) (message : Value)
    (presence : Option PresenceEvent) :
    unmarshal (Reply.fields floats) { type, identifier, message, presence }
      (.obj (omitEmpty (r.reason == "") "reason" (.str r.reason) ++
        (omitEmpty (!r.reconnect) "reconnect" (.bool r.reconnect) ++
        (omitEmpty (r.streamId == "") "stream_id" (.str r.streamId) ++
        (omitEmpty (r.epoch == "") "epoch" (.str r.epoch) ++
        (omitEmpty (r.offset == 0) "offset" (.num (numeral r.offset)) ++
        (omitEmpty (r.sid == "") "sid" (.str r.sid) ++
        (omitEmpty (!r.restored) "restored" (.bool r.restored) ++
        omitEmpty r.restoredIds.isEmpty "restored_ids" (.arr (r.restoredIds.map .str)))))))))) =
      some { r with type, identifier, message, presence } := by
  have offset (x : Reply) (unset : x.offset = 0) : unmarshal (Reply.fields floats) x
      (.obj (omitEmpty (r.offset == 0) "offset" (.num (numeral r.offset)))) =
        some { x with offset := r.offset } := by
    refine unmarshal_field (congrArg (Option.map _) (parseUint_toDigits small)) fun empty => ?_
    rw [beq_iff_eq.mp empty, ← unset]
  have ids (x : Reply) (unset : x.restoredIds = []) : unmarshal (Reply.fields floats) x
      (.obj (omitEmpty r.restoredIds.isEmpty "restored_ids" (.arr (r.restoredIds.map .str)))) =
        some { x with restoredIds := r.restoredIds } := by
    refine unmarshal_field (congrArg (Option.map _) (mapM_stringItem r.restoredIds)) fun empty => ?_
    rw [List.isEmpty_iff.mp empty, ← unset]
  rw [unmarshal_append, unmarshal_text (fun t x => { x with reason := t }) rfl rfl,
    Option.bind_some,
    unmarshal_append, unmarshal_flag (fun b x => { x with reconnect := b }) rfl rfl,
    Option.bind_some,
    unmarshal_append, unmarshal_text (fun t x => { x with streamId := t }) rfl rfl,
    Option.bind_some,
    unmarshal_append, unmarshal_text (fun t x => { x with epoch := t }) rfl rfl,
    Option.bind_some,
    unmarshal_append, offset _ rfl, Option.bind_some,
    unmarshal_append, unmarshal_text (fun t x => { x with sid := t }) rfl rfl,
    Option.bind_some,
    unmarshal_append, unmarshal_flag (fun b x => { x with restored := b }) rfl rfl,
    Option.bind_some, ids _ rfl]

theorem unmarshal_presence (type identifier : String) (message : Value) :
    unmarshal (Reply.fields floats) { type, identifier, message }
      (.obj (r.presence.map fun p => ("presence", p.json)).toList) =
      if r.presence.all fun p => fits floats p.info then
        some { type, identifier, message, presence := r.presence.map (eventAgain floats) }
      else none := by
  cases shape : r.presence with
  | none => rfl
  | some p =>
    have read : assign (Reply.fields floats) { type, identifier, message } ("presence", p.json) =
        (if fits floats p.info then some (eventAgain floats p) else none).map fun t =>
          { type, identifier, message, presence := some t } := by
      rw [← unmarshal_event]
      rfl
    simp only [Option.map_some, Option.toList_some, unmarshal, List.foldlM_cons, read,
      Option.all_some]
    split
    · rfl
    · rfl

/-- A reply is read back up to its untyped parts, if those can be read. -/
theorem unmarshal_reply (small : r.offset < 2 ^ 64) :
    Reply.unmarshal floats r.json =
      if replyFits floats r then some (replyAgain floats r) else none := by
  simp only [Reply.unmarshal, Reply.json, List.append_assoc]
  rw [unmarshal_append, unmarshal_text (fun t x => { x with type := t }) rfl rfl,
    Option.bind_some,
    unmarshal_append, unmarshal_text (fun t x => { x with identifier := t }) rfl rfl,
    Option.bind_some, unmarshal_append,
    unmarshal_untyped (fun body x => { x with message := body }) (fun _ => rfl) rfl]
  cases read : fits floats r.message with
  | false => simp [replyFits, read]
  | true =>
    rw [if_pos rfl, Option.bind_some, unmarshal_append, unmarshal_presence]
    cases event : r.presence.all fun p => fits floats p.info with
    | false => simp [replyFits, event]
    | true =>
      rw [if_pos rfl, Option.bind_some, unmarshal_typed small]
      simp [replyFits, read, event, replyAgain]

end Reply

/-! ### Equal data -/

variable (floats) in
/-- The value is the same after it has been read, as a member of an object. -/
def KeptWithin : Value → Prop
  | .value j => j ≠ .null ∧ j.reencode floats = j
  | _ => True

variable (floats) in
/-- The value is the same after it has been read, as data of its own: a string would lose its
quotes. -/
def KeptAlone : Value → Prop
  | .value j => (∀ s, j ≠ .str s) ∧ j.reencode floats = j
  | _ => True

theorem text_inj {a b : Json} (validA : a.valid = true) (validB : b.valid = true) :
    a.text = b.text ↔ a = b := by
  constructor
  · intro same
    have parsed := Json.parse_text validA
    rw [same, Json.parse_text validB, Option.some.injEq] at parsed
    exact parsed.symm
  · intro same
    rw [same]

theorem isNil_ofJson (j : Json) : (Value.ofJson j).isNil = true ↔ j = .null := by
  cases j <;> simp [Value.ofJson, Value.isNil]

theorem member_again_iff (name : String) (body : Value) :
    omitEmpty (again floats body).isNil name (again floats body).json =
      omitEmpty body.isNil name body.json ↔ KeptWithin floats body := by
  cases body with
  | nil => simp [again, KeptWithin]
  | text s => simp [again, KeptWithin]
  | value j =>
    have written : omitEmpty (Value.value j).isNil name (Value.value j).json = [(name, j)] := rfl
    rw [written, again, Value.json_ofJson]
    by_cases gone : j.reencode floats = .null
    · -- the member is left out
      rw [omitEmpty, if_pos ((isNil_ofJson _).mpr gone)]
      simp [KeptWithin, gone, eq_comm]
    · rw [omitEmpty, if_neg (mt (isNil_ofJson _).mp gone)]
      simp only [KeptWithin, List.cons.injEq, Prod.mk.injEq, true_and, and_true]
      constructor
      · intro same
        exact ⟨same ▸ gone, same⟩
      · exact And.right

theorem json_eventAgain_iff (p : PresenceEvent) :
    (eventAgain floats p).json = p.json ↔ KeptWithin floats p.info := by
  rw [← member_again_iff "info"]
  simp [PresenceEvent.json, eventAgain]

/-- The untyped members of a reply can be told apart by their names. -/
theorem members_inj {m m' : List (String × Json)} (named : ∀ x ∈ m, x.1 = "message")
    (named' : ∀ x ∈ m', x.1 = "message") (p p' : Option Json) :
    m' ++ (p'.map fun j => ("presence", j)).toList = m ++ (p.map fun j => ("presence", j)).toList ↔
      m' = m ∧ p' = p := by
  have front {l : List (String × Json)} (all : ∀ x ∈ l, x.1 = "message") (q : Option Json) :
      (l ++ (q.map fun j => ("presence", j)).toList).filter (fun x => x.1 == "message") = l := by
    have kept : l.filter (fun x => x.1 == "message") = l :=
      List.filter_eq_self.mpr fun x inside => beq_iff_eq.mpr (all x inside)
    cases q with
    | none => simp [kept]
    | some j => simp [kept]
  constructor
  · intro same
    have messages : m' = m := by
      rw [← front named' p', same, front named p]
    rw [messages, List.append_cancel_left_eq] at same
    refine ⟨messages, ?_⟩
    cases p <;> cases p' <;> simp_all
  · rintro ⟨rfl, rfl⟩
    rfl

theorem json_replyAgain_iff (r : Reply) :
    (replyAgain floats r).json = r.json ↔
      KeptWithin floats r.message ∧ ∀ p ∈ r.presence, KeptWithin floats p.info := by
  have named (body : Value) :
      ∀ x ∈ omitEmpty body.isNil "message" body.json, x.1 = "message" := by
    unfold omitEmpty
    split
    · simp
    · simp
  have parts := members_inj (named r.message) (named (again floats r.message))
    (r.presence.map PresenceEvent.json)
    (r.presence.map fun p => (eventAgain floats p).json)
  have events : (r.presence.map fun p => (eventAgain floats p).json) =
      r.presence.map PresenceEvent.json ↔ ∀ p ∈ r.presence, KeptWithin floats p.info := by
    cases r.presence with
    | none => simp
    | some p => simp [json_eventAgain_iff]
  rw [member_again_iff, events] at parts
  rw [← parts]
  simp only [Reply.json, replyAgain, Json.obj.injEq, List.append_cancel_right_eq,
    List.append_assoc (_ ++ _) _ _, List.append_cancel_left_eq, Option.map_map,
    Function.comp_def]

theorem reencode_eq_str {j : Json} {s : String} : j.reencode floats = .str s ↔ j = .str s := by
  cases j with
  | num n => cases printed : floats.reprint n <;> simp [Json.reencode, printed]
  | _ => simp [Json.reencode]

theorem unwrap_ofJson {j : Json} (other : ∀ s, j ≠ .str s) :
    Sse.unwrap (Value.ofJson j) = j.text := by
  cases j with
  | str s => exact absurd rfl (other s)
  | _ => rfl

/-- A string is shorter than its text, which has the quotes. -/
theorem ne_text_str (s : String) : s ≠ (Json.str s).text := by
  intro same
  have length := congrArg (fun t => t.toList.length) same
  simp only [Json.text, Json.chars, String.toList_ofList] at length
  have bound := length_lt_quote s.toList
  omega

theorem unwrap_again_iff {body : Value} (valid : body.json.valid = true) :
    Sse.unwrap (again floats body) = Sse.unwrap body ↔ KeptAlone floats body := by
  cases body with
  | nil => simp [again, KeptAlone]
  | text s => simp [again, KeptAlone]
  | value j =>
    have written : Sse.unwrap (.value j) = j.text := rfl
    rw [written, again, KeptAlone]
    rw [Value.json] at valid
    by_cases string : ∃ s, j = .str s
    · obtain ⟨s, rfl⟩ := string
      simpa [Json.reencode, Value.ofJson, Sse.unwrap] using ne_text_str s
    · have other : ∀ s, j ≠ .str s := fun s same => string ⟨s, same⟩
      rw [unwrap_ofJson fun s => mt reencode_eq_str.mp (other s),
        text_inj (Json.valid_reencode floats j) valid]
      simp [other]

/-! ### Equal frames -/

/-- The lines around the data of a reply. -/
def typeLine (r : Reply) : String :=
  if r.type = "" then "" else "event: " ++ r.type ++ "\n"

def idLine (r : Reply) : String :=
  if r.offset > 0 ∧ r.epoch ≠ "" ∧ r.streamId ≠ "" then "\nid: " ++ Sse.lastId r else ""

theorem encode_reply (e : Sse) (r : Reply) :
    e.encode (.reply r) =
      if r.type ≠ "" ∧ e.rawData then .ok none
      else .ok (some ⟨.text, typeLine r ++ e.dataLine (.reply r) ++ idLine r⟩) := by
  have position (payload : String) : Sse.addId (.reply r) payload = payload ++ idLine r := by
    simp only [Sse.addId, idLine]
    split
    · rw [String.append_assoc]
    · rw [String.append_empty]
  have retry (payload : String) : Sse.addRetry (.reply r) payload = payload := by
    simp [Sse.addRetry]
  simp only [Sse.encode, position, retry, EncodedMessage.getType, Reply.getType, typeLine]
  by_cases untyped : r.type = ""
  · simp [untyped]
  · by_cases raw : e.rawData = true
    · simp [untyped, raw]
    · simp [untyped, raw]

variable (floats) in
/-- The replies that are sent alike. -/
structure Alike (e : Sse) (r : Reply) : Prop where
  /-- The transmission can be read. -/
  readable : replyFits floats r = true
  /-- Nothing is sent, or the same data. -/
  data : (r.type ≠ "" ∧ e.rawData = true) ∨
    if r.type = "" ∧ e.unwrapData then KeptAlone floats r.message
    else KeptWithin floats r.message ∧ ∀ p ∈ r.presence, KeptWithin floats p.info

section Reply

variable {r : Reply}

/-- What a reply has to be for its text to be JSON. -/
structure Representable (r : Reply) : Prop where
  message : r.message.json.valid = true
  presence : ∀ p ∈ r.presence, p.info.json.valid = true
  /-- The offset is a `uint64`. -/
  offset : r.offset < 2 ^ 64

theorem valid_again (body : Value) : (again floats body).json.valid = true := by
  cases body with
  | nil => rfl
  | text s => rfl
  | value j =>
    rw [again, Value.json_ofJson]
    exact Json.valid_reencode floats j

theorem valid_replyAgain (r : Reply) : (replyAgain floats r).json.valid = true := by
  apply valid_reply (valid_again r.message)
  intro p given
  obtain ⟨q, -, rfl⟩ := Option.mem_map.mp given
  exact valid_again q.info

theorem dataLine_again_iff (e : Sse) (ok : Representable r) :
    e.dataLine (.reply (replyAgain floats r)) = e.dataLine (.reply r) ↔
      if r.type = "" ∧ e.unwrapData then KeptAlone floats r.message
      else KeptWithin floats r.message ∧ ∀ p ∈ r.presence, KeptWithin floats p.info := by
  have type : (replyAgain floats r).type = r.type := rfl
  simp only [Sse.dataLine, type]
  split
  · rw [String.append_right_inj]
    exact unwrap_again_iff ok.message
  · rw [String.append_right_inj,
      text_inj (valid_replyAgain r) (valid_reply ok.message ok.presence)]
    exact json_replyAgain_iff r

theorem transmitted_reply_iff (unmarshalError : String → String) (e : Sse)
    (ok : Representable r) :
    e.encodeTransmission floats unmarshalError r.json.text = e.encode (.reply r) ↔
      Alike floats e r := by
  rw [Sse.encodeTransmission, Json.parse_text (valid_reply ok.message ok.presence),
    Option.bind_some, unmarshal_reply ok.offset]
  by_cases readable : replyFits floats r = true
  · rw [if_pos readable]
    have type : (replyAgain floats r).type = r.type := rfl
    have lines : typeLine (replyAgain floats r) = typeLine r ∧
        idLine (replyAgain floats r) = idLine r := ⟨rfl, rfl⟩
    simp only [encode_reply, type, lines]
    by_cases suppressed : r.type ≠ "" ∧ e.rawData = true
    · rw [if_pos suppressed, if_pos suppressed]
      exact iff_of_true rfl ⟨readable, .inl suppressed⟩
    · rw [if_neg suppressed, if_neg suppressed]
      simp only [Except.ok.injEq, Option.some.injEq, SentFrame.mk.injEq, true_and,
        String.append_left_inj, String.append_right_inj]
      rw [dataLine_again_iff e ok]
      exact ⟨fun same => ⟨readable, .inr same⟩, fun alike => alike.data.resolve_left suppressed⟩
  · rw [if_neg readable, encode_reply]
    refine iff_of_false ?_ fun alike => readable alike.readable
    dsimp only
    split
    · simp
    · simp

end Reply

/-! ### Disconnect messages -/

/-- The reply that a disconnect message is read as. -/
def asReply (d : DisconnectMessage) : Reply where
  type := "disconnect"
  reason := d.reason
  reconnect := d.reconnect

theorem unmarshal_disconnect (d : DisconnectMessage) :
    Reply.unmarshal floats (DisconnectMessage.json ⟨"disconnect", d.reason, d.reconnect⟩) =
      some (asReply d) := rfl

/-- A reply leaves out what is empty. -/
theorem json_asReply_iff (d : DisconnectMessage) :
    (asReply d).json = d.json ↔ d.type = "disconnect" ∧ d.reason ≠ "" ∧ d.reconnect = true := by
  obtain ⟨type, reason, reconnect⟩ := d
  by_cases empty : reason = ""
  · cases reconnect with
    | false => simp [asReply, Reply.json, DisconnectMessage.json, omitEmpty, Value.isNil, empty]
    | true => simp [asReply, Reply.json, DisconnectMessage.json, omitEmpty, Value.isNil, empty]
  · cases reconnect with
    | false => simp [asReply, Reply.json, DisconnectMessage.json, omitEmpty, Value.isNil, empty]
    | true =>
      simp [asReply, Reply.json, DisconnectMessage.json, omitEmpty, Value.isNil, empty]
      exact eq_comm

/-- Data in one line has no `retry` field after it. -/
theorem text_ne_retry (j k : Json) (rest : String) : j.text ≠ k.text ++ ("\nretry: " ++ rest) := by
  intro same
  have line := Json.chars_oneLine j
  have chars := congrArg String.toList same
  simp only [Json.text, String.toList_append, String.toList_ofList] at chars
  rw [chars, oneLine_append, oneLine_append] at line
  exact absurd line.2.1 (by decide)

/-- The frame of a disconnect message, when it is sent. -/
theorem encode_disconnect {e : Sse} (d : DisconnectMessage) (shown : e.rawData = false) :
    e.encode (.disconnect d) = .ok (some ⟨.text, "event: disconnect\n" ++ ("data: " ++
      (d.json.text ++ if d.reconnect then "" else
        "\nretry: " ++ toString Sse.retryNoReconnect))⟩) := by
  cases back : d.reconnect with
  | true =>
    simp [Sse.encode, Sse.dataLine, Sse.addId, Sse.addRetry, EncodedMessage.getType,
      DisconnectMessage.getType, EncodedMessage.json, shown, back]
  | false =>
    simp [Sse.encode, Sse.dataLine, Sse.addId, Sse.addRetry, EncodedMessage.getType,
      DisconnectMessage.getType, EncodedMessage.json, shown, back, String.append_assoc]

theorem encode_asReply {e : Sse} (d : DisconnectMessage) (shown : e.rawData = false) :
    e.encode (.reply (asReply d)) =
      .ok (some ⟨.text, "event: disconnect\n" ++ ("data: " ++ (asReply d).json.text)⟩) := by
  simp [encode_reply, typeLine, idLine, Sse.dataLine, asReply, shown]

theorem transmitted_disconnect_iff (unmarshalError : String → String) (e : Sse)
    (d : DisconnectMessage) :
    e.encodeTransmission floats unmarshalError (disconnectionMessage d.reason d.reconnect) =
        e.encode (.disconnect d) ↔
      e.rawData = true ∨ (d.type = "disconnect" ∧ d.reason ≠ "" ∧ d.reconnect = true) := by
  have parsed : Json.parse (disconnectionMessage d.reason d.reconnect) =
      some (DisconnectMessage.json ⟨"disconnect", d.reason, d.reconnect⟩) :=
    Json.parse_text rfl
  rw [Sse.encodeTransmission, parsed, Option.bind_some, unmarshal_disconnect]
  cases raw : e.rawData with
  | true =>
    simp [asReply, Sse.encode, EncodedMessage.getType, Reply.getType, DisconnectMessage.getType,
      raw]
  | false =>
    have texts : (asReply d).json.text = d.json.text ↔ (asReply d).json = d.json :=
      text_inj (valid_reply rfl (by simp [asReply])) rfl
    simp only [encode_asReply d raw, encode_disconnect d raw, Except.ok.injEq, Option.some.injEq,
      SentFrame.mk.injEq, true_and, String.append_right_inj, Bool.false_eq_true, false_or]
    cases back : d.reconnect with
    | true =>
      rw [if_pos rfl, String.append_empty, texts, json_asReply_iff, back]
    | false =>
      rw [if_neg (by decide)]
      exact iff_of_false (text_ne_retry _ _ _) fun sent => by simp at sent

/-- For every setting of the encoder: a disconnect message and its transmission have the same frame
if and only if nothing is sent or the client is to reconnect for a reason that is given; and a reply
and its transmission have the same frame if and only if its untyped parts can be read and, as far as
they are sent, are encoded as they were. -/
theorem transmissions_alike_iff (floats : Floats) (unmarshalError : String → String) (e : Sse) :
    (∀ d : DisconnectMessage,
      e.encodeTransmission floats unmarshalError (disconnectionMessage d.reason d.reconnect) =
          e.encode (.disconnect d) ↔
        e.rawData = true ∨ (d.type = "disconnect" ∧ d.reason ≠ "" ∧ d.reconnect = true)) ∧
    ∀ r : Reply, Representable r →
      (e.encodeTransmission floats unmarshalError r.json.text = e.encode (.reply r) ↔
        Alike floats e r) :=
  ⟨transmitted_disconnect_iff unmarshalError e,
    fun _ ok => transmitted_reply_iff unmarshalError e ok⟩

/-- A reply with a flag as its message. -/
theorem flag_sent_alike :
    Representable { identifier := "room", message := .value (.bool true), offset := 3 } ∧
      Sse.encodeTransmission Float64.floats (fun raw => raw) {}
          (Reply.json { identifier := "room", message := .value (.bool true), offset := 3 }).text =
        Sse.encode {}
          (.reply { identifier := "room", message := .value (.bool true), offset := 3 }) := by
  have ok : Representable
      { identifier := "room", message := .value (.bool true), offset := 3 } :=
    ⟨rfl, by simp, by decide⟩
  refine ⟨ok, ((transmissions_alike_iff Float64.floats (fun raw => raw) {}).2 _ ok).mpr ⟨rfl, ?_⟩⟩
  right
  rw [if_neg (by simp)]
  exact ⟨⟨Json.noConfusion, rfl⟩, by simp⟩

/-- A client that must not come back is told so directly, but not by a transmission; and a large
number changes on the way. -/
theorem transmissions_differ :
    Sse.encode {} (.disconnect ⟨"disconnect", "auth", false⟩) =
        .ok (some ⟨.text, "event: disconnect\ndata: \x7b\"type\":\"disconnect\"," ++
          "\"reason\":\"auth\",\"reconnect\":false\x7d\nretry: 31536000000"⟩) ∧
      Sse.encodeTransmission Float64.floats (fun raw => raw) {}
          (disconnectionMessage "auth" false) =
        .ok (some ⟨.text, "event: disconnect\ndata: \x7b\"type\":\"disconnect\"," ++
          "\"reason\":\"auth\"\x7d"⟩) ∧
      Sse.encode {} (.reply { message := .value (.num (numeral 9007199254740993)) }) =
        .ok (some ⟨.text, "data: \x7b\"message\":9007199254740993\x7d"⟩) ∧
      Sse.encodeTransmission Float64.floats (fun raw => raw) {}
          (Reply.json { message := .value (.num (numeral 9007199254740993)) }).text =
        .ok (some ⟨.text, "data: \x7b\"message\":9007199254740992\x7d"⟩) := by
  refine ⟨?_, ?_, ?_, ?_⟩
  all_goals decide +kernel

end AnyCable.Guarantees.TransmittedMessages
