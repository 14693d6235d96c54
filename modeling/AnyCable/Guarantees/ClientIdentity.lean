import AnyCable.Lib.JsonTemplate
import AnyCable.Source.Identity

/-!
# Who a client is

Source: `identity/identity.go`, `identity/jwt.go:75-160`, `identity/public.go`,
`cli/cli.go:379-411`, `server/request_info.go:86-94`. A client that no token says anything about is
let in as anybody if authentication is skipped. Its identifiers are a JSON object that is meant to
have its session id as the only field. The client chooses its session id by a header, and it is not
escaped: the identifiers say what they should exactly if the session id has no quotes, backslashes
or characters below U+0020 (`anonymous_identity_iff_plain`), and so does the welcome message. A
client may give itself any fields (`anonymous_forges_fields`).

A session id is a text: one that is no valid UTF-8 is left out.
-/

set_option autoImplicit false

namespace AnyCable.Guarantees.ClientIdentity
open AnyCable.Lib AnyCable.Lib.Json AnyCable.Source AnyCable.Source.Identity

variable (tokens : Tokens) (config : Config) (controller : Authenticate)

/-- A token that is neither refused nor read: its claims are no map, or it is not valid. -/
def unread (token : Token) : Bool := token.claims.isNone || !token.valid

/-- Nothing is known of the client from a token: tokens are not used, the request has none and needs
none, or what it has is not read. -/
def Anonymous (request : Request) : Prop :=
  config.jwt.enabled = true →
    rawToken tokens config.jwt request = .ok "" ∧ config.jwt.force = false ∨
    ∃ text token, rawToken tokens config.jwt request = .ok text ∧ text ≠ "" ∧
      tokens.parse config.jwt.secret text = .ok token ∧ unread token = true

/-! ### What anonymous clients are called -/

theorem pipeline_singleton (identifier : Authenticate) : pipeline [identifier] = identifier := by
  funext sid request
  simp only [pipeline]
  split
  · rfl
  next missing =>
    simp only [Bool.or_eq_true, not_or, Bool.not_eq_true, Option.isSome_eq_false_iff,
      Option.isNone_iff_eq_none] at missing
    cases answer : identifier sid request with
    | mk res err =>
      rw [answer] at missing
      obtain ⟨rfl, rfl⟩ := missing
      rfl

/-- However many identifiers there are, they form a pipeline. -/
theorem newController_eq :
    newController tokens config controller = identifiable controller (pipeline
      ((if config.jwt.enabled then [jwtIdentify tokens config.jwt] else []) ++
        if config.skipAuth then [publicIdentify] else [])) := by
  unfold newController
  cases config.jwt.enabled <;> cases config.skipAuth
  · rfl
  · exact congrArg (identifiable controller) (pipeline_singleton _).symm
  · exact congrArg (identifiable controller) (pipeline_singleton _).symm
  · rfl

/-- An identifier that leaves the decision to the next one. -/
def Silent (answer : Answer ConnectResult) : Prop := answer.err = none ∧ answer.res = none

variable {tokens config controller} {request : Request}

theorem silent_jwtIdentify (anonymous : Anonymous tokens config request)
    (enabled : config.jwt.enabled = true) (sid : String) :
    Silent (jwtIdentify tokens config.jwt sid request) := by
  unfold jwtIdentify
  rcases anonymous enabled with ⟨missing, lax⟩ | ⟨text, token, found, present, parsed, skipped⟩
  · simp [missing, lax, Silent]
  · simp only [found, parsed]
    obtain ⟨claims, valid⟩ := token
    cases claims <;> cases valid <;> simp_all [Silent, unread]

/-- A template with one place, and the object it is the text of. -/
theorem template_eq {head tail : String} {fields : List (String × Json)} {name : String}
    (start : List Char) (opens : head.toList = start) (closes : tail.toList = ['\x22', '\x7d'])
    (shape : ∀ text, objectText fields name text = start ++ (text ++ ['\x22', '\x7d']))
    (sid : String) :
    head ++ sid ++ tail = String.ofList (objectText fields name sid.toList) := by
  apply String.toList_inj.mp
  rw [String.toList_ofList, shape, String.toList_append, String.toList_append, opens, closes,
    List.append_assoc]

theorem publicIdentifiers_eq (sid : String) :
    publicIdentifiers sid = String.ofList (objectText [] "sid" sid.toList) := by
  refine template_eq ('\x7b' :: (quote "sid".toList ++ [':', '\x22']))
    (by decide +kernel) (by decide +kernel) (fun text => ?_) sid
  simp [objectText, fieldsText]

theorem actionCableWelcomeMessage_eq (sid : String) :
    actionCableWelcomeMessage sid =
      String.ofList (objectText [("type", .str "welcome")] "sid" sid.toList) := by
  refine template_eq ('\x7b' :: (quote "type".toList ++ ':' ::
      (quote "welcome".toList ++ ',' :: (quote "sid".toList ++ [':', '\x22']))))
    (by decide +kernel) (by decide +kernel) (fun text => ?_) sid
  simp [objectText, fieldsText, chars]

/-- A client without a token that gets in by itself. -/
theorem anonymous_answer (controller : Authenticate)
    (anonymous : Anonymous tokens config request) (skips : config.skipAuth = true) (sid : String) :
    ∃ res, newController tokens config controller sid request = { res := some res } ∧
      res.status = .success ∧ res.identifier = publicIdentifiers sid ∧
      res.transmissions = [actionCableWelcomeMessage sid] := by
  refine ⟨{ identifier := publicIdentifiers sid
            transmissions := [actionCableWelcomeMessage sid]
            cState := some ∅
            disconnectInterest := -1
            status := .success }, ?_, rfl, rfl, rfl⟩
  rw [newController_eq, skips]
  cases enabled : config.jwt.enabled with
  | false => rfl
  | true =>
    obtain ⟨clean, missing⟩ := silent_jwtIdentify anonymous enabled sid
    simp only [identifiable, pipeline, if_true, List.cons_append, List.nil_append, clean, missing]
    rfl

/-- For every anonymous client: its identifiers, and the message that welcomes it, say what its
session id is exactly if the session id is plain. -/
theorem anonymous_identity_iff_plain (tokens : Tokens) (config : Config)
    (controller : Authenticate) (request : Request) (sid : String)
    (anonymous : Anonymous tokens config request) (skips : config.skipAuth = true) :
    ∃ res welcome, newController tokens config controller sid request = { res := some res } ∧
      res.status = .success ∧ res.transmissions = [welcome] ∧
      (parse res.identifier = some (.obj [("sid", .str sid)]) ↔ Plain sid.toList) ∧
      (parse welcome = some (.obj [("type", .str "welcome"), ("sid", .str sid)]) ↔
        Plain sid.toList) := by
  obtain ⟨res, answer, success, identifier, transmissions⟩ :=
    anonymous_answer controller anonymous skips sid
  refine ⟨res, _, answer, success, transmissions, ?_, ?_⟩
  · have exact_ := parse_objectText_iff (show validFields [] = true from rfl) "sid" sid.toList
    rw [identifier, publicIdentifiers_eq]
    simpa only [List.nil_append, String.ofList_toList] using exact_
  · have exact_ := parse_objectText_iff
      (show validFields [("type", .str "welcome")] = true from rfl) "sid" sid.toList
    rw [actionCableWelcomeMessage_eq]
    simpa only [List.cons_append, List.nil_append, String.ofList_toList] using exact_

/-- Nothing is looked for in requests. -/
def noTokens : Tokens where
  param := fun _ _ => .ok none
  parse := fun _ _ => .error .invalid
  toLower := fun text => text

theorem anonymous_identity_quote :
    ∃ res, newController noTokens { skipAuth := true } (fun _ _ => {}) "a\"b" ⟨"", none⟩ =
        { res := some res } ∧
      parse res.identifier ≠ some (.obj [("sid", .str "a\"b")]) := by
  obtain ⟨res, welcome, answer, -, -, identifier, -⟩ := anonymous_identity_iff_plain noTokens
    { skipAuth := true } (fun _ _ => {}) ⟨"", none⟩ "a\"b"
    (by simp [Anonymous, JWTConfig.enabled]) rfl
  refine ⟨res, answer, fun read => ?_⟩
  have plain := identifier.mp read
  revert plain
  decide

/-! ### What a client may call itself -/

theorem fieldsText_last (fields : List (String × Json)) (name : String) (text : List Char) :
    ∃ start, fieldsText fields name text = start ++ ['\x22'] := by
  induction fields with
  | nil => exact ⟨quote name.toList ++ ':' :: '\x22' :: text, by simp [fieldsText]⟩
  | cons field fields ih =>
    obtain ⟨start, shape⟩ := ih
    exact ⟨quote field.1.toList ++ ':' :: (field.2.chars ++ ',' :: start),
      by simp [fieldsText, shape]⟩

/-- Of what the characters of the fields are. -/
theorem forall_mem_fieldsText {P : Char → Prop} (quotes : P '\x22') (colon : P ':') (comma : P ',')
    {fields : List (String × Json)} {name : String} {text : List Char}
    (parts : ∀ f ∈ fields, (∀ c ∈ quote f.1.toList, P c) ∧ ∀ c ∈ f.2.chars, P c)
    (named : ∀ c ∈ quote name.toList, P c) (chars : ∀ c ∈ text, P c) :
    ∀ c ∈ fieldsText fields name text, P c := by
  induction fields with
  | nil =>
    simp only [fieldsText, List.forall_mem_append, List.forall_mem_cons]
    exact ⟨named, colon, quotes, chars, quotes, List.forall_mem_nil P⟩
  | cons field fields ih =>
    obtain ⟨⟨first, value⟩, parts⟩ := List.forall_mem_cons.mp parts
    simp only [fieldsText, List.forall_mem_append, List.forall_mem_cons]
    exact ⟨first, colon, value, comma, ih parts⟩

theorem printable_of_plain {text : List Char} (plain : Plain text) : Printable text := by
  intro c member
  have head := plain c member
  simp only [isPlain, decide_eq_true_eq] at head
  exact head.2.2

/-- The character U+007F, which a header must not have, is not among those of a text. -/
def Undeleted (text : List Char) : Prop := ∀ c ∈ text, c ≠ '\x7f'

theorem undeleted_quote {text : List Char} (clean : Undeleted text) : Undeleted (quote text) := by
  have digit : ∀ d < 16, Nat.digitChar d ≠ '\x7f' := by decide
  have escaped (c : Char) (kept : c ≠ '\x7f') : Undeleted (escapeChar c) := by
    fun_cases escapeChar c with
    | case1 | case2 | case3 | case4 | case5 | case6 | case7 => simp [Undeleted]
    | case8 =>
      simp only [Undeleted, hexDigits, List.forall_mem_cons]
      exact ⟨by decide, by decide, digit _ (Nat.mod_lt _ (by decide)),
        digit _ (Nat.mod_lt _ (by decide)), digit _ (Nat.mod_lt _ (by decide)),
        digit _ (Nat.mod_lt _ (by decide)), List.forall_mem_nil _⟩
    | case9 => simpa [Undeleted] using kept
  simp only [Undeleted, quote, List.forall_mem_cons, List.forall_mem_append]
  refine ⟨by decide, fun c member => ?_, by decide, List.forall_mem_nil _⟩
  obtain ⟨d, inside, member⟩ := List.mem_flatMap.mp member
  exact escaped d (clean d inside) c member

/-- Any fields can be smuggled into a session id without control characters. -/
theorem exists_sid {fields : List (String × Json)} (ok : validFields fields = true) (name : String)
    {text : String} (plain : Plain text.toList) :
    ∃ sid : String, Printable sid.toList ∧
      ((∀ f ∈ fields, Undeleted f.1.toList ∧ Undeleted f.2.chars) → Undeleted name.toList →
        Undeleted text.toList → Undeleted sid.toList) ∧
      parse (publicIdentifiers sid) =
        some (.obj (("sid", .str "") :: fields ++ [(name, .str text)])) := by
  obtain ⟨start, shape⟩ := fieldsText_last fields name text.toList
  refine ⟨String.ofList ('\x22' :: ',' :: start), ?_, fun parts named kept => ?_, ?_⟩
  · have clean : Printable (fieldsText fields name text.toList) :=
      forall_mem_fieldsText (by decide) (by decide) (by decide)
        (fun f _ => ⟨printable_quote _, chars_printable f.2⟩) (printable_quote _) (printable_of_plain plain)
    rw [shape, printable_append] at clean
    rw [String.toList_ofList, printable_cons, printable_cons]
    exact ⟨by decide, by decide, clean.1⟩
  · have clean : Undeleted (fieldsText fields name text.toList) :=
      forall_mem_fieldsText (by decide) (by decide) (by decide)
        (fun f member => ⟨undeleted_quote (parts f member).1, (parts f member).2⟩)
        (undeleted_quote named) kept
    rw [shape] at clean
    rw [String.toList_ofList]
    simp only [Undeleted, List.forall_mem_cons, List.forall_mem_append] at clean ⊢
    exact ⟨by decide, by decide, clean.1⟩
  · have same : objectText [] "sid" ('\x22' :: ',' :: start) =
        objectText (("sid", .str "") :: fields) name text.toList := by
      simp [objectText, fieldsText, shape, chars, quote]
    have read := (parse_objectText_iff (show validFields (("sid", .str "") :: fields) = true from
      ok) name text.toList).mpr plain
    rw [publicIdentifiers_eq, String.toList_ofList, same]
    simpa only [String.ofList_toList] using read

/-- An anonymous client may have any fields among its identifiers, by its choice of a session id
without control characters: U+007F is in it only if it is in the fields. -/
theorem anonymous_forges_fields (tokens : Tokens) (config : Config) (controller : Authenticate)
    (request : Request) (fields : List (String × Json)) (name text : String)
    (anonymous : Anonymous tokens config request) (skips : config.skipAuth = true)
    (ok : validFields fields = true) (plain : Plain text.toList) :
    ∃ sid res, Printable sid.toList ∧
      ((∀ f ∈ fields, Undeleted f.1.toList ∧ Undeleted f.2.chars) → Undeleted name.toList →
        Undeleted text.toList → Undeleted sid.toList) ∧
      newController tokens config controller sid request = { res := some res } ∧
      res.status = .success ∧
      parse res.identifier = some (.obj (("sid", .str "") :: fields ++ [(name, .str text)])) := by
  obtain ⟨sid, printable, undeleted, parsed⟩ := exists_sid ok name plain
  obtain ⟨res, answer, success, identifier, -⟩ :=
    anonymous_answer controller anonymous skips sid
  exact ⟨sid, res, printable, undeleted, answer, success, by rw [identifier]; exact parsed⟩

theorem anonymous_forges_admin :
    ∃ sid res, newController noTokens { skipAuth := true } (fun _ _ => {}) sid ⟨"", none⟩ =
        { res := some res } ∧
      parse res.identifier =
        some (.obj [("sid", .str ""), ("admin", .bool true), ("note", .str "x")]) := by
  obtain ⟨sid, res, -, -, answer, -, forged⟩ := anonymous_forges_fields noTokens
    { skipAuth := true } (fun _ _ => {}) ⟨"", none⟩ [("admin", .bool true)] "note" "x"
    (by simp [Anonymous, JWTConfig.enabled]) rfl rfl (by decide)
  exact ⟨sid, res, answer, forged⟩

end AnyCable.Guarantees.ClientIdentity
