import AnyCable.Source.StreamsController

/-!
# Who may subscribe to a stream directly

Source: `streams/controller.go:36-217`, `utils/message_verifier.go:43-107`. A controller lets a
client have the stream it names if public streams are allowed, and otherwise the one that a name
signed with the configured secret stands for. Whenever `Subscribe` returns, this is what it does,
and a refusal carries no stream and no state. Without a secret there is no verifier: a signed name
of two parts makes `Subscribe` read the key of a `nil` pointer and panic (`signed_name_panics`).
`subscribe_exact_iff` has both: the exact condition for a panic and the exact result otherwise.
-/

set_option autoImplicit false

namespace AnyCable.Guarantees.DirectStreams
open AnyCable.Lib AnyCable.Source AnyCable.Source.Streams

/-- A controller as it is built. -/
inductive Built where
  | streams (conf : Streams.Config)
  | turbo (key : String)
  | cableReady (key : String)

namespace Built

def controller (lib : Library) : Built → Controller
  | .streams conf => newStreamsController lib conf
  | .turbo key => newTurboController lib key
  | .cableReady key => newCableReadyController lib key

def secret : Built → String
  | .streams conf => conf.secret
  | .turbo key | .cableReady key => key

def allowsPublic : Built → Bool
  | .streams conf => conf.isPublic
  | .turbo _ | .cableReady _ => false

def signedName (field identifier : String) : Option (String × String) :=
  ((Json.parse identifier).bind (unmarshal [.string field fun text _ => text] "")).map (("", ·))

/-- The stream name and the signed stream name of an identifier, if it can be decoded. -/
def names : Built → String → Option (String × String)
  | .streams _, identifier =>
    ((Json.parse identifier).bind (unmarshal SubscribeRequest.fields {})).map fun r =>
      (r.streamName, r.signedStreamName)
  | .turbo _, identifier => signedName "signed_stream_name" identifier
  | .cableReady _, identifier => signedName "identifier" identifier

/-- Whispering is on for every public stream. -/
def whispers : Built → String → Bool
  | .streams conf, name => conf.whisper || name != ""
  | .turbo _, _ | .cableReady _, _ => false

def hasPresence : Built → String → Bool
  | .streams conf, name => conf.presence || name != ""
  | .turbo _, _ | .cableReady _, _ => false

end Built

/-- A signed name that stands for a stream under a secret. -/
def Verifies (lib : Library) (secret signed stream : String) : Prop :=
  ∃ data digest text, split signed = [data, digest] ∧ lib.hmac secret data = digest ∧
    lib.decodeString data = .ok text ∧ Json.parse text = some (.str stream)

/-- What a client may subscribe to. -/
def Authorized (lib : Library) (b : Built) (identifier stream : String) : Prop :=
  ∃ name signed, b.names identifier = some (name, signed) ∧
    (b.allowsPublic = true ∧ name = stream ∧ stream ≠ "" ∨
      name = "" ∧ b.secret ≠ "" ∧ Verifies lib b.secret signed stream)

/-- A signed name that gets as far as the signature. -/
def TwoParts (signed : String) : Prop := ∃ data digest, split signed = [data, digest]

/-! ### The verifier -/

section Verifier

variable (lib : Library) {signed : String}

theorem split_empty : split "" = [""] := rfl

theorem not_twoParts_empty : ¬ TwoParts "" := by
  rintro ⟨data, digest, parts⟩
  cases split_empty.symm.trans parts

theorem validate_twoParts (m : Option MessageVerifier) {data digest : String}
    (parts : split signed = [data, digest]) :
    MessageVerifier.validate lib m signed =
      (MessageVerifier.verifySignature lib m data digest).map fun holds =>
        if holds then .ok () else .error "invalid signature" := by
  have nonempty : signed ≠ "" := by
    rintro rfl
    exact not_twoParts_empty ⟨data, digest, parts⟩
  unfold MessageVerifier.validate
  rw [if_neg nonempty, parts]

theorem validate_other (m : Option MessageVerifier) (other : ¬ TwoParts signed) :
    ∃ err, MessageVerifier.validate lib m signed = some (.error err) := by
  unfold MessageVerifier.validate
  split
  · exact ⟨_, rfl⟩
  · split
    next data digest parts => exact absurd ⟨data, digest, parts⟩ other
    · exact ⟨_, rfl⟩

theorem verified_other (m : Option MessageVerifier) (other : ¬ TwoParts signed) :
    ∃ err, MessageVerifier.verified lib m signed = some (.error err) := by
  obtain ⟨err, invalid⟩ := validate_other lib m other
  exact ⟨_, by rw [MessageVerifier.verified, invalid]; rfl⟩

/-- The value behind the signature. -/
theorem payload_eq_ok {data digest : String} {value : Json} (parts : split signed = [data, digest]) :
    MessageVerifier.payload lib signed = .ok value ↔
      ∃ text, lib.decodeString data = .ok text ∧ Json.parse text = some value := by
  unfold MessageVerifier.payload
  rw [parts, List.headD_cons]
  cases lib.decodeString data with
  | error err => simp [bind, Except.bind]
  | ok text =>
    cases read : Json.parse text with
    | none => simp [bind, Except.bind, read]
    | some value => simp [bind, Except.bind, read, pure, Except.pure]

/-- Without a verifier a name of two parts makes the call panic. -/
theorem verified_nil (two : TwoParts signed) : MessageVerifier.verified lib none signed = none := by
  obtain ⟨data, digest, parts⟩ := two
  rw [MessageVerifier.verified, validate_twoParts lib none parts]
  rfl

theorem verified_key (key signed : String) :
    ∃ res, MessageVerifier.verified lib (some ⟨key⟩) signed = some res ∧
      ∀ value, res = .ok value ↔ ∃ data digest text, split signed = [data, digest] ∧
        lib.hmac key data = digest ∧ lib.decodeString data = .ok text ∧
        Json.parse text = some value := by
  by_cases two : TwoParts signed
  · obtain ⟨data, digest, parts⟩ := two
    have validated := validate_twoParts lib (some ⟨key⟩) parts
    by_cases holds : lib.hmac key data = digest
    · refine ⟨MessageVerifier.payload lib signed, ?_, fun value => ?_⟩
      · simp [MessageVerifier.verified, validated, MessageVerifier.verifySignature, holds]
      · rw [payload_eq_ok lib parts]
        constructor
        · rintro ⟨text, decoded, read⟩
          exact ⟨data, digest, text, parts, holds, decoded, read⟩
        · rintro ⟨data', digest', text, parts', -, decoded, read⟩
          cases parts.symm.trans parts'
          exact ⟨text, decoded, read⟩
    · have refused : MessageVerifier.verified lib (some ⟨key⟩) signed =
          some (.error (lib.decorate "invalid signature" "failed to verify message")) := by
        simp [MessageVerifier.verified, validated, MessageVerifier.verifySignature, holds]
      refine ⟨_, refused, fun value => iff_of_false nofun ?_⟩
      rintro ⟨data', digest', text, parts', signed', -⟩
      cases parts.symm.trans parts'
      exact holds signed'
  · obtain ⟨err, refused⟩ := verified_other lib (some ⟨key⟩) two
    refine ⟨_, refused, fun value => iff_of_false nofun ?_⟩
    rintro ⟨data, digest, text, parts, -⟩
    exact two ⟨data, digest, parts⟩

end Verifier

/-! ### The resolvers -/

section Resolvers

variable (lib : Library) {b : Built} {identifier name signed : String}

theorem verifier_eq (b : Built) :
    (b.controller lib).verifier = if b.secret ≠ "" then some ⟨b.secret⟩ else none := by
  cases b with
  | streams conf => rfl
  | turbo key => rfl
  | cableReady key => rfl

theorem signedOnly_none {field : String} (undecoded : Built.signedName field identifier = none) :
    ∃ err, signedOnly lib field identifier = .error err := by
  have failed := Option.map_eq_none_iff.mp undecoded
  exact ⟨_, by rw [signedOnly, unmarshalText, failed]; rfl⟩

theorem signedOnly_some {field : String}
    (decoded : Built.signedName field identifier = some (name, signed)) :
    name = "" ∧ signedOnly lib field identifier = .ok { signedStreamName := signed } := by
  obtain ⟨text, read, same⟩ := Option.map_eq_some_iff.mp decoded
  cases same
  exact ⟨rfl, by rw [signedOnly, unmarshalText, read]; rfl⟩

theorem resolver_none (undecoded : b.names identifier = none) :
    ∃ err, (b.controller lib).resolver identifier = .error err := by
  cases b with
  | streams conf =>
    have failed := Option.map_eq_none_iff.mp undecoded
    refine ⟨lib.unmarshalError identifier, ?_⟩
    simp only [Built.controller, newStreamsController, newController, unmarshalText, failed]
    rfl
  | turbo key => exact signedOnly_none lib undecoded
  | cableReady key => exact signedOnly_none lib undecoded

/-- The request that a controller makes of the two names. -/
def requestOf (b : Built) (name signed : String) : SubscribeRequest where
  streamName := name
  signedStreamName := signed
  whisper := b.whispers name
  presence := b.hasPresence name

theorem resolver_some (decoded : b.names identifier = some (name, signed)) :
    (b.controller lib).resolver identifier =
      if name ≠ "" ∧ b.allowsPublic = false then .error "public streams are not allowed"
      else .ok (requestOf b name signed) := by
  cases b with
  | streams conf =>
    obtain ⟨request, read, same⟩ := Option.map_eq_some_iff.mp decoded
    cases same
    simp only [Built.controller, newStreamsController, newController, unmarshalText, read]
    have same : (!conf.isPublic && request.streamName != "") = true ↔
        request.streamName ≠ "" ∧ conf.isPublic = false := by
      simp [and_comm]
    simp only [bind, Except.bind, same, Built.allowsPublic]
    rfl
  | turbo key =>
    obtain ⟨rfl, resolved⟩ := signedOnly_some lib decoded
    exact resolved
  | cableReady key =>
    obtain ⟨rfl, resolved⟩ := signedOnly_some lib decoded
    exact resolved

end Resolvers

/-! ### `Subscribe` -/

section Subscribe

variable (lib : Library) {b : Built} {identifier name signed st : String}

/-- The condition under which a call panics. -/
def Panics (b : Built) (identifier : String) : Prop :=
  b.secret = "" ∧ ∃ signed, b.names identifier = some ("", signed) ∧ TwoParts signed

theorem authorized_iff (decoded : b.names identifier = some (name, signed)) :
    Authorized lib b identifier st ↔
      b.allowsPublic = true ∧ name = st ∧ st ≠ "" ∨
        name = "" ∧ b.secret ≠ "" ∧ Verifies lib b.secret signed st := by
  constructor
  · rintro ⟨name', signed', decoded', granted⟩
    cases decoded.symm.trans decoded'
    exact granted
  · intro granted
    exact ⟨name, signed, decoded, granted⟩

theorem panics_iff (decoded : b.names identifier = some (name, signed)) :
    Panics b identifier ↔ b.secret = "" ∧ name = "" ∧ TwoParts signed := by
  constructor
  · rintro ⟨empty, signed', decoded', two⟩
    cases decoded.symm.trans decoded'
    exact ⟨empty, rfl, two⟩
  · rintro ⟨empty, rfl, two⟩
    exact ⟨empty, signed, decoded, two⟩

/-- What an answer is to be: a success for the one stream that the client may have, or a failure
if there is none. -/
def Right (lib : Library) (b : Built) (identifier : String) (ans : Answer CommandResult) : Prop :=
  (∃ name signed stream, b.names identifier = some (name, signed) ∧
      ans = ⟨some (success identifier (requestOf b name signed) stream), none⟩ ∧
      ∀ st, Authorized lib b identifier st ↔ st = stream) ∨
    ∃ err, ans = ⟨some (failure identifier), err⟩ ∧ ∀ st, ¬ Authorized lib b identifier st

theorem subscribe_undecoded (undecoded : b.names identifier = none) :
    ∃ ans, subscribe lib (b.controller lib) identifier = some ans ∧ Right lib b identifier ans := by
  obtain ⟨err, failed⟩ := resolver_none lib undecoded
  refine ⟨_, by rw [subscribe, failed], Or.inr ⟨_, rfl, ?_⟩⟩
  rintro st ⟨name, signed, decoded, -⟩
  cases undecoded.symm.trans decoded

theorem subscribe_named (decoded : b.names identifier = some (name, signed)) (named : name ≠ "") :
    ∃ ans, subscribe lib (b.controller lib) identifier = some ans ∧ Right lib b identifier ans := by
  have resolved := resolver_some lib decoded
  by_cases allowed : b.allowsPublic = true
  · rw [if_neg (by simp [allowed])] at resolved
    refine ⟨⟨some (success identifier (requestOf b name signed) name), none⟩, ?_,
      Or.inl ⟨name, signed, name, decoded, rfl, fun st => ?_⟩⟩
    · simp [subscribe, resolved, SubscribeRequest.isPresent, requestOf, named]
    · rw [authorized_iff lib decoded]
      constructor
      · rintro (⟨-, same, -⟩ | ⟨unnamed, -⟩)
        · exact same.symm
        · exact absurd unnamed named
      · rintro rfl
        exact Or.inl ⟨allowed, rfl, named⟩
  · rw [if_pos ⟨named, by simpa using allowed⟩] at resolved
    refine ⟨_, by rw [subscribe, resolved], Or.inr ⟨_, rfl, fun st => ?_⟩⟩
    rw [authorized_iff lib decoded]
    rintro (⟨isPublic, -⟩ | ⟨unnamed, -⟩)
    · exact allowed isPublic
    · exact named unnamed

theorem subscribe_signed (decoded : b.names identifier = some ("", signed)) :
    (subscribe lib (b.controller lib) identifier = none ∧ b.secret = "" ∧ TwoParts signed) ∨
    ∃ ans, subscribe lib (b.controller lib) identifier = some ans ∧
      ¬ (b.secret = "" ∧ TwoParts signed) ∧ Right lib b identifier ans := by
  have resolved := resolver_some lib decoded
  rw [if_neg (by simp)] at resolved
  have authorized (st : String) : Authorized lib b identifier st ↔
      b.secret ≠ "" ∧ Verifies lib b.secret signed st := by
    rw [authorized_iff lib decoded]
    constructor
    · rintro (⟨-, rfl, unnamed⟩ | ⟨-, granted⟩)
      · exact absurd rfl unnamed
      · exact granted
    · intro granted
      exact Or.inr ⟨rfl, granted⟩
  by_cases nothing : signed = ""
  · -- an identifier without any name
    subst nothing
    have refused : subscribe lib (b.controller lib) identifier =
        some ⟨some (failure identifier),
          some "malformed identifier: no stream name or signed stream"⟩ := by
      simp [subscribe, resolved, SubscribeRequest.isPresent, requestOf]
    refine Or.inr ⟨_, refused, fun two => not_twoParts_empty two.2, Or.inr ⟨_, rfl, fun st => ?_⟩⟩
    rw [authorized]
    rintro ⟨-, data, digest, text, parts, -⟩
    exact not_twoParts_empty ⟨data, digest, parts⟩
  · have verify : subscribe lib (b.controller lib) identifier =
        (MessageVerifier.verified lib (b.controller lib).verifier signed).map
          (answerSigned identifier (requestOf b "" signed)) := by
      simp [subscribe, resolved, SubscribeRequest.isPresent, requestOf, nothing]
    rw [verify, verifier_eq]
    by_cases keyless : b.secret = ""
    · rw [if_neg (not_not.mpr keyless)]
      by_cases two : TwoParts signed
      · refine Or.inl ⟨?_, keyless, two⟩
        rw [verified_nil lib two]
        rfl
      · obtain ⟨err, refused⟩ := verified_other lib none two
        refine Or.inr ⟨_, by rw [refused]; rfl, fun both => two both.2, Or.inr ⟨_, rfl, ?_⟩⟩
        intro st granted
        exact ((authorized st).mp granted).1 keyless
    · rw [if_pos keyless]
      obtain ⟨res, verified, stands⟩ := verified_key lib b.secret signed
      refine Or.inr ⟨answerSigned identifier (requestOf b "" signed) res, by rw [verified]; rfl,
        fun both => keyless both.1, ?_⟩
      unfold answerSigned
      split
      next stream =>
        refine Or.inl ⟨"", signed, stream, decoded, rfl, fun st => ?_⟩
        rw [authorized, Verifies, ← stands (.str st)]
        constructor
        · rintro ⟨-, same⟩
          cases same
          rfl
        · rintro rfl
          exact ⟨keyless, rfl⟩
      next other =>
        refine Or.inr ⟨_, rfl, fun st => ?_⟩
        rw [authorized, Verifies, ← stands (.str st)]
        rintro ⟨-, same⟩
        exact other st same

theorem subscribe_right (lib : Library) (b : Built) (identifier : String) :
    (subscribe lib (b.controller lib) identifier = none ∧ Panics b identifier) ∨
    ∃ ans, subscribe lib (b.controller lib) identifier = some ans ∧ ¬ Panics b identifier ∧
      Right lib b identifier ans := by
  cases decoded : b.names identifier with
  | none =>
    obtain ⟨ans, returned, right⟩ := subscribe_undecoded lib decoded
    refine Or.inr ⟨ans, returned, ?_, right⟩
    rintro ⟨-, signed, decoded', -⟩
    cases decoded.symm.trans decoded'
  | some names =>
    obtain ⟨name, signed⟩ := names
    have panics := panics_iff decoded
    by_cases unnamed : name = ""
    · subst unnamed
      rcases subscribe_signed lib decoded with ⟨panicked, both⟩ | ⟨ans, returned, safe, right⟩
      · exact Or.inl ⟨panicked, panics.mpr ⟨both.1, rfl, both.2⟩⟩
      · refine Or.inr ⟨ans, returned, ?_, right⟩
        rw [panics]
        exact fun both => safe ⟨both.1, both.2.2⟩
    · obtain ⟨ans, returned, right⟩ := subscribe_named lib decoded unnamed
      refine Or.inr ⟨ans, returned, ?_, right⟩
      rw [panics]
      exact fun both => unnamed both.2.1

/-- The entries of the state that a subscription starts with. -/
theorem lookup_streamState (request : SubscribeRequest) (stream key : String) :
    ((streamState request stream).getD ∅).lookup key =
      if key = whisperStreamState ∧ request.whisper = true ∨
          key = presenceStreamState ∧ request.presence = true
        then some stream else none := by
  unfold streamState
  cases request.presence with
  | false =>
    cases request.whisper with
    | false => simp
    | true => simpa using GoMap.lookup_insert_apply ∅ whisperStreamState key stream
  | true =>
    simp only [if_true, Option.getD_some, GoMap.lookup_insert_apply]
    cases request.whisper with
    | false => simp
    | true =>
      simp only [if_true, Option.getD_some, GoMap.lookup_insert_apply, AList.lookup_empty]
      by_cases presence : key = presenceStreamState
      · simp [presence]
      · simp [presence]

end Subscribe

/-- `Subscribe` panics exactly if no secret is configured and the identifier has only a signed name,
of two parts. Otherwise it succeeds with a stream exactly if the client may have it; that is the
only stream, the state has it under the keys that are enabled for the request and nothing else, and
a failure has neither streams nor state. -/
theorem subscribe_exact_iff (lib : Library) (b : Built) (identifier : String) :
    ((subscribe lib (b.controller lib) identifier).isSome = true ↔
      ¬ Panics b identifier) ∧
    ∀ ans, subscribe lib (b.controller lib) identifier = some ans → ∃ res, ans.res = some res ∧
      (∀ st, res.status = .success ∧ res.streams = some [st] ↔ Authorized lib b identifier st) ∧
      (res.status = .success → ∃ name signed st, b.names identifier = some (name, signed) ∧
        res.streams = some [st] ∧ res.cState = none ∧
        ∀ key, (res.iState.getD ∅).lookup key =
          if key = whisperStreamState ∧ b.whispers name = true ∨
              key = presenceStreamState ∧ b.hasPresence name = true
            then some st else none) ∧
      (res.status ≠ .success →
        res.streams = none ∧ res.iState = none ∧ res.cState = none) := by
  rcases subscribe_right lib b identifier with ⟨panicked, panics⟩ | ⟨ans, returned, safe, right⟩
  · rw [panicked]
    refine ⟨iff_of_false (by simp) (not_not.mpr panics), fun ans impossible => ?_⟩
    cases impossible
  · rw [returned]
    refine ⟨iff_of_true rfl safe, ?_⟩
    rintro ans ⟨rfl⟩
    rcases right with ⟨name, signed, stream, decoded, rfl, only⟩ | ⟨err, rfl, nothing⟩
    · refine ⟨_, rfl, fun st => ?_, fun _ => ?_, fun other => absurd rfl other⟩
      · rw [only]
        simp [success, eq_comm]
      · refine ⟨name, signed, stream, decoded, rfl, rfl, fun key => ?_⟩
        simp only [success, lookup_streamState, requestOf]
    · refine ⟨_, rfl, fun st => iff_of_false nofun (nothing st), nofun, fun _ => ⟨rfl, rfl, rfl⟩⟩

/-- A library to compute with, in place of the real hash and decoder. -/
def plainLibrary : Library where
  hmac key text := key ++ text
  decodeString text := .ok text
  unmarshalError _ := "invalid JSON"
  decorate err text := text ++ ": " ++ err

def publicNamed : String := "\x7b\"stream_name\":\"chat\"\x7d"

def signedNamed : String := "\x7b\"signed_stream_name\":\"a--b\"\x7d"

theorem public_stream_granted :
    ∃ ans res,
      subscribe plainLibrary ((Built.streams { isPublic := true }).controller plainLibrary)
        publicNamed = some ans ∧
      ans.res = some res ∧ res.status = .success ∧ res.streams = some ["chat"] := by
  have exactly := subscribe_exact_iff plainLibrary (.streams { isPublic := true }) publicNamed
  have decoded : (Built.streams { isPublic := true }).names publicNamed = some ("chat", "") := by
    decide +kernel
  obtain ⟨ans, returned⟩ := Option.isSome_iff_exists.mp (exactly.1.mpr (by simp [Panics, decoded]))
  obtain ⟨res, result, granted, -⟩ := exactly.2 ans returned
  have success := (granted "chat").mpr ⟨"chat", "", decoded, Or.inl ⟨rfl, rfl, by decide⟩⟩
  exact ⟨ans, res, returned, result, success⟩

/-- The default configuration has no secret. -/
theorem signed_name_panics :
    subscribe plainLibrary ((Built.streams {}).controller plainLibrary) signedNamed = none := by
  have decoded : (Built.streams {}).names signedNamed = some ("", "a--b") := by decide +kernel
  have two : TwoParts "a--b" := ⟨"a", "b", by decide⟩
  rcases subscribe_signed plainLibrary decoded with ⟨panicked, -⟩ | ⟨ans, -, safe, -⟩
  · exact panicked
  · exact absurd ⟨rfl, two⟩ safe

end AnyCable.Guarantees.DirectStreams
