import AnyCable.Guarantees.DirectStreams
import AnyCable.Lib.Base64
import AnyCable.Lib.Float64
import AnyCable.Source.Signing

/-!
# Signed messages are verified exactly

Source: `utils/message_verifier.go:24-107`. A message is accepted if it is a base64 text and its
signature with `--` between them, and the text is JSON with numbers in the range of `float64`.
Neither alphabet has a hyphen, so a message of this form can be taken apart in one way only
(`split_unique`), and `strings.Split` finds it. `verified_exact` puts the parts together.
-/

set_option autoImplicit false

namespace AnyCable.Guarantees.SignedMessages
open AnyCable.Lib AnyCable.Source AnyCable.Source.Streams AnyCable.Guarantees.DirectStreams

/-- What the standard library is known for. -/
structure Standard (lib : SigningLibrary) : Prop where
  /-- The alphabet of base64 has no hyphen. -/
  alphabet : ∀ data text, lib.decodeString data = .ok text → '-' ∉ data.toList
  decode_encode : ∀ text, lib.decodeString (lib.encodeToString text) = .ok text
  /-- A digest is written in lowercase hexadecimal digits. -/
  hex : ∀ key data, ∀ c ∈ (lib.hmac key data).toList, c ∈ "0123456789abcdef".toList

/-- The separator is in the text. -/
def HasSeparator (text : String) : Prop := "--".toList <:+: text.toList

/-- The message is data with its signature. -/
structure Signed (lib : SigningLibrary) (key msg data digest : String) : Prop where
  parts : msg = data ++ "--" ++ digest
  clean : ¬ HasSeparator data
  digest : digest = lib.hmac key data

/-- The JSON value of a base64 text, if it can be decoded. -/
def Decodes (lib : SigningLibrary) (data : String) (v : Json) : Prop :=
  ∃ text j, lib.decodeString data = .ok text ∧ Json.parse text = some j ∧
    j.inRange lib.floats = true ∧ v = j.reencode lib.floats

/-! ### The separator -/

theorem splitParts_ne_nil (text : List Char) : splitParts text ≠ [] := by
  fun_induction splitParts text <;> simp_all

/-- The parts with the separators between them are the text. -/
theorem intercalate_splitParts (text : List Char) :
    List.intercalate ['-', '-'] (splitParts text) = text := by
  fun_induction splitParts text with
  | case1 rest ih =>
    obtain ⟨part, parts, shape⟩ := List.exists_cons_of_ne_nil (splitParts_ne_nil rest)
    rw [shape] at ih ⊢
    rw [List.intercalate_cons_cons, ih]
    rfl
  | case2 c rest _ nothing ih => exact absurd nothing (splitParts_ne_nil rest)
  | case3 c rest _ part parts shape ih =>
    rw [shape] at ih
    cases parts with
    | nil => simpa [List.intercalate] using ih
    | cons next parts => rw [List.intercalate_cons_cons] at ih ⊢; simp [← ih]
  | case4 => rfl

theorem parts_of_split {msg data digest : String} (parts : split msg = [data, digest]) :
    msg = data ++ "--" ++ digest := by
  obtain ⟨front, rest, shape, rfl, last⟩ := List.map_eq_cons_iff.mp parts
  obtain ⟨back, nothing, rfl, rfl, none⟩ := List.map_eq_cons_iff.mp last
  rw [List.map_eq_nil_iff] at none
  have joined := intercalate_splitParts msg.toList
  rw [shape, none] at joined
  rw [← String.toList_inj, ← joined]
  simp [List.intercalate]

theorem splitParts_append {front : List Char} (clean : '-' ∉ front) (back : List Char) :
    splitParts (front ++ '-' :: '-' :: back) = front :: splitParts back := by
  induction front with
  | nil => rfl
  | cons c front ih =>
    rw [List.mem_cons, not_or] at clean
    rw [List.cons_append, splitParts, ih clean.2]
    rintro rest rfl
    exact fun _ => clean.1 rfl

theorem splitParts_clean {text : List Char} (clean : '-' ∉ text) : splitParts text = [text] := by
  induction text with
  | nil => rfl
  | cons c text ih =>
    rw [List.mem_cons, not_or] at clean
    rw [splitParts, ih clean.2]
    rintro rest rfl
    exact fun _ => clean.1 rfl

/-- Without hyphens in the parts, a message is split where it was put together. -/
theorem split_append {data digest : String} (clean : '-' ∉ data.toList)
    (plain : '-' ∉ digest.toList) : split (data ++ "--" ++ digest) = [data, digest] := by
  have text : (data ++ "--" ++ digest).toList = data.toList ++ '-' :: '-' :: digest.toList := by
    simp
  rw [split, text, splitParts_append clean, splitParts_clean plain]
  simp

theorem takeWhile_front {front : List Char} (clean : '-' ∉ front) (back : List Char) :
    (front ++ '-' :: back).takeWhile (· ≠ '-') = front := by
  rw [List.takeWhile_append_of_pos]
  · simp
  · intro c inside
    exact decide_eq_true fun same => clean (same ▸ inside)

/-- There is one way to take the message apart: it has no other hyphens. -/
theorem split_unique {data digest data' digest' : String} (clean : '-' ∉ data.toList)
    (plain : '-' ∉ digest.toList) (same : data' ++ "--" ++ digest' = data ++ "--" ++ digest) :
    data' = data ∧ digest' = digest := by
  have chars : data'.toList ++ '-' :: '-' :: digest'.toList =
      data.toList ++ '-' :: '-' :: digest.toList := by
    simpa using congrArg String.toList same
  have hyphens := congrArg (List.count '-') chars
  simp only [List.count_append, List.count_cons_self, List.count_eq_zero_of_not_mem clean,
    List.count_eq_zero_of_not_mem plain] at hyphens
  have clean' : '-' ∉ data'.toList := List.count_eq_zero.mp (by omega)
  have front : data'.toList = data.toList := by
    rw [← takeWhile_front clean' ('-' :: digest'.toList), chars, takeWhile_front clean]
  rw [front, List.append_cancel_left_eq] at chars
  exact ⟨String.toList_inj.mp front, String.toList_inj.mp (by simpa using chars)⟩

theorem not_hasSeparator {text : String} (clean : '-' ∉ text.toList) : ¬ HasSeparator text :=
  fun separator => clean (separator.subset (by decide))

/-! ### Verification -/

section Verification

variable {lib : SigningLibrary} {key msg data digest : String} {v : Json}

theorem Standard.hmac_plain (std : Standard lib) (key data : String) :
    '-' ∉ (lib.hmac key data).toList :=
  fun inside => absurd (std.hex key data '-' inside) (by decide)

theorem Decodes.clean (std : Standard lib) (decodes : Decodes lib data v) : '-' ∉ data.toList := by
  obtain ⟨text, j, decoded, -⟩ := decodes
  exact std.alphabet data text decoded

theorem decodeValue_eq_ok {j : Json} : MessageVerifier.decodeValue lib j = .ok v ↔
    j.inRange lib.floats = true ∧ v = j.reencode lib.floats := by
  unfold MessageVerifier.decodeValue
  split
  next fits => simp [fits, eq_comm]
  next tooLarge => simp [tooLarge]

/-- The call returns, and with a value only for what is signed and can be decoded. -/
theorem verifiedValue_iff (std : Standard lib) (key msg : String) :
    ∃ res, MessageVerifier.verifiedValue lib (some ⟨key⟩) msg = some res ∧
      ∀ v, res = .ok v ↔ ∃ data digest, Signed lib key msg data digest ∧ Decodes lib data v := by
  obtain ⟨res, returned, exact_⟩ := verified_key lib.toLibrary key msg
  refine ⟨res.bind (MessageVerifier.decodeValue lib), ?_, fun v => ?_⟩
  · rw [MessageVerifier.verifiedValue, returned, Option.map_some]
  · have both : res.bind (MessageVerifier.decodeValue lib) = .ok v ↔
        ∃ j, res = .ok j ∧ MessageVerifier.decodeValue lib j = .ok v := by
      cases res with
      | error err => simp [Except.bind]
      | ok j => simp [Except.bind]
    rw [both]
    constructor
    · rintro ⟨j, ok, decoded⟩
      obtain ⟨data, digest, text, parts, signed, read, parsed⟩ := (exact_ j).mp ok
      obtain ⟨fits, value⟩ := decodeValue_eq_ok.mp decoded
      refine ⟨data, digest, ⟨parts_of_split parts, ?_, signed.symm⟩, text, j, read, parsed, fits,
        value⟩
      exact not_hasSeparator (std.alphabet data text read)
    · rintro ⟨data, digest, signed, text, j, read, parsed, fits, value⟩
      refine ⟨j, (exact_ j).mpr ⟨data, digest, text, ?_, signed.digest.symm, read, parsed⟩,
        decodeValue_eq_ok.mpr ⟨fits, value⟩⟩
      rw [signed.parts]
      apply split_append (std.alphabet data text read)
      rw [signed.digest]
      exact std.hmac_plain key data

theorem accepted_iff (std : Standard lib) (key msg : String) (v : Json) :
    MessageVerifier.verifiedValue lib (some ⟨key⟩) msg = some (.ok v) ↔
      ∃ data digest, Signed lib key msg data digest ∧ Decodes lib data v := by
  obtain ⟨res, returned, ok⟩ := verifiedValue_iff std key msg
  rw [returned, Option.some.injEq, ok]

/-- The data of an accepted message fixes its signature, and there is no other way to take it
apart. -/
theorem accepted_parts (std : Standard lib)
    (ok : MessageVerifier.verifiedValue lib (some ⟨key⟩) msg = some (.ok v)) :
    ∃ data, ∀ data' digest', msg = data' ++ "--" ++ digest' ↔
      data' = data ∧ digest' = lib.hmac key data := by
  obtain ⟨data, digest, signed, decodes⟩ := (accepted_iff std key msg v).mp ok
  refine ⟨data, fun data' digest' => ⟨fun parts => ?_, ?_⟩⟩
  · apply split_unique (decodes.clean std) (std.hmac_plain key data)
    rw [← parts, signed.parts, signed.digest]
  · rintro ⟨rfl, rfl⟩
    rw [signed.parts, signed.digest]

theorem generate_signed (std : Standard lib) (key : String) (payload : Json) :
    Signed lib key (MessageVerifier.generate lib ⟨key⟩ payload) (lib.encodeToString payload.text)
      (lib.hmac key (lib.encodeToString payload.text)) where
  parts := rfl
  clean := not_hasSeparator (std.alphabet _ _ (std.decode_encode payload.text))
  digest := rfl

end Verification

/-- For every key and every library that behaves as the standard one: a string comes back from its
message; a message is accepted if and only if it is signed data that can be decoded, and then with
the decoded value; it can be taken apart in one way; two accepted messages with the same data are
the same; and the call never panics. -/
theorem verified_exact (lib : SigningLibrary) (std : Standard lib) (key : String) :
    (∀ p : String, MessageVerifier.verifiedValue lib (some ⟨key⟩)
      (MessageVerifier.generate lib ⟨key⟩ (.str p)) = some (.ok (.str p))) ∧
    (∀ msg v, MessageVerifier.verifiedValue lib (some ⟨key⟩) msg = some (.ok v) ↔
      ∃ data digest, Signed lib key msg data digest ∧ Decodes lib data v) ∧
    (∀ msg v, MessageVerifier.verifiedValue lib (some ⟨key⟩) msg = some (.ok v) →
      ∃ data digest, ∀ data' digest', msg = data' ++ "--" ++ digest' ↔
        data' = data ∧ digest' = digest) ∧
    (∀ msg msg' v v' data digest digest',
      MessageVerifier.verifiedValue lib (some ⟨key⟩) msg = some (.ok v) →
      MessageVerifier.verifiedValue lib (some ⟨key⟩) msg' = some (.ok v') →
      msg = data ++ "--" ++ digest → msg' = data ++ "--" ++ digest' → msg = msg') ∧
    ∀ msg, MessageVerifier.verifiedValue lib (some ⟨key⟩) msg ≠ none := by
  refine ⟨fun p => ?_, accepted_iff std key, fun msg v ok => ?_, ?_, fun msg => ?_⟩
  · apply (accepted_iff std key _ _).mpr
    exact ⟨_, _, generate_signed std key (.str p), _, .str p, std.decode_encode _,
      Json.parse_text rfl, rfl, rfl⟩
  · obtain ⟨data, only⟩ := accepted_parts std ok
    exact ⟨data, _, only⟩
  · intro msg msg' v v' data digest digest' ok ok' parts parts'
    obtain ⟨first, only⟩ := accepted_parts std ok
    obtain ⟨second, only'⟩ := accepted_parts std ok'
    obtain ⟨rfl, rfl⟩ := (only data digest).mp parts
    obtain ⟨rfl, rfl⟩ := (only' data digest').mp parts'
    rw [parts, parts']
  · obtain ⟨res, returned, -⟩ := verifiedValue_iff std key msg
    rw [returned]
    exact Option.some_ne_none res

/-! ### A library -/

/-- The digests that are looked at below, under the key of the test in the source. -/
def digests : List (String × String) :=
  [("ImNoYXQ6MjAyMSI=", "f9ee45dbccb1da04d8ceb99cc820207804370ba0d06b46fc3b8b373af1315628"),
   ("MWU5OTk=", "06cd285b42bc7fe95eabb19539cedb8b3db0e9e2f11dd5206c4cea66379a954e"),
   ("OTAwNzE5OTI1NDc0MDk5Mw==", "ae04866357ce6df99c0eeeef0f8baa73cfbaa6c715813ac7bcf755ad3832bf5b")]

/-- Base64 and numbers as they are. Bytes that are no text are refused here. -/
def sample : SigningLibrary where
  hmac key data := if key = "s3Krit" then (digests.lookup data).getD "" else ""
  decodeString data :=
    match (Base64.decode data.toList).bind fun bytes => String.fromUTF8? ⟨bytes.toArray⟩ with
    | some text => .ok text
    | none => .error "illegal base64 data"
  unmarshalError text := text
  decorate err text := text ++ ": " ++ err
  encodeToString text := String.ofList (Base64.encode text.toByteArray.data.toList)
  floats := Float64.floats
  rangeError j := j.text

theorem fromUTF8_toByteArray (text : String) : String.fromUTF8? text.toByteArray = some text := by
  rw [String.fromUTF8?, dif_pos text.isValidUTF8]
  rfl

theorem sample_standard : Standard sample where
  alphabet data text decoded := by
    cases read : Base64.decode data.toList with
    | none => simp [sample, read] at decoded
    | some bytes => exact Base64.hyphen_notMem read
  decode_encode text := by
    have read : String.fromUTF8? ⟨text.toByteArray.data⟩ = some text := fromUTF8_toByteArray text
    simp [sample, Base64.decode_encode, read]
  hex key data := by
    have listed : (digests.all fun entry =>
        entry.2.toList.all fun c => "0123456789abcdef".toList.contains c) = true := by
      decide +kernel
    simp only [List.all_eq_true, List.contains_iff_mem] at listed
    simp only [sample]
    split
    · cases found : digests.lookup data with
      | none => simp
      | some digest =>
        obtain ⟨before, after, shape, -⟩ := List.lookup_eq_some_iff.mp found
        exact listed (data, digest) (by simp [shape])
    · simp

/-- The message of the test in the source. -/
theorem chat_verified :
    MessageVerifier.generate sample ⟨"s3Krit"⟩ (.str "chat:2021") = "ImNoYXQ6MjAyMSI=--" ++
        "f9ee45dbccb1da04d8ceb99cc820207804370ba0d06b46fc3b8b373af1315628" ∧
      MessageVerifier.verifiedValue sample (some ⟨"s3Krit"⟩)
        (MessageVerifier.generate sample ⟨"s3Krit"⟩ (.str "chat:2021")) =
          some (.ok (.str "chat:2021")) :=
  ⟨by decide +kernel, (verified_exact sample sample_standard "s3Krit").1 "chat:2021"⟩

/-- A number that is too large is JSON, but not accepted, and a large one is returned as another. -/
theorem large_numbers :
    Signed sample "s3Krit"
        ("MWU5OTk=--" ++ "06cd285b42bc7fe95eabb19539cedb8b3db0e9e2f11dd5206c4cea66379a954e")
        "MWU5OTk=" "06cd285b42bc7fe95eabb19539cedb8b3db0e9e2f11dd5206c4cea66379a954e" ∧
      sample.decodeString "MWU5OTk=" = .ok "1e999" ∧ (Json.parse "1e999").isSome = true ∧
      (MessageVerifier.verifiedValue sample (some ⟨"s3Krit"⟩) ("MWU5OTk=--" ++
        "06cd285b42bc7fe95eabb19539cedb8b3db0e9e2f11dd5206c4cea66379a954e")).map Except.isOk =
          some false ∧
      sample.decodeString "OTAwNzE5OTI1NDc0MDk5Mw==" = .ok "9007199254740993" ∧
      (MessageVerifier.verifiedValue sample (some ⟨"s3Krit"⟩) ("OTAwNzE5OTI1NDc0MDk5Mw==--" ++
        "ae04866357ce6df99c0eeeef0f8baa73cfbaa6c715813ac7bcf755ad3832bf5b")).map
          (fun res => res.toOption.map Json.text) = some (some "9007199254740992") := by
  refine ⟨⟨by decide +kernel, not_hasSeparator (by decide), by decide +kernel⟩, ?_⟩
  refine ⟨?_, ?_, ?_, ?_, ?_⟩
  all_goals decide +kernel

end AnyCable.Guarantees.SignedMessages
