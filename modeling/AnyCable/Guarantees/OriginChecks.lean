import AnyCable.Source.RequestHeaders

/-!
# One list of origins, two checks

`ws.CheckOrigin` brings the list of allowed origins to lower case, `WriteCORSHeaders` takes it as it
is written; both bring the origin of the request to lower case. `WriteCORSHeaders` looks at all
elements and `CheckOrigin` stops at the first match, so that an empty element may panic in one only.

Both run through and agree on every request if the list has no empty element and covers the
lower-case form of each of its elements: another element, as written, matches whatever that form
does. For a list of hosts that requests can have, this is also necessary (`agree_iff_consistent`).
An empty list allows everyone, and an origin that is no URL is allowed nothing.

The host of a request is in lower case, as its origin is, unless `url.Parse` has decoded an escaped
letter. On such a request the checks agree if, the other way round, the lower-case forms cover the
elements as they are written; they do if the list is written in lower case.
-/

set_option autoImplicit false

namespace AnyCable.Guarantees.OriginChecks
open AnyCable.Lib AnyCable.Source.RequestHeaders

/-- Neither check panics, and the WebSocket is accepted exactly if the origin is allowed. -/
def Agree (web : Web) (origins origin : List Char) : Prop :=
  ∃ accepted headers, checkOrigin web origins origin = some accepted ∧
    writeCORSHeaders web ∅ origin (allowedHosts origins) = some headers ∧
    (accepted = true ↔ (headers.lookup allowOriginHeader).isSome = true)

/-- Some element matches the host. -/
def Listed (urlHost : List Char) (hosts : List (List Char)) : Prop :=
  ∃ host ∈ hosts, hostMatches urlHost host = some true

/-- Whatever the element `e` matches, `f` matches. -/
def covers (f e : List Char) : Bool :=
  if e.head? = some '*' then f.head? = some '*' && f.tail.isSuffixOf e.tail
  else hostMatches e f = some true

def Covered (elements hosts : List (List Char)) : Prop :=
  ∀ e ∈ elements, ∃ f ∈ hosts, covers f e = true

instance (elements hosts : List (List Char)) : Decidable (Covered elements hosts) :=
  inferInstanceAs (Decidable (∀ e ∈ elements, ∃ f ∈ hosts, covers f e = true))

/-- The condition on the allowed origins as they are configured. -/
def Consistent (web : Web) (origins : List Char) : Prop :=
  origins = [] ∨ ([] ∉ origins.splitOn ',' ∧
    Covered ((origins.splitOn ',').map web.toLower) (origins.splitOn ','))

/-- Every element as written is covered by the lower-case form of one. -/
def Mirrored (web : Web) (origins : List Char) : Prop :=
  Covered (origins.splitOn ',') ((origins.splitOn ',').map web.toLower)

/-- The host of the request is in lower case. -/
def LowerHost (web : Web) (origin : List Char) : Prop :=
  ∀ urlHost, web.parseHost (web.toLower origin) = some urlHost → web.toLower urlHost = urlHost

/-- A host that the element stands for: the element itself, with some character that the list does
not have in place of an asterisk. -/
def Stands (origins element urlHost : List Char) : Prop :=
  if element.head? = some '*' then ∃ c, c ∉ origins ∧ urlHost = c :: element.tail
  else urlHost = element

/-- The lower-case forms of the elements are hosts that requests can have. -/
def Requested (web : Web) (origins : List Char) : Prop :=
  ∀ e ∈ (origins.splitOn ',').map web.toLower, ∃ origin urlHost,
    web.parseHost (web.toLower origin) = some urlHost ∧ web.toLower urlHost = urlHost ∧
      Stands origins e urlHost

/-! ### Splitting a text in lower case -/

theorem splitOn_toLower (web : Web) (text : List Char) :
    (web.toLower text).splitOn ',' = (text.splitOn ',').map web.toLower := by
  unfold Web.toLower
  induction text with
  | nil => rfl
  | cons c text ih =>
    unfold List.splitOn at ih ⊢
    rw [List.map_cons, List.splitOnP_cons_eq_if_modifyHead, List.splitOnP_cons_eq_if_modifyHead, ih]
    obtain ⟨part, parts, shape⟩ :=
      List.exists_cons_of_ne_nil (List.splitOnP_ne_nil (fun x => x == ',') text)
    by_cases comma : c = ','
    · simp [comma, (web.lower_comma ',').mpr rfl]
    · have other : web.lower c ≠ ',' := fun same => comma ((web.lower_comma c).mp same)
      simp [comma, other, shape]

/-- The elements have no other characters than the text. -/
theorem mem_of_mem_splitOn {text part : List Char} (element : part ∈ text.splitOn ',') :
    ∀ c ∈ part, c ∈ text := by
  induction text generalizing part with
  | nil =>
    rw [List.splitOn_nil, List.mem_singleton] at element
    simp [element]
  | cons first text ih =>
    unfold List.splitOn at ih element
    rw [List.splitOnP_cons_eq_if_modifyHead] at element
    obtain ⟨head, parts, shape⟩ :=
      List.exists_cons_of_ne_nil (List.splitOnP_ne_nil (fun x => x == ',') text)
    intro c member
    rw [shape] at ih element
    by_cases comma : first = ','
    · simp only [comma, beq_self_eq_true, if_true, List.mem_cons] at element
      rcases element with rfl | listed
      · cases member
      · exact List.mem_cons_of_mem _ (ih (List.mem_cons.mpr listed) c member)
    · simp only [beq_iff_eq, comma, if_false, List.modifyHead_cons, List.mem_cons] at element
      rcases element with rfl | listed
      · rcases List.mem_cons.mp member with rfl | later
        · exact List.mem_cons_self
        · exact List.mem_cons_of_mem _ (ih List.mem_cons_self c later)
      · exact List.mem_cons_of_mem _ (ih (List.mem_cons_of_mem _ listed) c member)

theorem empty_mem_toLower {web : Web} {hosts : List (List Char)} :
    [] ∈ hosts.map web.toLower ↔ [] ∈ hosts := by
  simp [Web.toLower]

/-! ### Elements that cover others -/

section Covers

variable {urlHost e f : List Char}

theorem hostMatches_iff : hostMatches urlHost e = some true ↔
    (e.head? = some '*' ∧ e.tail <:+ urlHost) ∨ (e ≠ [] ∧ urlHost = e) := by
  cases e with
  | nil => simp [hostMatches]
  | cons first rest => simp [hostMatches]

/-- An element with an asterisk also matches itself. -/
theorem suffix_of_matches (matched : hostMatches urlHost e = some true)
    (wild : e.head? = some '*') : e.tail <:+ urlHost := by
  rcases hostMatches_iff.mp matched with ⟨-, suffix⟩ | ⟨-, rfl⟩
  · exact suffix
  · exact List.tail_suffix _

theorem matches_of_covers (covered : covers f e = true)
    (matched : hostMatches urlHost e = some true) : hostMatches urlHost f = some true := by
  unfold covers at covered
  split at covered
  next wild =>
    simp only [Bool.and_eq_true, decide_eq_true_eq, List.isSuffixOf_iff_suffix] at covered
    exact hostMatches_iff.mpr (Or.inl
      ⟨covered.1, covered.2.trans (suffix_of_matches matched wild)⟩)
  next plain =>
    rcases hostMatches_iff.mp matched with ⟨wild, -⟩ | ⟨-, rfl⟩
    · exact absurd wild plain
    · simpa using covered

theorem listed_of_covered {elements hosts : List (List Char)} (covered : Covered elements hosts)
    (listed : Listed urlHost elements) : Listed urlHost hosts := by
  obtain ⟨e, member, matched⟩ := listed
  obtain ⟨f, listed, covers⟩ := covered e member
  exact ⟨f, listed, matches_of_covers covers matched⟩

/-- An element that matches a host in lower case does so in lower case. -/
theorem matches_toLower {web : Web} (star : web.lower '*' = '*')
    (lower : web.toLower urlHost = urlHost) (matched : hostMatches urlHost e = some true) :
    hostMatches urlHost (web.toLower e) = some true := by
  rcases hostMatches_iff.mp matched with ⟨wild, suffix⟩ | ⟨full, rfl⟩
  · refine hostMatches_iff.mpr (Or.inl ⟨by simp [Web.toLower, wild, star], ?_⟩)
    have lowered := suffix.map web.lower
    rw [← Web.toLower, ← Web.toLower, lower] at lowered
    simpa [Web.toLower] using lowered
  · rw [lower]
    exact matched

variable {origins : List Char}

theorem matches_of_stands (full : e ≠ []) (stands : Stands origins e urlHost) :
    hostMatches urlHost e = some true := by
  unfold Stands at stands
  split at stands
  next wild =>
    obtain ⟨c, -, rfl⟩ := stands
    exact hostMatches_iff.mpr (Or.inl ⟨wild, List.suffix_cons _ _⟩)
  next plain => exact hostMatches_iff.mpr (Or.inr ⟨full, stands⟩)

/-- What matches a host that an element stands for covers the element. -/
theorem covers_of_stands (stands : Stands origins e urlHost) (own : ∀ c ∈ f, c ∈ origins)
    (matched : hostMatches urlHost f = some true) : covers f e = true := by
  unfold Stands at stands
  unfold covers
  split at stands
  next wild =>
    obtain ⟨c, foreign, rfl⟩ := stands
    rw [if_pos wild]
    rcases hostMatches_iff.mp matched with ⟨star, suffix⟩ | ⟨-, rfl⟩
    · rcases List.suffix_cons_iff.mp suffix with all | suffix
      · exact absurd (own c (List.mem_of_mem_tail (all ▸ List.mem_cons_self))) foreign
      · simp [star, suffix]
    · exact absurd (own c List.mem_cons_self) foreign
  next plain =>
    subst stands
    rw [if_neg plain]
    simpa using matched

end Covers

/-! ### The loops -/

section Loops

variable (urlHost origin : List Char) {hosts : List (List Char)}

theorem hostMatches_isSome {host : List Char} (full : host ≠ []) :
    ∃ matched, hostMatches urlHost host = some matched := by
  cases host with
  | nil => exact absurd rfl full
  | cons first rest => exact ⟨_, rfl⟩

variable {urlHost} in
theorem listed_cons {host : List Char} :
    Listed urlHost (host :: hosts) ↔ hostMatches urlHost host = some true ∨ Listed urlHost hosts := by
  simp [Listed]

/-- Without empty elements the loop of `CheckOrigin` finds a match if there is one. -/
theorem anyMatches_of_full (full : [] ∉ hosts) :
    ∃ accepted, anyMatches urlHost hosts = some accepted ∧
      (accepted = true ↔ Listed urlHost hosts) := by
  induction hosts with
  | nil => exact ⟨false, rfl, by simp [Listed]⟩
  | cons host hosts ih =>
    obtain ⟨own, rest⟩ := not_or.mp (List.mem_cons.not.mp full)
    obtain ⟨accepted, ran, found⟩ := ih rest
    obtain ⟨matched, tested⟩ := hostMatches_isSome urlHost (Ne.symm own)
    rw [listed_cons, tested]
    cases matched with
    | true => exact ⟨true, by simp [anyMatches, tested], by simp⟩
    | false => exact ⟨accepted, by simp [anyMatches, tested, ran], by simp [found]⟩

/-- Without empty elements the loop of `WriteCORSHeaders` sets the header if there is a match. -/
theorem allowOrigin_of_full (full : [] ∉ hosts) (h : Headers) :
    ∃ after, allowOrigin urlHost origin hosts h = some after ∧
      ((after.lookup allowOriginHeader).isSome = true ↔
        (h.lookup allowOriginHeader).isSome = true ∨ Listed urlHost hosts) := by
  induction hosts generalizing h with
  | nil => exact ⟨h, rfl, by simp [Listed]⟩
  | cons host hosts ih =>
    obtain ⟨own, rest⟩ := not_or.mp (List.mem_cons.not.mp full)
    obtain ⟨matched, tested⟩ := hostMatches_isSome urlHost (Ne.symm own)
    obtain ⟨after, ran, found⟩ :=
      ih rest (if matched then h.insert allowOriginHeader origin else h)
    refine ⟨after, by simp [allowOrigin, tested, ran], ?_⟩
    rw [found, listed_cons, tested]
    cases matched with
    | true => simp
    | false => simp

/-- An empty element is always reached by `WriteCORSHeaders`. -/
theorem allowOrigin_of_empty (empty : [] ∈ hosts) (h : Headers) :
    allowOrigin urlHost origin hosts h = none := by
  induction hosts generalizing h with
  | nil => cases empty
  | cons host hosts ih =>
    cases host with
    | nil => rfl
    | cons first rest =>
      have later : [] ∈ hosts := by simpa using empty
      simp [allowOrigin, hostMatches, ih later]

end Loops

/-! ### The two checks -/

section Checks

variable {web : Web} {origins origin : List Char}

theorem lookup_writeCORSHeaders {h after : Headers} {hosts : List (List Char)}
    (wrote : writeCORSHeaders web h origin hosts = some after) :
    ∃ allowed, writeAllowOrigin web h origin hosts = some allowed ∧
      after.lookup allowOriginHeader = allowed.lookup allowOriginHeader := by
  simp only [writeCORSHeaders, Option.bind_eq_bind, Option.bind_eq_some_iff, pure,
    Option.some.injEq] at wrote
  obtain ⟨allowed, ran, rfl⟩ := wrote
  refine ⟨allowed, ran, ?_⟩
  rw [AList.lookup_insert_ne (by decide), AList.lookup_insert_ne (by decide),
    AList.lookup_insert_ne (by decide)]

theorem writeCORSHeaders_of_some {h allowed : Headers} {hosts : List (List Char)}
    (ran : writeAllowOrigin web h origin hosts = some allowed) :
    ∃ after, writeCORSHeaders web h origin hosts = some after ∧
      after.lookup allowOriginHeader = allowed.lookup allowOriginHeader := by
  have wrote : ∃ after, writeCORSHeaders web h origin hosts = some after := by
    simp [writeCORSHeaders, ran]
  obtain ⟨after, wrote⟩ := wrote
  obtain ⟨allowed', ran', same⟩ := lookup_writeCORSHeaders wrote
  cases ran.symm.trans ran'
  exact ⟨after, wrote, same⟩

/-- What both do once the host of the request is known. -/
theorem agree_iff_of_host (nonempty : origins ≠ []) {urlHost : List Char}
    (parsed : web.parseHost (web.toLower origin) = some urlHost) :
    Agree web origins origin ↔ [] ∉ origins.splitOn ',' ∧
      (Listed urlHost ((origins.splitOn ',').map web.toLower) ↔
        Listed urlHost (origins.splitOn ',')) := by
  have checks : checkOrigin web origins origin =
      anyMatches urlHost ((origins.splitOn ',').map web.toLower) := by
    simp only [checkOrigin, if_neg nonempty, parsed, splitOn_toLower]
  have writes : writeAllowOrigin web ∅ origin (allowedHosts origins) =
      allowOrigin urlHost (web.toLower origin) (origins.splitOn ',') ∅ := by
    simp only [writeAllowOrigin, allowedHosts, if_neg nonempty,
      if_neg (List.splitOn_ne_nil ',' origins), parsed]
  by_cases empty : [] ∈ origins.splitOn ','
  · -- `WriteCORSHeaders` panics
    refine ⟨?_, fun consistent => absurd empty consistent.1⟩
    rintro ⟨accepted, headers, -, wrote, -⟩
    obtain ⟨allowed, ran, -⟩ := lookup_writeCORSHeaders wrote
    rw [writes, allowOrigin_of_empty _ _ empty] at ran
    cases ran
  · obtain ⟨accepted, checked, found⟩ :=
      anyMatches_of_full urlHost (mt empty_mem_toLower.mp empty)
    obtain ⟨allowed, ran, set⟩ := allowOrigin_of_full urlHost (web.toLower origin) empty ∅
    obtain ⟨after, wrote, same⟩ := writeCORSHeaders_of_some (writes.trans ran)
    have set : (after.lookup allowOriginHeader).isSome = true ↔
        Listed urlHost (origins.splitOn ',') := by
      rw [same, set]
      simp
    constructor
    · rintro ⟨accepted', headers, checked', wrote', agree⟩
      rw [checks, checked, Option.some.injEq] at checked'
      cases wrote.symm.trans wrote'
      subst checked'
      exact ⟨empty, found.symm.trans (agree.trans set)⟩
    · rintro ⟨-, same⟩
      exact ⟨accepted, after, checks.trans checked, wrote, found.trans (same.trans set.symm)⟩

end Checks

section Requests

variable {web : Web} {origins origin : List Char}

theorem agree_of_nil : Agree web [] origin := by
  have ran : writeAllowOrigin web ∅ origin (allowedHosts []) =
      some (AList.insert allowOriginHeader ['*'] ∅) := rfl
  obtain ⟨after, wrote, same⟩ := writeCORSHeaders_of_some ran
  refine ⟨true, after, rfl, wrote, ?_⟩
  rw [same, AList.lookup_insert]
  simp

theorem agree_of_no_host (nonempty : origins ≠ [])
    (parsed : web.parseHost (web.toLower origin) = none) : Agree web origins origin := by
  have checked : checkOrigin web origins origin = some false := by
    simp only [checkOrigin, if_neg nonempty, parsed]
  have ran : writeAllowOrigin web ∅ origin (allowedHosts origins) = some ∅ := by
    simp only [writeAllowOrigin, allowedHosts, if_neg nonempty,
      if_neg (List.splitOn_ne_nil ',' origins), parsed]
  obtain ⟨after, wrote, same⟩ := writeCORSHeaders_of_some ran
  refine ⟨false, after, checked, wrote, ?_⟩
  rw [same]
  simp

theorem agree_of_consistent (star : web.lower '*' = '*') (consistent : Consistent web origins)
    (usual : LowerHost web origin ∨ Mirrored web origins) : Agree web origins origin := by
  by_cases nonempty : origins = []
  · subst nonempty
    exact agree_of_nil
  · obtain ⟨full, covered⟩ := consistent.resolve_left nonempty
    cases parsed : web.parseHost (web.toLower origin) with
    | none => exact agree_of_no_host nonempty parsed
    | some urlHost =>
      refine (agree_iff_of_host nonempty parsed).mpr ⟨full, listed_of_covered covered, ?_⟩
      rcases usual with lower | mirrored
      · rintro ⟨e, member, matched⟩
        exact ⟨_, List.mem_map_of_mem member, matches_toLower star (lower urlHost parsed) matched⟩
      · exact listed_of_covered mirrored

theorem consistent_of_agree (requested : Requested web origins)
    (agree : ∀ origin, LowerHost web origin → Agree web origins origin) :
    Consistent web origins := by
  by_cases nonempty : origins = []
  · exact Or.inl nonempty
  -- for every element there is a request that only an element covering it can allow
  have allowed : ∀ e ∈ (origins.splitOn ',').map web.toLower, [] ∉ origins.splitOn ',' ∧
      ∃ f ∈ origins.splitOn ',', covers f e = true := by
    intro e member
    obtain ⟨origin, urlHost, parsed, lower, stands⟩ := requested e member
    have both := (agree_iff_of_host nonempty parsed).mp (agree origin fun other parsed' => by
      cases parsed.symm.trans parsed'
      exact lower)
    have full : e ≠ [] := fun empty => both.1 (empty_mem_toLower.mp (empty ▸ member))
    obtain ⟨f, listed, matched⟩ := both.2.mp ⟨e, member, matches_of_stands full stands⟩
    exact ⟨both.1, f, listed, covers_of_stands stands (mem_of_mem_splitOn listed) matched⟩
  obtain ⟨first, rest, shape⟩ := List.exists_cons_of_ne_nil (List.splitOn_ne_nil ',' origins)
  refine Or.inr ⟨(allowed (web.toLower first) ?_).1, fun e member => (allowed e member).2⟩
  rw [shape]
  exact List.mem_cons_self

end Requests

/-- For every list of allowed origins: if it is consistent, the two checks run through and agree on
every request whose host is in lower case, and on all requests if the list is mirrored. If the
elements are hosts that requests can have, only a consistent list makes them agree. -/
theorem agree_iff_consistent (web : Web) (star : web.lower '*' = '*') (origins : List Char) :
    (Consistent web origins → ∀ origin, LowerHost web origin ∨ Mirrored web origins →
      Agree web origins origin) ∧
    (Requested web origins → (∀ origin, LowerHost web origin → Agree web origins origin) →
      Consistent web origins) :=
  ⟨fun consistent _ usual => agree_of_consistent star consistent usual, consistent_of_agree⟩

/-- ASCII letters in lower case, and the host of an `http` address. -/
def asciiWeb : Web where
  lower := Char.toLower
  parseHost := fun origin =>
    if "http://".toList.isPrefixOf origin then some ((origin.drop 7).takeWhile (· ≠ '/')) else none
  lower_comma := by
    intro c
    unfold Char.toLower
    split
    next upper =>
      constructor
      · intro same
        have low : 65 ≤ c.val.toNat := upper.1
        have high : c.val.toNat ≤ 90 := upper.2
        have sum : (c.val.toNat + 32) % 2 ^ 32 = 44 := congrArg (fun d => d.val.toNat) same
        omega
      · rintro rfl
        exact absurd upper (by decide)
    next => rfl

/-- A list in lower case, and an origin that it allows in spite of its capital letters. -/
theorem lower_case_agree :
    checkOrigin asciiWeb "example.com,*.localhost".toList "http://MY.localhost".toList = some true ∧
    Agree asciiWeb "example.com,*.localhost".toList "http://MY.localhost".toList :=
  ⟨by decide +kernel, (agree_iff_consistent asciiWeb rfl "example.com,*.localhost".toList).1
    (Or.inr (by decide +kernel)) _ (Or.inr (by unfold Mirrored; decide +kernel))⟩

/-- A capital letter in the list is enough for the two to differ, and an empty element for both to
panic. -/
theorem capitals_differ :
    checkOrigin asciiWeb "MY.localhost".toList "http://my.localhost".toList = some true ∧
    (writeCORSHeaders asciiWeb ∅ "http://my.localhost".toList
      (allowedHosts "MY.localhost".toList)).map (fun h => h.lookup allowOriginHeader) =
        some none ∧
    checkOrigin asciiWeb ",".toList "http://my.localhost".toList = none ∧
    writeCORSHeaders asciiWeb ∅ "http://my.localhost".toList (allowedHosts ",".toList) = none := by
  refine ⟨by decide +kernel, by decide +kernel, by decide +kernel, ?_⟩
  exact Option.isNone_iff_eq_none.mp (by decide +kernel)

end AnyCable.Guarantees.OriginChecks
