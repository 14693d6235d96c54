import AnyCable.Lib.Texts
import AnyCable.Source.RequestHeaders
import Mathlib.Data.List.Induction

/-!
# The cookies that are passed on

`parseCookies` splits the header at every `;` and a cookie at every `=`, and compares what comes
before the `=` with the filter, spaces included (`server/request_info.go:96-120`). A cookie after
"; " is looked up with the space in its name, and one with a `=` in its value is dropped.

For a header of cookies with any number of spaces around them, exactly the selected ones are passed
on if and only if for each cookie the comparison comes to the same with and without these spaces,
and the value of a selected one has no `=` (`selected_iff_kept`).
-/

set_option autoImplicit false

namespace AnyCable.Guarantees.CookieFilter
open AnyCable.Lib AnyCable.Source.RequestHeaders

/-- A cookie with the spaces around it. The name starts where the spaces end, and the value ends
where they start again. -/
structure Cookie where
  before : Nat := 0
  name : List Char
  value : List Char
  after : Nat := 0
  name_plain : '=' ∉ name ∧ ';' ∉ name ∧ name.head? ≠ some ' ' := by decide
  value_plain : ';' ∉ value ∧ value.getLast? ≠ some ' ' := by decide

def Cookie.text (c : Cookie) : List Char :=
  List.replicate c.before ' ' ++ (c.name ++ '=' :: (c.value ++ List.replicate c.after ' '))

def Cookie.pair (c : Cookie) : List Char × List Char := (c.name, c.value)

/-- A `Cookie` header. -/
def header (cookies : List Cookie) : List Char := [';'].intercalate (cookies.map Cookie.text)

def trim (text : List Char) : List Char :=
  ((text.dropWhile (· = ' ')).reverse.dropWhile (· = ' ')).reverse

/-- The pairs that a reader finds in a header: parts without a `=` are none, and the value may have
more of them. -/
def pairsOf (text : List Char) : List (List Char × List Char) :=
  (text.splitOn ';').filterMap fun part => cut '=' (trim part)

/-- `parseCookies` passes the cookie on. -/
def Kept (filter : List (List Char)) (c : Cookie) : Prop :=
  '=' ∉ c.value ∧ List.replicate c.before ' ' ++ c.name ∈ filter

instance (filter : List (List Char)) (c : Cookie) : Decidable (Kept filter c) :=
  inferInstanceAs (Decidable (_ ∧ _))

/-! ### Reading a header -/

theorem dropWhile_spaces (n : Nat) {rest : List Char} (stops : rest.head? ≠ some ' ') :
    (List.replicate n ' ' ++ rest).dropWhile (· = ' ') = rest := by
  rw [List.dropWhile_append_of_pos (by simp)]
  cases rest with
  | nil => rfl
  | cons c rest =>
    have other : c ≠ ' ' := by simpa using stops
    simp [other]

theorem Cookie.trim_text (c : Cookie) : trim c.text = c.name ++ '=' :: c.value := by
  have starts : (c.name ++ '=' :: (c.value ++ List.replicate c.after ' ')).head? ≠ some ' ' := by
    cases shape : c.name with
    | nil => simp
    | cons first rest => simpa [shape] using c.name_plain.2.2
  have ends : (c.name ++ '=' :: c.value).reverse.head? ≠ some ' ' := by
    rw [List.head?_reverse, List.getLast?_append, List.getLast?_cons, Option.some_or]
    cases shape : c.value.getLast? with
    | none => simp
    | some last => simpa [shape] using c.value_plain.2
  have back : (c.name ++ '=' :: (c.value ++ List.replicate c.after ' ')).reverse =
      List.replicate c.after ' ' ++ (c.name ++ '=' :: c.value).reverse := by
    simp
  unfold trim Cookie.text
  rw [dropWhile_spaces c.before starts, back, dropWhile_spaces c.after ends, List.reverse_reverse]

theorem Cookie.cut_text (c : Cookie) : cut '=' (trim c.text) = some c.pair := by
  rw [c.trim_text, cut_append c.name_plain.1]
  rfl

theorem Cookie.semicolon_not_mem (c : Cookie) : ';' ∉ c.text := by
  simp [Cookie.text, c.name_plain.2.1, c.value_plain.1]

theorem pairs_of_texts (cookies : List Cookie) :
    (cookies.map Cookie.text).filterMap (fun part => cut '=' (trim part)) =
      cookies.map Cookie.pair := by
  induction cookies with
  | nil => rfl
  | cons c cookies ih =>
    rw [List.map_cons, List.filterMap_cons, c.cut_text, ih, List.map_cons]

theorem splitOn_header {cookies : List Cookie} (some_cookie : cookies ≠ []) :
    (header cookies).splitOn ';' = cookies.map Cookie.text := by
  refine List.splitOn_intercalate ';' ?_ (by simpa using some_cookie)
  intro text member
  obtain ⟨c, -, rfl⟩ := List.mem_map.mp member
  exact c.semicolon_not_mem

/-- A header is read as the cookies it was made of. -/
theorem pairsOf_header (cookies : List Cookie) : pairsOf (header cookies) = cookies.map Cookie.pair := by
  cases cookies with
  | nil => rfl
  | cons c cookies =>
    unfold pairsOf
    rw [splitOn_header (by simp), pairs_of_texts]

/-- Cookies each followed by a `;`. -/
def closed (cookies : List Cookie) : List Char := cookies.flatMap fun c => c.text ++ [';']

theorem splitOn_closed (cookies : List Cookie) :
    (closed cookies).splitOn ';' = cookies.map Cookie.text ++ [[]] := by
  induction cookies with
  | nil => rfl
  | cons c cookies ih =>
    have plain : ∀ x ∈ c.text, (x == ';') = false := by
      intro x member
      rw [beq_eq_false_iff_ne]
      rintro rfl
      exact c.semicolon_not_mem member
    have shape : closed (c :: cookies) = c.text ++ ';' :: closed cookies := by
      simp [closed]
    unfold List.splitOn at ih ⊢
    rw [shape, List.splitOnP_append_cons_of_forall_mem plain ';' (by simp), ih]
    rfl

theorem pairsOf_closed (cookies : List Cookie) : pairsOf (closed cookies) = cookies.map Cookie.pair := by
  unfold pairsOf
  rw [splitOn_closed, List.filterMap_append, pairs_of_texts]
  simp [trim, cut]

/-! ### What is passed on -/

theorem splitOn_single {text : List Char} (free : '=' ∉ text) : text.splitOn '=' = [text] := by
  apply List.splitOnP_eq_singleton
  intro x member
  rw [beq_eq_false_iff_ne]
  rintro rfl
  exact free member

theorem splitOn_front {front : List Char} (free : '=' ∉ front) (rest : List Char) :
    (front ++ '=' :: rest).splitOn '=' = front :: rest.splitOn '=' := by
  apply List.splitOnP_append_cons_of_forall_mem _ '=' (by simp)
  intro x member
  rw [beq_eq_false_iff_ne]
  rintro rfl
  exact free member

/-- The test in the loop, for a cookie. -/
theorem keepCookie_iff (filter : List (List Char)) (c : Cookie) :
    keepCookie filter c.text = true ↔ Kept filter c := by
  have front : '=' ∉ List.replicate c.before ' ' ++ c.name := by simp [c.name_plain.1]
  have parts : c.text.splitOn '=' = (List.replicate c.before ' ' ++ c.name) ::
      (c.value ++ List.replicate c.after ' ').splitOn '=' := by
    unfold Cookie.text
    rw [← List.append_assoc, splitOn_front front]
  unfold keepCookie Kept
  rw [parts]
  by_cases free : '=' ∈ c.value
  · -- three parts or more
    obtain ⟨first, rest, shape, plain⟩ := List.eq_append_cons_of_mem free
    obtain ⟨second, more, split⟩ := List.exists_cons_of_ne_nil
      (List.splitOn_ne_nil '=' (rest ++ List.replicate c.after ' '))
    rw [shape, List.append_assoc, List.cons_append, splitOn_front plain, split]
    simp
  · rw [splitOn_single (by simp [free])]
    simp [free]

theorem parseCookies_header {filter : List (List Char)} (nonempty : filter ≠ [])
    (cookies : List Cookie) :
    parseCookies (header cookies) filter = closed (cookies.filter fun c => Kept filter c) := by
  have loop : ∀ (cookies : List Cookie) (result : List Char),
      (cookies.map Cookie.text).foldl (fun result cookie =>
        if keepCookie filter cookie then result ++ cookie ++ [';'] else result) result =
      result ++ closed (cookies.filter fun c => Kept filter c) := by
    intro cookies
    induction cookies with
    | nil => simp [closed]
    | cons c cookies ih =>
      intro result
      rw [List.map_cons, List.foldl_cons, ih]
      by_cases kept : Kept filter c
      · simp [(keepCookie_iff filter c).mpr kept, kept, closed]
      · have dropped : keepCookie filter c.text = false := by
          simpa using mt (keepCookie_iff filter c).mp kept
        simp [dropped, kept]
  unfold parseCookies
  rw [if_neg nonempty]
  cases cookies with
  | nil => rfl
  | cons c cookies =>
    rw [splitOn_header (by simp), loop]
    rfl

/-- Two ways of choosing from a list give the same, seen through `f`, only if they choose the same,
provided that one of them looks at nothing else. -/
theorem filter_map_eq_iff {α β : Type} {f : α → β} {k s : α → Bool} {l : List α}
    (seen : ∀ a b, f a = f b → s a = s b) :
    (l.filter k).map f = (l.filter s).map f ↔ ∀ a ∈ l, (k a = true ↔ s a = true) := by
  constructor
  · intro same
    have fewer : ∀ a ∈ l, k a = true → s a = true := by
      intro a member chosen
      have image : f a ∈ (l.filter s).map f := by
        rw [← same]
        exact List.mem_map_of_mem (List.mem_filter.mpr ⟨member, chosen⟩)
      obtain ⟨b, found, equal⟩ := List.mem_map.mp image
      rw [← seen b a equal]
      exact (List.mem_filter.mp found).2
    -- the choices are as many, so they are the same
    have inner : l.filter k = (l.filter s).filter k := by
      rw [List.filter_filter]
      refine List.filter_congr fun a member => ?_
      by_cases chosen : k a = true
      · simp [chosen, fewer a member chosen]
      · simp [chosen]
    have lengths : (l.filter k).length = (l.filter s).length := by
      simpa using congrArg List.length same
    have equal : l.filter k = l.filter s := by
      rw [inner] at lengths ⊢
      exact List.filter_sublist.eq_of_length lengths
    intro a member
    refine ⟨fewer a member, fun chosen => ?_⟩
    have found : a ∈ l.filter k := equal ▸ List.mem_filter.mpr ⟨member, chosen⟩
    exact (List.mem_filter.mp found).2
  · intro same
    have equal : l.filter k = l.filter s :=
      List.filter_congr fun a member => Bool.eq_iff_iff.mpr (same a member)
    rw [equal]

/-- For every header of cookies and every filter: what is passed on is, in order, the cookies with a
name in the filter and their values, if and only if each cookie is kept exactly if it is selected. -/
theorem selected_iff_kept (cookies : List Cookie) (filter : List (List Char))
    (nonempty : filter ≠ []) :
    pairsOf (parseCookies (header cookies) filter) =
        (cookies.filter fun c => c.name ∈ filter).map Cookie.pair ↔
      ∀ c ∈ cookies, (Kept filter c ↔ c.name ∈ filter) := by
  rw [parseCookies_header nonempty, pairsOf_closed, filter_map_eq_iff]
  · simp
  · intro a b same
    have names : a.name = b.name := (Prod.mk.inj same).1
    rw [names]

/-- The header "a=1; b=2=3". -/
def spaced : List Cookie :=
  [{ name := ['a'], value := ['1'] }, { before := 1, name := ['b'], value := ['2', '=', '3'] }]

/-- A cookie after a space, with a `=` in its value, that is not asked for. -/
theorem spaced_selected :
    pairsOf (parseCookies (header spaced) [['a']]) = [(['a'], ['1'])] :=
  (selected_iff_kept spaced [['a']] (by decide)).mpr (by decide)

/-- The header "a=1; b=2" without its second cookie, and "c=x=y" without its only one. -/
theorem selected_dropped :
    parseCookies "a=1; b=2".toList ["b".toList] = [] ∧
    pairsOf "a=1; b=2".toList = [("a".toList, "1".toList), ("b".toList, "2".toList)] ∧
    parseCookies "c=x=y".toList ["c".toList] = [] ∧
    pairsOf "c=x=y".toList = [("c".toList, "x=y".toList)] := by
  decide +kernel

/-! ### The headers of a request -/

/-- The value that is passed on for a header. -/
def passed (web : Web) (cookies : List (List Char)) (get : String → List Char) (name : String) :
    List Char :=
  if web.toLower name.toList = "cookie".toList then parseCookies (get name) cookies else get name

theorem lookup_fromRequest (web : Web) (headers : List String) (cookies : List (List Char))
    (get : String → List Char) (name : String) :
    (fromRequest web headers cookies get).lookup name =
      if name ∈ headers ∧ passed web cookies get name ≠ [] then some (passed web cookies get name)
      else none := by
  induction headers using List.reverseRecOn with
  | nil =>
    rw [fromRequest, List.foldl_nil]
    simp
  | append_singleton headers header ih =>
    have next : fromRequest web (headers ++ [header]) cookies get =
        if passed web cookies get header ≠ [] then
          (fromRequest web headers cookies get).insert header (passed web cookies get header)
        else fromRequest web headers cookies get := by
      simp only [fromRequest, List.foldl_append, List.foldl_cons, List.foldl_nil]
      rfl
    rw [next]
    by_cases same : name = header
    · subst same
      split
      next full => simp [full]
      next empty => simp [ih, empty]
    · split
      next => rw [AList.lookup_insert_ne same, ih]; simp [same]
      next => rw [ih]; simp [same]

end AnyCable.Guarantees.CookieFilter
