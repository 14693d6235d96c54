import Mathlib.Data.List.Basic

/-!
# Arrivals and departures

A set changes over time and a log notes arrivals and departures, each with its key. The log
follows the set if the notes of every key alternate, beginning with an arrival, and the last of
them is an arrival exactly while the key is in the set.
-/

set_option autoImplicit false

namespace AnyCable.Lib

variable {K L : Type}

/-- `a`, `b`, `a`, `b` and so on. -/
def Alternates (a b : L) : List L → Prop
  | [] => True
  | x :: rest => x = a ∧ Alternates b a rest

instance decidableAlternates [DecidableEq L] (a b : L) :
    (notes : List L) → Decidable (Alternates a b notes)
  | [] => isTrue trivial
  | x :: rest =>
    have := decidableAlternates b a rest
    inferInstanceAs (Decidable (x = a ∧ Alternates b a rest))

theorem Alternates.mem {a b x : L} {notes : List L} (alternates : Alternates a b notes)
    (member : x ∈ notes) : x = a ∨ x = b := by
  induction notes generalizing a b with
  | nil => cases member
  | cons first rest ih =>
    cases member with
    | head => exact Or.inl alternates.1
    | tail _ later => exact (ih alternates.2 later).symm

/-- The note after the last one. -/
theorem Alternates.concat [DecidableEq L] {a b : L} {notes : List L}
    (alternates : Alternates a b notes) (distinct : a ≠ b) :
    Alternates a b (notes ++ [if notes.getLast? = some a then b else a]) := by
  induction notes generalizing a b with
  | nil => exact ⟨rfl, trivial⟩
  | cons first rest ih =>
    obtain ⟨rfl, after⟩ := alternates
    refine ⟨rfl, ?_⟩
    have next := ih after distinct.symm
    cases last : rest.getLast? with
    | none =>
      rw [List.getLast?_eq_none_iff] at last
      subst last
      simpa using next
    | some y =>
      rw [List.getLast?_cons_of_ne_nil (by rintro rfl; cases last), last]
      rw [last] at next
      rcases after.mem (List.mem_of_getLast? last) with rfl | rfl
      · simpa [distinct.symm] using next
      · simpa [distinct] using next

variable [DecidableEq K]

/-- The notes about a key, oldest first. -/
def notesOf (key : K) (log : List (K × L)) : List L :=
  (log.filter fun note => note.1 = key).map Prod.snd

@[simp] theorem notesOf_append (key : K) (log more : List (K × L)) :
    notesOf key (log ++ more) = notesOf key log ++ notesOf key more := by
  simp [notesOf]

theorem notesOf_same (key : K) (note : L) : notesOf key [(key, note)] = [note] := by
  simp [notesOf]

theorem notesOf_other {key other : K} (different : other ≠ key) (note : L) :
    notesOf other [(key, note)] = [] := by
  simp [notesOf, different.symm]

/-- The log tells who is here. -/
structure Follows (arrive depart : L) (log : List (K × L)) (here : K → Prop) : Prop where
  alternates : ∀ key, Alternates arrive depart (notesOf key log)
  last : ∀ key, (notesOf key log).getLast? = some arrive ↔ here key

namespace Follows

variable {arrive depart : L} {log : List (K × L)} {here after : K → Prop} {key : K}

theorem start (arrive depart : L) : Follows arrive depart ([] : List (K × L)) fun _ => False where
  alternates _ := trivial
  last _ := by simp [notesOf]

theorem congr (follows : Follows arrive depart log here) (same : ∀ k, after k ↔ here k) :
    Follows arrive depart log after :=
  ⟨follows.alternates, fun k => (follows.last k).trans (same k).symm⟩

/-- A key that was touched is where it was. -/
theorem kept (follows : Follows arrive depart log here)
    (others : ∀ k, k ≠ key → (after k ↔ here k)) (own : after key ↔ here key) :
    Follows arrive depart log after := by
  apply follows.congr
  intro k
  by_cases same : k = key
  · subst same
    exact own
  · exact others k same

/-- A note about one key leaves the others as they are. -/
theorem note {l : L} (follows : Follows arrive depart log here)
    (others : ∀ k, k ≠ key → (after k ↔ here k))
    (alternates : Alternates arrive depart (notesOf key log ++ [l]))
    (last : l = arrive ↔ after key) : Follows arrive depart (log ++ [(key, l)]) after where
  alternates k := by
    by_cases same : k = key
    · subst same
      rwa [notesOf_append, notesOf_same]
    · rw [notesOf_append, notesOf_other same, List.append_nil]
      exact follows.alternates k
  last k := by
    by_cases same : k = key
    · subst same
      rw [notesOf_append, notesOf_same, List.getLast?_concat, Option.some.injEq]
      exact last
    · rw [notesOf_append, notesOf_other same, List.append_nil, others k same]
      exact follows.last k

variable [DecidableEq L]

theorem arrived (follows : Follows arrive depart log here) (distinct : arrive ≠ depart)
    (absent : ¬ here key) (others : ∀ k, k ≠ key → (after k ↔ here k)) (present : after key) :
    Follows arrive depart (log ++ [(key, arrive)]) after := by
  apply follows.note others
  · have next := (follows.alternates key).concat distinct
    rwa [if_neg (fun last => absent ((follows.last key).mp last))] at next
  · exact iff_of_true rfl present

theorem departed (follows : Follows arrive depart log here) (distinct : arrive ≠ depart)
    (present : here key) (others : ∀ k, k ≠ key → (after k ↔ here k)) (absent : ¬ after key) :
    Follows arrive depart (log ++ [(key, depart)]) after := by
  apply follows.note others
  · have next := (follows.alternates key).concat distinct
    rwa [if_pos ((follows.last key).mpr present)] at next
  · exact iff_of_false distinct.symm absent

end Follows

end AnyCable.Lib
