import AnyCable.Lib.GoMap

/-!
# Writes laid over a map

A map of writes is applied to another map: a value takes the place of the old one, and some values
stand for a deletion. Under each key this is `overlay`, a function of the old value and of the write
alone, so the order in which the writes are made does not matter (`foldl_put`).
-/

set_option autoImplicit false

namespace AnyCable.Lib.Overlay

variable {K V : Type} (gone : V → Prop) [DecidablePred gone]

/-- What is held under a key after a write, if there is one. -/
def overlay (old new : Option V) : Option V :=
  match new with
  | none => old
  | some v => if gone v then none else some v

/-- One write to a map that is given by its entries. -/
def put [DecidableEq K] (entries : K → Option V) (write : K × V) : K → Option V :=
  fun k => if k = write.1 then overlay gone (entries k) (some write.2) else entries k

variable {gone} {old new other : Option V}

theorem overlay_overlay : overlay gone (overlay gone old new) new = overlay gone old new := by
  cases new with
  | none => rfl
  | some v => rfl

/-- Writes under different keys: under each key at most one of them is there. -/
theorem overlay_comm (apart : new = none ∨ other = none) :
    overlay gone (overlay gone old new) other = overlay gone (overlay gone old other) new := by
  rcases apart with rfl | rfl
  · rfl
  · rfl

theorem foldl_put [DecidableEq K] {writes : GoMap K V} {walk : List (K × V)}
    (order : walk.Perm writes.toPairs) (entries : K → Option V) :
    walk.foldl (put gone) entries = fun k => overlay gone (entries k) (writes.lookup k) := by
  funext k
  have written : walk.foldl (put gone) entries k =
      (writes.lookup k).elim (entries k) fun v => overlay gone (entries k) (some v) :=
    GoMap.foldl_walk (fun entries k => entries k) (fun v old => overlay gone old (some v))
      (fun _ _ _ => rfl) order entries k
  rw [written]
  cases writes.lookup k with
  | none => rfl
  | some v => rfl

end AnyCable.Lib.Overlay
