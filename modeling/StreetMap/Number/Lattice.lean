/-!
Finite numbers as exact multiples of the least positive one.
-/

namespace StreetMap

/-- How many times the least positive floating-point number goes into one. -/
def latticeUnit : Nat := Nat.pow 2 1074

open Float.Model in
/-- A finite number as a multiple of the least positive one. -/
def latticeValue? (x : Float) : Option Int :=
  match x.toModel.unpack with
  | .finite sign m e _ =>
    let n : Nat := m <<< (e + 1074).toNat
    some (if sign == .negative then -n else n)
  | .zero _ => some 0
  | _ => none

end StreetMap
