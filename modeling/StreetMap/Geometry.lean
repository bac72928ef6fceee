import StreetMap.Element

/-!
The geometry that areas rely on.  A ring is given by its positions, and a polygon by its rings with the
outer one first.
-/

namespace StreetMap

class Geometry where
  /-- Why no ring can be made of positions, if it cannot. -/
  fault? : List Position → Option String
  /-- The positions of a ring once it is made, which ends where it starts. -/
  closed : List Position → List Position
  area : List Position → Float
  isWithin : List Position → List Position → Bool
  isValid : List (List (List Position)) → Bool
  /-- What is wrong with polygons that are not valid, or why that cannot be told. -/
  explain : List (List (List Position)) → Except String String
  closed_of_ends : ∀ {ps : List Position}, ps.head? = ps.getLast? → 4 ≤ ps.length → fault? ps = none →
    closed ps = ps

end StreetMap
