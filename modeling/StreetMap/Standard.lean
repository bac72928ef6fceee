import StreetMap.Limits
import StreetMap.Plane.Position

/-!
What the program runs with: the limits of a system that has been left as it is, and the geometry of the
plane.
-/

namespace StreetMap.Standard

scoped instance limits : Limits where
  digits := some 4300
  depth := 988
  room := by simp

scoped instance geometry : Geometry where
  fault? := Position.fault?
  closed := Position.closed
  area := Position.area
  isWithin inner outer := (Position.loop inner).isWithin (Position.loop outer)
  isValid shapes := Position.verdict? shapes = some true
  explain := Position.explain
  closed_of_ends := Position.closed_of_ends

end StreetMap.Standard
