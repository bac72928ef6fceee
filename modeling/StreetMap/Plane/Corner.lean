import StreetMap.Plane.Turn

/-!
Directions round a point, in anticlockwise order from the right on, and corners: a path that comes to a
point and leaves it.
-/

namespace StreetMap.Plane

def quarter (o p : Point) : Nat :=
  if o.x ≤ p.x then if o.y ≤ p.y then 0 else 3
  else if o.y ≤ p.y then 1 else 2

def compareDirections (o p q : Point) : Ordering :=
  match compare (quarter o p) (quarter o q) with
  | .eq =>
    match turn o q p with
    | .left => .gt
    | .right => .lt
    | .straight => .eq
  | c => c

structure Corner where
  source : Point
  target : Point

namespace Corner

def reverse (c : Corner) : Corner := ⟨c.target, c.source⟩

/-- The points of a corner in the order of their directions, and whether that is from source to target. -/
def inOrder (o : Point) (c : Corner) : Point × Point × Bool :=
  if (compareDirections o c.source c.target).isGT then (c.target, c.source, false)
  else (c.source, c.target, true)

def isBetween? (o p low high : Point) : Option Bool :=
  match compareDirections o p low, compareDirections o p high with
  | .eq, _ | _, .eq => none
  | a, b => some (a.isGT && b.isLT)

def crosses (o : Point) (c d : Corner) : Bool :=
  let (low, high, _) := c.inOrder o
  match isBetween? o d.source low high, isBetween? o d.target low high with
  | some a, some b => a != b
  | _, _ => false

def hasOnRight (o : Point) (c : Corner) (p : Point) : Bool :=
  let (low, high, forward) := c.inOrder o
  ((compareDirections o p low).isGT && !(compareDirections o p high).isGT) == forward

end Corner

end StreetMap.Plane
