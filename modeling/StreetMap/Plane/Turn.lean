import StreetMap.Plane.Point
import StreetMap.Number.DoubleWord

/-!
Which way a path of three points turns.  A floating-point test decides unless rounding could have
changed its sign; double words decide then.
-/

namespace StreetMap.Plane

inductive Turn
  | left | straight | right
  deriving DecidableEq

def Turn.ofArea (x : DoubleWord) : Turn :=
  if x.isNegative then .right
  else if x.neg.isNegative then .left
  else .straight

def roundingBound : Float := 3.3306690621773724e-16

def preciseTurn (a b c : Point) : Turn :=
  let difference (x y : Float) : DoubleWord := .add (.ofFloat x) (.ofFloat (-y))
  .ofArea (.sub (.mul (difference b.x a.x) (difference c.y b.y))
    (.mul (difference b.y a.y) (difference c.x b.x)))

def turn (a b c : Point) : Turn :=
  let p := (a.x - c.x) * (b.y - c.y)
  let q := (a.y - c.y) * (b.x - c.x)
  if (p - q).abs ≥ (p + q).abs * roundingBound then .ofArea (.ofFloat (p - q))
  else preciseTurn a b c

end StreetMap.Plane
