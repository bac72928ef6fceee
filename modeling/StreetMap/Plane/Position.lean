import StreetMap.Geometry
import StreetMap.Plane.Polygon
import StreetMap.Plane.Within

/-!
Positions on the map as points of the plane, the longitude to the right and the latitude upwards.
-/

namespace StreetMap.Position

open StreetMap.Plane

def point (p : Position) : Point := ⟨p.lon, p.lat⟩

/-- Positions with the first once more at the end, unless it is there.  Three positions always get a
fourth. -/
def closed (ps : List Position) : List Position :=
  match ps.head?, ps.getLast? with
  | some p, some q => if p.point == q.point && ps.length ≠ 3 then ps else ps ++ [p]
  | _, _ => ps

def loop (ps : List Position) : Loop := (closed ps).map point

/-- Twice the signed area, summed from the second position on with longitudes taken from the first. -/
def doubleArea (x₀ : Float) : List Position → Float → Float
  | p :: q :: r :: ps, sum =>
    doubleArea x₀ (q :: r :: ps) (sum + (q.lon - x₀) * (p.lat - r.lat))
  | _, sum => sum

def area (ps : List Position) : Float :=
  match closed ps with
  | [] => 0
  | p :: ps => (doubleArea p.lon (p :: ps) 0 / 2).abs

def fault? (ps : List Position) : Option String :=
  if (closed ps).head?.any fun p => !(p.point == p.point) then
    some "IllegalArgumentException: Points of LinearRing do not form a closed linestring"
  else none

theorem head?_closed (ps : List Position) : (closed ps).head? = ps.head? := by
  unfold closed
  split
  · rename_i p q first last
    split
    · rfl
    · simp [first]
  · rfl

theorem closed_of_ends {ps : List Position} (ends : ps.head? = ps.getLast?) (size : 4 ≤ ps.length)
    (sound : fault? ps = none) : closed ps = ps := by
  have many : ps.length ≠ 3 := by omega
  cases first : ps.head? with
  | none => simp [closed, first]
  | some p =>
    have alike : (p.point == p.point) = true := by simpa [fault?, head?_closed, first] using sound
    rw [closed, ← ends, first]
    exact if_pos (by simp [alike, many])

def polygon? : List (List Position) → Option Polygon
  | [] => none
  | shell :: holes => some ⟨loop shell, holes.map loop⟩

def verdict? (shapes : List (List (List Position))) : Option Bool :=
  Polygon.areValid? (shapes.filterMap polygon?)

def explain (shapes : List (List (List Position))) : Except String String :=
  match verdict? shapes with
  | some _ => .ok "Invalid geometry"
  | none => .error "IllegalArgumentException: Segment vertex does not intersect ring"

end StreetMap.Position
