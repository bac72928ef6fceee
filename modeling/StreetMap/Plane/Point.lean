/-!
Points of the plane and upright boxes.  Points are the same if their coordinates are equal as numbers, so
the sign of a zero does not count.
-/

namespace StreetMap.Plane

structure Point where
  x : Float
  y : Float
  deriving Inhabited

instance : BEq Point := ⟨fun p q => p.x == q.x && p.y == q.y⟩

namespace Point

def isFinite (p : Point) : Bool := p.x.isFinite && p.y.isFinite

def isBefore (p q : Point) : Bool := p.x < q.x || (p.x == q.x && p.y < q.y)

def distance (p q : Point) : Float := ((p.x - q.x) * (p.x - q.x) + (p.y - q.y) * (p.y - q.y)).sqrt

end Point

structure Box where
  left : Float
  right : Float
  bottom : Float
  top : Float

namespace Box

def between (p q : Point) : Box := ⟨min p.x q.x, max p.x q.x, min p.y q.y, max p.y q.y⟩

def join (a b : Box) : Box := ⟨min a.left b.left, max a.right b.right, min a.bottom b.bottom, max a.top b.top⟩

def around (p : Point) (ps : List Point) : Box := ps.foldl (fun b q => b.join (between q q)) (between p p)

def has (b : Box) (p : Point) : Bool := b.left ≤ p.x && p.x ≤ b.right && b.bottom ≤ p.y && p.y ≤ b.top

def covers (a b : Box) : Bool :=
  a.left ≤ b.left && b.right ≤ a.right && a.bottom ≤ b.bottom && b.top ≤ a.top

def meets (a b : Box) : Bool :=
  a.left ≤ b.right && b.left ≤ a.right && a.bottom ≤ b.top && b.bottom ≤ a.top

end Box

end StreetMap.Plane
