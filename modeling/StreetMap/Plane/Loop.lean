import StreetMap.Plane.Corner
import StreetMap.Plane.Segment

/-!
Closed paths.  A loop is given by its points, the last the same as the first; it has an inside, and is
itself the boundary of that.
-/

namespace StreetMap.Plane

abbrev Loop := List Point

inductive Side
  | inside | boundary | outside
  deriving DecidableEq

structure Edge where
  before : Point
  segment : Segment
  after : Point

namespace Edge

def cornerAt (e : Edge) (p : Point) : Corner :=
  ⟨if e.segment.start == p then e.before else e.segment.start,
    if e.segment.stop == p then e.after else e.segment.stop⟩

def quarter (e : Edge) : Nat := Plane.quarter e.segment.start e.segment.stop

end Edge

inductive Ray
  | misses | crosses | starts
  deriving DecidableEq

/-- A segment that the ray crosses has its lower end on the ray or below, and its upper end above. -/
def castRay (p : Point) (s : Segment) : Ray :=
  if s.start.x < p.x && s.stop.x < p.x then .misses
  else if p == s.stop then .starts
  else if s.start.y == p.y && s.stop.y == p.y then if s.box.has p then .starts else .misses
  else if (p.y < s.start.y && s.stop.y ≤ p.y) || (p.y < s.stop.y && s.start.y ≤ p.y) then
    match s.turnTo p with
    | .straight => .starts
    | .left => if s.start.y < s.stop.y then .crosses else .misses
    | .right => if s.start.y < s.stop.y then .misses else .crosses
  else .misses

def Side.ofRays (rays : List Ray) : Side :=
  if rays.contains .starts then .boundary
  else if rays.count .crosses % 2 = 1 then .inside
  else .outside

namespace Loop

def box (l : Loop) : Box := .around (l.headD default) l.tail

def dropRepeatsFrom : Point → Loop → Loop
  | p, [] => [p]
  | p, q :: ps => if p == q then dropRepeatsFrom p ps else p :: dropRepeatsFrom q ps

def dropRepeats : Loop → Loop
  | [] => []
  | p :: ps => dropRepeatsFrom p ps

def segments (l : Loop) : List Segment := (l.zip l.tail).map fun (p, q) => ⟨p, q⟩

def edges (l : Loop) : List Edge :=
  let ps := l.dropRepeats.dropLast
  let ends := ps.zip (ps.rotateLeft.zip (ps.rotateLeft 2))
  (ps.rotateRight.zip ends).map fun (before, start, stop, after) => ⟨before, ⟨start, stop⟩, after⟩

def runs (l : Loop) : List (List (Edge × Nat)) :=
  l.edges.zipIdx.splitBy fun (e, _) (f, _) => e.quarter = f.quarter

def side (l : Loop) (p : Point) : Side := .ofRays (l.segments.map fun s => castRay p s.reverse)

def locate (l : Loop) (p : Point) : Side := if l.box.has p then l.side p else .outside

def lastRise (l : Loop) : Option (Segment × Nat) :=
  l.segments.zipIdx.foldl
    (fun best (s, i) =>
      let top := match best with
        | some (b, _) => b.stop
        | none => l.headD default
      if s.start.y < s.stop.y && top.y ≤ s.stop.y then some (s, i) else best)
    none

def isAnticlockwise (l : Loop) : Bool :=
  match l.lastRise with
  | none => false
  | some (s, i) =>
    let onward := (l.dropLast.rotateLeft (i + 1)).tail
    let level := onward.takeWhile fun p => p.y == s.stop.y
    let last := level.getLastD s.stop
    match onward.drop level.length with
    | [] => false
    | down :: _ =>
      if last == s.stop then
        !(down == s.stop) && !(s.start == down) && turn s.start s.stop down = .left
      else last.x < s.stop.x

def clockwise (l : Loop) : Loop := if l.isAnticlockwise then l.reverse else l

def cornerAt? (l : Loop) (p : Point) : Option Corner :=
  (l.edges.find? (·.segment.has p)).map (·.cornerAt p)

/-- Whether a loop that does not cross another lies in it.  Its first point tells, or the direction in
which it leaves that; none if the first point seems to lie on the other loop but on none of its edges. -/
def isNestedIn? (l outer : Loop) : Option Bool :=
  let p := l.headD default
  match outer.side p with
  | .outside => some false
  | .inside => some true
  | .boundary =>
    (outer.cornerAt? p).map fun c =>
      (if outer.isAnticlockwise then c.reverse else c).hasOnRight p
        ((l.find? fun q => !(q == p)).getD p)

end Loop

end StreetMap.Plane
