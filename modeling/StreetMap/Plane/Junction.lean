import StreetMap.Plane.Loop

/-!
Junctions: the places where edges of two loops meet.  The corners of both loops are laid out as spokes in
order of direction, and each spoke learns on which sides of the loops it and its surroundings lie.
-/

namespace StreetMap.Plane

/-- What is known of a spoke against a loop: whether it is an edge of it, and on which side of it the
left of the spoke, the right and the spoke itself are. -/
structure Bearing where
  isEdge : Bool
  left : Option Side
  right : Option Side
  ahead : Option Side

namespace Bearing

def unknown : Bearing := ⟨false, none, none, none⟩

def enclose (b : Bearing) : Bearing :=
  { b with left := some .inside, right := some .inside, ahead := some .inside }

/-- An edge has the inside on its right or on its left.  Of two edges in one direction the one with an
inside counts. -/
def addEdge (onRight : Bool) (b : Bearing) : Bearing :=
  let keep (known : Option Side) (s : Side) : Option Side :=
    if b.isEdge && known = some .inside then known else some s
  { isEdge := true
    left := keep b.left (if onRight then .outside else .inside)
    right := keep b.right (if onRight then .inside else .outside)
    ahead := if b.isEdge then b.ahead else some .boundary }

def fill (s : Side) (b : Bearing) : Bearing :=
  { b with left := b.left.or (some s), right := b.right.or (some s), ahead := b.ahead.or (some s) }

end Bearing

inductive Which
  | first | second

structure Spoke where
  target : Point
  first : Bearing
  second : Bearing

namespace Spoke

def bearing (w : Which) (s : Spoke) : Bearing :=
  match w with
  | .first => s.first
  | .second => s.second

def update (w : Which) (f : Bearing → Bearing) (s : Spoke) : Spoke :=
  match w with
  | .first => { s with first := f s.first }
  | .second => { s with second := f s.second }

def pairs (s : Spoke) : List (Side × Side) :=
  [(s.first.left, s.second.left), (s.first.right, s.second.right), (s.first.ahead, s.second.ahead)].map
    fun (a, b) => (a.getD .outside, b.getD .outside)

def insert (o : Point) (w : Which) (onRight : Bool) (target : Point) (ss : List Spoke) :
    List Spoke × Nat × Nat :=
  let i := ss.findIdx fun s => !(compareDirections o s.target target).isLT
  if ss[i]?.any fun s => (compareDirections o s.target target).isEq then
    (ss.modify i (update w (.addEdge onRight)), i, 0)
  else (ss.insertIdx i (update w (.addEdge onRight) ⟨target, .unknown, .unknown⟩), i, 1)

def placesBetween (count i j : Nat) : List Nat :=
  ((List.range count).map fun k => (i + 1 + k) % count).takeWhile (· ≠ j)

def encloseAt (w : Which) (ss : List Spoke) (i : Nat) : List Spoke := ss.modify i (update w .enclose)

def addCorner (o : Point) (w : Which) (ss : List Spoke) (c : Corner) : List Spoke :=
  let (ss, i, _) := insert o w false c.source ss
  let (ss, j, added) := insert o w true c.target ss
  let i := if j ≤ i then i + added else i
  let count := ss.length
  let isInside (side : Bearing → Option Side) (ss : List Spoke) (k : Nat) : Bool :=
    ss[k % count]?.any fun s => side (s.bearing w) = some .inside
  let ss := (placesBetween count i j).foldl (encloseAt w) ss
  let ss := if isInside Bearing.left ss (i + count - 1) then encloseAt w ss i else ss
  if isInside Bearing.right ss (j + 1) then encloseAt w ss j else ss

def spread (w : Which) : Side → List Spoke → List Spoke
  | _, [] => []
  | side, s :: ss =>
    let s := s.update w (.fill side)
    s :: spread w ((s.bearing w).left.getD side) ss

def complete (w : Which) (ss : List Spoke) : List Spoke :=
  match ss.rotateLeft (ss.findIdx fun s => (s.bearing w).isEdge) with
  | [] => []
  | s :: ss => s :: spread w ((s.bearing w).left.getD .outside) ss

end Spoke

structure Junction where
  place : Point
  first : List Corner
  second : List Corner

namespace Junction

def isBefore (c d : Corner) : Bool :=
  c.source.isBefore d.source || (c.source == d.source && c.target.isBefore d.target)

def insertInOrder {α : Type} (isAfter : α → α → Bool) (x : α) : List α → List α
  | [] => [x]
  | y :: ys => if isAfter y x then x :: y :: ys else y :: insertInOrder isAfter x ys

def sort {α : Type} (isAfter : α → α → Bool) (xs : List α) : List α :=
  xs.foldl (fun sorted x => insertInOrder isAfter x sorted) []

def dropRepeatsFrom : Corner → List Corner → List Corner
  | c, [] => [c]
  | c, d :: cs =>
    if c.source == d.source && c.target == d.target then dropRepeatsFrom c cs else c :: dropRepeatsFrom d cs

def dropRepeats : List Corner → List Corner
  | [] => []
  | c :: cs => dropRepeatsFrom c cs

def inOrder (o : Point) (cs : List Corner) : List Corner :=
  dropRepeats (sort (fun c d => (compareDirections o c.source d.source).isGT)
    (sort (fun c d => isBefore d c) cs))

def spokes (j : Junction) : List Spoke :=
  let ss := (inOrder j.place j.first).foldl (Spoke.addCorner j.place .first) []
  let ss := (inOrder j.place j.second).foldl (Spoke.addCorner j.place .second) ss
  Spoke.complete .second (Spoke.complete .first ss)

def add (p : Point) (c d : Corner) : List Junction → List Junction
  | [] => [⟨p, [c], [d]⟩]
  | j :: js =>
    if j.place == p then { j with first := j.first ++ [c], second := j.second ++ [d] } :: js
    else j :: add p c d js

end Junction

end StreetMap.Plane
