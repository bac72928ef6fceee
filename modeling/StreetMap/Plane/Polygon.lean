import StreetMap.Plane.Loop

/-!
Polygons with holes, and when a collection of them is valid: no loop meets itself, loops do not cross or
share a stretch, holes lie in their shell and not in one another, no polygon lies in another, and the
inside of each is connected.
-/

namespace StreetMap.Plane

structure Polygon where
  shell : Loop
  holes : List Loop

structure Strand where
  polygon : Nat
  loop : Nat
  size : Nat
  edges : List (Edge × Nat)

structure Contact where
  loop : Nat
  other : Nat
  place : Point

inductive Encounter
  | harmless | contact (p : Point) | conflict

namespace Strand

def areAdjacent (size i j : Nat) : Bool := i ≤ j + 1 && j ≤ i + 1 || i + 1 ≥ size + j || j + 1 ≥ size + i

/-- Edges of one loop meet only at their common end, and edges of two loops only where these touch.  A
touch at the end of an edge is left to the next one, whose start it is. -/
def encounter (s t : Strand) (e f : Edge × Nat) : Encounter :=
  match e.1.segment.meeting f.1.segment with
  | .apart => .harmless
  | .cross _ | .stretch _ _ => .conflict
  | .touch p =>
    if s.loop = t.loop then if areAdjacent s.size e.2 f.2 then .harmless else .conflict
    else if p == e.1.segment.stop || p == f.1.segment.stop then .harmless
    else if (e.1.cornerAt p).crosses p (f.1.cornerAt p) then .conflict
    else .contact p

def contacts? (s t : Strand) : Option (List Contact) := do
  let found ← s.edges.flatMapM fun e => t.edges.flatMapM fun f =>
    match encounter s t e f with
    | .harmless => some []
    | .contact p => some (if s.polygon = t.polygon then [⟨s.loop, t.loop, p⟩] else [])
    | .conflict => none
  return found

end Strand

namespace Polygon

def loops (p : Polygon) : List Loop := p.shell :: p.holes

def strands (ps : List Polygon) : List Strand :=
  let loops := ps.zipIdx.flatMap fun (p, i) => p.loops.map fun l => (i, l)
  loops.zipIdx.flatMap fun ((i, l), j) => l.runs.map fun es => ⟨i, j, l.edges.length, es⟩

def contacts? : List Strand → Option (List Contact)
  | [] => some []
  | s :: ss => do return (← ss.flatMapM s.contacts?) ++ (← contacts? ss)

def touchOnce (cs : List Contact) : Bool :=
  cs.all fun c => cs.all fun d => !(c.loop = d.loop && c.other = d.other) || c.place == d.place

def neighbours (cs : List Contact) (count loop : Nat) : List (Nat × Point) :=
  (List.range count).filterMap fun i =>
    (cs.find? fun c => (c.loop = loop && c.other = i) || (c.loop = i && c.other = loop)).map fun c =>
      (i, c.place)

/-- Go from loop to loop by their contacts, but on from none through the point where it was entered.  To
come to a loop again closes a cycle, which cuts off a part of the inside.  Each step reaches one of the
loops for the first time, so `steps` of them are enough. -/
def closesCycle (cs : List Contact) (count : Nat) : Nat → List (Nat × Point) → List Nat → Bool
  | steps + 1, (loop, entry) :: stack, reached =>
    let next := (neighbours cs count loop).filter fun (_, p) => !(p == entry)
    next.any (fun (i, _) => reached.contains i)
      || closesCycle cs count steps (next.reverse ++ stack) (next.map Prod.fst ++ reached)
  | _, _, _ => false

def hasCycle (cs : List Contact) (count : Nat) : Bool :=
  (List.range count).any fun i =>
    let next := neighbours cs count i
    closesCycle cs count count next.reverse (i :: next.map Prod.fst)

def isNestedInBox? (l outer : Loop) : Option Bool :=
  if outer.box.covers l.box then l.isNestedIn? outer else some false

def holesInside? (p : Polygon) : Option Bool := p.holes.allM fun h => isNestedInBox? h p.shell

def hasNestedHoles? (p : Polygon) : Option Bool :=
  p.holes.zipIdx.anyM fun (h, i) => p.holes.zipIdx.anyM fun (k, j) =>
    if i = j then some false else isNestedInBox? h k

def side (p : Polygon) (q : Point) : Side :=
  .ofRays (p.loops.flatMap fun l => l.segments.map (castRay q))

/-- Whether a loop that does not cross a polygon lies in it.  If its first two points are both on the
boundary, the directions there tell. -/
def holds? (p : Polygon) (l : Loop) : Option Bool :=
  match p.side (l.headD default), p.side (l.tail.headD default) with
  | .inside, _ | .boundary, .inside => some true
  | .outside, _ | .boundary, .outside => some false
  | .boundary, .boundary => do
    if ← l.isNestedIn? p.shell then
      return !(← p.holes.anyM fun h => isNestedInBox? l h)
    else return false

def hasNestedShells? (ps : List Polygon) : Option Bool :=
  ps.zipIdx.anyM fun (p, i) => ps.zipIdx.anyM fun (q, j) =>
    if i = j || !q.shell.box.covers p.shell.box then some false else q.holds? p.shell

def isLong (l : Loop) : Bool := 4 ≤ l.dropRepeats.length

def areValid? (ps : List Polygon) : Option Bool := do
  let loops := ps.flatMap loops
  if !(loops.all fun l => l.all Point.isFinite && isLong l) then return false
  match contacts? (strands ps) with
  | none => return false
  | some cs =>
    if !touchOnce cs then return false
    else if !(← ps.allM holesInside?) then return false
    else if ← ps.anyM hasNestedHoles? then return false
    else if ← hasNestedShells? ps then return false
    else return !hasCycle cs loops.length

end Polygon

end StreetMap.Plane
