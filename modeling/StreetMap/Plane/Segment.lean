import StreetMap.Plane.Turn

/-!
Segments and where they meet.  A meeting point that is an end of one of them is that end exactly; where
they cross inside both, the point is computed and rounded.
-/

namespace StreetMap.Plane

structure Segment where
  start : Point
  stop : Point

inductive Meeting
  | apart | touch (p : Point) | cross (p : Point) | stretch (p q : Point)

namespace Segment

def reverse (s : Segment) : Segment := ⟨s.stop, s.start⟩

def box (s : Segment) : Box := .between s.start s.stop

def turnTo (s : Segment) (p : Point) : Turn := turn s.start s.stop p

def has (s : Segment) (p : Point) : Bool :=
  s.box.has p && s.turnTo p = .straight && s.reverse.turnTo p = .straight

def distance (s : Segment) (p : Point) : Float :=
  if s.start == s.stop then p.distance s.start
  else
    let dx := s.stop.x - s.start.x
    let dy := s.stop.y - s.start.y
    let square := dx * dx + dy * dy
    let along := ((p.x - s.start.x) * dx + (p.y - s.start.y) * dy) / square
    if along ≤ 0 then p.distance s.start
    else if along ≥ 1 then p.distance s.stop
    else (((s.start.y - p.y) * dx - (s.start.x - p.x) * dy) / square).abs * square.sqrt

def nearestEnd (s t : Segment) : Point :=
  let ends := [(s.stop, t.distance s.stop), (t.start, s.distance t.start), (t.stop, s.distance t.stop)]
  (ends.foldl (fun best e => if e.2 < best.2 then e else best) (s.start, t.distance s.start)).1

def line (s : Segment) : DoubleWord × DoubleWord × DoubleWord :=
  let word (x : Float) : DoubleWord := .ofFloat x
  ((word s.start.y).sub (word s.stop.y), (word s.stop.x).sub (word s.start.x),
    ((word s.start.x).mul (word s.stop.y)).sub ((word s.stop.x).mul (word s.start.y)))

def crossing? (s t : Segment) : Option Point :=
  let (a, b, c) := s.line
  let (a', b', c') := t.line
  let w := (a.mul b').sub (a'.mul b)
  let p : Point :=
    { x := (((b.mul c').sub (b'.mul c)).div w).toFloat
      y := (((a'.mul c).sub (a.mul c')).div w).toFloat }
  if p.isFinite then some p else none

def crossing (s t : Segment) : Point :=
  match s.crossing? t with
  | some p => if s.box.has p && t.box.has p then p else s.nearestEnd t
  | none => s.nearestEnd t

def meetingInLine (s t : Segment) : Meeting :=
  let ends (p q : Point) (more : Bool) : Meeting := if p == q && !more then .touch p else .stretch p q
  let startIn := s.box.has t.start
  let stopIn := s.box.has t.stop
  let startHas := t.box.has s.start
  let stopHas := t.box.has s.stop
  if startIn && stopIn then .stretch t.start t.stop
  else if startHas && stopHas then .stretch s.start s.stop
  else if startIn && startHas then ends t.start s.start (stopIn || stopHas)
  else if startIn && stopHas then ends t.start s.stop (stopIn || startHas)
  else if stopIn && startHas then ends t.stop s.start (startIn || stopHas)
  else if stopIn && stopHas then ends t.stop s.stop (startIn || startHas)
  else .apart

def sameSide (u v : Turn) : Bool := u = v && u ≠ .straight

def meeting (s t : Segment) : Meeting :=
  if !s.box.meets t.box then .apart
  else
    let toStart := s.turnTo t.start
    let toStop := s.turnTo t.stop
    let fromStart := t.turnTo s.start
    let fromStop := t.turnTo s.stop
    if sameSide toStart toStop || sameSide fromStart fromStop then .apart
    else if [toStart, toStop, fromStart, fromStop].all (· = .straight) then s.meetingInLine t
    else if [toStart, toStop, fromStart, fromStop].all (· ≠ .straight) then .cross (s.crossing t)
    else if s.start == t.start || s.start == t.stop then .touch s.start
    else if s.stop == t.start || s.stop == t.stop then .touch s.stop
    else if toStart = .straight then .touch t.start
    else if toStop = .straight then .touch t.stop
    else if fromStart = .straight then .touch s.start
    else .touch s.stop

end Segment

end StreetMap.Plane
