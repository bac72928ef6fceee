import StreetMap.Plane.Junction

/-!
Whether one loop lies within another.  Crossing edges decide that it does not, unless their crossing is
rounded to a corner; the first points decide where no edges meet, and the junctions where they do.
-/

namespace StreetMap.Plane.Loop

def placesOf (e f : Edge) : List Point :=
  let isOwn (p : Point) : Bool := !(p == e.segment.stop || p == f.segment.stop)
  match e.segment.meeting f.segment with
  | .apart => []
  | .cross p => [p]
  | .touch p => [p].filter isOwn
  | .stretch p q => [p, q].filter isOwn

def isEnd (e : Edge) (p : Point) : Bool := p == e.segment.start || p == e.segment.stop

def crossAt (e f : Edge) (p : Point) : Bool :=
  !(isEnd e p || isEnd f p) || (e.cornerAt p).crosses p (f.cornerAt p)

def junctions? (es fs : List Edge) : Option (List Junction) :=
  es.foldlM
    (fun js e => fs.foldlM
      (fun js f => (placesOf e f).foldlM
        (fun js p => if crossAt e f p then none else some (Junction.add p (e.cornerAt p) (f.cornerAt p) js))
        js)
      js)
    []

def start (l : Loop) : Point := l.headD default

def isWithin (l outer : Loop) : Bool :=
  if !outer.box.covers l.box then false
  else
    match l.locate outer.start, outer.locate l.start with
    | .inside, _ | _, .outside => false
    | _, side =>
      match junctions? l.clockwise.edges outer.clockwise.edges with
      | none => false
      | some js =>
        let pairs := js.flatMap fun j => j.spokes.flatMap Spoke.pairs
        pairs.all (fun (a, b) => a = .outside || b ≠ .outside)
          && (side = .inside || pairs.contains (.inside, .inside))

end StreetMap.Plane.Loop
