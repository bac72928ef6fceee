import StreetMap.Geometry
import StreetMap.Number.Numeral
import StreetMap.Ring

/-!
Areas: outer rings, and inner rings that are holes in them.  An area comes from one closed way or from
the outer and inner members of a relation.
-/

namespace StreetMap

inductive RingError
  | unknownNodes (ids : List Int) | tooFewNodes (ids : List Int) | refused (reason : String)
  | invalid (reason : String) | zeroArea
  deriving DecidableEq

inductive AreaError
  | openRings (parent : Key) | noOuterRing (parent : Key) | ring (e : RingError)
  | strayHole (parent : Key) | invalid (parent : Key) (reason : String) | refused (reason : String)
  deriving DecidableEq

section Messages

variable [Limits]

def Key.display (k : Key) : Except NumeralError String := do
  return k.kind.name ++ " " ++ (← Numeral.writeInt k.id)

def writeIds (ids : List Int) : Except NumeralError String := do
  return "[" ++ String.intercalate ", " (← ids.mapM Numeral.writeInt) ++ "]"

def RingError.message : RingError → Except NumeralError String
  | .unknownNodes ids => do return "Ring references unknown nodes " ++ (← writeIds (ids.take 5))
  | .tooFewNodes ids => do return "Ring has fewer than 3 distinct nodes: " ++ (← writeIds ids)
  | .refused reason => .ok reason
  | .invalid reason => .ok ("Invalid ring: " ++ reason)
  | .zeroArea => .ok "Degenerate ring with zero area"

def AreaError.message : AreaError → Except NumeralError String
  | .openRings k => do return "Could not close rings of " ++ (← k.display)
  | .noOuterRing k => do return (← k.display) ++ " has no outer ring"
  | .ring e => e.message
  | .strayHole k => do return "Inner ring of " ++ (← k.display) ++ " lies in no outer ring"
  | .invalid k reason => do return "Invalid area for " ++ (← k.display) ++ ": " ++ reason
  | .refused reason => .ok reason

end Messages

/-- Whether an error is a judgement on the rings; the others tell why none is possible. -/
def AreaError.isRejection : AreaError → Bool
  | .ring (.refused _) | .refused _ => false
  | _ => true

structure RingOfNodes where
  nodeIds : List Int
  positions : List Position
  deriving DecidableEq

namespace RingOfNodes

variable [Geometry]

def area (r : RingOfNodes) : Float := Geometry.area r.positions

def validate (ids : List Int) (ps : List Position) : Except RingError RingOfNodes :=
  match Geometry.fault? ps with
  | some reason => .error (.refused reason)
  | none =>
    if Geometry.isValid [[ps]] then
      if Geometry.area ps == 0 then .error .zeroArea else .ok ⟨ids, ps⟩
    else
      match Geometry.explain [[ps]] with
      | .ok reason => .error (.invalid reason)
      | .error reason => .error (.refused reason)

def build (nodes : Table Int Node) (ids : List Int) : Except RingError RingOfNodes :=
  match ids.filter fun n => !nodes.has n with
  | [] =>
    if ids.eraseDups.length < 3 then .error (.tooFewNodes ids)
    else validate ids (ids.filterMap fun n => (nodes.get? n).map Node.position)
  | missing => .error (.unknownNodes missing)

def within (inner outer : RingOfNodes) : Bool := Geometry.isWithin inner.positions outer.positions

end RingOfNodes

structure Parent where
  key : Key
  tags : Tags

/-- Each inner ring has one home, the index of the outer ring whose hole it is. -/
structure Area where
  parent : Parent
  outer : List RingOfNodes
  inner : List RingOfNodes
  homes : List Nat

namespace Area

def holeIndexes (a : Area) (i : Nat) : List Nat :=
  (List.range a.homes.length).filter fun j => a.homes[j]? = some i

def holes (a : Area) (i : Nat) : List RingOfNodes := (a.holeIndexes i).filterMap (a.inner[·]?)

def polygons (a : Area) : List (RingOfNodes × List RingOfNodes) :=
  a.outer.zipIdx.map fun (r, i) => (r, a.holes i)

def shapes (a : Area) : List (List (List Position)) :=
  a.polygons.map fun (r, hs) => (r :: hs).map RingOfNodes.positions

variable [Geometry]

def coordinates (a : Area) : List (List (List Position)) := a.shapes.map (List.map Geometry.closed)

def smallest : List (RingOfNodes × Nat) → Option Nat
  | [] => none
  | r :: rs => some (rs.foldl (fun best r => if r.1.area < best.1.area then r else best) r).2

def homeOf (outer : List RingOfNodes) (hole : RingOfNodes) : Option Nat :=
  smallest (outer.zipIdx.filter fun (r, _) => hole.within r)

def liftRing {α : Type} : Except RingError α → Except AreaError α
  | .ok x => .ok x
  | .error e => .error (.ring e)

def build (parent : Parent) (outerWays innerWays : List Ring.Refs) (nodes : Table Int Node) :
    Except AreaError Area :=
  match Ring.assemble outerWays, Ring.assemble innerWays with
  | some [], some _ => .error (.noOuterRing parent.key)
  | some outerIds, some innerIds => do
    let outer ← liftRing (outerIds.mapM (RingOfNodes.build nodes))
    let inner ← liftRing (innerIds.mapM (RingOfNodes.build nodes))
    match inner.mapM (homeOf outer) with
    | none => .error (.strayHole parent.key)
    | some homes =>
      let area : Area := ⟨parent, outer, inner, homes⟩
      if Geometry.isValid area.shapes then .ok area
      else
        match Geometry.explain area.shapes with
        | .ok reason => .error (.invalid parent.key reason)
        | .error reason => .error (.refused reason)
  | _, _ => .error (.openRings parent.key)

end Area

end StreetMap
