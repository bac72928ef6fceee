import StreetMap.Access
import StreetMap.Number.Lattice

/-!
The settings of a load, as they are given, and the checks that they have to pass.
-/

namespace StreetMap

inductive FloorNumbering
  | us | literal | other (v : Json)

def FloorNumbering.toJson : FloorNumbering → Json
  | .us => .text "us"
  | .literal => .text "literal"
  | .other v => v

structure Settings where
  floorNumbering : FloorNumbering
  classifier : Option Classifier
  nodeInterval : Json
  wayInterval : Json
  relationInterval : Json
  routeNameTag : Json
  routeRefTag : Json
  routeSeparator : Json

namespace Settings

def default : Settings where
  floorNumbering := .us
  classifier := some .standard
  nodeInterval := .int 100000
  wayInterval := .int 10000
  relationInterval := .int 100
  routeNameTag := .text "route:names"
  routeRefTag := .text "route:refs"
  routeSeparator := .text ", "

/-- Whether floors from zero up are shown one higher. -/
def raisesFloors (s : Settings) : Bool :=
  match s.floorNumbering with
  | .us => true
  | _ => false

def operations : List (String × (Classifier → Bool)) :=
  [("is_osm_entity_routable", fun c => c.elementRoutable?.isSome),
    ("is_way_routable", fun c => c.wayRoutable?.isSome),
    ("get_permissions_for_entity", fun c => c.permissions?.isSome)]

def isPositive : Json → Bool
  | .int n => 0 < n
  | .bool b => b
  | _ => false

def floorProblems (s : Settings) : List Problem :=
  match s.floorNumbering with
  | .other v => [.floorNumbering v]
  | _ => []

def classifierProblems (s : Settings) : List Problem :=
  match s.classifier with
  | none => [.noClassifier]
  | some c => (operations.filter fun (_, has) => !has c).map fun (name, _) => .classifierLacks name

def intervalProblems (s : Settings) : List Problem :=
  ([("node_log_interval", s.nodeInterval), ("way_log_interval", s.wayInterval),
    ("relation_log_interval", s.relationInterval)].filter fun (_, v) => !isPositive v).map
    fun (name, v) => .interval name v

def routeProblems (s : Settings) : List Problem :=
  (if s.routeNameTag.isNothing || s.routeRefTag.isNothing then [.emptyRouteTag]
    else if s.routeNameTag.same s.routeRefTag then [.equalRouteTags] else [])
  ++ if s.routeSeparator.isNothing then [.emptySeparator] else []

def problems (s : Settings) : List Problem :=
  s.floorProblems ++ s.classifierProblems ++ s.intervalProblems ++ s.routeProblems

def validate [Limits] (s : Settings) : Except Failure Unit :=
  if s.problems.isEmpty then .ok ()
  else if s.problems.all (·.fits) then .error (.settings s.problems)
  else .error (.number .tooLongToWrite)

def isElementRoutable (s : Settings) (t : Tags) : Except Failure Bool :=
  match s.classifier.bind Classifier.elementRoutable? with
  | some f => f t
  | none => .error (.lacks .null "is_osm_entity_routable")

def isWayRoutable (s : Settings) (t : Tags) : Except Failure Bool :=
  match s.classifier.bind Classifier.wayRoutable? with
  | some f => f t
  | none => .error (.lacks .null "is_way_routable")

def permissions (s : Settings) (t : Tags) (default : Permission) : Except Failure Permission :=
  match s.classifier.bind Classifier.permissions? with
  | some f => f t default
  | none => .error (.lacks .null "get_permissions_for_entity")

def isMultiple (count : Nat) : Json → Except Failure Bool
  | .int n => if n = 0 then .error .zeroInterval else .ok (n ∣ (count : Int))
  | .bool b => if b then .ok true else .error .zeroInterval
  | .float x =>
    match latticeValue? x with
    | some n => if n = 0 then .error .zeroInterval else .ok (n ∣ (count : Int) * latticeUnit)
    | none => .ok false
  | v => .error (.mismatch (.notDivisor v.shape))

end Settings

end StreetMap
