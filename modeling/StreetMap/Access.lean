import StreetMap.Tags

/-!
Which elements carry traffic, and who may use them.
-/

namespace StreetMap

structure Permission where
  pedestrian : Bool
  bicycle : Bool
  car : Bool
  deriving DecidableEq

namespace Permission

def none : Permission := ⟨false, false, false⟩

def pedestrianAndBicycle : Permission := ⟨true, true, false⟩

def ofBits (n : Nat) : Permission := ⟨n % 2 = 1, n / 2 % 2 = 1, n / 4 % 2 = 1⟩

def toBits (p : Permission) : Nat :=
  (if p.pedestrian then 1 else 0) + (if p.bicycle then 2 else 0) + (if p.car then 4 else 0)

end Permission

/-- What the rules of access answer about tags.  A classifier need not have all three. -/
structure Classifier where
  elementRoutable? : Option (Tags → Except Failure Bool)
  wayRoutable? : Option (Tags → Except Failure Bool)
  permissions? : Option (Tags → Permission → Except Failure Permission)

namespace Access

def closedHighways : List String := ["conveyer", "proposed", "construction", "raceway", "unbuilt"]

def isElementRoutable (t : Tags) : Bool :=
  t.has "highway"
    || ((t.is "public_transport" "platform" || t.is "railway" "platform") && !t.is "usability" "no")

def isClosedHighway (t : Tags) : Except Failure Bool :=
  match t.get? "highway" with
  | none => .ok false
  | some v =>
    if v.isHashable then .ok (closedHighways.any v.isText) else .error (.mismatch (.notHashable v.shape))

def allowsSomeMode (t : Tags) : Except Failure Bool :=
  orElse (t.allows "motorcar") fun _ =>
    orElse (t.allows "bicycle") fun _ =>
      orElse (t.allows "foot") fun _ => t.allows "motor_vehicle"

def isWayRoutable (t : Tags) : Except Failure Bool := do
  if !isElementRoutable t then return false
  if ← isClosedHighway t then return false
  if ← t.isAccessDenied then allowsSomeMode t else return true

/-- The permission before the tags of single modes are looked at: under a general ban, the modes allowed
by name. -/
def initialPermission (t : Tags) (default : Permission) : Except Failure Permission := do
  if ← t.isAccessDenied then
    let car ← t.allows "motorcar"
    let bicycle ← t.allows "bicycle"
    let pedestrian ← t.allows "foot"
    return { pedestrian, bicycle, car }
  else return default

def decideMode (t : Tags) (key : String) (denied before : Bool) : Bool :=
  if denied then false else t.has key || before

def permissions (t : Tags) (default : Permission) : Except Failure Permission := do
  let p ← initialPermission t default
  let p := { p with car := decideMode t "motorcar" (← t.denies "motorcar") p.car }
  let p := { p with bicycle := decideMode t "bicycle" (← t.deniesBicycle) p.bicycle }
  let p := { p with pedestrian := decideMode t "foot" (← t.denies "foot") p.pedestrian }
  return if t.isUnderConstruction then .none else p

end Access

namespace Classifier

def standard : Classifier where
  elementRoutable? := some fun t => .ok (Access.isElementRoutable t)
  wayRoutable? := some Access.isWayRoutable
  permissions? := some Access.permissions

def everything : Classifier where
  elementRoutable? := some fun _ => .ok true
  wayRoutable? := some fun _ => .ok true
  permissions? := some Access.permissions

end Classifier

end StreetMap
