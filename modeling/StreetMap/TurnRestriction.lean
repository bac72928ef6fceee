import StreetMap.Element
import StreetMap.Json.Convert
import StreetMap.Log

/-!
Turn restrictions: from one way over a node or way into another, a turn is forbidden or is the only one
allowed, for some modes of travel and perhaps at some times only.
-/

namespace StreetMap

inductive TurnKind
  | noTurn | onlyTurn
  deriving DecidableEq

def TurnKind.name : TurnKind → String
  | .noTurn => "no_turn"
  | .onlyTurn => "only_turn"

inductive Direction
  | left | right | straight | u
  deriving DecidableEq

def Direction.name : Direction → String
  | .left => "left"
  | .right => "right"
  | .straight => "straight"
  | .u => "u"

structure RestrictedModes where
  bicycle : Bool
  car : Bool
  customMotorVehicle : Bool
  deriving DecidableEq

namespace RestrictedModes

def all : RestrictedModes := ⟨true, true, true⟩

def withoutDriving (m : RestrictedModes) : RestrictedModes :=
  { m with car := false, customMotorVehicle := false }

def withoutBicycle (m : RestrictedModes) : RestrictedModes := { m with bicycle := false }

def names (m : RestrictedModes) : List String :=
  ([("bicycle", m.bicycle), ("car", m.car), ("custom_motor_vehicle", m.customMotorVehicle)].filter
    Prod.snd).map Prod.fst

end RestrictedModes

structure TurnRestriction where
  via : Int
  kind : TurnKind
  direction : Direction
  modes : RestrictedModes
  time : Option Schedule

namespace TurnRestriction

def kinds : Table String (TurnKind × Direction) :=
  [("no_right_turn", .noTurn, .right), ("no_left_turn", .noTurn, .left),
    ("no_straight_on", .noTurn, .straight), ("no_u_turn", .noTurn, .u),
    ("only_straight_on", .onlyTurn, .straight), ("only_right_turn", .onlyTurn, .right),
    ("only_left_turn", .onlyTurn, .left), ("only_u_turn", .onlyTurn, .u)]

def lastInRole (r : Relation) (role : String) : Option Int :=
  ((r.members.filter fun m => m.role.isText role).getLast?).map Member.ref

structure Ends where
  fromWay : Int
  toWay : Int
  via : Int

def endsOf (r : Relation) : Option Ends := do
  return { fromWay := ← lastInRole r "from", toWay := ← lastInRole r "to", via := ← lastInRole r "via" }

section Reading

variable [Limits]

def exceptionText (e : Ends) : Except NumeralError String := do
  return "Turn restriction with bicycle exception at node " ++ (← Numeral.writeInt e.via) ++ " from way "
    ++ (← Numeral.writeInt e.fromWay)

def except (r : Relation) (e : Ends) (modes : RestrictedModes) (token : String) :
    Logged RestrictedModes :=
  if token = "motorcar" then pure modes.withoutDriving
  else if token = "bicycle" then do
    Logged.report .turnRestrictionException r.id (exceptionText e)
    return modes.withoutBicycle
  else pure modes

def exceptions (r : Relation) : Except Failure (List String) :=
  match r.tags.get? "except" with
  | none => .ok []
  | some v =>
    if v.isNothing then .ok []
    else do return (Text.split ";" (← v.asText "split")).map Text.trim

def modesOf (r : Relation) (e : Ends) : Logged RestrictedModes := do
  (← exceptions r).foldlM (except r e) .all

def kindOf (r : Relation) : Except Failure (Option (TurnKind × Direction)) :=
  match (r.tags.get? "restriction").getD .null with
  | .text s => .ok (kinds.get? s)
  | v => if v.isHashable then .ok none else .error (.mismatch (.notHashable v.shape))

def schedule {α : Type} : Except ScheduleError α → Except Failure α
  | .ok x => .ok x
  | .error e => .error (.schedule e)

def scheduleOf (dayOn dayOff hourOn hourOff : Json) : Except Failure Schedule := do
  let ws ← schedule (Schedule.readWindows (← hourOn.asText "split") (← hourOff.asText "split"))
  let first ← schedule (Schedule.readDay (← dayOn.asText "strip"))
  let last ← schedule (Schedule.readDay (← dayOff.asText "strip"))
  return Schedule.onDays first last ws

def timeOf (r : Relation) : Logged (Option Schedule) :=
  match r.tags.get? "day_on", r.tags.get? "day_off", r.tags.get? "hour_on", r.tags.get? "hour_off" with
  | some dayOn, some dayOff, some hourOn, some hourOff =>
    match scheduleOf dayOn dayOff hourOn hourOff with
    | .ok s => pure (some s)
    | .error (.schedule e) => do
      Logged.sayText .info do
        return "Unparseable turn restriction time at relation " ++ (← Numeral.writeInt r.id) ++ ": "
          ++ e.message
      return none
    | .error e => Logged.ofExcept (.error e)
  | _, _, _, _ => pure none

def badText (r : Relation) : Except NumeralError String := do
  return "Bad turn restriction at relation " ++ (← Numeral.writeInt r.id) ++ ": missing from, to or via"

def unknownText (r : Relation) : Except NumeralError String := do
  return "Invalid turn restriction '" ++ (← ((r.tags.get? "restriction").getD .null).shown)
    ++ "' at relation " ++ (← Numeral.writeInt r.id)

def ofRelation (r : Relation) : Logged (Option (Ends × TurnRestriction)) :=
  match endsOf r with
  | none => do
    Logged.report .turnRestrictionBad r.id (badText r)
    return none
  | some e => do
    let modes ← modesOf r e
    match ← kindOf r with
    | none =>
      Logged.report .turnRestrictionUnknown r.id (unknownText r)
      return none
    | some (kind, direction) =>
      return some (e, { via := e.via, kind, direction, modes, time := ← timeOf r })

end Reading

end TurnRestriction

end StreetMap
