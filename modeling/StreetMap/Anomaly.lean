import StreetMap.Json

/-!
Findings about the data of a load.  They do not stop it; each is also a line of its log.
-/

namespace StreetMap

inductive Severity
  | debug | info | warning | error
  deriving DecidableEq

inductive AnomalyKind
  | levelAmbiguous | levelUndefined | turnRestrictionBad | turnRestrictionUnknown
  | turnRestrictionException | multipolygonRoleUnexpected | stopAreaUnresolved
  deriving DecidableEq

namespace AnomalyKind

def all : List AnomalyKind :=
  [.levelAmbiguous, .levelUndefined, .turnRestrictionBad, .turnRestrictionUnknown,
    .turnRestrictionException, .multipolygonRoleUnexpected, .stopAreaUnresolved]

def name : AnomalyKind → String
  | .levelAmbiguous => "level_ambiguous"
  | .levelUndefined => "level_undefined"
  | .turnRestrictionBad => "turn_restriction_bad"
  | .turnRestrictionUnknown => "turn_restriction_unknown"
  | .turnRestrictionException => "turn_restriction_exception"
  | .multipolygonRoleUnexpected => "multipolygon_role_unexpected"
  | .stopAreaUnresolved => "stop_area_unresolved"

def ofName? (s : String) : Option AnomalyKind := all.find? (·.name = s)

def severity : AnomalyKind → Severity
  | .turnRestrictionException => .debug
  | _ => .warning

end AnomalyKind

structure Anomaly where
  kind : AnomalyKind
  entityId : Int
  message : String
  deriving DecidableEq

def Anomaly.toJson (a : Anomaly) : Json :=
  .object [("kind", .text a.kind.name), ("entity_id", .int a.entityId), ("message", .text a.message)]

end StreetMap
