import StreetMap.Json.Writer

/-!
What can be wrong with settings.
-/

namespace StreetMap

inductive Settings.Problem
  | floorNumbering (got : Json) | noClassifier | classifierLacks (operation : String)
  | interval (name : String) (got : Json) | emptyRouteTag | equalRouteTags | emptySeparator

/-- Whether the value that a problem is about can be written. -/
def Settings.Problem.fits [Limits] : Settings.Problem → Bool
  | .floorNumbering v | .interval _ v => v.fits
  | _ => true

def Settings.Problem.message : Settings.Problem → String
  | .floorNumbering v => "floor_numbering must be a FloorNumbering, got " ++ v.literal
  | .noClassifier => "classifier is required but not set"
  | .classifierLacks op => "classifier must provide " ++ op ++ "()"
  | .interval name v => name ++ " must be a positive integer, got " ++ v.literal
  | .emptyRouteTag => "route_name_tag and route_ref_tag must be non-empty"
  | .equalRouteTags => "route_name_tag and route_ref_tag must differ"
  | .emptySeparator => "route_separator must be non-empty"

end StreetMap
