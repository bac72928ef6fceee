/-!
The phases of loading.  Ways and relations come in, the nodes to keep are marked, areas are resolved,
and at the very end relations are applied.
-/

namespace StreetMap

inductive Phase
  | ingesting | linesMarked | areasResolved | relationsProcessed
  deriving DecidableEq

def Phase.name : Phase → String
  | .ingesting => "ingesting"
  | .linesMarked => "lines_marked"
  | .areasResolved => "areas_resolved"
  | .relationsProcessed => "relations_processed"

inductive PhaseError
  | closed (what : String) | outOfOrder (call : String) (phase : Phase)
  deriving DecidableEq

def PhaseError.message : PhaseError → String
  | .closed what => "Cannot add " ++ what ++ " after relations were processed"
  | .outOfOrder call p => call ++ " called in phase " ++ p.name

end StreetMap
