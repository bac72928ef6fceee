import StreetMap.Store.Basic

/-!
Elements come in.  Relations and ways are kept by what their tags say; a node is kept if a kept way
needs it or if it is a stop.  The first copy of an element wins.
-/

namespace StreetMap.Store

def ambiguityText [Limits] (k : Key) (spec : String) : Except NumeralError String := do
  return "Could not infer floor number for level '" ++ spec ++ "' of " ++ (← k.display)
    ++ "; vertical movement will still be possible but elevator cost might be incorrect"

/-- The level that a tag value stands for; one that has to be guessed counts as the default level. -/
def levelOfTag [Limits] (raise : Bool) (k : Key) (source : LevelSource) (v : Json) : Logged Level := do
  let spec ← v.asText "rfind"
  let level ← Level.readLogged spec source raise
  if level.reliable then return level
  else
    Logged.report .levelAmbiguous k.id (ambiguityText k spec)
    return Level.default

def levelOf [Limits] (raise : Bool) (k : Key) (t : Tags) : Logged Level :=
  match t.get? "level", t.get? "layer" with
  | some v, _ => levelOfTag raise k .levelTag v
  | none, some v => levelOfTag raise k .layerTag v
  | none, none => pure Level.default

def resolveLevel [Limits] (c : Settings) (k : Key) (t : Tags) (s : Store) : Outcome Store :=
  if s.levels.has k then Outcome.done s
  else s.absorb (levelOf c.raisesFloors k t) fun level s =>
    Outcome.done { s with levels := s.levels.put k level }

def whileOpen (what : String) (s : Store) (f : Store → Outcome Store) : Outcome Store :=
  if s.phase = .relationsProcessed then Outcome.fail s (.phase (.closed what)) else f s

def addNode (c : Settings) (n : Node) (s : Store) : Outcome Store :=
  whileOpen "nodes" s fun s =>
    if n.tags.isBikeRental then
      Outcome.done { s with bikeRentals := s.bikeRentals.put n.id n }
    else if !(n.id ∈ s.wayNodeIds || n.id ∈ s.areaNodeIds || n.tags.isStop) then Outcome.done s
    else if s.nodes.has n.id then Outcome.done s
    else
      let s := { s with nodes := s.nodes.put n.id n }
      progress c.nodeInterval "nodes" s.nodes.length s

def isAreaWay (w : Way) : Bool :=
  (w.tags.is "area" "yes" || w.tags.is "amenity" "parking") && w.nodeRefs.length > 2

def addBound (way : Int) (t : Table Int (List Int)) (node : Int) : Table Int (List Int) :=
  t.adjust node fun ids => insertNew (ids.getD []) way

def bound (w : Way) (s : Store) : Store :=
  { s with boundsAt := w.nodeRefs.foldl (addBound w.id) s.boundsAt }

def putWay (c : Settings) (w : Way) (s : Store) : Outcome Store :=
  if isAreaWay w then
    Outcome.done (bound w { s with
      candidates := s.candidates ++ [w]
      areaWays := s.areaWays.put w.id w
      areaWayIds := insertNew s.areaWayIds w.id })
  else
    let s := { s with ways := s.ways.put w.id w }
    progress c.wayInterval "ways" s.ways.length s

def keepWay (c : Settings) (w : Way) (s : Store) : Outcome Store :=
  if w.id ∈ s.areaWayIds then Outcome.done { s with areaWays := s.areaWays.put w.id w }
  else
    Outcome.withValue s (orElse (c.isWayRoutable w.tags) fun _ => w.tags.isParkAndRide) fun kept =>
      if kept then putWay c w s else Outcome.done s

def addWay [Limits] (c : Settings) (w : Way) (s : Store) : Outcome Store :=
  whileOpen "ways" s fun s =>
    let s := { s with phase := .ingesting }
    if s.ways.has w.id || s.areaWays.has w.id then Outcome.done s
    else (resolveLevel c w.key w.tags s).andThen (keepWay c w)

def classify (c : Settings) (t : Tags) : Except Failure (Option RelationKind) :=
  if t.is "type" "multipolygon" then do
    if ← orElse (c.isElementRoutable t) fun _ => t.isParkAndRide then return some .multipolygon
    else return none
  else if t.is "type" "restriction" then .ok (some .restriction)
  else if t.is "type" "route" then
    .ok (if t.is "route" "road" then some .roadRoute else none)
  else if t.is "type" "level_map" then .ok (some .levelMap)
  else if t.is "type" "public_transport" then
    .ok (if t.is "public_transport" "stop_area" then some .stopArea else none)
  else .ok none

def putRelation (c : Settings) (r : Relation) (kind : RelationKind) (s : Store) : Outcome Store :=
  let s := { s with relations := s.relations.put r.id ⟨r, kind⟩ }
  progress c.relationInterval "relations" s.relations.length s

def markMembers (r : Relation) (s : Store) : Store :=
  { s with areaWayIds := insertAll s.areaWayIds (r.wayMembers.map Member.ref) }

def keepRelation [Limits] (c : Settings) (r : Relation) (kind : RelationKind) (s : Store) : Outcome Store :=
  if kind = .multipolygon then
    Outcome.withValue s (orElse (c.isWayRoutable r.tags) fun _ => r.tags.isParkAndRide) fun kept =>
      if kept then
        (resolveLevel c r.key r.tags (markMembers r s)).andThen (putRelation c r kind)
      else Outcome.done s
  else putRelation c r kind s

def addRelation [Limits] (c : Settings) (r : Relation) (s : Store) : Outcome Store :=
  whileOpen "relations" s fun s =>
    let s := { s with phase := .ingesting }
    if s.relations.has r.id then Outcome.done s
    else
      Outcome.withValue s (classify c r.tags) fun kind =>
        match kind with
        | none => Outcome.done s
        | some kind => keepRelation c r kind s

def nodesOfWays (ways : Table Int Way) : List Int :=
  (ways.values.filter fun w => w.nodeRefs.length > 1).flatMap Way.nodeRefs

def linesComplete (s : Store) : Outcome Store :=
  if s.phase = .relationsProcessed then
    Outcome.fail s (.phase (.outOfOrder "on_lines_complete" s.phase))
  else
    Outcome.saying .info ("Kept " ++ toString s.ways.length ++ " ways, " ++ toString s.areaWays.length
        ++ " area ways, " ++ toString s.relations.length ++ " relations")
      { s with
        wayNodeIds := insertAll s.wayNodeIds (nodesOfWays s.ways)
        areaNodeIds := insertAll s.areaNodeIds (nodesOfWays s.areaWays)
        phase := .linesMarked }

end StreetMap.Store
