import StreetMap.Area
import StreetMap.Level
import StreetMap.Phase
import StreetMap.Settings
import StreetMap.TurnRestriction

/-!
The store of a load: the elements kept so far, the areas built from them and what relations say about
them.  Every table keeps the order in which its rows came.
-/

namespace StreetMap

inductive RelationKind
  | multipolygon | restriction | roadRoute | levelMap | stopArea
  deriving DecidableEq

def RelationKind.name : RelationKind → String
  | .multipolygon => "multipolygon"
  | .restriction => "restriction"
  | .roadRoute => "road_route"
  | .levelMap => "level_map"
  | .stopArea => "stop_area"

structure KeptRelation where
  relation : Relation
  kind : RelationKind

structure PlacedArea where
  area : Area
  walkable : Bool
  parkAndRide : Bool

structure Store where
  phase : Phase
  nodes : Table Int Node
  bikeRentals : Table Int Node
  ways : Table Int Way
  areaWays : Table Int Way
  relations : Table Int KeptRelation
  areas : List PlacedArea
  /-- Ways that are areas by themselves, built as soon as their nodes are there. -/
  candidates : List Way
  processed : List Key
  /-- For each node the ids of the ways that bound an area there. -/
  boundsAt : Table Int (List Int)
  /-- Ids of ways known to bound an area, perhaps before they come. -/
  areaWayIds : List Int
  wayNodeIds : List Int
  areaNodeIds : List Int
  levels : Table Key Level
  fromTurns : Table Int (List TurnRestriction)
  toTurns : Table Int (List TurnRestriction)
  /-- The stops at each platform, by node id. -/
  stops : Table Key (List Int)
  anomalies : List Anomaly

namespace Store

def empty : Store where
  phase := .ingesting
  nodes := []
  bikeRentals := []
  ways := []
  areaWays := []
  relations := []
  areas := []
  candidates := []
  processed := []
  boundsAt := []
  areaWayIds := []
  wayNodeIds := []
  areaNodeIds := []
  levels := []
  fromTurns := []
  toTurns := []
  stops := []
  anomalies := []

def walkableAreas (s : Store) : List Area := (s.areas.filter PlacedArea.walkable).map PlacedArea.area

def parkAndRideAreas (s : Store) : List Area := (s.areas.filter PlacedArea.parkAndRide).map PlacedArea.area

def level? (s : Store) (k : Key) : Option Level := s.levels.get? k

def stops? (s : Store) (k : Key) : Option (List Int) := s.stops.get? k

def turnsFrom (s : Store) (way : Int) : List TurnRestriction := (s.fromTurns.get? way).getD []

def turnsTo (s : Store) (way : Int) : List TurnRestriction := (s.toTurns.get? way).getD []

def isSharedByAreas (s : Store) (node : Int) : Bool := ((s.boundsAt.get? node).getD []).length > 1

def isOnWay (s : Store) (node : Int) : Bool := node ∈ s.wayNodeIds

def isProcessed (s : Store) (k : Key) : Bool := k ∈ s.processed

def way? (s : Store) (id : Int) : Option Way := s.areaWays.get? id <|> s.ways.get? id

def hasNodes (s : Store) (ids : List Int) : Bool := ids.all s.nodes.has

def record (s : Store) (log : Log) : Store :=
  { s with anomalies := s.anomalies ++ log.filterMap Note.anomaly? }

def absorb {α : Type} (s : Store) (x : Logged α) (f : α → Store → Outcome Store) : Outcome Store :=
  match x.result with
  | .ok a =>
    let o := f a (s.record x.log)
    ⟨o.state, x.log ++ o.log, o.failure⟩
  | .error e => ⟨s.record x.log, x.log, some e⟩

def progress (interval : Json) (label : String) (count : Nat) (s : Store) : Outcome Store :=
  Outcome.withValue s (Settings.isMultiple count interval) fun hit =>
    if hit then Outcome.saying .debug (label ++ "=" ++ toString count) s else Outcome.done s

end Store

end StreetMap
