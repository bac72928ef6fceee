import StreetMap.FileTree
import StreetMap.Store.Operation

/-!
The report on a load: how much was kept, the areas with their stops, the turn restrictions and the
findings.
-/

namespace StreetMap

structure Report.Counts where
  nodes : Nat
  ways : Nat
  areaWays : Nat
  bikeRentals : Nat
  walkableAreas : Nat
  parkAndRideAreas : Nat
  turnRestrictions : Nat
  stopAreas : Nat
  anomalies : Nat

structure Report.AreaFeature where
  parent : Key
  name : Option String
  walkable : Bool
  parkAndRide : Bool
  coordinates : List (List (List Position))
  stops : List Int

structure Report.Turn where
  fromWay : Int
  via : Int
  kind : TurnKind
  direction : Direction
  modes : RestrictedModes
  timed : Bool

structure Report where
  sources : List String
  floorNumbering : FloorNumbering
  counts : Report.Counts
  areas : List Report.AreaFeature
  turns : List Report.Turn
  anomalies : List Anomaly

namespace Report

/-- The areas of a store, each once: those to walk on first, then those that are for parking alone. -/
def areasInOrder (s : Store) : List PlacedArea :=
  s.areas.filter PlacedArea.walkable ++ s.areas.filter fun p => p.parkAndRide && !p.walkable

def nameOf (t : Tags) : Except Failure (Option String) :=
  match t.get? "name" with
  | none | some .null => .ok none
  | some (.text name) => .ok (some name)
  | some _ => .error (.reportField "AreaFeature")

def stopsAt (s : Store) (k : Key) : List Int := ((s.stops? k).getD []).mergeSort fun m n => m ≤ n

def featureOf [Geometry] (s : Store) (p : PlacedArea) : Except Failure AreaFeature := do
  let parent := p.area.parent
  return { parent := parent.key
           name := ← nameOf parent.tags
           walkable := p.walkable
           parkAndRide := p.parkAndRide
           coordinates := p.area.coordinates
           stops := stopsAt s parent.key }

def turnOf (way : Int) (t : TurnRestriction) : Turn where
  fromWay := way
  via := t.via
  kind := t.kind
  direction := t.direction
  modes := t.modes
  timed := t.time.isSome

def turnsOf (s : Store) : List Turn := s.fromTurns.flatMap fun (way, ts) => ts.map (turnOf way)

def countsOf (s : Store) (areas : List AreaFeature) : Counts where
  nodes := s.nodes.length
  ways := s.ways.length
  areaWays := s.areaWays.length
  bikeRentals := s.bikeRentals.length
  walkableAreas := s.walkableAreas.length
  parkAndRideAreas := s.parkAndRideAreas.length
  turnRestrictions := (turnsOf s).length
  stopAreas := (areas.filter fun a => !a.stops.isEmpty).length
  anomalies := s.anomalies.length

def ofStore [Geometry] (c : Settings) (paths : List String) (s : Store) : Except Failure Report := do
  let areas ← (areasInOrder s).mapM (featureOf s)
  return { sources := paths.map FileTree.baseName
           floorNumbering := c.floorNumbering
           counts := countsOf s areas
           areas
           turns := turnsOf s
           anomalies := s.anomalies }

def Counts.toJson (c : Counts) : Json :=
  .object ([("nodes", c.nodes), ("ways", c.ways), ("area_ways", c.areaWays),
    ("bike_rental_nodes", c.bikeRentals), ("walkable_areas", c.walkableAreas),
    ("park_and_ride_areas", c.parkAndRideAreas), ("turn_restrictions", c.turnRestrictions),
    ("stop_areas", c.stopAreas), ("anomalies", c.anomalies)].map fun (name, n) => (name, .int n))

def positionJson (p : Position) : Json := .list [.float p.lon, .float p.lat]

def AreaFeature.geometry (a : AreaFeature) : Json :=
  .object [("type", .text "MultiPolygon"),
    ("coordinates", .list (a.coordinates.map fun rings =>
      .list (rings.map fun ring => .list (ring.map positionJson))))]

def AreaFeature.toJson (a : AreaFeature) : Json :=
  .object [("parent_type", .text a.parent.kind.name), ("parent_id", .int a.parent.id),
    ("name", (a.name.map Json.text).getD .null), ("walkable", .bool a.walkable),
    ("park_and_ride", .bool a.parkAndRide), ("geometry", a.geometry),
    ("stop_node_ids", .list (a.stops.map .int))]

def Turn.toJson (t : Turn) : Json :=
  .object [("from_way_id", .int t.fromWay), ("via", .int t.via), ("type", .text t.kind.name),
    ("direction", .text t.direction.name), ("modes", .list (t.modes.names.map .text)),
    ("timed", .bool t.timed)]

structure Stamp where
  id : String
  time : String

def toJson (stamp : Stamp) (r : Report) : Json :=
  .object [("report_id", .text stamp.id), ("generated_at", .text stamp.time),
    ("source_files", .list (r.sources.map .text)), ("floor_numbering", r.floorNumbering.toJson),
    ("counts", r.counts.toJson), ("areas", .list (r.areas.map AreaFeature.toJson)),
    ("turn_restrictions", .list (r.turns.map Turn.toJson)),
    ("anomalies", .list (r.anomalies.map Anomaly.toJson))]

end Report

end StreetMap
