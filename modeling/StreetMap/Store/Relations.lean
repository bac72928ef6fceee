import StreetMap.Store.Areas

/-!
At the end of a load relations are applied to the ways and nodes that were kept: turn restrictions are
indexed, level maps set levels, routes name their ways, and stop areas tie stops to platforms.
-/

namespace StreetMap.Store

variable [Limits]

def appendTurn (t : Table Int (List TurnRestriction)) (way : Int) (turn : TurnRestriction) :
    Table Int (List TurnRestriction) :=
  t.adjust way fun turns => turns.getD [] ++ [turn]

def applyRestriction (r : Relation) (s : Store) : Outcome Store :=
  s.absorb (TurnRestriction.ofRelation r) fun found s =>
    match found with
    | none => Outcome.done s
    | some (ends, turn) =>
      Outcome.done { s with
        fromTurns := appendTurn s.fromTurns ends.fromWay turn
        toTurns := appendTurn s.toTurns ends.toWay turn }

def levelsOf (r : Relation) : Logged (Table String Level) :=
  let v := (r.tags.get? "levels").getD .null
  if v.isNothing then Level.readMap "" .levelMap true
  else do Level.readMap (← v.asText "split") .levelMap true

def undefinedText (r : Relation) (m : Member) : Except NumeralError String := do
  return "Way " ++ (← Numeral.writeInt m.ref) ++ " has undefined level '" ++ (← m.role.shown)
    ++ "' in level map " ++ (← Numeral.writeInt r.id)

def levelInRole (r : Relation) (levels : Table String Level) (m : Member) : Logged (Option Level) :=
  match m.role with
  | .text role =>
    match levels.get? role with
    | some level => pure (some level)
    | none => missing
  | role => if role.isHashable then missing else Logged.ofExcept (.error (.mismatch (.notHashable role.shape)))
where
  missing : Logged (Option Level) := do
    Logged.report .levelUndefined m.ref (undefinedText r m)
    return none

def applyLevel (r : Relation) (levels : Table String Level) (m : Member) (s : Store) : Outcome Store :=
  if !s.ways.has m.ref then Outcome.done s
  else Outcome.withValue s (Json.number m.role.shown) fun role =>
    if r.tags.has ("role:" ++ role) then Outcome.done s
    else s.absorb (levelInRole r levels m) fun level s =>
      match level with
      | none => Outcome.done s
      | some level => Outcome.done { s with levels := s.levels.put ⟨.way, m.ref⟩ level }

def applyLevelMap (r : Relation) (s : Store) : Outcome Store :=
  s.absorb (levelsOf r) fun levels s => Outcome.forEach (applyLevel r levels) r.wayMembers s

def words (s : String) : List String :=
  ((s.toList.splitBy fun a b => Text.isBlank a = Text.isBlank b).filter fun w =>
    !w.any Text.isBlank).map String.ofList

def piecesBy (separator : Json) (s : String) : Except Failure (List String) :=
  match separator with
  | .null => .ok (words s)
  | .text "" => .error .emptySeparator
  | .text sep => .ok (Text.split sep s)
  | v => .error (.mismatch (.notSeparator v.shape))

def joinUnique (separator value : Json) (existing : String) : Except Failure (Option String) := do
  let pieces ← piecesBy separator existing
  if pieces.any value.isText then return none
  else match separator, value with
    | .text sep, .text v => return some (existing ++ sep ++ v)
    | .text _, v => .error (.mismatch (.notJoinable v.shape))
    | sep, _ => .error (.mismatch (.notJoinable sep.shape))

def addToList (separator tag value : Json) (t : Tags) : Except Failure Tags := do
  let key := t.standing (← TagKey.ofJson tag)
  match t.get? key with
  | none | some .null => return t.put key value
  | some existing =>
    match ← joinUnique separator value (← existing.asText "split") with
    | none => return t
    | some joined => return t.put key (.text joined)

def listOnWay (c : Settings) (r : Relation) (key : String) (tag : Json) (id : Int) (s : Store) :
    Outcome Store :=
  match r.tags.get? key, s.ways.get? id with
  | some value, some w =>
    Outcome.withValue s (addToList c.routeSeparator tag value w.tags) fun t =>
      Outcome.done { s with ways := s.ways.put id { w with tags := t } }
  | _, _ => Outcome.done s

def applyRoute (c : Settings) (r : Relation) (s : Store) : Outcome Store :=
  Outcome.forEach (fun m s =>
    (listOnWay c r "name" c.routeNameTag m.ref s).andThen
      (listOnWay c r "ref" c.routeRefTag m.ref)) r.wayMembers s

def platformMembers (r : Relation) : List Member := r.members.filter fun m => m.role.isText "platform"

def platformsOf (s : Store) (r : Relation) : List Key :=
  (platformMembers r).filterMap fun m =>
    if m.isOf .way && s.areaWays.has m.ref then some ⟨.way, m.ref⟩
    else if m.isOf .relation && s.relations.has m.ref then some ⟨.relation, m.ref⟩
    else none

def platformNodes (s : Store) (r : Relation) : List Int :=
  insertAll [] (((platformMembers r).filter fun m => m.isOf .node && s.nodes.has m.ref).map Member.ref)

def unresolvedStops (r : Relation) (problem : String) : Logged Unit :=
  Logged.report .stopAreaUnresolved r.id do return problem ++ " " ++ (← Numeral.writeInt r.id)

def applyStopArea (r : Relation) (s : Store) : Outcome Store :=
  match platformsOf s r, platformNodes s r with
  | [k], n :: ns => Outcome.done { s with stops := s.stops.put k (n :: ns) }
  | _ :: _ :: _, _ =>
    s.absorb (unresolvedStops r "Too many platform areas in relation") fun _ s =>
      Outcome.done s
  | _, _ =>
    s.absorb (unresolvedStops r "Unable to process public transportation relation") fun _ s =>
      Outcome.done s

def applyRelation (c : Settings) (k : KeptRelation) (s : Store) : Outcome Store :=
  match k.kind with
  | .multipolygon => Outcome.done s
  | .restriction => applyRestriction k.relation s
  | .levelMap => applyLevelMap k.relation s
  | .roadRoute => applyRoute c k.relation s
  | .stopArea => applyStopArea k.relation s

/-- All sources are in: apply the relations, in the order in which they were kept. -/
def finish (c : Settings) (s : Store) : Outcome Store :=
  if s.phase = .areasResolved then
    ((Outcome.saying .debug "Processing relations..." s).andThen
      (Outcome.forEach (applyRelation c) s.relations.values)).andThen fun s =>
        Outcome.saying .info ("Relations processed: " ++ toString s.fromTurns.length
            ++ " ways with turn restrictions, " ++ toString s.stops.length ++ " stop areas, "
            ++ toString s.anomalies.length ++ " anomalies")
          { s with phase := .relationsProcessed }
  else Outcome.fail s (.phase (.outOfOrder "finish" s.phase))

end StreetMap.Store
