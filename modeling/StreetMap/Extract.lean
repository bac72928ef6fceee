import StreetMap.Log
import StreetMap.Tags

/-!
Extracts: the nodes, ways and relations of one document, each in document order.  Elements of other
types and nodes without a position are passed over.
-/

namespace StreetMap

structure Extract where
  nodes : List Node
  ways : List Way
  relations : List Relation

namespace Extract

def empty : Extract := ⟨[], [], []⟩

variable [Limits]

def readId (element : Json) (members : Table String Json) : Except Failure Int :=
  match members.get? "id" with
  | none => .error (if element.fits then .elementWithoutId element else .number .tooLongToWrite)
  | some v => v.toInt

def readTags (members : Table String Json) : Except Failure Tags :=
  Tags.ofJson ((members.get? "tags").getD (.object []))

def readNode (element : Json) (members : Table String Json) : Logged (Option Node) := do
  let id ← readId element members
  match members.get? "lat", members.get? "lon" with
  | some lat, some lon =>
    let lat ← lat.toFloat
    let lon ← lon.toFloat
    return some { id, position := { lon, lat }, tags := ← readTags members }
  | _, _ =>
    Logged.sayText .debug do
      return "Skipping node " ++ (← Numeral.writeInt id) ++ " without coordinates"
    return none

def readWay (element : Json) (members : Table String Json) : Except Failure Way := do
  let id ← readId element members
  let refs ← ((members.get? "nodes").getD (.list [])).items
  let nodeRefs ← refs.mapM Json.toInt
  return { id, nodeRefs, tags := ← readTags members }

def readMember (v : Json) : Except Failure (Option Member) := do
  if ← v.contains "ref" then
    let kind ← v.member? "type"
    let ref ← ((← v.member? "ref").getD .null).toInt
    let role := (← v.member? "role").getD .null
    return some { kind := kind.getD (.text ""), ref, role := if role.isNothing then .text "" else role }
  else return none

def readRelation (element : Json) (ms : Table String Json) : Except Failure Relation := do
  let vs ← ((ms.get? "members").getD (.list [])).items
  let members ← vs.mapM readMember
  let id ← readId element ms
  return { id, members := members.filterMap fun m => m, tags := ← readTags ms }

def readElement (x : Extract) (element : Json) : Logged Extract := do
  let kind := (← element.member? "type").getD .null
  let members := match element with
    | .object ms => ms
    | _ => []
  if kind.isText "node" then
    let node ← readNode element members
    return { x with nodes := x.nodes ++ node.toList }
  else if kind.isText "way" then
    let way ← readWay element members
    return { x with ways := x.ways ++ [way] }
  else if kind.isText "relation" then
    let relation ← readRelation element members
    return { x with relations := x.relations ++ [relation] }
  else
    Logged.sayText .debug do return "Skipping element of type '" ++ (← kind.shown) ++ "'"
    return x

def ofDocument (document : Json) : Logged Extract := do
  let elements ← ((← document.member? "elements").getD (.list [])).items
  elements.foldlM readElement empty

end Extract

end StreetMap
