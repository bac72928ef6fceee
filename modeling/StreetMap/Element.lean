import StreetMap.Json

/-!
The elements of a map: nodes with a position, ways along nodes, and relations of members in roles.
Each has tags, a table of arbitrary values; a source seldom holds anything but text there.
-/

namespace StreetMap

inductive ElementKind
  | node | way | relation
  deriving DecidableEq

def ElementKind.name : ElementKind → String
  | .node => "node"
  | .way => "way"
  | .relation => "relation"

/-- What names an element across copies of it. -/
structure Key where
  kind : ElementKind
  id : Int
  deriving DecidableEq

/-- What a tag stands under, text as a rule. -/
inductive TagKey
  | text (s : String) | null | bool (b : Bool) | int (n : Int) | float (x : Float)
  deriving DecidableEq

instance : Coe String TagKey := ⟨.text⟩

abbrev Tags := Table TagKey Json

structure Position where
  lon : Float
  lat : Float
  deriving DecidableEq

structure Node where
  id : Int
  position : Position
  tags : Tags

structure Way where
  id : Int
  nodeRefs : List Int
  tags : Tags

structure Member where
  kind : Json
  ref : Int
  role : Json

structure Relation where
  id : Int
  members : List Member
  tags : Tags

namespace Node

def key (n : Node) : Key := ⟨.node, n.id⟩

end Node

namespace Way

def key (w : Way) : Key := ⟨.way, w.id⟩

end Way

namespace Member

def isOf (m : Member) (k : ElementKind) : Bool := m.kind.isText k.name

end Member

namespace Relation

def key (r : Relation) : Key := ⟨.relation, r.id⟩

def wayMembers (r : Relation) : List Member := r.members.filter (·.isOf .way)

end Relation

end StreetMap
