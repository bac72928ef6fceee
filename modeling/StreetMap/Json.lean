import StreetMap.Table

/-!
JSON values.  Integers and decimals are told apart, and an object keeps the order of its members.
-/

namespace StreetMap

inductive Json
  | null | bool (b : Bool) | int (n : Int) | float (x : Float) | text (s : String)
  | list (items : List Json) | object (members : List (String × Json))
  deriving Inhabited

namespace Json

inductive Shape
  | null | bool | int | float | text | list | object
  deriving DecidableEq

def shape : Json → Shape
  | null => .null
  | bool _ => .bool
  | int _ => .int
  | float _ => .float
  | text _ => .text
  | list _ => .list
  | object _ => .object

def isNothing : Json → Bool
  | null => true
  | bool b => !b
  | int n => n = 0
  | float x => x == 0
  | text s => s.isEmpty
  | list xs => xs.isEmpty
  | object ms => ms.isEmpty

def isText (s : String) : Json → Bool
  | text t => t = s
  | _ => false

@[simp] theorem isText_text (s t : String) : (text t).isText s = decide (t = s) := rfl

theorem isText_eq_true {s : String} {v : Json} : v.isText s = true ↔ v = text s := by
  cases v <;> simp [isText]

end Json

end StreetMap
