import StreetMap.Failure
import StreetMap.Number.Lattice

/-!
Reading a JSON value as a number, a text or a sequence, and the equality of values.  What is asked of a
value of the wrong shape fails with that shape.
-/

namespace StreetMap.Json

def number {α : Type} : Except NumeralError α → Except Failure α
  | .ok x => .ok x
  | .error e => .error (.number e)

def toInt [Limits] : Json → Except Failure Int
  | int n => .ok n
  | bool b => .ok (if b then 1 else 0)
  | float x => number (Numeral.truncate x)
  | text s => number (Numeral.readInt s)
  | v => .error (.mismatch (.notIntegral v.shape))

def toFloat : Json → Except Failure Float
  | float x => .ok x
  | int n => number (Numeral.toFloat n)
  | bool b => .ok (if b then 1 else 0)
  | text s => number (Numeral.readFloat s)
  | v => .error (.mismatch (.notReal v.shape))

def asText (operation : String) : Json → Except Failure String
  | text s => .ok s
  | v => .error (.lacks v.shape operation)

def items : Json → Except Failure (List Json)
  | list vs => .ok vs
  | text s => .ok (s.toList.map fun c => text (String.singleton c))
  | object ms => .ok (ms.map fun (k, _) => text k)
  | v => .error (.mismatch (.notIterable v.shape))

def contains (s : String) : Json → Except Failure Bool
  | text t => .ok (Text.occursIn s.toList t.toList)
  | list vs => .ok (vs.any (·.isText s))
  | object ms => .ok (Table.has ms s)
  | v => .error (.mismatch (.notContainer v.shape))

def member? (name : String) : Json → Except Failure (Option Json)
  | object ms => .ok (Table.get? ms name)
  | v => .error (.lacks v.shape "get")

def isHashable : Json → Bool
  | list _ | object _ => false
  | _ => true

def numeric? : Json → Option (Int ⊕ Float)
  | int n => some (.inl n)
  | bool b => some (.inl (if b then 1 else 0))
  | float x => some (.inr x)
  | _ => none

def areNoNumbers : Json → Json → Bool
  | float x, float y => x.isNaN && y.isNaN
  | _, _ => false

mutual
/-- Equality with numbers compared by value, true and false being one and zero.  What is no number is
equal only as a part of something. -/
def same : Json → Json → Bool
  | null, null => true
  | text s, text t => s = t
  | list xs, list ys => sameItems xs ys
  | object ms, object ns => ms.length = ns.length && sameMembers ms ns
  | v, w =>
    match numeric? v, numeric? w with
    | some (.inl m), some (.inl n) => m = n
    | some (.inr x), some (.inr y) => x == y
    | some (.inl n), some (.inr x) | some (.inr x), some (.inl n) =>
      latticeValue? x = some (n * latticeUnit)
    | _, _ => false

def sameItems : List Json → List Json → Bool
  | [], [] => true
  | x :: xs, y :: ys => (same x y || areNoNumbers x y) && sameItems xs ys
  | _, _ => false

def sameMembers : List (String × Json) → List (String × Json) → Bool
  | [], _ => true
  | (k, v) :: ms, ns =>
    (match Table.get? ns k with
      | some w => same v w || areNoNumbers v w
      | none => false) && sameMembers ms ns
end

end StreetMap.Json
