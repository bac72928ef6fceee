import StreetMap.Element
import StreetMap.Json.Convert
import StreetMap.Text.Case

/-!
What tags say.  Words in them are compared without regard to case; a tag that is absent or holds
nothing has the empty word.
-/

namespace StreetMap

def trueWords : List String := ["yes", "1", "true"]

def allowingWords : List String :=
  trueWords ++ ["designated", "official", "permissive", "unknown"]

def denyingWords : List String := ["no", "license"]

def orElse (x : Except Failure Bool) (y : Unit → Except Failure Bool) : Except Failure Bool :=
  match x with
  | .ok false => y ()
  | x => x

namespace TagKey

def toJson : TagKey → Json
  | text s => .text s
  | null => .null
  | bool b => .bool b
  | int n => .int n
  | float x => .float x

def ofJson : Json → Except Failure TagKey
  | .text s => .ok (text s)
  | .null => .ok null
  | .bool b => .ok (bool b)
  | .int n => .ok (int n)
  | .float x => .ok (float x)
  | v => .error (.mismatch (.notHashable v.shape))

def same (k l : TagKey) : Bool := k = l || k.toJson.same l.toJson

@[simp] theorem same_text (s : String) (k : TagKey) : same (text s) k = decide (k = text s) := by
  cases k <;> simp [same, toJson, Json.same, Json.numeric?, eq_comm]

end TagKey

namespace Tags

def standing (t : Tags) (k : TagKey) : TagKey := (t.keys.find? k.same).getD k

@[simp] theorem standing_text (t : Tags) (s : String) : t.standing (.text s) = .text s := by
  unfold standing
  cases h : t.keys.find? (TagKey.text s).same with
  | none => rfl
  | some k => simpa using List.find?_some h

def write (t : Tags) (k : TagKey) (v : Json) : Tags := t.put (t.standing k) v

def readPair (index : Nat) (v : Json) : Except Failure (TagKey × Json) :=
  match v.items with
  | .error _ => .error (.mismatch (.notPair index))
  | .ok [k, x] => do return (← TagKey.ofJson k, x)
  | .ok vs => .error (.pairLength index vs.length)

def ofJson : Json → Except Failure Tags
  | .object ms => .ok (ms.map fun (k, v) => (.text k, v))
  | v => do
    let pairs ← (← v.items).zipIdx.mapM fun (x, i) => readPair i x
    return pairs.foldl (fun t (k, x) => t.write k x) []

def has (t : Tags) (key : String) : Bool := Table.has t key

def is (t : Tags) (key value : String) : Bool := (t.get? key).any (·.isText value)

def word (t : Tags) (key : String) : Except Failure String :=
  match t.get? key with
  | none => .ok ""
  | some v => if v.isNothing then .ok "" else (v.asText "lower").map Text.lower

def wordIn (t : Tags) (key : String) (words : List String) : Except Failure Bool :=
  (t.word key).map words.contains

def allows (t : Tags) (key : String) : Except Failure Bool := t.wordIn key allowingWords

def denies (t : Tags) (key : String) : Except Failure Bool := t.wordIn key denyingWords

def isAccessDenied (t : Tags) : Except Failure Bool := t.denies "access"

def deniesBicycle (t : Tags) : Except Failure Bool :=
  orElse (t.denies "bicycle") fun _ => .ok (t.is "bicycle" "use_sidepath")

def isUnderConstruction (t : Tags) : Bool := t.is "highway" "construction" || t.is "cycleway" "construction"

def holdsParkAndRide (v : Json) : Except Failure Bool :=
  if v.isNothing then .ok false else v.contains "park_and_ride"

def offersParkAndRide (v : Json) : Except Failure Bool :=
  if v.isNothing then .ok false else (v.asText "lower").map fun s => Text.lower s ≠ "no"

def isParkAndRide (t : Tags) : Except Failure Bool :=
  if !t.is "amenity" "parking" then .ok false
  else orElse (holdsParkAndRide ((t.get? "parking").getD .null)) fun _ =>
    offersParkAndRide ((t.get? "park_ride").getD .null)

def isStop (t : Tags) : Bool :=
  t.is "highway" "bus_stop" || t.is "railway" "tram_stop" || t.is "railway" "station"
    || t.is "railway" "halt" || t.is "amenity" "bus_station"
    || t.is "public_transport" "platform" || t.is "public_transport" "stop_position"

def isBikeRental (t : Tags) : Bool := t.is "amenity" "bicycle_rental"

/-- Tags as they are in nearly every source: text and nothing else. -/
def AllText (t : Tags) : Prop := ∀ r ∈ t, ∃ k s, r = (TagKey.text k, Json.text s)

end Tags

end StreetMap
