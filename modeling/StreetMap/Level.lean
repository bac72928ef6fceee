import StreetMap.Json.Convert
import StreetMap.Log

/-!
Vertical levels.  A specification is a name, perhaps `short=long`, perhaps followed by `@` and an
altitude in metres.  The floor is the number that the short name reads as, else the long name; where
neither is a number it is guessed from the altitude.
-/

namespace StreetMap

inductive LevelSource
  | levelTag | layerTag | levelMap | none
  deriving DecidableEq

def LevelSource.name : LevelSource → String
  | .levelTag => "level_tag"
  | .layerTag => "layer_tag"
  | .levelMap => "level_map"
  | .none => "none"

/-- Floors count from zero; the names are as shown, perhaps counted from one. -/
structure Level where
  floor : Int
  altitude : Option Float
  shortName : String
  longName : String
  source : LevelSource
  reliable : Bool
  deriving DecidableEq

namespace Level

open Text

def default : Level where
  floor := 0
  altitude := some 0
  shortName := "default level"
  longName := "default level"
  source := .none
  reliable := true

def metresPerFloor : Float := 3

structure Spec where
  body : String
  shortName : String
  longName : String
  altitude : Option Float

def cutAltitude (cs : List Char) : List Char × Option Float :=
  match cutAtLast? '@' cs with
  | none => (cs, none)
  | some (body, altitude) => (body, (Numeral.readFloat (String.ofList altitude)).toOption)

def cutNames (cs : List Char) : List Char × List Char :=
  match cutAtFirst? '=' cs with
  | some (c :: short, long) => (c :: short, long)
  | _ => (cs, cs)

def Spec.ofText (s : String) : Spec :=
  let (body, altitude) := cutAltitude s.toList
  let (short, long) := cutNames body
  { body := String.ofList body
    shortName := String.ofList (dropLeading '+' short)
    longName := String.ofList (dropLeading '+' long)
    altitude }

/-- The floor that a name reads as, and the name as shown.  With floors raised, a level map counts from
one, while a tag counts from zero and is shown one higher. -/
def readName [Limits] (source : LevelSource) (raise : Bool) (name : String) :
    Except NumeralError (Option Int × String) :=
  match Numeral.readInt name with
  | .error _ => .ok (none, name)
  | .ok n =>
    if !raise then .ok (some n, name)
    else if source = .levelMap then .ok (some (if n ≥ 1 then n - 1 else n), name)
    else if n ≥ 0 then (Numeral.writeInt (n + 1)).map fun shown => (some n, shown)
    else .ok (some n, name)

inductive Doubt
  | guessed (body : String) (floor : Int) | unreadable (body : String)
  deriving DecidableEq

def Doubt.message : Doubt → String
  | .guessed body floor =>
    "Could not determine floor number for level '" ++ body ++ "'. Guessed " ++ toString floor
      ++ " (0-based) from altitude."
  | .unreadable body => "Could not parse level out of OSM tag '" ++ body ++ "'"

def altitudeOf (floor : Int) : Option Float → Except NumeralError Float
  | some a => .ok a
  | none => (Numeral.toFloat floor).map (· * metresPerFloor)

def read [Limits] (spec : String) (source : LevelSource) (raise : Bool) :
    Except NumeralError (Level × Option Doubt) := do
  let s := Spec.ofText spec
  let (longFloor, longName) ← readName source raise s.longName
  let (shortFloor, shortName) ← readName source raise s.shortName
  match shortFloor <|> longFloor, s.altitude with
  | some floor, altitude =>
    let altitude ← altitudeOf floor altitude
    return ({ floor, altitude := some altitude, shortName, longName, source, reliable := true }, none)
  | none, some a =>
    let floor ← Numeral.truncate (a / metresPerFloor)
    return ({ floor, altitude := some a, shortName, longName, source, reliable := false },
      some (.guessed s.body floor))
  | none, none =>
    return ({ floor := 0, altitude := none, shortName, longName, source, reliable := false },
      some (.unreadable s.body))

def readLogged [Limits] (spec : String) (source : LevelSource) (raise : Bool) : Logged Level :=
  match read spec source raise with
  | .error e => ⟨[], .error (.number e)⟩
  | .ok (level, doubt) => ⟨doubt.toList.map fun d => .line .warning d.message, .ok level⟩

def range? (cs : List Char) : Option (String × String) :=
  match cutAtFirst? '-' cs with
  | some (c :: first, d :: last) =>
    if (c :: first).all Char.isDigit && (d :: last).all Char.isDigit then
      some (String.ofList (c :: first), String.ofList (d :: last))
    else none
  | _ => none

def numerals (first last : Int) : List String :=
  (List.range (last + 1 - first).toNat).map fun (i : Nat) => toString (first + i)

def expand [Limits] (entry : String) : Except NumeralError (List String) :=
  let entry := trim entry
  if entry.isEmpty then .ok []
  else
    match range? entry.toList with
    | none => .ok [entry]
    | some (first, last) => do
      let first ← Numeral.readInt first
      return numerals first (← Numeral.readInt last)

def expandList [Limits] (list : String) : Except NumeralError (List String) := do
  return (← (split ";" list).mapM expand).flatten

def readList [Limits] (list : String) (source : LevelSource) (raise : Bool) : Logged (List Level) := do
  let specs ← Logged.ofExcept (Json.number (expandList list))
  specs.mapM fun s => readLogged s source raise

def byShortName (levels : List Level) : Table String Level :=
  Table.ofList (levels.map fun l => (l.shortName, l))

def readMap [Limits] (list : String) (source : LevelSource) (raise : Bool) : Logged (Table String Level) := do
  return byShortName (← readList list source raise)

end Level

end StreetMap
