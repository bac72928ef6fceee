import StreetMap.Json
import StreetMap.Number.Numeral
import StreetMap.Number.Shortest
import StreetMap.Text.Quoted

/-!
Written forms of JSON values: compact, indented, and the plain form that messages show.
-/

namespace StreetMap.Json

def escapeChar (c : Char) : List Char :=
  match c with
  | '"' => ['\\', '"']
  | '\\' => ['\\', '\\']
  | '\n' => ['\\', 'n']
  | '\r' => ['\\', 'r']
  | '\t' => ['\\', 't']
  | '\x08' => ['\\', 'b']
  | '\x0c' => ['\\', 'f']
  | c => if c.toNat < 0x20 then '\\' :: 'u' :: Text.hexDigits 4 c.toNat else [c]

def writeText (s : String) : String := String.ofList ('"' :: s.toList.flatMap escapeChar ++ ['"'])

open Float.Model in
def writeFloat (x : Float) : String :=
  match x.toModel.unpack with
  | .notANumber => "NaN"
  | .infinity sign => if sign == .negative then "-Infinity" else "Infinity"
  | _ => Shortest.write x

/-- How the parts of a list or object are set apart: what stands between two of them, before the first
and after the last, and what stands after the name of a member. -/
structure Layout where
  between : Nat → String
  enter : Nat → String
  leave : Nat → String
  afterName : String

def Layout.compact : Layout := ⟨fun _ => ",", fun _ => "", fun _ => "", ":"⟩

def margin (depth : Nat) : String := "\n" ++ String.ofList (List.replicate (2 * depth) ' ')

def Layout.indented : Layout :=
  ⟨fun d => "," ++ margin (d + 1), fun d => margin (d + 1), margin, ": "⟩

mutual
def write (l : Layout) (depth : Nat) : Json → String
  | .null => "null"
  | .bool b => if b then "true" else "false"
  | .int n => toString n
  | .float x => writeFloat x
  | .text s => writeText s
  | .list [] => "[]"
  | .list (v :: vs) =>
    "[" ++ l.enter depth ++ write l (depth + 1) v ++ writeItems l depth vs ++ l.leave depth ++ "]"
  | .object [] => "\x7b\x7d"
  | .object ((k, v) :: ms) =>
    "\x7b" ++ l.enter depth ++ writeText k ++ l.afterName ++ write l (depth + 1) v ++
      writeMembers l depth ms ++ l.leave depth ++ "\x7d"

def writeItems (l : Layout) (depth : Nat) : List Json → String
  | [] => ""
  | v :: vs => l.between depth ++ write l (depth + 1) v ++ writeItems l depth vs

def writeMembers (l : Layout) (depth : Nat) : List (String × Json) → String
  | [] => ""
  | (k, v) :: ms =>
    l.between depth ++ writeText k ++ l.afterName ++ write l (depth + 1) v ++ writeMembers l depth ms
end

def compact (v : Json) : String := v.write .compact 0

def indented (v : Json) : String := v.write .indented 0

mutual
/-- The form in messages: words for the constants, text in quotes. -/
def literal : Json → String
  | .null => "None"
  | .bool b => if b then "True" else "False"
  | .int n => toString n
  | .float x => Shortest.write x
  | .text s => Text.quoted s
  | .list [] => "[]"
  | .list (v :: vs) => "[" ++ literal v ++ literalItems vs ++ "]"
  | .object [] => "\x7b\x7d"
  | .object ((k, v) :: ms) =>
    "\x7b" ++ Text.quoted k ++ ": " ++ literal v ++ literalMembers ms ++ "\x7d"

def literalItems : List Json → String
  | [] => ""
  | v :: vs => ", " ++ literal v ++ literalItems vs

def literalMembers : List (String × Json) → String
  | [] => ""
  | (k, v) :: ms => ", " ++ Text.quoted k ++ ": " ++ literal v ++ literalMembers ms
end

def display : Json → String
  | .text s => s
  | v => v.literal

section Writable

variable [Limits]

mutual
/-- Whether all the integers in a value can be written. -/
def fits : Json → Bool
  | .int n => Numeral.fits n
  | .list vs => fitsItems vs
  | .object ms => fitsMembers ms
  | _ => true

def fitsItems : List Json → Bool
  | [] => true
  | v :: vs => fits v && fitsItems vs

def fitsMembers : List (String × Json) → Bool
  | [] => true
  | (_, v) :: ms => fits v && fitsMembers ms
end

def shown (v : Json) : Except NumeralError String :=
  if v.fits then .ok v.display else .error .tooLongToWrite

end Writable

end StreetMap.Json
