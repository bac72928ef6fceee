import StreetMap.Limits
import StreetMap.Text.Blank
import StreetMap.Text.Digit
import StreetMap.Text.Pieces
import StreetMap.Text.Quoted

/-!
Numerals in text.  Digits may come from any script and single underscores may stand between digits.
The digits of an integer are limited, read or written; a decimal has no limit and is rounded to the
nearest floating-point number, ties to even.
-/

namespace StreetMap

inductive NumeralError
  | notInteger (text : String) | notDecimal (text : String)
  | tooManyDigits (count : Nat) | tooLongToWrite
  | infiniteToInteger | nanToInteger | beyondFloat
  deriving DecidableEq

namespace Numeral

open Text

def ofDigits (ds : List Nat) : Nat := ds.foldl (fun n d => 10 * n + d) 0

def isDigitOrLink (c : Char) : Bool := c = '_' || (digitValue? c).isSome

/-- The digits at the head of a text and the text after them.  There may be none; where there are
some, an underscore stands only between two of them. -/
def readDigits (cs : List Char) : Option (List Nat × List Char) :=
  let run := cs.takeWhile isDigitOrLink
  let rest := cs.dropWhile isDigitOrLink
  if run.isEmpty then some ([], rest)
  else if (pieces ['_'] run).any List.isEmpty then none
  else some (run.filterMap digitValue?, rest)

def readSign : List Char → Bool × List Char
  | '-' :: cs => (true, cs)
  | '+' :: cs => (false, cs)
  | cs => (false, cs)

def applySign (negative : Bool) (n : Nat) : Int := if negative then -n else n

/-- Whether so many digits can be read. -/
def permits [Limits] (count : Nat) : Bool := Limits.digits.all (count ≤ ·)

/-- Whether an integer can be written. -/
def fits [Limits] (n : Int) : Bool := permits (Nat.toDigits 10 n.natAbs).length

def readInt [Limits] (s : String) : Except NumeralError Int :=
  let (negative, body) := readSign (trimBy isNumeralBlank s.toList)
  match readDigits body with
  | some (d :: ds, rest) =>
    if !permits (ds.length + 1) then .error (.tooManyDigits (ds.length + 1))
    else if rest.isEmpty then .ok (applySign negative (ofDigits (d :: ds)))
    else .error (.notInteger s)
  | _ => .error (.notInteger s)

def writeInt [Limits] (n : Int) : Except NumeralError String :=
  if fits n then .ok (toString n) else .error .tooLongToWrite

def readExponent : List Char → Option Int
  | [] => some 0
  | c :: cs =>
    if c = 'e' || c = 'E' then
      let (negative, body) := readSign cs
      match readDigits body with
      | some (d :: ds, []) => some (applySign negative (ofDigits (d :: ds)))
      | _ => none
    else none

def scale (n : Nat) (e : Int) : Float := Float.ofScientific n (e < 0) e.natAbs

def infinity : Float := Float.ofBits 0x7ff0000000000000

def nan : Float := Float.ofBits 0x7ff8000000000000

def readMagnitude (cs : List Char) : Option Float :=
  let word := String.ofList (cs.map Char.toLower)
  if word = "inf" || word = "infinity" then some infinity
  else if word = "nan" then some nan
  else do
    let (whole, rest) ← readDigits cs
    let (fraction, rest) ← match rest with
      | '.' :: rest => readDigits rest
      | rest => some ([], rest)
    if whole.isEmpty && fraction.isEmpty then none
    else
      let e ← readExponent rest
      some (scale (ofDigits (whole ++ fraction)) (e - fraction.length))

def readFloat (s : String) : Except NumeralError Float :=
  let (negative, body) := readSign (trimBy isNumeralBlank s.toList)
  match readMagnitude body with
  | some x => .ok (if negative then -x else x)
  | none => .error (.notDecimal s)

def toFloat (n : Int) : Except NumeralError Float :=
  let x := Float.ofInt n
  if x.isInf then .error .beyondFloat else .ok x

open Float.Model in
def truncate (x : Float) : Except NumeralError Int :=
  match x.toModel.unpack with
  | .infinity _ => .error .infiniteToInteger
  | .notANumber => .error .nanToInteger
  | .zero _ => .ok 0
  | .finite sign m e _ =>
    let n := if 0 ≤ e then m <<< e.toNat else m >>> (-e).toNat
    .ok (applySign (sign == .negative) n)

end Numeral

def NumeralError.limitExceeded [Limits] : String :=
  "Exceeds the limit (" ++ toString (Limits.digits.getD 0) ++ " digits) for integer string conversion"

def NumeralError.message [Limits] : NumeralError → String
  | .notInteger s =>
    "invalid literal for int() with base 10: " ++ String.ofList ((Text.quotedChars s.toList).take 200)
  | .notDecimal s => "could not convert string to float: " ++ Text.quoted s
  | .tooManyDigits n =>
    limitExceeded ++ ": value has " ++ toString n
      ++ " digits; use sys.set_int_max_str_digits() to increase the limit"
  | .tooLongToWrite =>
    limitExceeded ++ "; use sys.set_int_max_str_digits() to increase the limit"
  | .infiniteToInteger => "cannot convert float infinity to integer"
  | .nanToInteger => "cannot convert float NaN to integer"
  | .beyondFloat => "int too large to convert to float"

end StreetMap
