import StreetMap.Area
import StreetMap.Phase
import StreetMap.Schedule
import StreetMap.Settings.Problem
import StreetMap.Text.Raw
import StreetMap.Text.Utf8

/-!
Why an operation fails, and the text that says so.
-/

namespace StreetMap

inductive Mismatch
  | notIterable (got : Json.Shape) | notContainer (got : Json.Shape)
  | notIntegral (got : Json.Shape) | notReal (got : Json.Shape)
  | notHashable (got : Json.Shape) | notPair (index : Nat)
  | notJoinable (got : Json.Shape) | notSeparator (got : Json.Shape) | notDivisor (got : Json.Shape)
  deriving DecidableEq

inductive FileError
  | notFound | alreadyExists | notDirectory | isDirectory | nameTooLong
  | other (number : Nat) (text : String)
  deriving DecidableEq

/-- Why there is no document at a path.  A path has no octets if it holds halves of surrogate pairs, from
`start` up to `stop`, the first of them given. -/
inductive SourceError
  | unavailable (e : FileError) | malformed (detail : String) | notAnObject
  | noOctets (half : Fin 0x800) (start stop : Nat) | nulInPath
  | notUtf8 (e : Text.Utf8.Malformed) | tooDeep (inner : Json.Shape) | number (e : NumeralError)
  deriving DecidableEq

inductive Failure
  | lacks (got : Json.Shape) (operation : String) | mismatch (m : Mismatch)
  | number (e : NumeralError) | pairLength (index length : Nat)
  | zeroInterval | emptySeparator | emptyKind
  | elementWithoutId (element : Json)
  | schedule (e : ScheduleError) | area (e : AreaError) | phase (e : PhaseError)
  | settings (problems : List Settings.Problem)
  | noSources | source (path : String) (e : SourceError) | nulInPath
  | file (path : String) (e : FileError) | reportField (model : String)

def Json.Shape.name : Json.Shape → String
  | .null => "NoneType"
  | .bool => "bool"
  | .int => "int"
  | .float => "float"
  | .text => "str"
  | .list => "list"
  | .object => "dict"

def Mismatch.message : Mismatch → String
  | .notIterable s => "'" ++ s.name ++ "' object is not iterable"
  | .notContainer s => "argument of type '" ++ s.name ++ "' is not iterable"
  | .notIntegral s =>
    "int() argument must be a string, a bytes-like object or a real number, not '" ++ s.name ++ "'"
  | .notReal s => "float() argument must be a string or a real number, not '" ++ s.name ++ "'"
  | .notHashable s => "unhashable type: '" ++ s.name ++ "'"
  | .notPair i => "cannot convert dictionary update sequence element #" ++ toString i ++ " to a sequence"
  | .notJoinable s => "can only concatenate str (not \"" ++ s.name ++ "\") to str"
  | .notSeparator s => "must be str or None, not " ++ s.name
  | .notDivisor s => "unsupported operand type(s) for %: 'int' and '" ++ s.name ++ "'"

def FileError.number : FileError → Nat
  | .notFound => 2
  | .alreadyExists => 17
  | .notDirectory => 20
  | .isDirectory => 21
  | .nameTooLong => 36
  | .other n _ => n

def FileError.text : FileError → String
  | .notFound => "No such file or directory"
  | .alreadyExists => "File exists"
  | .notDirectory => "Not a directory"
  | .isDirectory => "Is a directory"
  | .nameTooLong => "File name too long"
  | .other _ t => t

def FileError.message (e : FileError) (path : RawText) : String :=
  "[Errno " ++ toString e.number ++ "] " ++ e.text ++ ": " ++ path.quoted

def Text.Utf8.Reason.message : Text.Utf8.Reason → String
  | .start => "invalid start byte"
  | .continuation => "invalid continuation byte"
  | .tooShort => "unexpected end of data"

def placeText (start stop : Nat) : String :=
  if stop = start + 1 then toString start else toString start ++ "-" ++ toString (stop - 1)

/-- A single octet is shown; of several only their places are. -/
def Text.Utf8.Malformed.message (e : Text.Utf8.Malformed) : String :=
  "'utf-8' codec can't decode "
    ++ (if e.stop = e.start + 1 then
        "byte 0x" ++ String.ofList (Text.hexDigits 2 e.octet.toNat)
      else "bytes")
    ++ " in position " ++ placeText e.start e.stop ++ ": " ++ e.reason.message

def halvesText (half : Fin 0x800) (start stop : Nat) : String :=
  "'utf-8' codec can't encode "
    ++ (if stop = start + 1 then "character '" ++ String.ofList (RawText.escapeHalf half) ++ "'"
      else "characters")
    ++ " in position " ++ placeText start stop ++ ": surrogates not allowed"

def SourceError.message [Limits] (path : RawText) : SourceError → RawText
  | .unavailable e => "Failed to read OSM extract " ++ path ++ RawText.ofString (": " ++ e.message path)
  | .malformed detail => "Failed to read OSM extract " ++ path ++ RawText.ofString (": " ++ detail)
  | .notAnObject => "OSM extract " ++ path ++ " is not a JSON object"
  | .noOctets half start stop => halvesText half start stop
  | .nulInPath => "embedded null byte"
  | .notUtf8 e => e.message
  | .tooDeep inner =>
    RawText.ofString ("maximum recursion depth exceeded while decoding a JSON "
      ++ (if inner = .object then "object" else "array") ++ " from a unicode string")
  | .number e => e.message

def Failure.message [Limits] : Failure → String
  | .lacks s op => "'" ++ s.name ++ "' object has no attribute '" ++ op ++ "'"
  | .mismatch m => m.message
  | .number e => e.message
  | .pairLength i n =>
    "dictionary update sequence element #" ++ toString i ++ " has length " ++ toString n
      ++ "; 2 is required"
  | .zeroInterval => "integer modulo by zero"
  | .emptySeparator => "empty separator"
  | .emptyKind => "[] is not a valid AnomalyKind"
  | .elementWithoutId v => "OSM element without id: " ++ v.literal
  | .schedule e => e.message
  | .area e =>
    match e.message with
    | .ok text => text
    | .error e => e.message
  | .phase e => e.message
  | .settings ps =>
    "Configuration validation failed:\n"
      ++ String.intercalate "\n" (ps.map fun p => "  - " ++ p.message)
  | .noSources => "At least one OSM extract is required"
  | .source path e => (e.message path).shown
  | .nulInPath => "embedded null byte"
  | .file path e => e.message path
  | .reportField model => "1 validation error for " ++ model

end StreetMap
