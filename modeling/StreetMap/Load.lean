import StreetMap.Json.Reader
import StreetMap.Report

/-!
A load: every source file goes into one store, the relations are applied, and the report says what came
of it.
-/

namespace StreetMap.Load

/-- What the system has at a path, which it takes as octets. -/
abbrev Disk := List UInt8 → Except FileError (List UInt8)

def diskOf (files : FileTree) : Disk := fun octets =>
  match Text.Utf8.decode octets with
  | .ok path => files.read path
  | .error _ => .error .notFound

/-- Halves from U+DC80 to U+DCFF stand for octets that are no text. -/
def IsOctet (half : Fin 0x800) : Prop := 0x480 ≤ half.val ∧ half.val < 0x500

instance (half : Fin 0x800) : Decidable (IsOctet half) := inferInstanceAs (Decidable (_ ∧ _))

def octetsFrom (place : Nat) : RawText → Except SourceError (List UInt8)
  | [] => .ok []
  | .char c :: t => do return String.utf8EncodeChar c ++ (← octetsFrom (place + 1) t)
  | .half n :: t =>
    if IsOctet n then do return UInt8.ofNat (n - 0x400) :: (← octetsFrom (place + 1) t)
    else .error (.noOctets n place (place + 1 + (t.takeWhile (·.isHalf)).length))

def unifyLines : List Char → List Char
  | '\r' :: '\n' :: cs | '\r' :: cs => '\n' :: unifyLines cs
  | c :: cs => c :: unifyLines cs
  | [] => []

def readText (disk : Disk) (path : RawText) : Except SourceError String := do
  let octets ← octetsFrom 0 path
  if octets.contains 0 then .error .nulInPath
  else match disk octets with
    | .error e => .error (.unavailable e)
    | .ok content =>
      match Text.Utf8.decode content with
      | .error e => .error (.notUtf8 e)
      | .ok text => .ok (String.ofList (unifyLines text.toList))

variable [Limits]

def parse (text : String) : Except SourceError Json :=
  match Json.read Limits.depth text with
  | .ok (.object members) => .ok (.object members)
  | .ok _ => .error .notAnObject
  | .error (.malformed c left) => .error (.malformed (c.message text.toList left))
  | .error (.tooDeep inner) => .error (.tooDeep inner)
  | .error (.number e) => .error (.number e)

def readDocument (disk : Disk) (path : RawText) : Except SourceError Json := do
  parse (← readText disk path)

def document (files : FileTree) (path : String) : Except Failure Json :=
  match readDocument (diskOf files) path with
  | .ok v => .ok v
  | .error e => .error (.source path e)

variable [Geometry]

def addSource (c : Settings) (files : FileTree) (path : String) (s : Store) : Outcome Store :=
  (Outcome.saying .info ("Loading " ++ path) s).andThen fun s =>
    Outcome.withValue s (document files path) fun document => Store.loadDocument c document s

/-- The store that the sources lead to, with the relations applied. -/
def resolve (c : Settings) (files : FileTree) (paths : List String) : Outcome Store :=
  if paths.isEmpty then Outcome.fail Store.empty .noSources
  else (Outcome.forEach (addSource c files) paths Store.empty).andThen (Store.finish c)

def complete (r : Report) : Logged Unit :=
  Logged.say .info ("Load complete: " ++ toString r.counts.walkableAreas ++ " walkable areas, "
    ++ toString r.counts.turnRestrictions ++ " turn restrictions, " ++ toString r.counts.anomalies
    ++ " anomalies")

def run (c : Settings) (files : FileTree) (paths : List String) : Logged Report := do
  let s ← (resolve c files paths).toLogged
  let r ← Report.ofStore c paths s
  complete r
  return r

def save (stamp : Report.Stamp) (r : Report) (path : String) (files : FileTree) : Outcome FileTree :=
  (files.save path (Text.Utf8.encode (r.toJson stamp).indented)).andThen
    (Outcome.saying .info ("Saved report to " ++ path))

end StreetMap.Load
