import StreetMap.Command
import StreetMap.Standard
import Std.Time

/-!
The program.  It takes a copy of the files that a command may look at, lets the command run on that,
and then prints, logs and writes what the command says.
-/

namespace StreetMap

open Std.Time Standard

def digits (width : Nat) (n : Int) : String :=
  let ds := toString n
  String.ofList (List.replicate (width - ds.length) '0') ++ ds

def dateDigits (between : String) (d : PlainDate) : String :=
  digits 4 d.year.toInt ++ between ++ digits 2 d.month.toInt ++ between ++ digits 2 d.day.toInt

def timeDigits (between : String) (t : PlainTime) : String :=
  digits 2 t.hour.toInt ++ between ++ digits 2 t.minute.toInt ++ between ++ digits 2 t.second.val

def isoTime (t : PlainDateTime) : String :=
  dateDigits "-" t.date ++ "T" ++ timeDigits ":" t.time ++ "." ++ digits 6 (t.time.nanosecond.toInt / 1000)

def identifier (n : Nat) : String :=
  let ds := Text.hexDigits 32 (n % Nat.pow 16 32)
  String.ofList (ds.take 8 ++ '-' :: (ds.drop 8).take 4 ++ '-' :: '4' :: (ds.drop 13).take 3 ++
    '-' :: 'a' :: (ds.drop 17).take 3 ++ '-' :: (ds.drop 20).take 12)

def Severity.label : Severity → String
  | .debug => "DEBUG   "
  | .info => "INFO    "
  | .warning => "WARNING "
  | .error => "ERROR   "

def logLine (time : PlainTime) (n : Note) : String :=
  timeDigits ":" time ++ " | " ++ n.severity.label ++ " | " ++ n.text

def beginnings (path : String) : List String :=
  let names := Text.split "/" path
  (List.range names.length).map fun i => String.intercalate "/" (names.take (i + 1))

def copyEntry (t : FileTree) (path : String) : IO FileTree := do
  match t.resolve path with
  | .error _ => return t
  | .ok place =>
    if (t.lookup place).isSome then return t
    else if ← ((← IO.currentDir) / path).isDir then return Table.put t place .directory
    else
      try
        let content ← IO.FS.readBinFile path
        return Table.put t place (.file content.data.toList)
      catch _ => return t

def copyTree (paths : List String) : IO FileTree := (paths.flatMap beginnings).foldlM copyEntry []

def writeEntry (place : List String) (e : FileEntry) : IO Unit :=
  match e with
  | .directory => IO.FS.createDirAll (FileTree.pathOf place)
  | .file content => IO.FS.writeBinFile (FileTree.pathOf place) ⟨content.toArray⟩

def occasion : IO Command.Occasion := do
  let clock ← PlainDateTime.now
  let universal := PlainDateTime.ofWallTime ((← Timestamp.now).toWallTime TimeZone.Offset.zero)
  let random ← IO.rand 0 (Nat.pow 16 32 - 1)
  return { stamp := ⟨identifier random, isoTime universal⟩
           clock := dateDigits "" clock.date ++ "_" ++ timeDigits "" clock.time }

def mentioned (o : Command.Occasion) (args : List String) : List String :=
  match Command.Invocation.ofArguments args with
  | .ok ⟨_, some command⟩ => Command.paths o command
  | _ => []

def execute (args : List String) : IO UInt32 := do
  let o ← occasion
  let files ← copyTree (mentioned o args)
  let a := Command.run o files args
  let now ← PlainDateTime.now
  a.log.forM fun n => IO.eprintln (logLine now.time n)
  (FileTree.changes files a.files).forM fun (place, e) => writeEntry place e
  IO.print a.output
  match a.ending with
  | .ok code =>
    if code = 2 then IO.eprint Command.usage
    return code.toUInt32
  | .error e =>
    IO.eprintln e.message
    return 1

end StreetMap

def main (args : List String) : IO UInt32 := StreetMap.execute args
