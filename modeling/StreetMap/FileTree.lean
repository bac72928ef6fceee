import StreetMap.Log
import StreetMap.Text.Pieces

/-!
A tree of files.  A path is walked name by name from the working directory: each name but the last has
to be a directory, an empty name and a dot stay where they are, and two dots go up.
-/

namespace StreetMap

inductive FileEntry
  | directory | file (content : List UInt8)
  deriving DecidableEq

/-- The entries below the working directory by the names that lead there.  What lies above it begins
with two dots, and what an absolute path names with a slash. -/
abbrev FileTree := Table (List String) FileEntry

namespace FileTree

def root : List String := ["/"]

def isAbove (place : List String) : Bool := place.all (· = "..")

def lookup (t : FileTree) (place : List String) : Option FileEntry :=
  if isAbove place || place = root then some .directory else Table.get? t place

def parent (place : List String) : List String :=
  if place = root then root else if isAbove place then ".." :: place else place.dropLast

def longestName : Nat := 255

def enter (t : FileTree) (place : List String) (name : String) : Except FileError (List String) :=
  match t.lookup place with
  | none => .error .notFound
  | some (.file _) => .error .notDirectory
  | some .directory =>
    if name = "" || name = "." then .ok place
    else if name = ".." then .ok (parent place)
    else if name.utf8ByteSize > longestName then .error .nameTooLong
    else .ok (place ++ [name])

/-- Where a path leads, whether or not there is anything. -/
def resolve (t : FileTree) (path : String) : Except FileError (List String) :=
  if path.isEmpty then .error .notFound
  else (Text.split "/" path).foldlM (enter t) (if path.toList.head? = some '/' then root else [])

def find (t : FileTree) (path : String) : Except FileError FileEntry := do
  match t.lookup (← t.resolve path) with
  | some e => .ok e
  | none => .error .notFound

def hasEntry (t : FileTree) (path : String) : Bool := (t.find path).toBool

def isDirectory (t : FileTree) (path : String) : Bool :=
  match t.find path with
  | .ok .directory => true
  | _ => false

def read (t : FileTree) (path : String) : Except FileError (List UInt8) := do
  match ← t.find path with
  | .file content => .ok content
  | .directory => .error .isDirectory

def write (t : FileTree) (path : String) (content : List UInt8) : Except FileError FileTree := do
  let place ← t.resolve path
  match t.lookup place with
  | some .directory => .error .isDirectory
  | _ => .ok (Table.put t place (.file content))

def makeDirectory (t : FileTree) (path : String) : Except FileError FileTree := do
  let place ← t.resolve path
  match t.lookup place with
  | some _ => .error .alreadyExists
  | none => .ok (Table.put t place .directory)

/-- What stands before the last slash of a path, less the slashes it ends in, and what stands after. -/
def cutName (path : List Char) : List Char × List Char :=
  match Text.cutAtLast? '/' path with
  | none => ([], path)
  | some (before, name) =>
    if before.all (· = '/') then (before ++ ['/'], name)
    else ((before.reverse.dropWhile (· = '/')).reverse, name)

def directoryName (path : String) : String := String.ofList (cutName path.toList).1

def baseName (path : String) : String := String.ofList (cutName path.toList).2

theorem cutName_length {path : List Char} (h : (cutName path).2 ≠ []) :
    (cutName path).1.length < path.length := by
  unfold cutName at h ⊢
  split
  · rename_i hc
    simp only [hc] at h
    exact List.length_pos_iff.2 h
  · rename_i before name hc
    simp only [hc] at h
    have hp := congrArg List.length (Text.cutAtLast?_eq_some hc)
    simp only [List.length_append, List.length_cons] at hp
    split
    · rename_i hb
      simp only [hb, if_true] at h
      have := List.length_pos_iff.2 h
      simp only [List.length_append, List.length_cons, List.length_nil]
      omega
    · have := (List.dropWhile_sublist (fun c => decide (c = '/')) (l := before.reverse)).length_le
      simp only [List.length_reverse] at this ⊢
      omega

def ensureDirectory (path : String) (t : FileTree) : Outcome FileTree :=
  match t.makeDirectory path with
  | .ok t => Outcome.done t
  | .error e => if t.isDirectory path then Outcome.done t else Outcome.fail t (.file path e)

def ensureDirectories (path : List Char) (t : FileTree) : Outcome FileTree :=
  let above := (cutName path).1
  if _ : (cutName path).2 = [] then ensureDirectory (String.ofList path) t
  else if above.isEmpty || t.hasEntry (String.ofList above) then ensureDirectory (String.ofList path) t
  else
    (ensureDirectories above t).andThen fun t =>
      if (cutName path).2 = ['.'] then Outcome.done t else ensureDirectory (String.ofList path) t
termination_by path.length
decreasing_by exact cutName_length ‹_›

def save (t : FileTree) (path : String) (content : List UInt8) : Outcome FileTree :=
  if path.contains '\x00' then Outcome.fail t .nulInPath
  else
    (if (directoryName path).isEmpty then Outcome.done t
      else ensureDirectories (directoryName path).toList t).andThen fun t =>
        match t.write path content with
        | .ok t => Outcome.done t
        | .error e => Outcome.fail t (.file path e)

def pathOf (place : List String) : String :=
  match place with
  | "/" :: names => "/" ++ String.intercalate "/" names
  | names => String.intercalate "/" names

def changes (before after : FileTree) : List (List String × FileEntry) :=
  List.filter (fun (place, e) => Table.get? before place ≠ some e) after

end FileTree

end StreetMap
