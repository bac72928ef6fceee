import StreetMap.Command.Arguments
import StreetMap.Load

/-!
The command line.  One command loads extracts and writes the report, the other prints the findings.
-/

namespace StreetMap

inductive Command
  | load (sources : List String) (settings : Settings) (output : Option String) (summary : Bool)
  | anomalies (sources : List String) (settings : Settings) (kinds : List (Option AnomalyKind))

namespace Command

structure Invocation where
  verbose : Bool
  command : Option Command

def helpForm : Form := ⟨["--help", "-h"], .help⟩

def generalOptions : Grammar := [helpForm, ⟨["--verbose", "-v"], .flag⟩]

def commonOptions : Grammar := [helpForm, ⟨["--literal-floors"], .flag⟩]

def loadOptions : Grammar :=
  commonOptions ++ [⟨["--output", "-o"], .value none⟩, ⟨["--summary", "-s"], .flag⟩]

def anomaliesOptions : Grammar :=
  commonOptions ++ [⟨["--kind"], .value (some (AnomalyKind.all.map AnomalyKind.name))⟩]

def settingsOf (p : Parsed) : Settings :=
  { Settings.default with floorNumbering := if p.has "--literal-floors" then .literal else .us }

def outputOf (p : Parsed) : Option String :=
  (p.values "--output").getLast?.join.filter fun path => !path.isEmpty

def ofOperands : List String → Except Refusal (Option Command × Parsed)
  | [] => .ok (none, .empty)
  | "load" :: args => do
    let p ← loadOptions.parse args
    return (some (.load p.operands (settingsOf p) (outputOf p) (p.has "--summary")), p)
  | "anomalies" :: args => do
    let p ← anomaliesOptions.parse args
    let kinds := (p.values "--kind").map fun v => v.bind AnomalyKind.ofName?
    return (some (.anomalies p.operands (settingsOf p) kinds), p)
  | _ => .error .misuse

def Invocation.ofArguments (args : List String) : Except Refusal Invocation := do
  let general ← generalOptions.parseCommand args
  let (command, p) ← ofOperands general.operands
  if (command.isSome && p.operands.isEmpty) || !(p.strays ++ general.strays).isEmpty then .error .misuse
  else return { verbose := general.has "--verbose", command }

structure Occasion where
  stamp : Report.Stamp
  clock : String

def Occasion.defaultOutput (o : Occasion) : String := "osm_load_" ++ o.clock ++ ".json"

def paths (o : Occasion) : Command → List String
  | .load sources _ output _ => sources ++ [output.getD o.defaultOutput]
  | .anomalies sources _ _ => sources

/-- What a run does: what it prints and logs, the files as it leaves them, and the code it ends with. -/
structure Answer where
  output : String
  log : Log
  files : FileTree
  ending : Except Failure Nat

def refused (files : FileTree) (log : Log) (message : String) : Answer :=
  ⟨"", log ++ [.line .error message], files, .ok 1⟩

def failed [Limits] (files : FileTree) (log : Log) (e : Failure) : Answer :=
  refused files log ("Failed to load OSM data: " ++ e.message)

def closingLines (path : String) (c : Report.Counts) : Log :=
  [.line .info ("✓ Generated: " ++ path),
    .line .info ("  Ways: " ++ toString c.ways ++ ", nodes: " ++ toString c.nodes),
    .line .info ("  Walkable areas: " ++ toString c.walkableAreas ++ ", park and ride areas: "
      ++ toString c.parkAndRideAreas),
    .line .info ("  Anomalies: " ++ toString c.anomalies)]

def writeReport (o : Occasion) (path : String) (summary : Bool) (files : FileTree) (log : Log)
    (r : Report) : Answer :=
  let saved := Load.save o.stamp r path files
  match saved.failure with
  | some e => ⟨"", log ++ saved.log, saved.state, .error e⟩
  | none =>
    { output := if summary then r.counts.toJson.indented ++ "\n" else ""
      log := log ++ saved.log ++ closingLines path r.counts
      files := saved.state
      ending := .ok 0 }

/-- Print the findings of some kinds, or all if none is asked for.  A kind without a name is found late. -/
def printAnomalies (kinds : List (Option AnomalyKind)) (files : FileTree) (log : Log) (r : Report) :
    Answer :=
  if kinds.contains none then ⟨"", log, files, .error .emptyKind⟩
  else
    let shown := r.anomalies.filter fun a => kinds.isEmpty || kinds.contains (some a.kind)
    ⟨String.join (shown.map fun a => a.toJson.compact ++ "\n"), log, files, .ok 0⟩

def withReport [Limits] [Geometry] (c : Settings) (sources : List String) (files : FileTree)
    (f : Log → Report → Answer) : Answer :=
  let loaded := Load.run c files sources
  match loaded.result with
  | .ok r => f loaded.log r
  | .error e => failed files loaded.log e

def perform [Limits] [Geometry] (o : Occasion) (files : FileTree) : Command → Answer
  | .load sources settings output summary =>
    match sources.filter fun p => !files.hasEntry p with
    | [] => withReport settings sources files
        (writeReport o (output.getD o.defaultOutput) summary files)
    | missing => refused files [] ("Input file not found: " ++ String.intercalate ", " missing)
  | .anomalies sources settings kinds =>
    withReport settings sources files (printAnomalies kinds files)

def usage : String := "usage: streetmap [-h] [-v] \x7bload,anomalies\x7d ...\n"

def Answer.shown (verbose : Bool) (a : Answer) : Answer :=
  { a with log := a.log.filter fun n => verbose || n.severity ≠ .debug }

def run [Limits] [Geometry] (o : Occasion) (files : FileTree) (args : List String) : Answer :=
  match Invocation.ofArguments args with
  | .error .help => ⟨usage, [], files, .ok 0⟩
  | .error .misuse => ⟨"", [], files, .ok 2⟩
  | .ok ⟨_, none⟩ => ⟨usage, [], files, .ok 1⟩
  | .ok ⟨verbose, some command⟩ => (perform o files command).shown verbose

end Command

end StreetMap
