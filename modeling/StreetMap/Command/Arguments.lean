import StreetMap.Text.Digit
import StreetMap.Text.Pieces

/-!
Command-line arguments.  Options stand before or after the operands, long ones may be shortened as long
as their meaning is clear, and short ones may be joined.  After two dashes everything is an operand.
-/

namespace StreetMap.Command

inductive Effect
  | help | flag | value (choices : Option (List String))

structure Form where
  spellings : List String
  effect : Effect

abbrev Grammar := List Form

inductive Refusal
  | help | misuse
  deriving DecidableEq

/-- What stands in an argument after the spelling of an option, perhaps behind an equals sign.  After a
long spelling it is a value; joined to a short one it may also be more options. -/
inductive Attached
  | nothing | joined (cs : List Char) | value (cs : List Char)

inductive Reading
  | operand | dashes | unknown | option (form : Form) (attached : Attached)

structure Token where
  text : String
  reading : Reading

namespace Grammar

def find? (g : Grammar) (spelling : List Char) : Option Form :=
  List.find? (fun f => f.spellings.any (·.toList = spelling)) g

def startingWith (g : Grammar) (start : List Char) : List Form :=
  g.flatMap fun f => (f.spellings.filter fun s => start.isPrefixOf s.toList).map fun _ => f

def isLong (spelling : List Char) : Bool := ['-', '-'].isPrefixOf spelling

def cutValue (cs : List Char) : List Char × Attached :=
  match Text.cutAtFirst? '=' cs with
  | some (spelling, value) => (spelling, if isLong spelling then .value value else .joined value)
  | none => (cs, .nothing)

/-- The options that an argument may mean, if it spells none in full. -/
def candidates (g : Grammar) : List Char → List Reading
  | '-' :: '-' :: cs =>
    let (spelling, attached) := cutValue ('-' :: '-' :: cs)
    (g.startingWith spelling).map fun f => .option f attached
  | '-' :: c :: cs => (g.find? ['-', c]).toList.map fun f => .option f (.joined cs)
  | _ => []

def isDigit (c : Char) : Bool := (Text.digitValue? c).isSome

def dropLineEnd (cs : List Char) : List Char := if cs.getLast? = some '\n' then cs.dropLast else cs

def isNegative (cs : List Char) : Bool :=
  match dropLineEnd cs with
  | '-' :: ds =>
    match Text.cutAtFirst? '.' ds with
    | none => !ds.isEmpty && ds.all isDigit
    | some (whole, fraction) => whole.all isDigit && !fraction.isEmpty && fraction.all isDigit
  | _ => false

def readUnspelled (g : Grammar) (cs : List Char) : Except Refusal Reading :=
  match g.candidates cs with
  | [r] => .ok r
  | _ :: _ :: _ => .error .misuse
  | [] => .ok (if isNegative cs || cs.contains ' ' then .operand else .unknown)

def readOption (g : Grammar) (cs : List Char) : Except Refusal Reading :=
  match g.find? cs with
  | some f => .ok (.option f .nothing)
  | none =>
    match g.find? (cutValue cs).1 with
    | some f => .ok (.option f (cutValue cs).2)
    | none => g.readUnspelled cs

def readArgument (g : Grammar) (arg : String) : Except Refusal Reading :=
  match arg.toList with
  | '-' :: c :: cs => g.readOption ('-' :: c :: cs)
  | _ => .ok .operand

def tokens (g : Grammar) : List String → Except Refusal (List Token)
  | [] => .ok []
  | arg :: args =>
    if arg = "--" then .ok (⟨arg, .dashes⟩ :: args.map fun a => ⟨a, .operand⟩)
    else do return ⟨arg, ← g.readArgument arg⟩ :: (← g.tokens args)

end Grammar

structure Expansion where
  given : List (Form × String)
  wanting : Option Form

namespace Form

def alone (f : Form) : Expansion :=
  match f.effect with
  | .value _ => ⟨[], some f⟩
  | _ => ⟨[(f, "")], none⟩

def withValue (f : Form) (cs : List Char) : Except Refusal Expansion :=
  match f.effect with
  | .value _ => .ok ⟨[(f, String.ofList cs)], none⟩
  | _ => .error .misuse

end Form

namespace Grammar

/-- Options joined to one another, each by its letter.  The first that takes a value takes what is left
of the argument or, if nothing is, the next argument. -/
def joined (g : Grammar) (f : Form) : List Char → Except Refusal Expansion
  | [] => f.withValue []
  | c :: cs =>
    match f.effect, g.find? ['-', c] with
    | .value _, _ => f.withValue (c :: cs)
    | _, none => .error .misuse
    | _, some f' => do
      let rest ← if cs.isEmpty then .ok f'.alone else g.joined f' cs
      return { rest with given := (f, "") :: rest.given }

def expand (g : Grammar) (f : Form) : Attached → Except Refusal Expansion
  | .nothing => .ok f.alone
  | .joined cs => g.joined f cs
  | .value cs => f.withValue cs

end Grammar

structure Parsed where
  options : List (String × Option String)
  operands : List String
  strays : List String

namespace Parsed

def empty : Parsed := ⟨[], [], []⟩

def stray (p : Parsed) (text : String) : Parsed := { p with strays := p.strays ++ [text] }

def operand (p : Parsed) (text : String) : Parsed := { p with operands := p.operands ++ [text] }

def take (p : Parsed) (f : Form) (value : String) : Except Refusal Parsed :=
  let held := if value = "--" then none else some value
  let p : Parsed := { p with options := p.options ++ [(f.spellings.headD "", held)] }
  match f.effect, held with
  | .help, _ => .error .help
  | .value (some choices), some value => if choices.contains value then .ok p else .error .misuse
  | _, _ => .ok p

def takeAll (p : Parsed) (e : Expansion) (next : List (Form × String)) : Except Refusal Parsed :=
  (e.given ++ next).foldlM (fun p (f, value) => p.take f value) p

def has (p : Parsed) (spelling : String) : Bool := p.options.any (·.1 = spelling)

def values (p : Parsed) (spelling : String) : List (Option String) :=
  (p.options.filter (·.1 = spelling)).map Prod.snd

end Parsed

inductive Stage
  | before | within | after

def Stage.leave : Stage → Stage
  | .before => .before
  | _ => .after

namespace Grammar

def parseFrom (g : Grammar) : Stage → List Token → Parsed → Except Refusal Parsed
  | _, [], p => .ok p
  | .before, ⟨text, .dashes⟩ :: t :: ts, p =>
    match t.reading with
    | .operand => g.parseFrom .within (t :: ts) p
    | _ => g.parseFrom .before (t :: ts) (p.stray text)
  | .within, ⟨_, .dashes⟩ :: ts, p => g.parseFrom .within ts p
  | stage, ⟨text, .dashes⟩ :: ts, p => g.parseFrom stage ts (p.stray text)
  | .after, ⟨text, .operand⟩ :: ts, p => g.parseFrom .after ts (p.stray text)
  | _, ⟨text, .operand⟩ :: ts, p => g.parseFrom .within ts (p.operand text)
  | stage, ⟨text, .unknown⟩ :: ts, p => g.parseFrom stage.leave ts (p.stray text)
  | stage, ⟨_, .option f attached⟩ :: ts, p => do
    let e ← g.expand f attached
    match e.wanting, ts with
    | none, ts => g.parseFrom stage.leave ts (← p.takeAll e [])
    | some f, ⟨value, .operand⟩ :: ts => g.parseFrom stage.leave ts (← p.takeAll e [(f, value)])
    | some _, _ => .error .misuse

def parseCommandFrom (g : Grammar) : List Token → Parsed → Except Refusal Parsed
  | [], p => .ok p
  | ⟨text, .operand⟩ :: ts, p => .ok { p with operands := text :: ts.map Token.text }
  | ⟨text, .dashes⟩ :: ts, p => if ts.isEmpty then .ok (p.stray text) else .error .misuse
  | ⟨text, .unknown⟩ :: ts, p => g.parseCommandFrom ts (p.stray text)
  | ⟨_, .option f attached⟩ :: ts, p => do
    let e ← g.expand f attached
    match e.wanting, ts with
    | none, ts => g.parseCommandFrom ts (← p.takeAll e [])
    | some f, ⟨value, .operand⟩ :: ts => g.parseCommandFrom ts (← p.takeAll e [(f, value)])
    | some _, _ => .error .misuse

def parse (g : Grammar) (args : List String) : Except Refusal Parsed := do
  g.parseFrom .before (← g.tokens args) .empty

def parseCommand (g : Grammar) (args : List String) : Except Refusal Parsed := do
  g.parseCommandFrom (← g.tokens args) .empty

end Grammar

end StreetMap.Command
