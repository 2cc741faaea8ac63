import Spreadsheet.Engine
import Spreadsheet.Grid
import Spreadsheet.Json.Parser
import Spreadsheet.SharedFormula

/-!
The command line: evaluating a formula, expanding a shared formula, and listing references.
-/

namespace Spreadsheet.CommandLine

/-! ### Arguments -/

inductive Command
  | eval
  | shared
  | refs
deriving DecidableEq, Repr

inductive Flag
  | grid
  | row
  | col
  | define
  | rows
  | cols
deriving DecidableEq, Repr

def Command.ofName? : String → Option Command
  | "eval" => some eval
  | "shared" => some shared
  | "refs" => some refs
  | _ => none

/-- The option with a long name, of those that a command has. -/
def Command.longFlag? : Command → String → Option Flag
  | eval, "grid" => some .grid
  | eval, "row" => some .row
  | eval, "col" => some .col
  | eval, "define" => some .define
  | shared, "rows" => some .rows
  | shared, "cols" => some .cols
  | _, _ => none

def Command.shortFlag? : Command → Char → Option Flag
  | eval, 'g' => some .grid
  | eval, 'D' => some .define
  | _, _ => none

/-- The value of an option may begin with a hyphen. -/
def Flag.allowsHyphen : Flag → Bool
  | rows | cols => true
  | _ => false

/-- An argument as it is meant. -/
inductive Item
  | operand (text : String)
  | option (flag : Flag) (value : String)
  | verbose
deriving DecidableEq

/-- Whether an argument can only be an option; a lone hyphen is none. -/
def looksLikeOption (arg : String) : Bool := arg.startsWith "-" && arg != "-"

/-- The meaning of letters after one hyphen. An option takes the rest as its value, or else the next
argument. -/
def shortItems (command : Command) : List Char → Option (List Item × Option Flag)
  | [] => some ([], none)
  | 'v' :: rest => do
    let (more, pending) ← shortItems command rest
    return (.verbose :: more, pending)
  | c :: rest => do
    let flag ← command.shortFlag? c
    match rest with
    | [] => return ([], some flag)
    | '=' :: value => return ([.option flag (String.ofList value)], none)
    | value => return ([.option flag (String.ofList value)], none)

/-- The meaning of an argument that begins with two hyphens. -/
def longItems (command : Command) (name : List Char) : Option (List Item × Option Flag) :=
  match name.span (· != '=') with
  | (name, '=' :: value) => do
    let flag ← command.longFlag? (String.ofList name)
    return ([.option flag (String.ofList value)], none)
  | (name, _) =>
    if String.ofList name == "verbose" then some ([.verbose], none)
    else (command.longFlag? (String.ofList name)).map fun flag => ([], some flag)

/-- The meaning of the arguments of a command. `pending` is an option that waits for its value. -/
def itemsOf (command : Command) : (pending : Option Flag) → List String → Option (List Item)
  | some _, [] => none
  | none, [] => some []
  | some flag, arg :: rest =>
    if looksLikeOption arg && !flag.allowsHyphen then none
    else (itemsOf command none rest).map (.option flag arg :: ·)
  | none, arg :: rest =>
    if arg == "--" then some (rest.map .operand)
    else if !looksLikeOption arg then (itemsOf command none rest).map (.operand arg :: ·)
    else do
      let (here, pending) ←
        match arg.toList with
        | '-' :: '-' :: name => longItems command name
        | _ => shortItems command arg.toList.tail
      return here ++ (← itemsOf command pending rest)

def operandsOf (items : List Item) : List String :=
  items.filterMap fun | .operand s => some s | _ => none

def valuesOf (flag : Flag) (items : List Item) : List String :=
  items.filterMap fun | .option f v => if f = flag then some v else none | _ => none

/-- The value of an option that may stand at most once. -/
def atMostOnce (values : List α) : Option (Option α) :=
  match values with
  | [] => some none
  | [v] => some (some v)
  | _ => none

/-- Reads a whole number with an optional sign. -/
def integer? (s : String) : Option Int :=
  let (negative, cs) := Number.takeSign s.toList
  if cs.isEmpty || !cs.all Char.isDigit then none
  else
    let n : Int := Number.digitsValue cs
    some (if negative then -n else n)

/-- Reads a whole number between two bounds. -/
def integerWithin? (low high : Int) (s : String) : Option Int :=
  (integer? s).filter fun n => low ≤ n && n ≤ high

/-- A row or column of the command line, a word of 32 bits. -/
def index? (s : String) : Option Nat := (integerWithin? 0 4294967295 s).map Int.toNat

/-- An offset of the command line, a signed word of 64 bits. -/
def offset? : String → Option Int := integerWithin? (-9223372036854775808) 9223372036854775807

/-- What the arguments ask for. -/
inductive Request
  | eval (formula : String) (grid : Option String) (position : Option Position)
    (definitions : List String)
  | shared (formula : String) (rows cols : Int)
  | refs (formula : String)

/-- The position, whose row and column go together. -/
def position? (items : List Item) : Option (Option Position) := do
  match ← atMostOnce (valuesOf .row items), ← atMostOnce (valuesOf .col items) with
  | none, none => return none
  | some row, some col => return some ⟨← index? row, ← index? col⟩
  | _, _ => none

/-- An offset, 0 if none is given. -/
def offsetOf? (flag : Flag) (items : List Item) : Option Int := do
  match ← atMostOnce (valuesOf flag items) with
  | none => return 0
  | some s => offset? s

/-- The request of a command with its arguments. -/
def Command.request? (command : Command) (items : List Item) : Option Request := do
  let [formula] := operandsOf items | none
  let _ ← atMostOnce (items.filter (· = .verbose))
  match command with
  | eval =>
    let grid ← atMostOnce (valuesOf .grid items)
    if grid = some "" then none
    return .eval formula grid (← position? items) (valuesOf .define items)
  | shared => return .shared formula (← offsetOf? .rows items) (← offsetOf? .cols items)
  | refs => return .refs formula

def isVerbose (arg : String) : Bool := arg == "-v" || arg == "--verbose"

/-- The request of the arguments; none if they are not used as they should be. -/
def request? (args : List String) : Option Request := do
  match if args.head?.any isVerbose then args.tail else args with
  | name :: rest =>
    let command ← Command.ofName? name
    command.request? (← itemsOf command none rest)
  | [] => none

/-- The file that a request reads. -/
def Request.file? : Request → Option String
  | .eval _ grid _ _ => grid
  | _ => none

/-! ### Running -/

structure Outcome where
  code : Nat
  stdout : String
  stderr : String
deriving DecidableEq, Repr

namespace Outcome

def lines (ls : List String) : String := String.join (ls.map (· ++ "\n"))

def success (out err : List String) : Outcome := ⟨0, lines out, lines err⟩

/-- Indents the lines of a text after the first. -/
def hang (indent : String) (s : String) : String :=
  String.intercalate ("\n" ++ indent) ((Spreadsheet.lines s.toList).map String.ofList)

/-- A failure with its causes, which are numbered if there are several. -/
def failure (top : String) (causes : List String) : Outcome :=
  let shown :=
    match causes with
    | [] => []
    | [cause] => ["", "Caused by:", "    " ++ hang "    " cause]
    | _ => "" :: "Caused by:" ::
      causes.zipIdx.map fun (cause, i) => s!"    {i}: " ++ hang "       " cause
  ⟨1, "", lines (("Error: " ++ top) :: shown)⟩

/-- A failure to read a formula. -/
def malformed (d : Diagnostic) : Outcome := ⟨1, "", lines [d.render]⟩

end Outcome

/-- The value that a definition gives: a boolean, a number or a text. -/
def definedValue (s : String) : Value := Criterion.operandOf s

/-- The name and value of a definition `NAME=VALUE`. -/
def definition? (s : String) : Option (String × Value) :=
  match s.toList.span (· != '=') with
  | (name, '=' :: value) =>
    some (String.ofList (Unicode.trim name), definedValue (String.ofList value))
  | _ => none

/-- The source of cells in the text of a grid file. -/
def sourceOf (path : String) (text : String) : Except Outcome Source := do
  let fail (causes : List String) : Outcome := .failure s!"Invalid grid '{path}'" causes
  let json ← (Json.parse text).mapError fun e => fail [e.message]
  let grid ← (Grid.ofJson json).mapError fun e => fail e.messages
  return grid.source

/-- The source of cells of a request; `read` gives the text of a file or tells why it cannot. -/
def source (read : String → Except String String) : Option String → Except Outcome Source
  | none => .ok .zero
  | some path =>
    match read path with
    | .ok text => sourceOf path text
    | .error cause => .error (.failure s!"Failed to read grid '{path}'" [cause])

def definitionsOf (definitions : List String) : Except Outcome (List (String × Value)) :=
  definitions.mapM fun s =>
    match definition? s with
    | some d => .ok d
    | none => .error (.failure s!"Invalid definition '{s}'. Expected NAME=VALUE" [])

def evalOutcome (source : Source) (names : List (String × Value)) (formula : String)
    (position : Option Position) : Outcome :=
  match (Engine.new source names []).calculate formula position with
  | (.ok v, engine) =>
    let unknown :=
      if engine.log.isEmpty then []
      else ["Unknown functions: " ++ String.intercalate ", " engine.log]
    .success [v.display] ((if v.detail.isEmpty then [] else [v.detail]) ++ unknown)
  | (.error (.malformed d), _) => .malformed d
  | (.error (.access message), _) => .failure "Evaluation failed" [message]

/-- The outcome of a request. -/
def Request.run (read : String → Except String String) : Request → Outcome
  | .eval formula grid position definitions =>
    let outcome : Except Outcome Outcome := do
      let source ← source read grid
      return evalOutcome source (← definitionsOf definitions) formula position
    match outcome with
    | .ok o | .error o => o
  | .shared formula rows cols => .success [SharedFormula.expand formula rows cols] []
  | .refs formula =>
    match Engine.references formula with
    | .ok rs => .success (rs.map Reference.toText) []
    | .error (.malformed d) => .malformed d
    | .error (.access message) => .failure message []

end Spreadsheet.CommandLine
