import Spreadsheet.Diagnostic
import Spreadsheet.Eval

/-!
An engine evaluates formulas in one environment: functions, defined names and a source of cells. Its
only memory is the values of names and the log of unknown functions that formulas called.
-/

namespace Spreadsheet

structure Engine where
  functions : Registry
  names : Names
  source : Source
  /-- Unknown functions in the order of their first call, each once. -/
  log : List String

/-- Why a formula has no result. -/
inductive EngineFailure
  | malformed (diagnostic : Diagnostic)
  /-- A cell or range could not be read. -/
  | access (message : String)

/-- Reads every cell as 0, and every range as a single 0. -/
def Source.zero : Source := ⟨fun _ => .ok (.number 0), fun _ => .ok [[.number 0]]⟩

/-- Adds the names that are not in the log. -/
def addNew (log names : List String) : List String :=
  names.foldl (fun log name => if log.contains name then log else log ++ [name]) log

namespace Engine

/-- An engine with the built-in functions and those given, later ones in the place of
earlier ones. -/
def new (source : Source) (names : List (String × Value)) (functions : List Function) : Engine :=
  { functions := functions.foldl Registry.register builtins
    names := names.foldl (fun ns (name, v) => ns.set name v) []
    source
    log := [] }

def scope (engine : Engine) (position : Option Position) : Scope :=
  ⟨engine.functions, engine.names, position⟩

def read (text : String) : Except EngineFailure Expr :=
  (parseFormula text).mapError fun e => .malformed (.of text e)

/-- Evaluates a formula. Unknown functions are logged also if reading fails after their call. -/
def evaluate (engine : Engine) (e : Expr) (position : Option Position) :
    Except EngineFailure Value × Engine :=
  let (outcome, unknown) := (formulaResult (engine.scope position) e).run engine.source
  (outcome.mapError .access, { engine with log := addNew engine.log unknown })

/-- Reads a text as a formula and evaluates it. -/
def calculate (engine : Engine) (text : String) (position : Option Position) :
    Except EngineFailure Value × Engine :=
  match read text with
  | .ok e => engine.evaluate e position
  | .error e => (.error e, engine)

/-- The references that a formula writes down. -/
def references (text : String) : Except EngineFailure (List Reference) :=
  (read text).map Expr.references

def setName (engine : Engine) (name : String) (v : Value) : Engine :=
  { engine with names := engine.names.set name v }

def clearLog (engine : Engine) : Engine := { engine with log := [] }

end Engine

/-- The explanation of a result, empty if it needs none. -/
def Value.detail (v : Value) : String := (v.error?.map ErrorValue.detail).getD ""

end Spreadsheet
