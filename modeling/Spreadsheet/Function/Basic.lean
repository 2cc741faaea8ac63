import Spreadsheet.Query

/-!
Functions that formulas call, and their arguments.
-/

namespace Spreadsheet

/-- The kind of a function, which decides what blank arguments become. -/
inductive Category
  | math
  | trig
  | logical
  | engineering
  | reference
  | text
  | statistical
  | information
  | custom
deriving DecidableEq, Repr

namespace Category

/-- What an empty slot or the blank of a single cell becomes as an argument. -/
def nullValue : Category → Value
  | math | trig | logical | engineering | reference => .number 0
  | text | statistical | information | custom => .text ""

/-- Information functions see blanks as they are, and the reference that an argument came from. -/
def preservesReference (c : Category) : Bool := c == information

end Category

/-- The cell that a formula stands in. -/
structure Position where
  row : Nat
  col : Nat
deriving DecidableEq, Repr

/-- The value of an argument, and where it came from. -/
structure Argument where
  value : Value
  reference : Option Reference
  /-- The slot was left empty, as in `F(1,,3)`. -/
  omitted : Bool
  /-- The value was not read through a reference. -/
  literal : Bool

namespace Argument

def isArray (a : Argument) : Bool :=
  match a.value with
  | .array _ => true
  | _ => false

/-- The argument of an empty slot. -/
def ofOmitted (c : Category) : Argument := ⟨c.nullValue, none, true, true⟩

/-- The argument that is a value of its own. -/
def ofValue (v : Value) : Argument := ⟨v, none, false, true⟩

/-- The argument that a reference was read for. -/
def ofRead (c : Category) (r : Reference) (v : Value) : Argument :=
  { value := if v.isEmpty && !c.preservesReference then c.nullValue else v
    reference := if c.preservesReference then some r else none
    omitted := false
    literal := false }

end Argument

/-- An argument of a call before it is read: an empty slot, or a query for a value that may be a
reference. -/
inductive Operand
  | omitted
  | given (query : Query Value)

/-- The value of an operand, a blank for an empty slot. -/
def Operand.query : Operand → Query Value
  | omitted => .done .empty
  | given q => q

/-- How a function computes: from the values of its arguments, or from its operands, which it reads
as it needs them. -/
inductive Body
  | values (f : Option Position → List Argument → Result Value)
  | operands (f : Option Position → List Operand → Query (Result Value))

structure Function where
  /-- The name in capitals. -/
  name : String
  category : Category
  minArgs : Nat
  /-- No bound if absent. -/
  maxArgs : Option Nat
  body : Body
  /-- Errors reach the function as arguments instead of ending the call. -/
  acceptsErrors : Bool

namespace Function

/-- A function of the values of its arguments. -/
def ofValues (name : String) (category : Category) (minArgs : Nat) (maxArgs : Option Nat)
    (f : List Argument → Result Value) : Function :=
  { name, category, minArgs, maxArgs
    body := .values fun _ => f
    acceptsErrors := category == .information }

def ofNumbers (name : String) (category : Category) (minArgs : Nat) (maxArgs : Option Nat)
    (f : List Argument → Result Float) : Function :=
  ofValues name category minArgs maxArgs fun args => .number <$> f args

/-- A function that reads its operands itself. -/
def ofOperands (name : String) (category : Category) (minArgs : Nat) (maxArgs : Option Nat)
    (f : Option Position → List Operand → Query (Result Value)) : Function :=
  { name, category, minArgs, maxArgs, body := .operands f, acceptsErrors := true }

def acceptingErrors (f : Function) : Function := { f with acceptsErrors := true }

def needsOperands (f : Function) : Bool :=
  match f.body with
  | .values _ => false
  | .operands _ => true

/-- Whether a call may have `n` arguments. -/
def acceptsCount (f : Function) (n : Nat) : Bool := f.minArgs ≤ n && f.maxArgs.all (n ≤ ·)

/-- The arguments of a call, read from left to right. -/
def readOperands (category : Category) : List Operand → Query (List Argument)
  | [] => .done []
  | .omitted :: rest => do return .ofOmitted category :: (← readOperands category rest)
  | .given q :: rest => do
    let arg ← match ← q with
      | .reference r => .ofRead category r <$> r.read
      | v => .done (.ofValue v)
    return arg :: (← readOperands category rest)

/-- The error that ends a call before the function sees its arguments. -/
def blockingError? (f : Function) (args : List Argument) : Option ErrorValue :=
  if f.acceptsErrors then none else args.findSome? fun a => a.value.error?

/-- A function on its arguments. -/
def onArguments (f : Function) (g : List Argument → Result Value) (args : List Argument) : Value :=
  match f.blockingError? args with
  | some e => .error e
  | none => .ofResult (g args)

/-- The value of a call; a number that is not finite becomes an error. -/
def close : Value → Value
  | .number x => if x.isFinite then .number x else .error .num
  | v => v

/-- Calls a function with as many operands as it accepts. -/
def call (f : Function) (position : Option Position) (operands : List Operand) : Query Value :=
  if f.acceptsCount operands.length then
    match f.body with
    | .operands g => do return close (.ofResult (← g position operands))
    | .values g => do
      let args ← readOperands f.category operands
      return close (f.onArguments (g position) args)
  else .done (.error .value)

end Function

/-! ### Arguments by index -/

/-- The argument at an index; a missing one is an error. -/
def valueAt (args : List Argument) (i : Nat) : Result Value :=
  match args[i]? with
  | some a => .ok a.value
  | none => .error .value

/-- The argument at an index, unless it is absent or its slot is empty. -/
def givenAt? (args : List Argument) (i : Nat) : Option Value :=
  (args[i]?.filter fun a => !a.omitted).map Argument.value

def numberAt (args : List Argument) (i : Nat) : Result Float := do (← valueAt args i).toNumber

def textAt (args : List Argument) (i : Nat) : Result String := do (← valueAt args i).toText

/-- The number at an index, or `default` if none is given. -/
def numberAtOr (args : List Argument) (i : Nat) (default : Float) : Result Float :=
  match givenAt? args i with
  | some v => v.toNumber
  | none => .ok default

/-! ### All arguments -/

/-- The values of the arguments with arrays expanded row by row, each with whether it is written in
the call itself. -/
def expandedValues (args : List Argument) : List (Value × Bool) :=
  args.flatMap fun a =>
    match a.value with
    | .array rows => rows.flatten.map fun v => (v, false)
    | v => [(v, a.literal)]

/-- What a value adds to the numbers of an aggregate: text and booleans count if they are written in
the call, and are passed over elsewhere. -/
def aggregated : Value × Bool → Result (Option Float)
  | (.number x, _) => .ok (some x)
  | (.error e, _) => .error e
  | (.boolean b, true) => .ok (some (if b then 1 else 0))
  | (.text s, true) =>
    match Number.read? s with
    | some x => .ok (some x)
    | none => .error .value
  | _ => .ok none

/-- The numbers that an aggregate function sees. -/
def aggregatedNumbers (args : List Argument) : Result (List Float) := do
  return (← (expandedValues args).mapM aggregated).filterMap id

end Spreadsheet
