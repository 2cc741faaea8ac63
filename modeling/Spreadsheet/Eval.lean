import Spreadsheet.Function.Registry

/-!
Evaluation of formulas. An expression becomes a query for its value; references stay references
until an operator or a function needs what they hold. Spreadsheet errors are values.
-/

namespace Spreadsheet

def upperName (name : String) : String := String.ofList (Unicode.upper name.toList)

/-- Values of defined names, which are kept in capitals. -/
abbrev Names := List (String × Value)

namespace Names

def find? (names : Names) (name : String) : Option Value := names.lookup (upperName name)

def set (names : Names) (name : String) (v : Value) : Names := (upperName name, v) :: names

end Names

/-- What an expression means something in. -/
structure Scope where
  functions : Registry
  names : Names
  position : Option Position

def Literal.toValue : Literal → Value
  | .number x => .number x
  | .text s => .text s
  | .boolean b => .boolean b
  | .error e => .error e

/-- The references that a part of a union stands for. -/
def Value.toReferences : Value → Result (List Reference)
  | .reference (.union parts) => .ok parts
  | .reference r => .ok [r]
  | .error e => .error e
  | _ => .error .value

/-- The sheet that two references share, where one without a sheet takes that of the other. -/
def sharedSheet (a b : Option String) : Result (Option String) :=
  match a, b with
  | some s, some t => if Unicode.sameAscii s t then .ok a else .error .ref
  | none, _ => .ok b
  | _, none => .ok a

/-- A reference to an area, to a cell if it has only one. -/
def Reference.ofArea (sheet : Option String) (area : Range) : Reference :=
  if area.isSingleCell then .cell ⟨sheet, area.topLeft⟩ else .range ⟨sheet, area⟩

/-- The area that an operator makes of two areas: the cells they share, or the smallest range around
both. -/
def ReferenceOp.areaOf : ReferenceOp → Range → Range → Result Range
  | .intersect, a, b => orError .null (a.intersect? b)
  | .range, a, b => .ok (a.bounds b)

/-- An operator on two references; unions have no area. -/
def ReferenceOp.join (op : ReferenceOp) (r s : Reference) : Result Reference := do
  let a ← orError .value r.area?
  let b ← orError .value s.area?
  let sheet ← sharedSheet r.sheet? s.sheet?
  return .ofArea sheet (← op.areaOf a b)

/-- An operator on two values that should be references. An error stays, the left before
the right. -/
def ReferenceOp.apply (op : ReferenceOp) : Value → Value → Value
  | .error e, _ | _, .error e => .error e
  | .reference r, .reference s => .ofResult (.reference <$> op.join r s)
  | _, _ => .error .value

/-- Calls a function by name. An unknown one is noted, and its call is 0 whatever its operands. -/
def Scope.call (scope : Scope) (name : String) (operands : List Operand) : Query Value :=
  match scope.functions.find? name with
  | some f => f.call scope.position operands
  | none => .unknown (upperName name) (.done (.number 0))

def SignOp.apply : SignOp → Value → Value
  | .plus, v => v
  | .negate, v => v.mapNumbers fun x => -x

mutual

/-- The value of an expression; references are not read. -/
def evaluate (scope : Scope) : Expr → Query Value
  | .literal l => .done l.toValue
  | .array rows => .done (.array (rows.map fun row => row.map Literal.toValue))
  | .cell ref => .done (.reference (.cell ref))
  | .range ref => .done (.reference (.range ref))
  | .union parts => do
    return .ofResult ((fun rs => .reference (.union rs)) <$> (← unionParts scope parts))
  | .name name => .done ((scope.names.find? name).getD (.error .name))
  | .sign op operand => do
    let v ← evaluate scope operand
    return op.apply (← v.read)
  | .percent operand => do
    let v ← evaluate scope operand
    return (← v.read).mapNumbers (· / 100)
  | .binary (.value op) left right => do
    let v ← evaluate scope left
    let v ← v.read
    let w ← evaluate scope right
    return op.apply v (← w.read)
  | .binary (.reference op) left right => do
    let v ← evaluate scope left
    return op.apply v (← evaluate scope right)
  | .call name args => scope.call name (operands scope args)
  | .omitted => .done .empty

/-- The arguments of a call, each as a query of its own. -/
def operands (scope : Scope) : List Expr → List Operand
  | [] => []
  | .omitted :: rest => .omitted :: operands scope rest
  | e :: rest => .given (evaluate scope e) :: operands scope rest

/-- The references of the parts of a union, up to the first part that is none. -/
def unionParts (scope : Scope) : List Expr → Query (Result (List Reference))
  | [] => .done (.ok [])
  | e :: rest => do
    match (← evaluate scope e).toReferences with
    | .ok rs => return (rs ++ ·) <$> (← unionParts scope rest)
    | .error e => return .error e

end

/-- The value that a formula shows. NaN and infinities are errors, a blank is 0, and booleans are
text. -/
def Value.shown : Value → Value
  | .number x =>
    if x.isNaN then .error .value
    else if x.isInf then .error .num
    else if x == 0 then .number 0
    else .number x
  | .boolean b => .text (booleanText b)
  | .empty => .number 0
  | v => v

/-- What the result of a formula stands for: a cell or a range of one cell is read, and other
references are errors. -/
def Value.readResult : Value → Query Value
  | .reference (.cell ref) => Query.readCell ref
  | .reference (.range ref) =>
    if ref.range.isSingleCell then do
      return Value.scalar (.array (← Query.readRange ref))
    else .done (.error .value)
  | .reference (.union _) => .done (.error .value)
  | v => .done v

/-- The result of a formula. -/
def formulaResult (scope : Scope) (e : Expr) : Query Value := do
  let v ← evaluate scope e
  return (← v.readResult).scalar.shown

end Spreadsheet
