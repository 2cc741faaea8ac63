import Spreadsheet.Function.Basic

/-!
Functions that tell what a value is. Blanks and errors reach them as they are.
-/

namespace Spreadsheet.Information

/-- Tests the argument, an array by its top left element. -/
def test (p : Value → Bool) (args : List Argument) : Result Value := do
  return .boolean (p (← valueAt args 0).scalar)

def isLogical : Value → Bool
  | .boolean _ => true
  | _ => false

def isNumber : Value → Bool
  | .number _ => true
  | _ => false

def isText : Value → Bool
  | .text _ => true
  | _ => false

def isNotAvailable (v : Value) : Bool := v.error? == some .notAvailable

/-- Whether the argument is a reference. -/
def isRef (args : List Argument) : Result Value := do
  let a ← orError .value args.head?
  return .boolean a.reference.isSome

/-- The number of a kind of value. -/
def typeNumber : Value → Nat
  | .number _ | .empty => 1
  | .text _ => 2
  | .boolean _ => 4
  | .error _ => 16
  | .array _ | .reference _ => 64

/-- The kind of the argument. A reference to at most one cell has the kind of the cell. -/
def type (args : List Argument) : Result Float := do
  let a ← orError .value args.head?
  let asArray :=
    match a.value with
    | .array rows => a.reference.isNone || 1 < rows.flatten.length
    | _ => false
  return Float.ofNat (if asArray then 64 else typeNumber a.value.scalar)

def errorType (args : List Argument) : Result Float := do
  match (← valueAt args 0).scalar.error? with
  | some e => return Float.ofNat e.typeNumber
  | none => throw .notAvailable

def functions : List Function := [
  .ofValues "ISBLANK" .information 1 (some 1) (test Value.isEmpty),
  .ofValues "ISERR" .information 1 (some 1) (test fun v => v.isError && !isNotAvailable v),
  .ofValues "ISERROR" .information 1 (some 1) (test Value.isError),
  .ofValues "ISLOGICAL" .information 1 (some 1) (test isLogical),
  .ofValues "ISNA" .information 1 (some 1) (test isNotAvailable),
  .ofValues "ISNONTEXT" .information 1 (some 1) (test (!isText ·)),
  .ofValues "ISNUMBER" .information 1 (some 1) (test isNumber),
  .ofValues "ISREF" .information 1 (some 1) isRef,
  .ofValues "ISTEXT" .information 1 (some 1) (test isText),
  .ofValues "NA" .information 0 (some 0) fun _ => .error .notAvailable,
  .ofNumbers "TYPE" .information 1 (some 1) type,
  .ofNumbers "ERROR.TYPE" .information 1 (some 1) errorType]

end Spreadsheet.Information
