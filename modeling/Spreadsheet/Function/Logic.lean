import Spreadsheet.Function.Basic

/-!
Logical functions.
-/

namespace Spreadsheet.Logic

/-- What an element of an array adds to the truth values; text and blanks are passed over. -/
def truthOfElement : Value → Result (List Bool)
  | .boolean b => .ok [b]
  | .number x => .ok [x != 0]
  | .error e => .error e
  | _ => .ok []

/-- What an argument adds to the truth values. Text must spell one if it is written in the call, and
is passed over elsewhere. -/
def truthOf (a : Argument) : Result (List Bool) :=
  if a.omitted then .ok []
  else
    match a.value, a.literal with
    | .array rows, _ => List.flatten <$> rows.flatten.mapM truthOfElement
    | .text _, false | .empty, _ => .ok []
    | v, _ => (fun b => [b]) <$> v.toBoolean

/-- The truth values of all arguments, at least one. -/
def truths (args : List Argument) : Result (List Bool) := do
  let bs := (← args.mapM truthOf).flatten
  if bs.isEmpty then throw .value
  return bs

def and (args : List Argument) : Result Value := do return .boolean ((← truths args).all id)

def or (args : List Argument) : Result Value := do return .boolean ((← truths args).any id)

/-- Whether an odd number of arguments are true. -/
def xor (args : List Argument) : Result Value := do
  return .boolean ((← truths args).count true % 2 == 1)

def not (args : List Argument) : Result Value := do
  return .boolean !(← (← valueAt args 0).toBoolean)

/-- The branch that the condition picks; false if there is none. -/
def choose (args : List Argument) : Result Value := do
  if ← (← valueAt args 0).toBoolean then valueAt args 1
  else return (args[2]?.map Argument.value).getD (.boolean false)

/-- The first argument, or the second if the first is an error that `caught` takes. -/
def orElse (caught : ErrorValue → Bool) (args : List Argument) : Result Value := do
  let v ← valueAt args 0
  if v.scalar.error?.any caught then valueAt args 1 else return v

def functions : List Function := [
  .ofValues "AND" .logical 1 none and,
  .ofValues "OR" .logical 1 none or,
  .ofValues "XOR" .logical 1 none xor,
  .ofValues "NOT" .logical 1 (some 1) not,
  .ofValues "TRUE" .logical 0 (some 0) fun _ => .ok (.boolean true),
  .ofValues "FALSE" .logical 0 (some 0) fun _ => .ok (.boolean false),
  (Function.ofValues "IF" .logical 2 (some 3) choose).acceptingErrors,
  (Function.ofValues "IFERROR" .logical 2 (some 2) (orElse fun _ => true)).acceptingErrors,
  (Function.ofValues "IFNA" .logical 2 (some 2) (orElse (· == .notAvailable))).acceptingErrors]

end Spreadsheet.Logic
