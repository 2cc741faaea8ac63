import Spreadsheet.Value.Basic

/-!
The order of values that comparison operators, criteria and lookups share: numbers before texts
before booleans, texts by their lower case, and a blank as the zero of the other side.
-/

namespace Spreadsheet

/-- Lexicographic order by code point. -/
def compareText : List Char → List Char → Ordering
  | [], [] => .eq
  | [], _ :: _ => .lt
  | _ :: _, [] => .gt
  | a :: as, b :: bs => (compare a.toNat b.toNat).then (compareText as bs)

/-- The order of numbers; NaN counts as equal to any. -/
def compareNumbers (x y : Float) : Ordering := if x < y then .lt else if y < x then .gt else .eq

def compareBooleans (a b : Bool) : Ordering := compare a.toNat b.toNat

namespace Value

def rank : Value → Nat
  | number _ => 0
  | text _ => 1
  | boolean _ => 2
  | _ => 3

/-- What a blank counts as beside a value. -/
def zeroLike : Value → Value
  | text _ => text ""
  | boolean _ => boolean false
  | _ => number 0

/-- The order of values that are neither arrays nor blank. -/
def compareScalars : Value → Value → Ordering
  | number x, number y => compareNumbers x y
  | text s, text t => compareText (Unicode.lower s.toList) (Unicode.lower t.toList)
  | boolean a, boolean b => compareBooleans a b
  | v, w => compare v.rank w.rank

/-- The order of any two values; an array counts as its top left element. -/
def order (v w : Value) : Ordering :=
  match v.scalar, w.scalar with
  | empty, empty => .eq
  | empty, w => compareScalars w.zeroLike w
  | v, empty => compareScalars v v.zeroLike
  | v, w => compareScalars v w

/-- Two numbers, two texts or two booleans. -/
def sameKind : Value → Value → Bool
  | number _, number _ | text _, text _ | boolean _, boolean _ => true
  | _, _ => false

end Value

end Spreadsheet
