import Spreadsheet.Number.Shortest
import Spreadsheet.Unicode.Property

/-!
Numbers as text: writing with the shortest digits that read back, writing with a given number of
digits, and reading decimal numerals.
-/

namespace Spreadsheet.Number

/-! ### Writing -/

/-- Decimal digits without trailing zeros, with the exponent of the first. -/
structure Leading where
  digits : List Char
  exponent : Int

def Decimal.leading (d : Decimal) : Leading :=
  let digits := Nat.toDigits 10 d.digits
  { digits := (digits.reverse.dropWhile (· == '0')).reverse
    exponent := d.exponent + digits.length - 1 }

/-- Writes the digits around a decimal point; `whole` closes a number without a fraction. -/
def Leading.positional (whole : List Char) (d : Leading) : List Char :=
  if d.exponent < 0 then
    '0' :: '.' :: List.replicate (-d.exponent - 1).toNat '0' ++ d.digits
  else
    let places := d.exponent.toNat + 1
    if d.digits.length ≤ places then
      d.digits ++ List.replicate (places - d.digits.length) '0' ++ whole
    else d.digits.take places ++ '.' :: d.digits.drop places

/-- Writes one digit, the others after a point, and the exponent; `plus` stands before an exponent
that is not negative. -/
def Leading.scientific (plus : List Char) (d : Leading) : List Char :=
  let mark := if d.exponent < 0 then ['-'] else plus
  let rest := d.digits.drop 1
  d.digits.take 1 ++ (if rest.isEmpty then [] else '.' :: rest) ++
    'e' :: mark ++ Nat.toDigits 10 d.exponent.natAbs

/-- The decisions of a number format. -/
structure Style where
  /-- Leading exponents from `least` to `greatest` are written positionally. -/
  least : Int
  greatest : Int
  plus : List Char
  whole : List Char
  zero : Bool → List Char
  tie : Tie

/-- Numbers in cells: exponents outside `1e-6` to `1e21`, and one text for both zeros. -/
def cellStyle : Style := ⟨-6, 20, ['+'], [], fun _ => ['0'], .larger⟩

def Style.write (style : Style) (x : Float) : String :=
  String.ofList <|
    match x.toModel.unpack with
    | .notANumber => "NaN".toList
    | .infinity sign => mark sign ++ "inf".toList
    | .zero sign => style.zero (sign == .negative)
    | .finite sign m e _ =>
      let d := (shortest style.tie m e).leading
      mark sign ++
        if style.least ≤ d.exponent ∧ d.exponent ≤ style.greatest then d.positional style.whole
        else d.scientific style.plus
where
  mark (sign : Float.Model.UnpackedFloat.Sign) : List Char :=
    if sign == .negative then ['-'] else []

/-- The text of a number in a cell. -/
def format (x : Float) : String := cellStyle.write x

/-- The text of a finite number with `n` significant digits in scientific form; zero has one digit
and no exponent. -/
def formatSignificant (n : Nat) (x : Float) : String :=
  match x.toModel.unpack with
  | .finite sign m e _ =>
    let d := significant n (m * Nat.pow 2 e.toNat) (Nat.pow 2 (-e).toNat)
    let digits := Nat.toDigits 10 d.digits
    String.ofList <|
      (if sign == .negative then ['-'] else []) ++
        Leading.scientific [] ⟨digits, d.exponent + digits.length - 1⟩
  | _ => format x

/-! ### Reading -/

def digitsValue (cs : List Char) : Nat := cs.foldl (fun n c => 10 * n + (c.toNat - '0'.toNat)) 0

/-- A decimal numeral: digits before and after the point, and the exponent. -/
structure Numeral where
  whole : List Char
  fraction : List Char
  exponent : Int

/-- Numerals from `10 ^ 400` on are infinite, and those below `10 ^ -400` are zero. -/
def exponentBound : Int := 400

/-- The number nearest to a numeral. -/
def Numeral.toFloat (n : Numeral) : Float :=
  let digits := digitsValue (n.whole ++ n.fraction)
  let exponent := n.exponent - n.fraction.length
  let size := exponent + digitCount digits
  if digits = 0 ∨ size < -exponentBound then 0
  else if exponentBound < size then 1 / 0
  else OfScientific.ofScientific digits (exponent < 0) exponent.natAbs

/-- Takes the digits at the head. -/
def takeDigits (cs : List Char) : List Char × List Char := cs.span Char.isDigit

/-- Takes an exponent, which needs a digit, from the head. -/
def takeExponent (cs : List Char) : Int × List Char :=
  match cs with
  | c :: rest =>
    if c == 'e' || c == 'E' then
      let (negative, digits) :=
        match rest with
        | '+' :: r => (false, r)
        | '-' :: r => (true, r)
        | r => (false, r)
      match takeDigits digits with
      | ([], _) => (0, cs)
      | (ds, r) => (if negative then -(digitsValue ds : Int) else digitsValue ds, r)
    else (0, cs)
  | [] => (0, cs)

/-- Takes an unsigned numeral from the head: digits with an optional point among or around them, and
an optional exponent. -/
def takeNumeral (cs : List Char) : Option (Numeral × List Char) :=
  let (whole, afterWhole) := takeDigits cs
  let (fraction, afterFraction) :=
    match afterWhole with
    | '.' :: r => takeDigits r
    | r => ([], r)
  if whole.isEmpty && fraction.isEmpty then none
  else
    let (exponent, rest) := takeExponent afterFraction
    some (⟨whole, fraction, exponent⟩, rest)

/-- Takes an optional sign from the head; whether it is a minus, and the rest. -/
def takeSign : List Char → Bool × List Char
  | '+' :: r => (false, r)
  | '-' :: r => (true, r)
  | cs => (false, cs)

/-- Takes a numeral with an optional sign from the head and gives its value. -/
def takeSigned (cs : List Char) : Option (Float × List Char) :=
  let (negative, r) := takeSign cs
  (takeNumeral r).map fun (n, rest) => (if negative then -n.toFloat else n.toFloat, rest)

/-- Reads a whole text as a numeral with an optional sign. -/
def readSigned? (cs : List Char) : Option Float :=
  match takeSigned cs with
  | some (x, []) => some x
  | _ => none

/-- Reads numeric text: white space around it is ignored and a final percent sign divides by a
hundred. -/
def read? (s : String) : Option Float :=
  match takeSigned (Unicode.trim s.toList) with
  | some (x, []) => some x
  | some (x, ['%']) => some (x / 100)
  | _ => none

end Spreadsheet.Number
