import Spreadsheet.Number.Integral

/-!
Complex numbers: arithmetic and the elementary functions by their textbook formulas.
-/

namespace Spreadsheet.Number

/-- The square root of the sum of two squares, rounded once. -/
def hypotenuse (a b : Float) : Float :=
  if a.isInf || b.isInf then 1 / 0
  else
    match a.toModel.unpack, b.toModel.unpack with
    | .finite _ m e hm, .finite _ n f _ =>
      let low := min e f
      let x := m * Nat.pow 2 (e - low).toNat
      let y := n * Nat.pow 2 (f - low).toNat
      have hx : 0 < x := Nat.mul_pos hm (Nat.two_pow_pos _)
      Float.ofModel (.pack (Float.Model.UnpackedFloat.sqrt Float.Model.Format.binary64
        (.finite .positive (x * x + y * y) (2 * low) (Nat.add_pos_left (Nat.mul_pos hx hx) _))))
    | _, _ => a.abs + b.abs

/-- The number `re + im i`. -/
structure Complex where
  re : Float
  im : Float

namespace Complex

def ofReal (x : Float) : Complex := ⟨x, 0⟩

def norm (z : Complex) : Float := hypotenuse z.re z.im

def normSquare (z : Complex) : Float := z.re * z.re + z.im * z.im

def argument (z : Complex) : Float := z.im.atan2 z.re

def ofPolar (r θ : Float) : Complex := ⟨r * θ.cos, r * θ.sin⟩

instance : Add Complex := ⟨fun a b => ⟨a.re + b.re, a.im + b.im⟩⟩

instance : Sub Complex := ⟨fun a b => ⟨a.re - b.re, a.im - b.im⟩⟩

instance : Mul Complex :=
  ⟨fun a b => ⟨a.re * b.re - a.im * b.im, a.re * b.im + a.im * b.re⟩⟩

instance : Div Complex :=
  ⟨fun a b => ⟨(a.re * b.re + a.im * b.im) / b.normSquare,
    (a.im * b.re - a.re * b.im) / b.normSquare⟩⟩

/-- Divides both parts by a real number. -/
def scaleDown (z : Complex) (x : Float) : Complex := ⟨z.re / x, z.im / x⟩

def conjugate (z : Complex) : Complex := ⟨z.re, -z.im⟩

def inverse (z : Complex) : Complex := ⟨z.re / z.normSquare, -z.im / z.normSquare⟩

def exp (z : Complex) : Complex :=
  if z.re.isInf then
    if z.re < 0 then if z.im.isFinite then ofPolar z.re.exp z.im else ⟨0, 0⟩
    else if z.im.isInf then ⟨z.re, 0.0 / 0.0⟩
    else if z.im == 0 || z.im.isNaN then z
    else ofPolar z.re.exp z.im
  else if z.re.isNaN && z.im == 0 then z
  else ofPolar z.re.exp z.im

def log (z : Complex) : Complex := ⟨z.norm.log, z.argument⟩

/-- The principal square root; real and purely imaginary numbers have exact formulas. -/
def sqrt (z : Complex) : Complex :=
  let negative (x : Float) : Bool := x.toBits >>> 63 == 1
  if z.im == 0 then
    if negative z.re then
      let root := (-z.re).sqrt
      ⟨0, if negative z.im then -root else root⟩
    else ⟨z.re.sqrt, z.im⟩
  else if z.re == 0 then
    let x := (z.im.abs / 2).sqrt
    ⟨x, if negative z.im then -x else x⟩
  else ofPolar z.norm.sqrt (z.argument / 2)

def power (z : Complex) (n : Float) : Complex :=
  if n == 0 then ⟨1, 0⟩ else ofPolar (z.norm.pow n) (z.argument * n)

def sin (z : Complex) : Complex := ⟨z.re.sin * z.im.cosh, z.re.cos * z.im.sinh⟩

def cos (z : Complex) : Complex := ⟨z.re.cos * z.im.cosh, -z.re.sin * z.im.sinh⟩

def tan (z : Complex) : Complex :=
  let a := z.re + z.re
  let b := z.im + z.im
  scaleDown ⟨a.sin, b.sinh⟩ (a.cos + b.cosh)

def sinh (z : Complex) : Complex := ⟨z.re.sinh * z.im.cos, z.re.cosh * z.im.sin⟩

def cosh (z : Complex) : Complex := ⟨z.re.cosh * z.im.cos, z.re.sinh * z.im.sin⟩

end Complex

end Spreadsheet.Number
