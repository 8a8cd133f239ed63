import RegisterMachine.Number.Ieee

/-!
# Arithmetic on floating point numbers

Sum, difference, product and quotient are those of the 64-bit format. The remainder is exact and
takes the sign of the dividend; the power works by squaring the mantissa, so that whole exponents
keep full precision.
-/

namespace RegisterMachine.Number

/-- Applies an operation to two numbers given by their bits. -/
def onBits (op : Float → Float → Float) (x y : UInt64) : UInt64 :=
  (op (Float.ofBits x) (Float.ofBits y)).toBits

/-- A not-a-number of the 64-bit format. -/
def nanBits : UInt64 := UInt64.ofNat double.quietNan

/-- The remainder of the division truncated toward zero, exactly. -/
def floatMod (x y : UInt64) : UInt64 :=
  match double.decode x.toNat, double.decode y.toNat with
  | .finite negative m q, .finite _ n r =>
    if n = 0 then nanBits
    else
      let e := min q r
      let a := m * 2 ^ (q - e).toNat
      let b := n * 2 ^ (r - e).toNat
      UInt64.ofNat (double.roundPower negative (a % b) e)
  | .finite .., .infinite _ => x
  | _, _ => nanBits

/-- Squares the mantissa `x · 2^xe` and multiplies it onto `a · 2^ae` for each bit of the
exponent. -/
def powerLoop : Nat → Nat → Float → Int → Float → Int → Float × Int
  | 0, _, _, _, a, ae => (a, ae)
  | fuel + 1, n, x, xe, a, ae =>
    if n = 0 then (a, ae)
    else if xe < -4096 ∨ 4096 < xe then (a, ae + xe)
    else
      let (a, ae) := if n % 2 = 1 then (a * x, ae + xe) else (a, ae)
      let x := x * x
      let xe := 2 * xe
      let (x, xe) := if x < 0.5 then (x + x, xe - 1) else (x, xe)
      powerLoop fuel (n / 2) x xe a ae

/-- Whether the number is a whole one, and odd. -/
def isOddInteger (y : UInt64) : Bool :=
  match double.decode y.toNat with
  | .finite _ m q =>
    if 0 ≤ q then q = 0 && m % 2 = 1
    else m % 2 ^ (-q).toNat = 0 && m / 2 ^ (-q).toNat % 2 = 1
  | _ => false

/-- The power for a finite base other than zero and a finite exponent other than zero. -/
def powerFinite (x y : Float) : Float :=
  let yAbs := y.abs
  let whole := yAbs.floor
  let part := yAbs - whole
  if part != 0 && x < 0 then 0.0 / 0.0
  else if whole ≥ 9.223372036854775808e18 then
    if x == -1.0 then 1.0
    else if (x.abs < 1.0) == (y > 0) then 0.0
    else 1.0 / 0.0
  else
    let (part, whole) := if part > 0.5 then (part - 1, whole + 1) else (part, whole)
    let a := if part == 0 then 1.0 else Float.exp (part * Float.log x)
    let (x₁, xe) := x.frExp
    let (a, ae) := powerLoop 64 whole.toUInt64.toNat x₁ xe a 0
    if y < 0 then (1.0 / a).scaleB (-ae) else a.scaleB ae

/-- `x` to the power `y`. -/
def floatPow (xb yb : UInt64) : UInt64 :=
  let x := Float.ofBits xb
  let y := Float.ofBits yb
  let infinity : Float := 1.0 / 0.0
  let odd := isOddInteger yb
  let result :=
    if y == 0 || x == 1 then 1.0
    else if y == 1 then x
    else if x.isNaN || y.isNaN then 0.0 / 0.0
    else if x == 0 then
      if y < 0 then (if odd && (1.0 / x) < 0 then -infinity else infinity)
      else if odd then x else 0.0
    else if y.isInf then
      if x == -1 then 1.0
      else if (x.abs < 1) == (y > 0) then 0.0
      else infinity
    else if x.isInf then
      if x < 0 then
        if y < 0 then (if odd then -0.0 else 0.0)
        else (if odd then -infinity else infinity)
      else if y < 0 then 0.0 else infinity
    else if y == 0.5 then x.sqrt
    else if y == -0.5 then 1.0 / x.sqrt
    else powerFinite x y
  result.toBits

end RegisterMachine.Number
