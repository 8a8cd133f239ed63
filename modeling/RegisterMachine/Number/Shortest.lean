import RegisterMachine.Number.Decimal
import RegisterMachine.Number.Ieee

/-!
# Shortest decimal text of a floating point number

The digits shown are the fewest that read back as the same number; among those the value nearest
to it, and of two equally near ones the even one. They are written plainly while the exponent of the
first digit lies between -4 and 5, and with an exponent otherwise.
-/

namespace RegisterMachine.Number

/-- A positive decimal number `0.d₁d₂… · 10^point`. -/
structure DecimalDigits where
  digits : List Nat
  point : Int
  deriving DecidableEq, Inhabited

/-- The exponent of the first decimal digit of a positive fraction. -/
def leadingExponent (num den : Nat) : Int :=
  if den ≤ num then ((Nat.toDigits 10 (num / den)).length : Int) - 1
  else
    let n := (Nat.toDigits 10 (den / num)).length
    if den = num * 10 ^ (n - 1) then -((n : Int) - 1) else -(n : Int)

/-- The decimal digits of a number as numbers below ten. -/
def digitsOf (n : Nat) : List Nat := (Nat.toDigits 10 n).map fun c => c.toNat - 48

/-- The digits of `n · 10^s` without trailing zeros. -/
def DecimalDigits.ofScaled (n : Nat) (s : Int) : DecimalDigits :=
  let ds := digitsOf n
  ⟨(ds.reverse.dropWhile (· = 0)).reverse, s + ds.length⟩

/-- An interval of positive reals with a number inside, as numerators over one denominator. -/
structure Interval where
  low : Nat
  value : Nat
  high : Nat
  den : Nat
  closed : Bool

/-- The reals that round to the positive number `m · 2^q`. -/
def Interval.ofFloat (f : Format) (m : Nat) (q : Int) : Interval :=
  let narrow := m = 2 ^ (f.precision - 1) ∧ f.minExponent < q
  let up := 2 ^ (q - 2).toNat
  let down := 2 ^ (2 - q).toNat
  ⟨(4 * m - (if narrow then 1 else 2)) * up, 4 * m * up, (4 * m + 2) * up, down, m % 2 = 0⟩

/-- Whether `n · 10^s` lies in the interval. -/
def Interval.holds (i : Interval) (n : Nat) (s : Int) : Bool :=
  let x := n * 10 ^ s.toNat * i.den
  let lo := i.low * 10 ^ (-s).toNat
  let hi := i.high * 10 ^ (-s).toNat
  if i.closed then lo ≤ x && x ≤ hi else lo < x && x < hi

/-- The nearest number with `k` digits that lies in the interval; a tie goes to the even digit. -/
def Interval.withDigits? (i : Interval) (e : Int) (k : Nat) : Option DecimalDigits :=
  let s := e - k + 1
  let num := i.value * 10 ^ (-s).toNat
  let den := i.den * 10 ^ s.toNat
  let n := num / den
  let below := i.holds n s
  let above := i.holds (n + 1) s
  let nearer := 2 * (num % den) < den || (2 * (num % den) == den && n % 2 == 0)
  if below && (!above || nearer) then some (.ofScaled n s)
  else if above then some (.ofScaled (n + 1) s)
  else none

/-- The fewest digits that read back as the positive number `m · 2^q`. -/
def shortest (f : Format) (m : Nat) (q : Int) : DecimalDigits :=
  let i := Interval.ofFloat f m q
  let e := leadingExponent i.value i.den
  ((List.range 17).findSome? fun k => i.withDigits? e (k + 1)).getD (.ofScaled m 0)

/-- Digits as text. -/
def digitText (ds : List Nat) : Bytes := ds.map fun d => UInt8.ofNat (48 + d)

/-- The digits with a decimal point where it belongs. -/
def DecimalDigits.plain (d : DecimalDigits) : Bytes :=
  if d.point ≤ 0 then 48 :: 46 :: (List.replicate (-d.point).toNat 48 ++ digitText d.digits)
  else
    let n := d.point.toNat
    let whole := digitText (d.digits.take n) ++ List.replicate (n - d.digits.length) 48
    if d.digits.length ≤ n then whole else whole ++ 46 :: digitText (d.digits.drop n)

/-- The digits with the point after the first and a signed exponent of at least two digits. -/
def DecimalDigits.scientific (d : DecimalDigits) : Bytes :=
  let e := d.point - 1
  let mantissa := match d.digits with
    | [] => [48]
    | [x] => digitText [x]
    | x :: xs => digitText [x] ++ 46 :: digitText xs
  mantissa ++ 101 :: (if e < 0 then 45 else 43) :: padLeft 2 48 (decimal e.natAbs)

/-- The text of a floating point number given by its bits. -/
def floatText (f : Format) (bits : Nat) : Bytes :=
  match f.decode bits with
  | .nan => utf8 "NaN"
  | .infinite negative => utf8 (if negative then "-Inf" else "+Inf")
  | .finite negative m q =>
    let magnitude :=
      if m = 0 then [48]
      else
        let d := shortest f m q
        if d.point < -3 ∨ 7 ≤ d.point then d.scientific else d.plain
    if negative then 45 :: magnitude else magnitude

end RegisterMachine.Number
