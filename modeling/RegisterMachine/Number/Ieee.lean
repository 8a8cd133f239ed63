import RegisterMachine.Bytes

/-!
# Binary floating point

A floating point number is kept as its bits. `Format.decode` reads the bits as a sign and an exact
value `m · 2^q`, and `Format.round` gives the bits of the number nearest to a fraction, a tie going
to the even mantissa. The two formats in use are `single` and `double`.
-/

namespace RegisterMachine.Number

/-- A binary interchange format: `precision` counts the mantissa's bits with the leading one. -/
structure Format where
  precision : Nat
  exponentBits : Nat
  deriving DecidableEq, Inhabited

/-- The format of 32 bits. -/
def single : Format := ⟨24, 8⟩

/-- The format of 64 bits. -/
def double : Format := ⟨53, 11⟩

/-- What the bits of a floating point number stand for. -/
inductive FloatClass where
  | nan
  | infinite (negative : Bool)
  /-- The value `m · 2^q`, negated when the sign is set. -/
  | finite (negative : Bool) (m : Nat) (q : Int)
  deriving DecidableEq, Inhabited

namespace Format

/-- The exponent of the least positive number. -/
def minExponent (f : Format) : Int := 3 - 2 ^ (f.exponentBits - 1) - (f.precision : Int)

/-- The bits of infinity. -/
def infinityBits (f : Format) : Nat := (2 ^ f.exponentBits - 1) * 2 ^ (f.precision - 1)

/-- The sign bit. -/
def signBit (f : Format) : Nat := 2 ^ (f.precision - 1 + f.exponentBits)

/-- Reads the bits of a number. -/
def decode (f : Format) (bits : Nat) : FloatClass :=
  let negative := f.signBit ≤ bits
  let magnitude := bits % f.signBit
  let unit := 2 ^ (f.precision - 1)
  let exponent := magnitude / unit
  let fraction := magnitude % unit
  if f.infinityBits < magnitude then .nan
  else if magnitude = f.infinityBits then .infinite negative
  else if exponent = 0 then .finite negative fraction f.minExponent
  else .finite negative (unit + fraction) (f.minExponent + (exponent : Int) - 1)

/-- The magnitude bits of the number nearest to `num / den`, infinity when it is too large. -/
def round (f : Format) (num den : Nat) : Nat :=
  if num = 0 then 0
  else
    let p := f.precision
    let e₀ : Int := (num.log2 : Int) - den.log2 - ((p : Int) - 1)
    let scaled (e : Int) : Nat × Nat :=
      if 0 ≤ e then (num, den * 2 ^ e.toNat) else (num * 2 ^ (-e).toNat, den)
    let (a₀, b₀) := scaled e₀
    let e := max (if a₀ < b₀ * 2 ^ (p - 1) then e₀ - 1 else e₀) f.minExponent
    let (a, b) := scaled e
    let q := a / b
    let r := a % b
    let m := if b < 2 * r ∨ (2 * r = b ∧ q % 2 = 1) then q + 1 else q
    let bits :=
      if m < 2 ^ (p - 1) then m
      else (e - f.minExponent + 1).toNat * 2 ^ (p - 1) + (m - 2 ^ (p - 1))
    min bits f.infinityBits

/-- `round` of a number given as `m · 2^q` with a sign. -/
def roundPower (f : Format) (negative : Bool) (m : Nat) (q : Int) : Nat :=
  (if negative then f.signBit else 0)
    + (if 0 ≤ q then f.round (m * 2 ^ q.toNat) 1 else f.round m (2 ^ (-q).toNat))

/-- The number of the format nearest to an integer. -/
def ofInt (f : Format) (i : Int) : Nat := f.roundPower (i < 0) i.natAbs 0

/-- A quiet not-a-number. -/
def quietNan (f : Format) : Nat := f.infinityBits + 2 ^ (f.precision - 2)

/-- The number of format `g` nearest to a number of format `f`. -/
def convert (f g : Format) (bits : Nat) : Nat :=
  match f.decode bits with
  | .nan => g.quietNan
  | .infinite negative => (if negative then g.signBit else 0) + g.infinityBits
  | .finite negative m q => g.roundPower negative m q

end Format

end RegisterMachine.Number
