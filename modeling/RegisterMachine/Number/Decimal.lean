import RegisterMachine.Bytes

/-!
# Numbers as text

Decimal and hexadecimal digits, with a sign and with padding on the left.
-/

namespace RegisterMachine.Number

/-- The decimal digits of a number. -/
def decimal (n : Nat) : Bytes := (Nat.toDigits 10 n).map Bytes.ofChar

/-- The decimal digits of a number, after a minus sign when it is negative. -/
def decimalInt : Int → Bytes
  | .ofNat n => decimal n
  | .negSucc n => 45 :: decimal (n + 1)

/-- The hexadecimal digits of a number, letters in upper case. -/
def upperHex (n : Nat) : Bytes := (Nat.toDigits 16 n).map fun c => Bytes.upper (Bytes.ofChar c)

/-- Puts as many `fill` bytes in front as the width asks for. -/
def padLeft (width : Nat) (fill : UInt8) (s : Bytes) : Bytes :=
  List.replicate (width - s.length) fill ++ s

/-- Puts as many spaces behind as the width asks for. -/
def padRight (width : Nat) (s : Bytes) : Bytes := s ++ List.replicate (width - s.length) 32

/-- Digits with zeros in front up to the width, the sign included in it and coming first. -/
def zeroPadded (width : Nat) (digits : Nat → Bytes) : Int → Bytes
  | .ofNat n => padLeft width 48 (digits n)
  | .negSucc n => 45 :: padLeft (width - 1) 48 (digits (n + 1))

end RegisterMachine.Number
