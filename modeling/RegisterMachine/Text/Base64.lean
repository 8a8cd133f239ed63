import RegisterMachine.Bytes

/-!
# Base 64

Bytes written with 64 characters, six bits each. Four characters make three bytes; at the end,
equals signs stand for the characters that one or two bytes do not need. Line ends do not count.
-/

namespace RegisterMachine.Text

/-- The six bits of a character. -/
def sextet? (c : UInt8) : Option Nat :=
  let n := c.toNat
  if 65 ≤ n ∧ n ≤ 90 then some (n - 65)
  else if 97 ≤ n ∧ n ≤ 122 then some (n - 71)
  else if 48 ≤ n ∧ n ≤ 57 then some (n + 4)
  else if n = 43 then some 62
  else if n = 47 then some 63
  else none

/-- The bytes that groups of four characters stand for. -/
def ofSextets? : Bytes → Option Bytes
  | [] => some []
  | a :: b :: c :: d :: rest => do
    let v := (← sextet? a) * 64 + (← sextet? b)
    if d ≠ 61 then
      let v := (v * 64 + (← sextet? c)) * 64 + (← sextet? d)
      return Bytes.bigEndian 3 v ++ (← ofSextets? rest)
    else if !rest.isEmpty then none
    else if c ≠ 61 then
      return Bytes.bigEndian 2 ((v * 64 + (← sextet? c)) / 4)
    else return [UInt8.ofNat (v / 16)]
  | _ => none

/-- The bytes that a text in base 64 stands for. -/
def ofBase64? (s : Bytes) : Option Bytes := ofSextets? (s.filter fun c => c != 10 && c != 13)

end RegisterMachine.Text
