import RegisterMachine.Text.Letters
import RegisterMachine.Text.Digits
import RegisterMachine.Text.Printables

/-!
# Character classes

Letters, decimal digits, white space and printable characters, as predicates on code points.
The ASCII part of each class is written out; the rest is looked up in ranges.
-/

namespace RegisterMachine.Text

/-- Whether some range with both ends included holds the code point. -/
def inRanges (ranges : Array (Nat × Nat)) (c : Nat) : Bool :=
  ranges.any fun (lo, hi) => lo ≤ c && c ≤ hi

/-- Letters of any script. -/
def isLetter (c : Nat) : Bool :=
  if c < 0x80 then (65 ≤ c && c ≤ 90) || (97 ≤ c && c ≤ 122) else inRanges letterRanges c

/-- Decimal digits of any script. -/
def isDigit (c : Nat) : Bool :=
  if c < 0x80 then 48 ≤ c && c ≤ 57 else inRanges digitRanges c

/-- White space: tab to carriage return, space, next line and the Unicode space characters. -/
def isSpace (c : Nat) : Bool :=
  (9 ≤ c && c ≤ 13) || c == 0x20 || c == 0x85 || c == 0xA0 || c == 0x1680 ||
  (0x2000 ≤ c && c ≤ 0x200A) || c == 0x2028 || c == 0x2029 || c == 0x202F || c == 0x205F ||
  c == 0x3000

/-- Characters that a quoted text shows as they are: graphic ones and the plain space. -/
def isPrintable (c : Nat) : Bool :=
  if c < 0x80 then 0x20 ≤ c && c ≤ 0x7E else inRanges printableRanges c

end RegisterMachine.Text
