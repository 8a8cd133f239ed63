import RegisterMachine.Number.Decimal
import RegisterMachine.Text.Quoted

/-!
# Architectures

The architecture of a program fixes how many bytes an address takes in its file. It is known by
one byte; the three that programs may have are `b16`, `b32` and `b64`, and any other byte behaves
like the widest one until a program file is written.
-/

namespace RegisterMachine

/-- An architecture, given by its byte in the file header. -/
structure Arch where
  byte : UInt8
  deriving DecidableEq, Inhabited, Repr

namespace Arch

def b16 : Arch := ⟨16⟩
def b32 : Arch := ⟨32⟩
def b64 : Arch := ⟨64⟩

/-- Whether program files may have the architecture. -/
def isSupported (a : Arch) : Bool := a == b16 || a == b32 || a == b64

/-- The number of bytes of an address. -/
def addressBytes (a : Arch) : Nat := if a = b16 then 2 else if a = b32 then 4 else 8

/-- The largest address. -/
def maxAddress (a : Arch) : Nat := 256 ^ a.addressBytes - 1

/-- The name shown for an architecture. -/
def name (a : Arch) : Bytes :=
  if a.isSupported then utf8 "b" ++ Number.decimal a.byte.toNat
  else utf8 "Arch(" ++ Number.decimal a.byte.toNat ++ utf8 ")"

/-- Reads `b16`, `b32` or `b64`, the letter being optional and of either case. -/
def parse? (s : Bytes) : Option Arch :=
  let digits := match s with
    | c :: r => if Bytes.lower c = 98 then r else s
    | [] => s
  if digits = utf8 "16" then some b16
  else if digits = utf8 "32" then some b32
  else if digits = utf8 "64" then some b64
  else none

/-- What is said about a name that is no architecture. -/
def unknownMessage (s : Bytes) : Bytes := utf8 "unknown architecture " ++ Text.quote s

end Arch

end RegisterMachine
