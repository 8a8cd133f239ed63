import RegisterMachine.Value.Basic
import RegisterMachine.Instruction.Mode

/-!
# The register file

Five registers, each holding a value. The whole file is copied when a function is called and given
back, except for Y, when the function returns.
-/

namespace RegisterMachine

/-- The values of the five registers. -/
structure Registers where
  a : Value := .void
  b : Value := .void
  c : Value := .void
  x : Value := .void
  y : Value := .void
  deriving DecidableEq, Inhabited

namespace Registers

/-- The value in a register. -/
def get (r : Registers) : Register → Value
  | .a => r.a
  | .b => r.b
  | .c => r.c
  | .x => r.x
  | .y => r.y

/-- Puts a value into a register. -/
def set (r : Registers) (reg : Register) (v : Value) : Registers :=
  match reg with
  | .a => { r with a := v }
  | .b => { r with b := v }
  | .c => { r with c := v }
  | .x => { r with x := v }
  | .y => { r with y := v }

/-- The values in the order of the registers. -/
def toList (r : Registers) : List Value := [r.a, r.b, r.c, r.x, r.y]

@[simp] theorem get_set (r : Registers) (reg : Register) (v : Value) :
    (r.set reg v).get reg = v := by
  cases reg <;> rfl

theorem get_set_ne (r : Registers) {p q : Register} (v : Value) (h : q ≠ p) :
    (r.set p v).get q = r.get q := by
  cases p <;> cases q <;> first | rfl | exact absurd rfl h

end Registers

end RegisterMachine
