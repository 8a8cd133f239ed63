import RegisterMachine.Program.Basic

/-!
# Native policies

Which native functions a program may call. Without a list of allowed functions all are; a function
that is denied is not allowed in any case.
-/

namespace RegisterMachine

/-- The names of the native functions that a program calls, ascending and without repetition. -/
def Program.requiredNatives (p : Program) : List Bytes :=
  Bytes.sort (Bytes.dedup (p.natives.map (·.qualifiedName)))

/-- Which native functions may be called. -/
structure NativePolicy where
  /-- Absent when everything is allowed. -/
  allowed : Option (List Bytes) := none
  denied : List Bytes := []
  deriving DecidableEq, Inhabited

namespace NativePolicy

/-- Allows only the named functions; an empty list allows everything. -/
def restricted (allowed : List Bytes) : NativePolicy :=
  if allowed.isEmpty then {} else { allowed := some allowed }

/-- Denies one more function. -/
def deny (p : NativePolicy) (name : Bytes) : NativePolicy := { p with denied := name :: p.denied }

/-- Why a program may not run. -/
inductive Violation where
  | denied (name : Bytes)
  | notAllowed (name : Bytes)
  deriving DecidableEq, Inhabited

/-- The wording of a violation. -/
def Violation.message : Violation → Bytes
  | denied n => utf8 "dist: native " ++ Text.quote n ++ utf8 " is explicitly denied"
  | notAllowed n => utf8 "dist: native " ++ Text.quote n ++ utf8 " is not allowed"

/-- What is wrong with calling a function. -/
def violation? (p : NativePolicy) (name : Bytes) : Option Violation :=
  if p.denied.contains name then some (.denied name)
  else match p.allowed with
    | some names => if names.contains name then none else some (.notAllowed name)
    | none => none

/-- Checks every function that a program calls, in order of their names. -/
def check (p : NativePolicy) (prog : Program) : Except Violation Unit :=
  match prog.requiredNatives.findSome? p.violation? with
  | some v => .error v
  | none => .ok ()

end NativePolicy

end RegisterMachine
