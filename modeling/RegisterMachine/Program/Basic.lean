import RegisterMachine.Instruction.Draft

/-!
# Programs

A program is a list of instructions for an architecture, with the byte offset of each instruction,
an entry point, and for each call of a native function the function it calls. `Program.validate`
checks that entry point and call sites point at instructions of the right kind.
-/

namespace RegisterMachine

/-- The main function: the index of its header, the end of its body and its hash. -/
structure EntryPoint where
  start : UInt64
  stop : UInt64
  hash : UInt64
  deriving DecidableEq, Inhabited

/-- The native function that the call at an instruction index invokes. -/
structure NativeCall where
  site : UInt64
  module : Bytes
  hash : UInt64
  name : Bytes
  deriving DecidableEq, Inhabited

/-- The name of a native function with its module. -/
def NativeCall.qualifiedName (n : NativeCall) : Bytes := n.module ++ utf8 "." ++ n.name

/-- A program. The native calls are in ascending order of their sites, one for each site. -/
structure Program where
  arch : Arch
  mainExists : Bool
  entry : EntryPoint
  instructions : Array Instruction
  offsets : Array Nat
  natives : List NativeCall
  deriving DecidableEq, Inhabited

namespace Program

/-- Puts a native call in its place, instead of an earlier one at the same site. -/
def insertNative (n : NativeCall) : List NativeCall → List NativeCall
  | [] => [n]
  | m :: rest =>
    if n.site < m.site then n :: m :: rest
    else if n.site = m.site then n :: rest
    else m :: insertNative n rest

/-- The calls by site, where the last one given for a site counts. -/
def sortNatives (ns : List NativeCall) : List NativeCall :=
  ns.foldl (fun sorted n => insertNative n sorted) []

/-- The number of instructions. -/
def length (p : Program) : Nat := p.instructions.size

/-- The instruction at an index. -/
def at? (p : Program) (pc : Nat) : Option Instruction := p.instructions[pc]?

/-- The byte offset of the instruction at an index, or -1. -/
def offset (p : Program) (pc : Int) : Int :=
  if pc < 0 then -1 else match p.offsets[pc.toNat]? with
    | some o => o
    | none => -1

/-- The native call at a site. -/
def native? (p : Program) (site : Nat) : Option NativeCall :=
  p.natives.find? (·.site.toNat == site)

/-- Checks the entry point. -/
def validateEntry (p : Program) : Except ProgramFault Unit :=
  let start := p.entry.start.toNat
  let stop := p.entry.stop.toNat
  match p.at? start with
  | none => .error (.entryStart start p.length)
  | some i =>
    if p.length < stop ∨ stop ≤ start then .error (.entryEnd stop start)
    else if i.mnemonic ≠ .function then .error (.entryNoHeader start i.mnemonic)
    else .ok ()

/-- Whether the instruction at an index calls a native function. -/
def callsNative (p : Program) (site : Nat) : Bool :=
  match p.at? site with
  | some i => i.mnemonic = .callNative
  | none => false

/-- Checks entry point and call sites. -/
def validate (p : Program) : Except ProgramFault Unit := do
  if p.mainExists then p.validateEntry
  match p.natives.find? fun n => !p.callsNative n.site.toNat with
  | some n => .error (.nativeSite n.site.toNat)
  | none => .ok ()

/-- The program with given instructions; `entry` is absent when it has no main function. -/
def build (arch : Arch) (entry : Option EntryPoint) (instructions : List Instruction)
    (natives : List NativeCall) : Except CodecError Program :=
  match Instruction.encodeAll arch instructions with
  | .error e => .error e
  | .ok (_, offsets) =>
    let p : Program :=
      { arch
        mainExists := entry.isSome
        entry := entry.getD ⟨0, 0, 0⟩
        instructions := instructions.toArray
        offsets := offsets.toArray
        natives := sortNatives natives }
    match p.validate with
    | .error f => .error (.inconsistent f)
    | .ok () => .ok p

end Program

end RegisterMachine
