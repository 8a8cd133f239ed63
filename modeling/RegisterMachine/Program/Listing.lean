import RegisterMachine.Program.File

/-!
# Listings

The readable form of a program: a few comment lines about it, then one line for each instruction
with its index, its byte offset, its opcode and its text.
-/

namespace RegisterMachine.Program

open Number (decimal padLeft zeroPadded upperHex)

/-- The listing line of the instruction at an index. -/
def instructionLine (p : Program) (pc : Int) : Bytes :=
  let index := zeroPadded 4 decimal pc
  match if pc < 0 then none else p.at? pc.toNat with
  | none => index ++ utf8 "  ------  <out of range>"
  | some i =>
    let op := match Opcode.encode? i.mnemonic i.mode with
      | some op => padLeft 3 32 (decimal op.toNat)
      | none => utf8 "???"
    index ++ utf8 "  0x" ++ zeroPadded 4 upperHex (p.offset pc) ++ utf8 "  " ++ op ++ utf8 "  "
      ++ i.text

/-- The comment lines at the top of a listing; `name` may be empty. -/
def listingHead (p : Program) (name : Bytes) : List Bytes :=
  (if name.isEmpty then [] else [utf8 "; === " ++ name ++ utf8 " ==="])
    ++ [utf8 "; regvm program v" ++ decimal fileVersion ++ utf8 ", arch " ++ p.arch.name]
    ++ [if p.mainExists then
          utf8 "; entry: start=" ++ decimal p.entry.start.toNat ++ utf8 " end="
            ++ decimal p.entry.stop.toNat ++ utf8 " hash=" ++ decimal p.entry.hash.toNat
        else utf8 "; entry: none"]
    ++ (if p.natives.isEmpty then []
        else utf8 "; natives:" :: p.natives.map fun n =>
          utf8 ";   [" ++ padLeft 4 32 (decimal n.site.toNat) ++ utf8 "] " ++ n.qualifiedName
            ++ utf8 " hash=" ++ decimal n.hash.toNat)

/-- The listing of a program, with its name on top when it is not empty. -/
def listing (p : Program) (name : Bytes) : Bytes :=
  let body := p.instructions.toList.zipIdx.map fun (i, pc) =>
    p.instructionLine pc ++ (if i.mnemonic = .function then utf8 "  ; function" else [])
  (p.listingHead name ++ [[]] ++ body).flatMap (· ++ [10])

end RegisterMachine.Program
