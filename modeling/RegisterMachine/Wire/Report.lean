import RegisterMachine.Digest.Sha256
import RegisterMachine.Program.File
import RegisterMachine.Wire.Snapshot

/-!
# Exit reports

The record of a finished run: which program ran, how many steps it took and how it ended, with a
snapshot when it panicked. The program is named by the digest of its file, so that a report can be
checked against a program.
-/

namespace RegisterMachine

/-- The digest of a program's file. -/
def Program.digest (p : Program) : Except CodecError Bytes := p.serialize.map Digest.sha256

/-- The record of a run. -/
structure ExitReport where
  id : Bytes := []
  programHash : Bytes := List.replicate 32 0
  arch : Bytes := []
  steps : Nat := 0
  exit : Option ExitRecord := none
  snapshot : Option Snapshot := none
  deriving DecidableEq, Inhabited

namespace ExitReport

/-- Whether the run ended without a panic. -/
def isGraceful (r : ExitReport) : Bool :=
  match r.exit with
  | some e => e.isGraceful
  | none => false

/-- The report of a thread. -/
def ofThread (t : Thread) : Except CodecError ExitReport := do
  let programHash ← t.program.digest
  let failed := match t.exit with
    | some e => !e.isGraceful
    | none => false
  return {
    id := t.id
    programHash
    arch := t.program.arch.name
    steps := t.steps
    exit := t.exit.map (·.record)
    snapshot := if failed then some t.snapshot else none }

/-- The report as a data item. -/
def item (r : ExitReport) : Cbor :=
  Wire.numbered ([(1, .ofText r.id), (2, .bytes r.programHash), (3, .ofText r.arch),
      (4, .unsigned r.steps), (5, (r.exit.map Wire.exitItem).getD .null)]
    ++ (match r.snapshot with
      | some s => [(6, Wire.snapshotItem s)]
      | none => []))

/-- Reads a report. -/
def read : Cbor.Reader ExitReport :=
  Cbor.readRecord [
    Cbor.field (.number 1) Cbor.readText fun v r => { r with id := v },
    Cbor.field (.number 2) (Cbor.readBytes 32) fun v r => { r with programHash := v },
    Cbor.field (.number 3) Cbor.readText fun v r => { r with arch := v },
    Cbor.field (.number 4) (Cbor.readNat Wire.maxWord) fun v r => { r with steps := v },
    Cbor.field (.number 5) (Cbor.readOption Wire.readExit) fun v r => { r with exit := v },
    Cbor.field (.number 6) (Cbor.readOption Wire.readSnapshot) fun v r => { r with snapshot := v }]
      {}

/-- The written form of a report. -/
def encode (r : ExitReport) : Bytes := r.item.encode

/-- Reads a report, which has to have an exit. -/
def decode (data : Bytes) : Except Wire.WireError ExitReport :=
  match Wire.readBytes read data with
  | .error e => .error (.report e)
  | .ok r => if r.exit.isNone then .error (.noExit r.id) else .ok r

/-- Checks that a report is about a program. -/
def verify (r : ExitReport) (p : Program) : Except Wire.WireError Unit :=
  match p.digest with
  | .error e => .error (.program e)
  | .ok h => if h = r.programHash then .ok () else .error (.hashMismatch r.programHash h)

end ExitReport

end RegisterMachine
