import RegisterMachine.Engine.Batch

/-!
# Calls recorded side by side

Calls can be recorded on one profiler at the same time. Whoever records a call carries out one
atomic operation in each turn (`Recorder.move`), and others can take any number of turns between two
of them. `Recorders.run` gives the turns in the order of a schedule.
-/

namespace RegisterMachine

/-- How far the recording of a call has come. -/
inductive RecorderStage where
  /-- An operation is to be carried out next. -/
  | pending (op : ProfilerOp)
  /-- All is done, and the answer is whether the call made its function hot. -/
  | returned (becameHot : Bool)
  deriving DecidableEq, Inhabited

/-- What comes after an operation, `next` being the one that has to follow it. Only a call that
announces its function made it hot. -/
def RecorderStage.after (op : ProfilerOp) : Option ProfilerOp → RecorderStage
  | some next => .pending next
  | none => .returned op.announces

/-- A call of a function that is being recorded. -/
structure Recorder where
  hash : UInt64
  stage : RecorderStage
  deriving DecidableEq, Inhabited

namespace Recorder

def start (hash : UInt64) : Recorder := ⟨hash, .pending (ProfilerEvent.call hash).op⟩

/-- Takes a turn. -/
def move (r : Recorder) (p : Profiler) : Recorder × Profiler :=
  match r.stage with
  | .pending op => ({ r with stage := .after op (p.perform op).2 }, (p.perform op).1)
  | .returned _ => (r, p)

/-- What the call answered. -/
def answer? (r : Recorder) : Option Bool :=
  match r.stage with
  | .pending _ => none
  | .returned becameHot => some becameHot

end Recorder

/-- Calls that are recorded side by side, and the profiler that they share. -/
structure Recorders where
  recorders : List Recorder
  profiler : Profiler
  deriving Inhabited

namespace Recorders

def start (p : Profiler) (hashes : List UInt64) : Recorders := ⟨hashes.map .start, p⟩

/-- Gives a turn to one of the recorders. -/
def move (rs : Recorders) (n : Nat) : Recorders :=
  match rs.recorders[n]? with
  | none => rs
  | some r =>
    let (r, p) := r.move rs.profiler
    ⟨rs.recorders.set n r, p⟩

/-- Gives turns to the recorders in the order of a schedule. -/
def run (rs : Recorders) (schedule : List Nat) : Recorders := schedule.foldl move rs

/-- All calls have returned. -/
def Finished (rs : Recorders) : Prop := ∀ r ∈ rs.recorders, r.answer?.isSome = true

instance (rs : Recorders) : Decidable rs.Finished :=
  inferInstanceAs (Decidable (∀ r ∈ rs.recorders, r.answer?.isSome = true))

end Recorders

end RegisterMachine
