import RegisterMachine.Engine.Run

/-!
# Batches side by side

The threads of a batch can run side by side. They share nothing but the profiler, which they change
by atomic operations: an instruction takes one, a call takes up to four. `Batch.run` moves the
threads in the order of a schedule, which says whose turn it is; a turn is one atomic operation, one
step, or what comes between two steps.
-/

namespace RegisterMachine

/-- What a profiler is told. -/
inductive ProfilerEvent where
  | instruction (number : Nat)
  | call (hash : UInt64)
  deriving DecidableEq, Inhabited

/-- What threads do to a shared profiler at once. -/
inductive ProfilerOp where
  /-- Counts an instruction. -/
  | count (number : Nat)
  /-- Finds the counter of a function, and makes it when there is none. -/
  | lookUp (hash : UInt64)
  /-- Counts a call and takes the new count. -/
  | increment (hash : UInt64)
  /-- Makes a function hot that is not. -/
  | mark (hash : UInt64) (count : Nat)
  /-- Counts and announces a hot function. -/
  | announce (hash : UInt64) (count : Nat)
  deriving DecidableEq, Inhabited

/-- The operations that have yet to count a hot function. -/
def ProfilerOp.announces : ProfilerOp → Bool
  | .announce .. => true
  | _ => false

/-- The operation that an event begins with. -/
def ProfilerEvent.op : ProfilerEvent → ProfilerOp
  | .instruction n => .count n
  | .call hash => .lookUp hash

namespace Profiler

/-- Counts an event. -/
def record (p : Profiler) : ProfilerEvent → Profiler
  | .instruction n => p.recordInstruction n
  | .call hash => (p.recordCall hash).1

/-- Counts some events. -/
def recordAll (p : Profiler) (es : List ProfilerEvent) : Profiler := es.foldl record p

/-- Changes the profile of a function. -/
def change (p : Profiler) (hash : UInt64) (g : FunctionProfile → FunctionProfile) : Profiler :=
  { p with functions := p.functions.map fun f => if f.hash == hash then g f else f }

/-- Carries out an operation, and says which one has to follow. -/
def perform (p : Profiler) : ProfilerOp → Profiler × Option ProfilerOp
  | .count n => (p.recordInstruction n, none)
  | .lookUp hash =>
    (if (p.function? hash).isSome then p
      else { p with functions := p.functions ++ [⟨hash, 0, false⟩] }, some (.increment hash))
  | .increment hash =>
    let p := p.change hash fun f => { f with count := f.count + 1 }
    (p, if p.threshold ≤ p.calls hash then some (.mark hash (p.calls hash)) else none)
  | .mark hash count =>
    if p.isHot hash then (p, none)
    else (p.change hash fun f => { f with hot := true }, some (.announce hash count))
  | .announce hash count =>
    ({ p with hotCount := p.hotCount + 1, announced := ⟨hash, count, true⟩ :: p.announced }, none)

end Profiler

namespace Thread

/-- What the profiler is told of a step that the thread took. -/
def events (t : Thread) (info : StepInfo) : List ProfilerEvent :=
  if info.pc < 0 then []
  else .instruction ((info.instruction.map (·.mnemonic.number)).getD 0) ::
    match info.kind, t.stack.top? with
    | .call, some f => [.call f.hash]
    | _, _ => []

/-- What the profiler is told before a run. -/
def entryEvents (t : Thread) : List ProfilerEvent :=
  if 0 < t.steps then [] else t.stack.top?.toList.map (.call ·.hash)

end Thread

/-- Where a thread of a batch is between its turns. -/
inductive JobStage where
  /-- It is about to step. -/
  | ready
  /-- It has stepped. -/
  | stepped
  | ended
  deriving DecidableEq, Inhabited

/-- A thread of a batch with the operations that it still has to carry out. -/
structure Job where
  thread : Thread
  todo : List ProfilerOp
  stage : JobStage := .ready
  deriving Inhabited

namespace Job

def start (t : Thread) : Job := ⟨t, t.entryEvents.map (·.op), .ready⟩

/-- Goes on with the thread. -/
def proceed (reclaimEvery : Nat) (j : Job) : Job :=
  match j.stage with
  | .ready =>
    let (info, t) := j.thread.step
    ⟨t, (t.events info).map (·.op), .stepped⟩
  | .stepped =>
    let t := j.thread
    if t.exit.isSome then ⟨t.reclaim.1, [], .ended⟩
    else if 0 < reclaimEvery ∧ t.steps % reclaimEvery = 0 then ⟨t.reclaim.1, [], .ready⟩
    else ⟨t, [], .ready⟩
  | .ended => j

/-- Takes a turn: with a profiler, its operations come before the thread. -/
def move (reclaimEvery : Nat) (profiler : Option Profiler) (j : Job) : Job × Option Profiler :=
  match profiler, j.todo with
  | some p, op :: ops =>
    let (p, next) := p.perform op
    ({ j with todo := next.toList ++ ops }, some p)
  | _, _ => (j.proceed reclaimEvery, profiler)

end Job

/-- Threads that run side by side, and what they share. -/
structure Batch where
  jobs : List Job
  profiler : Option Profiler
  deriving Inhabited

namespace Batch

def start (profiler : Option Profiler) (threads : List Thread) : Batch :=
  ⟨threads.map .start, profiler⟩

/-- Gives a turn to one of the jobs. -/
def move (reclaimEvery : Nat) (b : Batch) (n : Nat) : Batch :=
  match b.jobs[n]? with
  | none => b
  | some j =>
    let (j, profiler) := j.move reclaimEvery b.profiler
    ⟨b.jobs.set n j, profiler⟩

/-- Gives turns to the jobs in the order of a schedule. -/
def run (reclaimEvery : Nat) (b : Batch) (schedule : List Nat) : Batch :=
  schedule.foldl (move reclaimEvery) b

/-- All threads have come to their ends. -/
def Finished (b : Batch) : Prop := ∀ j ∈ b.jobs, j.stage = .ended

instance (b : Batch) : Decidable b.Finished :=
  inferInstanceAs (Decidable (∀ j ∈ b.jobs, j.stage = .ended))

end Batch

end RegisterMachine
