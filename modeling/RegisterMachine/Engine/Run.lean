import RegisterMachine.Engine.Profiler

/-!
# Running threads

A run steps a thread until it ends, or until a budget of steps is used up, which leaves the thread
so that it can go on. On the way the heap may be reclaimed at intervals; at the end it always is.
Several threads run one after the other, since they share no memory.
-/

namespace RegisterMachine

/-- How a thread is run. -/
structure RunOptions where
  /-- Reclaim the heap after so many steps; zero means only at the end. -/
  reclaimEvery : Nat := 0
  /-- Stop at a trap instead of going on. -/
  stopAtTrap : Bool := false
  deriving DecidableEq, Inhabited

/-- How a run came to a halt. -/
inductive RunEnd where
  | exited (e : Exit)
  | trapped
  /-- The budget was used up. -/
  | canceled
  deriving DecidableEq, Inhabited

/-- What a run leaves behind. -/
structure RunResult where
  thread : Thread
  profiler : Option Profiler
  /-- What is left of the budget. -/
  budget : Nat
  halt : RunEnd
  deriving Inhabited

namespace Thread

/-- Steps until the thread ends, traps or the budget is used up. -/
def runFrom (opts : RunOptions) : Nat → Option Profiler → Thread → RunResult
  | 0, profiler, t => ⟨t, profiler, 0, .canceled⟩
  | budget + 1, profiler, t =>
    let (info, t) := t.step
    let profiler := profiler.map (·.observe info t)
    match t.exit with
    | some e => ⟨t.reclaim.1, profiler, budget, .exited e⟩
    | none =>
      if info.kind = .trap ∧ opts.stopAtTrap then ⟨t, profiler, budget, .trapped⟩
      else
        let t := if 0 < opts.reclaimEvery ∧ t.steps % opts.reclaimEvery = 0 then t.reclaim.1 else t
        runFrom opts budget profiler t

/-- Runs a thread; a profiler counts its entry function first. -/
def run (opts : RunOptions) (budget : Nat) (profiler : Option Profiler) (t : Thread) : RunResult :=
  runFrom opts budget (profiler.map (·.begin t)) t

end Thread

/-- What running several threads leaves behind. -/
structure BatchResult where
  threads : List Thread
  profiler : Option Profiler
  budget : Nat
  /-- Whether a run was canceled; the threads after it did not run. -/
  canceled : Bool
  deriving Inhabited

/-- Runs threads to their ends with one budget and one profiler. Traps never stop them. -/
def runAll (reclaimEvery : Nat) : Nat → Option Profiler → List Thread → BatchResult
  | budget, profiler, [] => ⟨[], profiler, budget, false⟩
  | budget, profiler, t :: ts =>
    let r := t.run { reclaimEvery } budget profiler
    match r.halt with
    | .canceled => ⟨r.thread :: ts, r.profiler, r.budget, true⟩
    | _ =>
      let rest := runAll reclaimEvery r.budget r.profiler ts
      { rest with threads := r.thread :: rest.threads }

end RegisterMachine
