import RegisterMachine.Engine.Step

/-!
# Profiling

A profiler counts how often functions are called and instructions executed. A function becomes hot
when its count reaches a threshold, which is announced once.
-/

namespace RegisterMachine

/-- The profile of one function. -/
structure FunctionProfile where
  hash : UInt64
  count : Nat
  hot : Bool
  deriving DecidableEq, Inhabited

/-- Counts of calls and instructions. -/
structure Profiler where
  threshold : Nat := 100
  functions : List FunctionProfile := []
  /-- Counts by the number of the mnemonic. -/
  instructions : Array Nat := Array.replicate Mnemonic.all.length 0
  /-- How many functions became hot. -/
  hotCount : Nat := 0
  /-- The announcements of hot functions, the last one first. -/
  announced : List FunctionProfile := []
  deriving DecidableEq, Inhabited

namespace Profiler

/-- The profile of a function. -/
def function? (p : Profiler) (hash : UInt64) : Option FunctionProfile :=
  p.functions.find? (·.hash == hash)

/-- How often a function was called. -/
def calls (p : Profiler) (hash : UInt64) : Nat := ((p.function? hash).map (·.count)).getD 0

/-- Whether a function is hot. -/
def isHot (p : Profiler) (hash : UInt64) : Bool :=
  match p.function? hash with
  | some f => f.hot
  | none => false

/-- Counts a call, and says whether it made the function hot. -/
def recordCall (p : Profiler) (hash : UInt64) : Profiler × Bool :=
  let before := (p.function? hash).getD ⟨hash, 0, false⟩
  let count := before.count + 1
  let becomesHot := p.threshold ≤ count && !before.hot
  let after : FunctionProfile := ⟨hash, count, before.hot || becomesHot⟩
  let functions :=
    if (p.function? hash).isSome then p.functions.map fun f => if f.hash == hash then after else f
    else p.functions ++ [after]
  if becomesHot then
    ({ p with functions, hotCount := p.hotCount + 1, announced := after :: p.announced }, true)
  else ({ p with functions }, false)

/-- Counts an instruction by the number of its mnemonic; numbers that are none do not count. -/
def recordInstruction (p : Profiler) (number : Nat) : Profiler :=
  { p with instructions := p.instructions.modify number (· + 1) }

/-- Counts a step that a thread took. A step outside the program counts as the first mnemonic. -/
def observe (p : Profiler) (info : StepInfo) (t : Thread) : Profiler :=
  if info.pc < 0 then p
  else
    let p := p.recordInstruction ((info.instruction.map (·.mnemonic.number)).getD 0)
    match info.kind, t.stack.top? with
    | .call, some f => (p.recordCall f.hash).1
    | _, _ => p

/-- Counts the call of the entry function of a thread that has not stepped yet. -/
def begin (p : Profiler) (t : Thread) : Profiler :=
  if 0 < t.steps then p
  else match t.stack.top? with
    | some f => (p.recordCall f.hash).1
    | none => p

/-- Totals over all functions and instructions. -/
structure Stats where
  functions : Nat
  hot : Nat
  calls : Nat
  instructions : Nat
  deriving DecidableEq, Inhabited

def stats (p : Profiler) : Stats :=
  ⟨p.functions.length, p.hotCount, (p.functions.map (·.count)).sum, p.instructions.toList.sum⟩

/-- Keeps the first `n`, or all when `n` is negative. -/
def firstOf {α : Type} (n : Int) (xs : List α) : List α := if n < 0 then xs else xs.take n.toNat

/-- The functions called most, those called equally often in the order of their hashes. -/
def topFunctions (p : Profiler) (n : Int) : List FunctionProfile :=
  firstOf n (p.functions.mergeSort fun f g =>
    if f.count = g.count then f.hash ≤ g.hash else g.count < f.count)

/-- The mnemonics executed most with their counts, equal counts in table order; mnemonics that were
never executed are left out. -/
def topInstructions (p : Profiler) (n : Int) : List (Mnemonic × Nat) :=
  let counts := (Mnemonic.all.zip p.instructions.toList).filter (0 < ·.2)
  firstOf n (counts.mergeSort fun f g => g.2 ≤ f.2)

/-- Forgets all counts, but not the threshold nor what was announced. -/
def reset (p : Profiler) : Profiler := { threshold := p.threshold, announced := p.announced }

end Profiler

end RegisterMachine
