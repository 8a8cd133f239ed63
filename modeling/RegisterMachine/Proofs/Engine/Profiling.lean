import RegisterMachine.Proofs.Engine.CallReturn
import RegisterMachine.Proofs.Engine.Lifecycle
import RegisterMachine.Proofs.Engine.ProfilerCounts

/-!
# What is counted in runs

Several runs of one thread under one profiler (`Thread.runEach`) are a list of steps and reclaims
(`Thread.history`). `Thread.Profiled` says what a profiler that was with the thread from its start
has counted: the instructions that were executed and the frames that were pushed. A step keeps it
(`Thread.Profiled.step`), and so do runs. Two things are counted besides. The step that finds the
counter outside the program executes nothing, and counts as the first mnemonic (`Thread.strayed`);
and every run that begins before the first step counts the entry function (`Thread.entries`).
`Thread.profiled_runs` says so for every sequence of runs.
-/

namespace RegisterMachine.Thread

variable {t u : Thread}

/-- One run after the other under one profiler, each with its options and its budget. -/
def runEach (profiler : Option Profiler) (t : Thread) :
    List (RunOptions × Nat) → Option Profiler × Thread
  | [] => (profiler, t)
  | (opts, budget) :: runs =>
    let r := t.run opts budget profiler
    runEach r.profiler r.thread runs

/-- The steps and reclaims of some runs. -/
def history (t : Thread) : List (RunOptions × Nat) → List Action
  | [] => []
  | (opts, budget) :: runs =>
    t.schedule opts budget ++ (t.after (t.schedule opts budget)).history runs

/-- The frames on top of those that the thread has, after it became `u`. -/
def framesAbove (t u : Thread) : List Frame :=
  u.stack.frames.take (u.stack.frames.length - t.stack.frames.length)

/-- The frames that steps and reclaims push, in order. -/
def pushed (t : Thread) : List Action → List Frame
  | [] => []
  | .step :: as => t.framesAbove t.step.2 ++ t.step.2.pushed as
  | .reclaim :: as => t.reclaim.1.pushed as

/-- One when the thread ended because its counter was outside the program, and zero otherwise. -/
def strayed (t : Thread) : Nat :=
  match t.exit with
  | some (.panicked e) => if (t.code.size : Int) ≤ e.location.pc then 1 else 0
  | _ => 0

/-- How many of some runs begin before the first step. -/
def entries (t : Thread) : List (RunOptions × Nat) → Nat
  | [] => 0
  | (opts, budget) :: runs =>
    (if t.steps = 0 then 1 else 0) + (t.after (t.schedule opts budget)).entries runs

/-! ## One step -/

/-- No frames are on top of others when there are no more of them. -/
theorem framesAbove_of_le (h : u.stack.frames.length ≤ t.stack.frames.length) :
    t.framesAbove u = [] := by
  rw [framesAbove, Nat.sub_eq_zero_of_le h, List.take_zero]

/-- An instruction pushes a frame when it is a call, and only then. -/
theorem Effect.framesAbove {f : Frame} {rest : List Frame} {i : Instruction} {k : StepKind}
    (hf : t.stack.frames = f :: rest) (hl : t.stack.Laid) (he : t.Effect f i k u) :
    t.framesAbove u = (if k = .call then u.stack.top? else none).toList := by
  rcases he.stack_cases hf (hf ▸ hl.frames) with ⟨⟨⟨pc, hfr⟩, _⟩, _, hk⟩ |
    ⟨rfl, a, fn, s, _, hs, rfl⟩ | ⟨done, caller, lower, hfr, rfl, _, _, hu⟩ | ⟨_, rfl, hu⟩
  · rw [if_neg hk]
    exact framesAbove_of_le (by simp [hfr, hf])
  · obtain ⟨_, rfl⟩ := Stack.push_eq_ok.1 hs
    simp [Thread.framesAbove, Stack.top?]
  · exact framesAbove_of_le (by simp [hfr, hu])
  · exact framesAbove_of_le (by simp [hu])

/-- A thread that goes on has not strayed. -/
theorem strayed_of_live (h : t.exit = none) : t.strayed = 0 := by
  rw [strayed, h]

/-- A thread that ended gracefully has not strayed. -/
theorem strayed_of_graceful {v : Value} (h : t.exit = some (.graceful v)) : t.strayed = 0 := by
  rw [strayed, h]

/-- A thread that fails has strayed exactly if its counter is behind the code. -/
theorem strayed_fail (t : Thread) (pc : Int) (fault : Fault) :
    (t.fail pc fault).strayed = if (t.code.size : Int) ≤ pc then 1 else 0 := rfl

/-- What a profiler counts in the step of a thread from `t` to `u`, from `q` to `q'`. -/
structure CountsStep (t u : Thread) (q q' : Profiler) : Prop where
  complete : q'.Complete
  instructions : q'.stats.instructions + t.strayed =
    q.stats.instructions + t.current?.toList.length + u.strayed
  executions : ∀ m, q'.executions m + (if m = .load .a then t.strayed else 0) =
    q.executions m + t.current?.toList.countP (·.mnemonic = m) +
      if m = .load .a then u.strayed else 0
  calls : ∀ hash, q'.calls hash = q.calls hash + (t.framesAbove u).countP (·.hash = hash)

/-- Nothing is counted when there is no instruction to look for. -/
theorem CountsStep.nothing {q : Profiler} (hq : q.Complete) (hcurrent : t.current? = none)
    (hstrayed : u.strayed = t.strayed) (hu : u.stack = t.stack) : t.CountsStep u q q := by
  refine ⟨hq, ?_, fun m => ?_, fun hash => ?_⟩
  · simp [hcurrent, hstrayed]
  · simp [hcurrent, hstrayed]
  · simp [framesAbove, hu]

/-- The step that finds the counter outside the program counts as the first mnemonic. -/
theorem CountsStep.outside {q : Profiler} (hq : q.Complete) {pc : Nat} {next : Int}
    (hcurrent : t.current? = none) (ht : t.strayed = 0) (hu : u.strayed = 1)
    (hstack : u.stack = t.stack) : t.CountsStep u q (q.observe ⟨.exit, pc, next, none⟩ u) := by
  have hobserve : q.observe ⟨.exit, pc, next, none⟩ u =
      q.recordInstruction (Mnemonic.load .a).number := by
    rw [Mnemonic.number_eq_zero.2 rfl]
    simp [Profiler.observe, Int.not_lt.2 (Int.natCast_nonneg pc)]
  rw [hobserve]
  refine ⟨hq.recordInstruction _, ?_, fun m => ?_, fun hash => ?_⟩
  · simp [Profiler.stats_recordInstruction hq, hcurrent, ht, hu]
  · simp [Profiler.executions_recordInstruction hq, hcurrent, ht, hu]
  · simp [framesAbove, hstack]

/-- An instruction that is executed counts, and so does the frame that it pushes. -/
theorem CountsStep.instruction {q : Profiler} (hq : q.Complete) {k : StepKind} {pc : Nat}
    {next : Int} {i j : Instruction} (hcurrent : t.current? = some i) (hi : i.mnemonic = j.mnemonic)
    (ht : t.strayed = 0) (hu : u.strayed = 0)
    (hframes : t.framesAbove u = (if k = .call then u.stack.top? else none).toList) :
    t.CountsStep u q (q.observe ⟨k, pc, next, some j⟩ u) := by
  have hobserve : q.observe ⟨k, pc, next, some j⟩ u =
      (if k = .call then u.stack.top? else none).elim (q.recordInstruction i.mnemonic.number)
        fun f => ((q.recordInstruction i.mnemonic.number).recordCall f.hash).1 := by
    rw [hi, Profiler.observe, if_neg (Int.not_lt.2 (Int.natCast_nonneg pc))]
    cases k <;> cases u.stack.top? <;> rfl
  have hone : ∀ m, [i].countP (·.mnemonic = m) = if m = i.mnemonic then 1 else 0 := by
    intro m
    simp [List.countP_cons, eq_comm]
  rw [hobserve]
  generalize (if k = .call then u.stack.top? else none) = f at hframes
  cases f with
  | none =>
    refine ⟨hq.recordInstruction _, ?_, fun m => ?_, fun hash => ?_⟩
    · simp [Profiler.stats_recordInstruction hq, hcurrent, ht, hu]
    · simp [Profiler.executions_recordInstruction hq, hcurrent, ht, hu, hone]
    · simp [hframes]
  | some f =>
    refine ⟨(hq.recordInstruction _).recordCall _, ?_, fun m => ?_, fun hash => ?_⟩
    · simp [Profiler.stats_recordInstruction hq, hcurrent, ht, hu]
    · simp [Profiler.executions_recordInstruction hq, hcurrent, ht, hu, hone]
    · simp [hframes, Profiler.calls_recordCall, List.countP_cons, eq_comm]

/-- **What is counted in a step.** -/
theorem Reachable.countsStep (h : t.Reachable) {q : Profiler} (hq : q.Complete) :
    t.CountsStep t.step.2 q (q.observe t.step.1 t.step.2) := by
  have hs := step_stepped t
  generalize t.step.1 = info at hs ⊢
  generalize t.step.2 = u at hs ⊢
  cases hs with
  | ended hexit => exact .nothing hq (by simp [current?, hexit]) rfl rfl
  | noFrame hexit hf =>
    refine .nothing hq (by simp [current?, hexit, hf, Stack.top?]) ?_ rfl
    rw [strayed_of_live hexit, strayed_fail, if_neg (by omega)]
  | @outside f rest hexit hf hcode =>
    have hle : t.code.size ≤ f.pc := by simpa using hcode
    refine .outside hq ((current?_of_frame hexit hf).trans hcode) (strayed_of_live hexit) ?_ rfl
    rw [strayed_fail, if_pos (by omega)]
  | @failed f rest i e hexit hf hcode hexec =>
    obtain ⟨j, hj, hloaded⟩ := h.loadedAs.instructions hcode
    have hlt : f.pc < t.code.size := (Array.getElem?_eq_some_iff.1 hcode).1
    rw [show t.program.at? f.pc = some j from hj]
    refine .instruction hq ((current?_of_frame hexit hf).trans hcode) hloaded.mnemonic_eq
      (strayed_of_live hexit) ?_ (framesAbove_of_le (Nat.le_refl _))
    exact (strayed_fail _ _ _).trans (if_neg (show ¬ (t.code.size : Int) ≤ f.pc by omega))
  | @finished f rest i k u hexit hf hcode hexec hu =>
    obtain ⟨j, hj, hloaded⟩ := h.loadedAs.instructions hcode
    rw [show t.program.at? f.pc = some j from hj]
    obtain ⟨_, _, ⟨hsame, _⟩ | ⟨⟨v, hv⟩, _, hframes⟩⟩ :=
      Effect.stage (t := t.counted) hf (exec_effect hexec)
    · rw [hsame, show t.counted.exit = none from hexit] at hu
      cases hu
    · exact .instruction hq ((current?_of_frame hexit hf).trans hcode) hloaded.mnemonic_eq
        (strayed_of_live hexit) (strayed_of_graceful hv) (framesAbove_of_le (by simp [hframes]))
  | @moved f rest i k u hexit hf hcode hexec hu =>
    obtain ⟨j, hj, hloaded⟩ := h.loadedAs.instructions hcode
    rw [show t.program.at? f.pc = some j from hj]
    have hframes := Effect.framesAbove (t := t.counted) hf h.laid (exec_effect hexec)
    obtain ⟨state, trapped, hsettle⟩ := settle_fields u k
    rw [hsettle]
    exact .instruction hq ((current?_of_frame hexit hf).trans hcode) hloaded.mnemonic_eq
      (strayed_of_live hexit) (strayed_of_live hu) hframes

/-! ## Runs -/

/-- What is executed by actions in a row is executed one after the other. -/
theorem executed_append (t : Thread) (as bs : List Action) :
    t.executed (as ++ bs) = t.executed as ++ (t.after as).executed bs := by
  induction as generalizing t with
  | nil => rfl
  | cons a as ih =>
    cases a with
    | step =>
      simp only [List.cons_append, executed, ih, List.append_assoc]
      rfl
    | reclaim => exact ih t.reclaim.1

/-- The frames that actions in a row push are pushed one after the other. -/
theorem pushed_append (t : Thread) (as bs : List Action) :
    t.pushed (as ++ bs) = t.pushed as ++ (t.after as).pushed bs := by
  induction as generalizing t with
  | nil => rfl
  | cons a as ih =>
    cases a with
    | step =>
      simp only [List.cons_append, pushed, ih, List.append_assoc]
      rfl
    | reclaim => exact ih t.reclaim.1

/-- Without an instruction to execute, a step leaves the stack alone. -/
theorem stack_step_of_none (h : t.current? = none) : t.step.2.stack = t.stack := by
  have hs := step_stepped t
  generalize t.step.1 = info at hs
  generalize t.step.2 = u at hs ⊢
  cases hs with
  | ended | noFrame | outside => rfl
  | failed hexit hf hcode | finished hexit hf hcode | moved hexit hf hcode =>
    rw [current?_of_frame hexit hf, hcode] at h
    cases h

/-- Until an instruction is executed, the stack is as it was. -/
theorem stack_after_of_executed_nil {as : List Action} (h : t.executed as = []) :
    (t.after as).stack = t.stack := by
  induction as generalizing t with
  | nil => rfl
  | cons a as ih =>
    cases a with
    | reclaim => exact ih (t := t.reclaim.1) h
    | step =>
      obtain ⟨hnone, hrest⟩ := List.append_eq_nil_iff.1 h
      exact (ih (t := t.step.2) hrest).trans (stack_step_of_none (by simpa using hnone))

/-- What a profiler has counted after some actions and `n` entries, when it was new at the start. -/
structure Profiled (t : Thread) (as : List Action) (n : Nat) (q : Profiler) : Prop where
  complete : q.Complete
  instructions : q.stats.instructions = (t.executed as).length + (t.after as).strayed
  executions : ∀ m, q.executions m =
    (t.executed as).countP (·.mnemonic = m) + if m = .load .a then (t.after as).strayed else 0
  calls : ∀ hash, q.calls hash =
    (t.pushed as).countP (·.hash = hash) + if t.stack.top?.map (·.hash) = some hash then n else 0

variable {as : List Action} {n : Nat} {q : Profiler}

/-- At the start nothing has been counted. -/
theorem Profiled.start (h : t.exit = none) (threshold : Nat) : t.Profiled [] 0 { threshold } := by
  have hsum : (Profiler.stats { threshold }).instructions = 0 := by
    show (Array.replicate Mnemonic.all.length 0).toList.sum = 0
    simp
  refine ⟨by simp [Profiler.Complete], ?_, fun m => ?_, fun hash => ?_⟩
  · rw [hsum, after_nil, strayed_of_live h]; rfl
  · simp [executed, strayed_of_live h, Profiler.executions, m.number_lt]
  · simp [pushed, Profiler.calls, Profiler.function?]

/-- A step that is observed is counted. -/
theorem Profiled.step (h : t.Profiled as n q) (ht : t.Reachable) :
    t.Profiled (as ++ [.step]) n (q.observe (t.after as).step.1 (t.after as).step.2) := by
  obtain ⟨hcomplete, hinstructions, hexecutions, hcalls⟩ := (ht.after as).countsStep h.complete
  have hafter : t.after (as ++ [.step]) = (t.after as).step.2 := after_append t as _
  refine ⟨hcomplete, ?_, fun m => ?_, fun hash => ?_⟩
  · rw [executed_append, hafter]
    simp only [executed, List.append_nil, List.length_append]
    have := h.instructions
    omega
  · rw [executed_append, hafter]
    simp only [executed, List.append_nil, List.countP_append]
    have := h.executions m
    have := hexecutions m
    omega
  · rw [pushed_append]
    simp only [pushed, List.append_nil, List.countP_append, hcalls, h.calls]
    omega

/-- A reclaim is not counted. -/
theorem Profiled.reclaim (h : t.Profiled as n q) : t.Profiled (as ++ [.reclaim]) n q := by
  have hafter : t.after (as ++ [.reclaim]) = (t.after as).reclaim.1 := after_append t as _
  have hexecuted : t.executed (as ++ [.reclaim]) = t.executed as := by
    simp [executed_append, executed]
  have hpushed : t.pushed (as ++ [.reclaim]) = t.pushed as := by simp [pushed_append, pushed]
  refine ⟨h.complete, ?_, fun m => ?_, fun hash => ?_⟩
  · rw [hexecuted, hafter]; exact h.instructions
  · rw [hexecuted, hafter]; exact h.executions m
  · rw [hpushed]; exact h.calls hash

/-- The entry function is counted once more. -/
theorem Profiled.entry (h : t.Profiled as n q) :
    t.Profiled as (n + 1) (match t.stack.top? with
      | some f => (q.recordCall f.hash).1
      | none => q) := by
  cases htop : t.stack.top? with
  | none => exact ⟨h.complete, h.instructions, h.executions, by simpa [htop] using h.calls⟩
  | some f =>
    refine ⟨h.complete.recordCall _, by simpa using h.instructions, by simpa using h.executions, ?_⟩
    intro hash
    have := h.calls hash
    simp only [htop, Option.map_some, Option.some.injEq, Profiler.calls_recordCall,
      eq_comm] at this ⊢
    by_cases hhash : hash = f.hash
    · simp only [hhash, if_true] at this ⊢
      omega
    · simpa [hhash] using this

/-- A run counts the entry function when it begins before the first step. -/
theorem Profiled.begin (h : t.Profiled as n q) (ht : t.Reachable) (hsteps : t.steps = 0) :
    t.Profiled as (n + if (t.after as).steps = 0 then 1 else 0) (q.begin (t.after as)) := by
  have hcount := (trapped_after ht.lifecycle as).1
  by_cases hzero : (t.after as).steps = 0
  · have hnil : t.executed as = [] := List.eq_nil_of_length_eq_zero (by omega)
    rw [if_pos hzero, Profiler.begin, if_neg (by omega), stack_after_of_executed_nil hnil]
    exact h.entry
  · rw [if_neg hzero, Profiler.begin, if_pos (by omega)]
    exact h

/-- The upkeep after a step counts nothing. -/
theorem Profiled.upkeep (h : t.Profiled as n q) (opts : RunOptions) :
    t.Profiled (as ++ (t.after as).upkeep opts) n q := by
  unfold Thread.upkeep
  split
  · exact h.reclaim
  · simpa using h

/-- What a run counts. -/
theorem Profiled.runFrom (h : t.Profiled as n q) (ht : t.Reachable) (opts : RunOptions)
    (budget : Nat) :
    ∃ q', ((t.after as).runFrom opts budget (some q)).profiler = some q' ∧
      t.Profiled (as ++ (t.after as).schedule opts budget) n q' := by
  induction budget generalizing as q with
  | zero => exact ⟨q, rfl, by simpa [schedule] using h⟩
  | succ budget ih =>
    have hstep := h.step ht
    have hafter : t.after (as ++ [.step]) = (t.after as).step.2 := after_append t as _
    rw [runFrom_succ, schedule]
    cases hexit : (t.after as).step.2.exit with
    | some e => exact ⟨_, rfl, by simpa using hstep.reclaim⟩
    | none =>
      simp only [Option.isSome_none, Bool.false_eq_true, if_false]
      split
      · exact ⟨_, rfl, hstep⟩
      · have hrest := ih (hstep.upkeep opts)
        rw [after_append, hafter] at hrest
        simpa using hrest

/-- What several runs count. -/
theorem Profiled.runEach (h : t.Profiled as n q) (ht : t.Reachable) (hsteps : t.steps = 0)
    (runs : List (RunOptions × Nat)) :
    ∃ q', (t.after as).runEach (some q) runs =
      (some q', (t.after as).after ((t.after as).history runs)) ∧
      t.Profiled (as ++ (t.after as).history runs) (n + (t.after as).entries runs) q' := by
  induction runs generalizing as n q with
  | nil => exact ⟨q, rfl, by simpa [history, entries] using h⟩
  | cons run runs ih =>
    obtain ⟨opts, budget⟩ := run
    obtain ⟨q₁, hq₁, hrun⟩ := (h.begin ht hsteps).runFrom ht opts budget
    obtain ⟨q₂, hq₂, hrest⟩ := ih hrun
    rw [after_append] at hq₂ hrest
    refine ⟨q₂, ?_, ?_⟩
    · rw [history, after_append, ← hq₂, Thread.runEach]
      dsimp only [run]
      rw [runFrom_thread, Option.map_some, hq₁]
    · simpa [history, entries, Nat.add_assoc] using hrest

/-! ## From the start -/

/-- A thread that has ended keeps its exit. -/
theorem exit_after (h : t.exit.isSome = true) (as : List Action) : (t.after as).exit = t.exit := by
  refine after_induction (P := fun u => u.exit = t.exit) ?_ (fun hu => hu) rfl as
  intro u hu
  rw [step_ended (by rw [hu]; exact h)]
  exact hu

/-- A thread that has strayed stays so. -/
theorem strayed_after (h : t.strayed = 1) (as : List Action) : (t.after as).strayed = 1 := by
  have hexit : t.exit.isSome = true := by
    cases he : t.exit with
    | some e => rfl
    | none => rw [strayed_of_live he] at h; cases h
  rw [← h, strayed, strayed, exit_after hexit as, (t.unchanged_after as).1]

/-- A first step that executes nothing leaves the program. -/
theorem Reachable.strayed_of_unstepped (h : t.Reachable) (hexit : t.exit = none)
    (hsteps : t.step.2.steps = t.steps) : t.step.2.strayed = 1 := by
  have hcount := (counted_step h.lifecycle).1
  have hcurrent : t.current? = none := by
    cases hi : t.current? with
    | none => rfl
    | some i => rw [hi] at hcount; simp at hcount; omega
  obtain ⟨f, rest, hf⟩ := h.lifecycle.exists_frame hexit
  rw [current?_of_frame hexit hf] at hcurrent
  have hle : t.code.size ≤ f.pc := by simpa using hcurrent
  have hs := step_stepped t
  generalize t.step.1 = info at hs
  generalize t.step.2 = u at hs ⊢
  cases hs with
  | ended he => rw [hexit] at he; cases he
  | noFrame _ hf' => rw [hf] at hf'; cases hf'
  | outside _ hf' =>
    rw [hf] at hf'
    cases hf'
    rw [strayed_fail, if_pos (by omega)]
  | failed _ hf' hcode | finished _ hf' hcode | moved _ hf' hcode =>
    rw [hf] at hf'
    cases hf'
    rw [hcurrent] at hcode
    cases hcode

/-- No run begins before the first step once there was one. -/
theorem Reachable.entries_of_stepped (h : t.Reachable) (hsteps : 0 < t.steps)
    (runs : List (RunOptions × Nat)) : t.entries runs = 0 := by
  induction runs generalizing t with
  | nil => rfl
  | cons run runs ih =>
    obtain ⟨opts, budget⟩ := run
    have hcount := (trapped_after h.lifecycle (t.schedule opts budget)).1
    rw [entries, if_neg (by omega), Nat.zero_add]
    exact ih (h.after _) (by omega)

/-- A run with a budget begins with a step. -/
theorem schedule_succ (opts : RunOptions) (budget : Nat) (t : Thread) :
    ∃ as, t.schedule opts (budget + 1) = .step :: as := by
  rw [schedule]
  split
  · exact ⟨_, rfl⟩
  · split <;> exact ⟨_, rfl⟩

/-- The entry function is counted once when the first run takes a step that executes an
instruction. -/
theorem Reachable.entries_eq_one (h : t.Reachable) (hexit : t.exit = none) (hsteps : t.steps = 0)
    {opts : RunOptions} {budget : Nat} {runs : List (RunOptions × Nat)}
    (hend : (t.after (t.history ((opts, budget + 1) :: runs))).strayed = 0) :
    t.entries ((opts, budget + 1) :: runs) = 1 := by
  obtain ⟨as, has⟩ := schedule_succ opts budget t
  have hstepped : 0 < t.step.2.steps := by
    by_contra hzero
    have hstrayed := h.strayed_of_unstepped hexit (by omega)
    rw [history, has, List.cons_append, after_cons,
      strayed_after (t := t.act .step) hstrayed] at hend
    cases hend
  have hcount := (trapped_after h.lifecycle.step as).1
  rw [entries, if_pos hsteps, (h.after _).entries_of_stepped ?_]
  rw [has]
  exact Nat.lt_of_lt_of_le hstepped (by rw [after_cons]; show _ ≤ (t.step.2.after as).steps; omega)

/-- **The profiler counts what ran.** Whatever runs are made of a new thread under one new profiler,
stopped by traps or canceled after any number of steps: the total and the count of each mnemonic are
those of the instructions that were executed, the total being the number of steps, except that the
step that finds the counter outside the program counts as the first mnemonic, though it executes
nothing. The count of each function is the number of frames pushed for it, and that of the main
function is higher by the number of runs that begin before the first step. There is one such run
when the first run was not canceled before its first step and the thread did not leave the
program. -/
theorem profiled_runs {id : Bytes} {p : Program} {opts : Options} (ht : start id p opts = .ok t)
    (threshold : Nat) (runs : List (RunOptions × Nat)) :
    ∃ f q u, t.stack.frames = [f] ∧ u = t.after (t.history runs) ∧
      t.runEach (some { threshold }) runs = (some q, u) ∧
      q.stats.instructions = u.steps + u.strayed ∧
      (∀ m, q.executions m = (t.executed (t.history runs)).countP (·.mnemonic = m) +
        if m = .load .a then u.strayed else 0) ∧
      (∀ hash, q.calls hash = (t.pushed (t.history runs)).countP (·.hash = hash) +
        if f.hash = hash then t.entries runs else 0) ∧
      (u.strayed = 0 → (∃ run ∈ runs.head?, 0 < run.2) → t.entries runs = 1) := by
  have hreach : t.Reachable := .start ht
  obtain ⟨f, hframes, hexit, hsteps⟩ :
      ∃ f, t.stack.frames = [f] ∧ t.exit = none ∧ t.steps = 0 := by
    obtain ⟨fn, s, _, hpush, rfl⟩ := start_inv ht
    obtain ⟨_, rfl⟩ := Stack.push_eq_ok.1 hpush
    exact ⟨_, rfl, rfl, rfl⟩
  obtain ⟨q, hrun, hq⟩ := (Profiled.start hexit threshold).runEach hreach hsteps runs
  have hsum := (trapped_after hreach.lifecycle (t.history runs)).1
  refine ⟨f, q, _, hframes, rfl, hrun, ?_, hq.executions, fun hash => ?_, ?_⟩
  · rw [hq.instructions, hsum, hsteps, Nat.zero_add]
    rfl
  · have hcalls := hq.calls hash
    simpa [hframes, Stack.top?] using hcalls
  · rintro hstrayed ⟨⟨ropts, budget⟩, hrun, hbudget⟩
    cases runs with
    | nil => cases hrun
    | cons run runs =>
      cases hrun
      cases budget with
      | zero => cases hbudget
      | succ budget => exact hreach.entries_eq_one hexit hsteps hstrayed

/-- Two runs of `endTrapSample`, the first one canceled before its first step, count two
instructions of the one that is executed, and two calls of the main function. -/
theorem profiled_runs_endTrapSample : ∃ t q u, start [] endTrapSample {} = .ok t ∧
    t.runEach (some { threshold := 100 }) [({}, 0), ({}, 2)] = (some q, u) ∧ u.steps = 1 ∧
    q.stats.instructions = 2 ∧ q.executions .trap = 1 ∧ q.executions (.load .a) = 1 ∧
    q.calls 1 = 2 := by
  have ht : start [] endTrapSample {} = .ok _ := rfl
  obtain ⟨f, q, u, hframes, rfl, hrun, htotal, hexecutions, hcalls, _⟩ :=
    profiled_runs ht 100 [({}, 0), ({}, 2)]
  have hf : f.hash = 1 := by cases hframes; rfl
  refine ⟨_, q, _, ht, hrun, rfl, htotal, hexecutions .trap, hexecutions (.load .a), ?_⟩
  rw [hcalls 1, hf]
  rfl

end RegisterMachine.Thread
