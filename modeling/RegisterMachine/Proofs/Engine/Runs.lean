import RegisterMachine.Engine.Run
import RegisterMachine.Proofs.Engine.Effect
import RegisterMachine.Proofs.Engine.Start

/-!
# Runs

A thread is moved from outside by steps and by reclaims of its heap, in any order. `Thread.after` is
the thread after a list of such actions, `Thread.ahead` the one after some steps and nothing else,
and `Thread.Reachable` says that a thread comes about from the start of some program; running a
thread to its end, to a trap or until a budget is used up is one way to do so
(`Thread.Reachable.runFrom`). `Thread.Stepped` lists the outcomes of a single step, and
`Thread.Reachable.induction` reduces what holds of every reachable thread to the start and the two
actions.
-/

namespace RegisterMachine

/-- What is done to a thread from outside. -/
inductive Action where
  | step | reclaim
  deriving DecidableEq, Inhabited, Repr

namespace Thread

/-- The thread after one action. -/
def act (t : Thread) : Action → Thread
  | .step => t.step.2
  | .reclaim => t.reclaim.1

/-- The thread after some actions, the first one first. -/
def after (t : Thread) (as : List Action) : Thread := as.foldl act t

@[simp] theorem after_nil (t : Thread) : t.after [] = t := rfl

@[simp] theorem after_cons (t : Thread) (a : Action) (as : List Action) :
    t.after (a :: as) = (t.act a).after as := rfl

/-- Actions in a row are done one after the other. -/
theorem after_append (t : Thread) (as bs : List Action) :
    t.after (as ++ bs) = (t.after as).after bs := List.foldl_append

/-- The thread after some bare steps. -/
def ahead (t : Thread) (n : Nat) : Thread := t.after (List.replicate n .step)

@[simp] theorem ahead_zero (t : Thread) : t.ahead 0 = t := rfl

/-- Steps are taken one stretch after the other. -/
theorem ahead_add (t : Thread) (m n : Nat) : t.ahead (m + n) = (t.ahead m).ahead n := by
  rw [ahead, List.replicate_add, after_append]
  rfl

/-- One more step. -/
theorem ahead_succ (t : Thread) (n : Nat) : t.ahead (n + 1) = (t.ahead n).step.2 := t.ahead_add n 1

/-- The thread comes about from the start of a program by steps and reclaims. -/
def Reachable (t : Thread) : Prop :=
  ∃ id p opts t₀ as, start id p opts = .ok t₀ ∧ t₀.after as = t

/-- A thread that was just started is reachable. -/
theorem Reachable.start {id : Bytes} {p : Program} {opts : Options} {t : Thread}
    (h : Thread.start id p opts = .ok t) : t.Reachable :=
  ⟨id, p, opts, t, [], h, rfl⟩

/-- Whatever a reachable thread does, it stays reachable. -/
theorem Reachable.after {t : Thread} (h : t.Reachable) (as : List Action) :
    (t.after as).Reachable := by
  obtain ⟨id, p, opts, t₀, bs, hs, rfl⟩ := h
  exact ⟨id, p, opts, t₀, bs ++ as, hs, after_append t₀ bs as⟩

/-- An action of a reachable thread leaves it reachable. -/
theorem Reachable.act {t : Thread} (h : t.Reachable) (a : Action) : (t.act a).Reachable :=
  h.after [a]

/-- What a thread has and steps and reclaims keep, it has after any of them. -/
theorem after_induction {P : Thread → Prop} (step : ∀ {t : Thread}, P t → P t.step.2)
    (reclaim : ∀ {t : Thread}, P t → P t.reclaim.1) {t : Thread} (h : P t) (as : List Action) :
    P (t.after as) := by
  induction as generalizing t with
  | nil => exact h
  | cons a as ih =>
    refine ih ?_
    cases a with
    | step => exact step h
    | reclaim => exact reclaim h

/-- What holds at the start of every program and is kept by steps and reclaims holds of every
reachable thread. -/
theorem Reachable.induction {P : Thread → Prop}
    (start : ∀ {id p opts t}, Thread.start id p opts = .ok t → P t)
    (step : ∀ {t : Thread}, P t → P t.step.2) (reclaim : ∀ {t : Thread}, P t → P t.reclaim.1)
    {t : Thread} (h : t.Reachable) : P t := by
  obtain ⟨id, p, opts, t₀, as, hs, rfl⟩ := h
  exact after_induction step reclaim (start hs) as

/-- What a run does after a step that did not end it: it reclaims the heap when it is time to. -/
def upkeep (opts : RunOptions) (t : Thread) : List Action :=
  if 0 < opts.reclaimEvery ∧ t.steps % opts.reclaimEvery = 0 then [.reclaim] else []

/-- The steps and reclaims that make up a run. -/
def schedule (opts : RunOptions) : Nat → Thread → List Action
  | 0, _ => []
  | budget + 1, t =>
    if t.step.2.exit.isSome then [.step, .reclaim]
    else if t.step.1.kind = .trap ∧ opts.stopAtTrap then [.step]
    else .step :: (t.step.2.upkeep opts
      ++ schedule opts budget (t.step.2.after (t.step.2.upkeep opts)))

/-- A run that has not come to a halt goes on after a step and its upkeep. -/
theorem runFrom_succ (opts : RunOptions) (budget : Nat) (profiler : Option Profiler) (t : Thread) :
    t.runFrom opts (budget + 1) profiler =
      match t.step.2.exit with
      | some e =>
        ⟨t.step.2.reclaim.1, profiler.map (·.observe t.step.1 t.step.2), budget, .exited e⟩
      | none =>
        if t.step.1.kind = .trap ∧ opts.stopAtTrap then
          ⟨t.step.2, profiler.map (·.observe t.step.1 t.step.2), budget, .trapped⟩
        else
          runFrom opts budget (profiler.map (·.observe t.step.1 t.step.2))
            (t.step.2.after (t.step.2.upkeep opts)) := by
  have hupkeep : t.step.2.after (t.step.2.upkeep opts) =
      if 0 < opts.reclaimEvery ∧ t.step.2.steps % opts.reclaimEvery = 0 then t.step.2.reclaim.1
      else t.step.2 := by
    unfold upkeep
    split <;> rfl
  rw [hupkeep]
  rfl

/-- A run is made of the steps and reclaims of its schedule. -/
theorem runFrom_thread (opts : RunOptions) (budget : Nat) (profiler : Option Profiler)
    (t : Thread) : (t.runFrom opts budget profiler).thread = t.after (t.schedule opts budget) := by
  induction budget generalizing profiler t with
  | zero => rfl
  | succ budget ih =>
    rw [runFrom_succ, schedule]
    cases hexit : t.step.2.exit with
    | some e => rfl
    | none =>
      dsimp only [Option.isSome]
      rw [if_neg Bool.false_ne_true]
      split
      · rfl
      · rw [ih, after_cons, after_append]
        rfl

/-- A run is a list of steps and reclaims. -/
theorem runFrom_after (opts : RunOptions) (budget : Nat) (profiler : Option Profiler) (t : Thread) :
    ∃ as, (t.runFrom opts budget profiler).thread = t.after as :=
  ⟨_, runFrom_thread opts budget profiler t⟩

/-- A run of a reachable thread leaves it reachable. -/
theorem Reachable.runFrom {t : Thread} (h : t.Reachable) (opts : RunOptions) (budget : Nat)
    (profiler : Option Profiler) : (t.runFrom opts budget profiler).thread.Reachable := by
  obtain ⟨as, he⟩ := runFrom_after opts budget profiler t
  rw [he]
  exact h.after as

/-! ## One step -/

/-- The thread as an instruction finds it: running, and with the step counted. -/
def counted (t : Thread) : Thread :=
  { t with state := .running, trapped := false, steps := t.steps + 1 }

/-- Suspends the thread after a trap. -/
def settle (t : Thread) (k : StepKind) : Thread :=
  if k = .trap then { t with state := .suspended, trapped := true } else t

/-- The outcomes of a step. -/
inductive Stepped (t : Thread) : StepInfo → Thread → Prop
  /-- The thread has already ended. -/
  | ended : t.exit.isSome = true → Stepped t Thread.ended t
  /-- There is no frame. -/
  | noFrame : t.exit = none → t.stack.frames = [] → Stepped t Thread.ended (t.fail (-1) .noFrame)
  /-- The counter has left the program. -/
  | outside {f : Frame} {rest : List Frame} : t.exit = none → t.stack.frames = f :: rest →
      t.code[f.pc]? = none →
      Stepped t ⟨.exit, f.pc, -1, none⟩ (t.fail f.pc (.counterOutside f.pc t.code.size))
  /-- The instruction fails. -/
  | failed {f : Frame} {rest : List Frame} {i : Instruction} {e : Failure} : t.exit = none →
      t.stack.frames = f :: rest → t.code[f.pc]? = some i → t.counted.exec f i = .error e →
      Stepped t ⟨.exit, f.pc, -1, t.program.at? f.pc⟩
        ({ t.counted with heap := e.heap }.fail f.pc e.fault)
  /-- The instruction ends the thread. -/
  | finished {f : Frame} {rest : List Frame} {i : Instruction} {k : StepKind} {u : Thread} :
      t.exit = none → t.stack.frames = f :: rest → t.code[f.pc]? = some i →
      t.counted.exec f i = .ok (k, u) → u.exit.isSome = true →
      Stepped t ⟨.exit, f.pc, -1, t.program.at? f.pc⟩ u
  /-- The thread goes on. -/
  | moved {f : Frame} {rest : List Frame} {i : Instruction} {k : StepKind} {u : Thread} :
      t.exit = none → t.stack.frames = f :: rest → t.code[f.pc]? = some i →
      t.counted.exec f i = .ok (k, u) → u.exit = none →
      Stepped t ⟨k, f.pc, (u.settle k).location, t.program.at? f.pc⟩ (u.settle k)

/-- **A step has one of the listed outcomes.** -/
theorem step_stepped (t : Thread) : t.Stepped t.step.1 t.step.2 := by
  unfold step
  split
  · next hexit => exact .ended hexit
  · next hexit =>
    have hexit : t.exit = none := by simpa using hexit
    split
    · next htop => exact .noFrame hexit (by simpa [Stack.top?] using htop)
    · next f htop =>
      obtain ⟨rest, hf⟩ : ∃ rest, t.stack.frames = f :: rest := by
        simpa [Stack.top?, List.head?_eq_some_iff] using htop
      split
      · next hcode => exact .outside hexit hf hcode
      · next i hcode =>
        dsimp only
        split
        · next e hexec => exact .failed hexit hf hcode hexec
        · next k u hexec =>
          split
          · next hu => exact .finished hexit hf hcode hexec hu
          · next hu => exact .moved hexit hf hcode hexec (by simpa using hu)

/-- A thread that has ended is not moved by a step. -/
theorem step_ended {t : Thread} (hexit : t.exit.isSome = true) : t.step = (ended, t) := if_pos hexit

section

variable {t u : Thread} {f : Frame} {rest : List Frame} {i : Instruction}

/-- The step that executes an instruction. -/
theorem step_of_current (hexit : t.exit = none) (hf : t.stack.frames = f :: rest)
    (hcode : t.code[f.pc]? = some i) :
    t.step.2 = match t.counted.exec f i with
      | .error e => { t.counted with heap := e.heap }.fail f.pc e.fault
      | .ok (k, u) => if u.exit.isSome then u else u.settle k := by
  have htop : t.stack.top? = some f := by rw [Stack.top?, hf]; rfl
  have hlive : ¬t.exit.isSome = true := by
    rw [hexit]
    exact Bool.false_ne_true
  unfold step
  rw [if_neg hlive, htop]
  dsimp only
  rw [hcode]
  dsimp only
  cases hexec : t.counted.exec f i with
  | error e =>
    unfold counted at hexec
    rw [hexec]
    rfl
  | ok result =>
    obtain ⟨k, u⟩ := result
    unfold counted at hexec
    rw [hexec]
    dsimp only
    by_cases hu : u.exit.isSome = true
    · rw [if_pos hu, if_pos hu]
    · rw [if_neg hu, if_neg hu]
      rfl

/-- The step of an instruction that fails. -/
theorem step_of_exec_error {e : Failure} (hexit : t.exit = none) (hf : t.stack.frames = f :: rest)
    (hcode : t.code[f.pc]? = some i) (hexec : t.counted.exec f i = .error e) :
    t.step.2 = { t.counted with heap := e.heap }.fail f.pc e.fault := by
  rw [step_of_current hexit hf hcode, hexec]

/-- The step of an instruction that succeeds and does not end the thread. -/
theorem step_of_exec {k : StepKind} (hexit : t.exit = none) (hf : t.stack.frames = f :: rest)
    (hcode : t.code[f.pc]? = some i) (hexec : t.counted.exec f i = .ok (k, u))
    (hu : u.exit = none) : t.step.2 = u.settle k := by
  rw [step_of_current hexit hf hcode, hexec]
  dsimp only
  rw [hu]
  rfl

/-- The step that jumps to an instruction of the program. -/
theorem step_of_jump {a : UInt64} (hexit : t.exit = none) (hf : t.stack.frames = f :: rest)
    (hcode : t.code[f.pc]? = some ⟨.jump, .absolute a⟩) (ha : a.toNat < t.code.size) :
    t.step.2 = t.counted.jumpTo a.toNat := by
  have hexec : t.counted.exec f ⟨.jump, .absolute a⟩ = .ok (.jump, t.counted.jumpTo a.toNat) :=
    if_neg (Nat.not_le.2 ha)
  exact step_of_exec hexit hf hcode hexec hexit

end

/-! ## What actions leave alone -/

/-- Instructions leave the code, the literals, the native functions and the program alone. -/
theorem Effect.fixed {t u : Thread} {f : Frame} {i : Instruction} {k : StepKind}
    (he : t.Effect f i k u) :
    u.code = t.code ∧ u.literals = t.literals ∧ u.natives = t.natives ∧ u.program = t.program := by
  cases he <;> exact ⟨rfl, rfl, rfl, rfl⟩

/-- Settling a step changes the state and nothing else but whether the thread was trapped. -/
theorem settle_fields (u : Thread) (k : StepKind) :
    ∃ state trapped, u.settle k = { u with state, trapped } := by
  unfold settle
  split
  · exact ⟨_, _, rfl⟩
  · exact ⟨u.state, u.trapped, rfl⟩

/-- An action leaves the code, the literals, the native functions and the program alone. -/
theorem fixed_act (t : Thread) (a : Action) :
    (t.act a).code = t.code ∧ (t.act a).literals = t.literals ∧ (t.act a).natives = t.natives ∧
      (t.act a).program = t.program := by
  cases a with
  | reclaim => exact ⟨rfl, rfl, rfl, rfl⟩
  | step =>
    have hs := step_stepped t
    change t.step.2.code = t.code ∧ t.step.2.literals = t.literals ∧ t.step.2.natives = t.natives ∧
      t.step.2.program = t.program
    generalize t.step.1 = info at hs
    generalize t.step.2 = u at hs ⊢
    cases hs with
    | ended | noFrame | outside | failed => exact ⟨rfl, rfl, rfl, rfl⟩
    | finished _ _ _ hexec => exact (exec_effect hexec).fixed
    | @moved f rest i k u _ _ _ hexec =>
      obtain ⟨state, trapped, he⟩ := settle_fields u k
      rw [he]
      exact (exec_effect hexec).fixed

/-- Actions leave the code, the literals, the native functions and the program alone. -/
theorem unchanged_after (t : Thread) (as : List Action) :
    (t.after as).code = t.code ∧ (t.after as).literals = t.literals ∧
      (t.after as).natives = t.natives ∧ (t.after as).program = t.program := by
  induction as generalizing t with
  | nil => exact ⟨rfl, rfl, rfl, rfl⟩
  | cons a as ih =>
    obtain ⟨hcode, hliterals, hnatives, hprogram⟩ := t.fixed_act a
    obtain ⟨hcode', hliterals', hnatives', hprogram'⟩ := ih (t.act a)
    exact ⟨hcode'.trans hcode, hliterals'.trans hliterals, hnatives'.trans hnatives,
      hprogram'.trans hprogram⟩

/-- The code of a reachable thread is that of its program. -/
theorem Reachable.loadedAs {t : Thread} (h : t.Reachable) : t.program.LoadedAs t.code := by
  obtain ⟨id, p, opts, t₀, as, hs, rfl⟩ := h
  rw [(t₀.unchanged_after as).1, (t₀.unchanged_after as).2.2.2, program_start hs]
  exact loadedAs_start hs

/-- An instruction of the program without a literal stands in the code as it is. -/
theorem Reachable.getElem?_code {t : Thread} (h : t.Reachable) {n : Nat} {i : Instruction}
    (hi : t.program.instructions[n]? = some i)
    (hkind : ∀ v, i.operand = .immediate v → v.kind ≠ .string ∧ v.kind ≠ .array) :
    t.code[n]? = some i := by
  obtain ⟨id, p, opts, t₀, as, hs, rfl⟩ := h
  rw [(t₀.unchanged_after as).2.2.2, program_start hs] at hi
  rw [(t₀.unchanged_after as).1]
  obtain ⟨fn, s, _, _, rfl⟩ := start_inv hs
  rw [List.getElem?_toArray]
  exact getElem?_internLiterals (by simpa using hi) hkind

/-- Steps leave the name of a thread alone. -/
theorem id_step (t : Thread) : t.step.2.id = t.id := by
  have hs := step_stepped t
  generalize t.step.1 = info at hs
  generalize t.step.2 = u at hs ⊢
  cases hs with
  | ended | noFrame | outside | failed => rfl
  | finished _ _ _ hexec => cases exec_effect hexec <;> rfl
  | @moved f rest i k u _ _ _ hexec =>
    obtain ⟨state, trapped, he⟩ := settle_fields u k
    rw [he]
    cases exec_effect hexec <;> rfl

/-- A thread keeps its name, whatever it does. -/
theorem id_after (t : Thread) (as : List Action) : (t.after as).id = t.id :=
  after_induction (P := fun u => u.id = t.id) (fun {u} h => (id_step u).trans h) (fun h => h) rfl as

/-! ## The instruction that comes next -/

variable {t : Thread}

/-- The instruction that a thread executes next. -/
def current? (t : Thread) : Option Instruction :=
  if t.exit.isSome then none else t.stack.top?.bind fun f => t.code[f.pc]?

/-- A live thread is where the counter of its current frame is. -/
theorem location_of_frame {f : Frame} {rest : List Frame} (hlive : t.exit = none)
    (hf : t.stack.frames = f :: rest) : t.location = f.pc := by
  simp only [location, Stack.top?, hf, hlive, List.head?_cons]

/-- A live thread executes the instruction at the counter of its current frame. -/
theorem current?_of_frame {f : Frame} {rest : List Frame} (hexit : t.exit = none)
    (hf : t.stack.frames = f :: rest) : t.current? = t.code[f.pc]? := by
  simp only [current?, hexit, Stack.top?, hf]
  rfl

/-- A trap succeeds and does nothing else than to go on. -/
theorem exec_trap {f : Frame} {i : Instruction} (hi : i.mnemonic = .trap) :
    t.exec f i = .ok (.trap, t.jumpTo (f.pc + 1)) := by
  obtain ⟨m, op⟩ := i
  obtain rfl : m = .trap := hi
  rfl

/-- Nothing else than a trap is reported as one. -/
theorem Effect.mnemonic_eq_trap {u : Thread} {f : Frame} {i : Instruction}
    (h : t.Effect f i .trap u) : i.mnemonic = .trap := by
  cases h with
  | trap hi => exact hi

/-- **A step is reported as a trap when it executes a trap instruction.** -/
theorem step_kind_eq_trap :
    t.step.1.kind = .trap ↔ ∃ i, t.current? = some i ∧ i.mnemonic = .trap := by
  have hs := step_stepped t
  generalize t.step.1 = info at hs ⊢
  generalize t.step.2 = u at hs
  cases hs with
  | ended hexit => simp [current?, hexit, Thread.ended]
  | noFrame hexit hf => simp [current?, hexit, hf, Stack.top?, Thread.ended]
  | outside hexit hf hcode => simp [current?_of_frame hexit hf, hcode]
  | @failed f rest i e hexit hf hcode hexec =>
    simp only [current?_of_frame hexit hf, hcode, Option.some.injEq, exists_eq_left']
    refine ⟨fun h => (nomatch h), fun hi => ?_⟩
    rw [exec_trap hi] at hexec
    cases hexec
  | @finished f rest i k u hexit hf hcode hexec hu =>
    simp only [current?_of_frame hexit hf, hcode, Option.some.injEq, exists_eq_left']
    refine ⟨fun h => (nomatch h), fun hi => ?_⟩
    rw [exec_trap hi] at hexec
    cases hexec
    rw [show (t.counted.jumpTo (f.pc + 1)).exit = none from hexit] at hu
    cases hu
  | @moved f rest i k u hexit hf hcode hexec hu =>
    simp only [current?_of_frame hexit hf, hcode, Option.some.injEq, exists_eq_left']
    constructor
    · rintro rfl
      exact (exec_effect hexec).mnemonic_eq_trap
    · intro hi
      rw [exec_trap hi] at hexec
      cases hexec
      rfl

/-- A trap does not end the thread. -/
theorem exit_of_trap {i : Instruction} (hi : t.current? = some i) (hm : i.mnemonic = .trap) :
    t.step.2.exit = none := by
  have hkind := step_kind_eq_trap.2 ⟨i, hi, hm⟩
  have hs := step_stepped t
  generalize t.step.1 = info at hs hkind
  generalize t.step.2 = u at hs ⊢
  cases hs with
  | ended | noFrame | outside | failed | finished => cases hkind
  | @moved f rest i k u _ _ _ _ hu =>
    obtain ⟨state, trapped, he⟩ := settle_fields u k
    rw [he]
    exact hu

end Thread

end RegisterMachine
