import Mathlib.Data.List.Induction
import RegisterMachine.Proofs.Engine.Runs

/-!
# The life of a thread

`Thread.Lifecycle` says how the stage, the exit, the frames and the trap flag of a thread go
together. It holds at the start, and a step keeps it whichever way the step goes
(`Thread.Lifecycle.step`). `Thread.executed` lists the instructions that a run executes. The trap
flag tells whether the last of them was a trap (`Thread.trapped_after`), and the thread is suspended
when moreover it was not stepped since (`Thread.suspended_after`). The two differ in one case:
leaving the program does not execute an instruction, so a thread that goes past its end right after
a trap has ended with the flag still set. `Thread.lifecycle_after` says so for every run.
-/

namespace RegisterMachine.Thread

variable {t u : Thread} {f : Frame} {rest : List Frame} {i : Instruction} {k : StepKind}

/-! ## Stages -/

/-- Where the trap flag can be set: behind a trap that the thread waits at, or behind one that was
the last instruction of the code, when the thread has gone past the end. -/
inductive PastTrap (t : Thread) : Prop
  | waiting {n : Nat} {i : Instruction} {f : Frame} {rest : List Frame} : t.code[n]? = some i →
      i.mnemonic = .trap → t.exit = none → t.stack.frames = f :: rest → f.pc = n + 1 → PastTrap t
  | left {n : Nat} {i : Instruction} {e : Panic} : t.code[n]? = some i → i.mnemonic = .trap →
      n + 1 = t.code.size → t.exit = some (.panicked e) → e.reason = .counterOutOfRange →
      e.location.pc = t.code.size → PastTrap t

/-- How the fields of a thread that tell of its life go together. -/
structure Lifecycle (t : Thread) : Prop where
  exited : t.state = .exited ↔ t.exit.isSome = true
  frames : t.stack.frames = [] ↔ ∃ v, t.exit = some (.graceful v)
  suspended : t.state = .suspended ↔ t.trapped = true ∧ t.exit = none
  ready : t.state = .ready → t.steps = 0
  trap : t.trapped = true → t.PastTrap

/-- A thread that has not ended has a current frame. -/
theorem Lifecycle.exists_frame (h : t.Lifecycle) (hexit : t.exit = none) :
    ∃ f rest, t.stack.frames = f :: rest := by
  cases hf : t.stack.frames with
  | nil =>
    obtain ⟨v, hv⟩ := h.frames.1 hf
    rw [hexit] at hv
    cases hv
  | cons f rest => exact ⟨f, rest, rfl⟩

/-- A thread has no location when it has ended, and only then. -/
theorem Lifecycle.location (h : t.Lifecycle) : t.location = -1 ↔ t.exit.isSome = true := by
  unfold Thread.location
  cases hexit : t.exit with
  | some x => simp
  | none =>
    obtain ⟨f, rest, hf⟩ := h.exists_frame hexit
    simp only [Stack.top?, hf, List.head?_cons, Option.isSome_none, Bool.false_eq_true, iff_false]
    omega

/-- **What an instruction does to the life of a thread**: nothing, or it ends the thread and gives
the last frame up. -/
theorem Effect.stage (hf : t.stack.frames = f :: rest) (he : t.Effect f i k u) :
    u.trapped = t.trapped ∧ u.steps = t.steps ∧
      (u.exit = t.exit ∧ u.state = t.state ∧ u.stack.frames ≠ [] ∨
        (∃ v, u.exit = some (.graceful v)) ∧ u.state = .exited ∧ u.stack.frames = []) := by
  have hjump : ∀ {s : Stack} (pc : Nat), s.frames = f :: rest → (s.jump pc).frames ≠ [] := by
    intro s pc hs
    rw [Stack.frames_jump hs]
    simp
  cases he with
  | assign | update | pop | native | skip | jump | trap =>
    exact ⟨rfl, rfl, .inl ⟨rfl, rfl, hjump _ hf⟩⟩
  | store _ _ hset | free _ _ _ _ hset | clear _ _ _ _ hset =>
    obtain ⟨_, rfl⟩ := Stack.set_eq_ok.1 hset
    exact ⟨rfl, rfl, .inl ⟨rfl, rfl, hjump _ hf⟩⟩
  | call _ _ hpush =>
    obtain ⟨_, rfl⟩ := Stack.push_eq_ok.1 hpush
    exact ⟨rfl, rfl, .inl ⟨rfl, rfl, by simp⟩⟩
  | ret => exact ⟨rfl, rfl, .inl ⟨rfl, rfl, by simp⟩⟩
  | finish => exact ⟨rfl, rfl, .inr ⟨⟨_, rfl⟩, rfl, rfl⟩⟩

/-- A thread starts ready, with the frame of its main function. -/
theorem lifecycle_start {id : Bytes} {p : Program} {opts : Options} (h : start id p opts = .ok t) :
    t.Lifecycle := by
  obtain ⟨fn, s, _, hpush, rfl⟩ := start_inv h
  obtain ⟨_, rfl⟩ := Stack.push_eq_ok.1 hpush
  constructor <;> simp

/-- A thread that panics keeps its frames, and the trap flag only when no instruction was
executed. -/
theorem Lifecycle.fail {pc : Int} {fault : Fault} (hf : t.stack.frames = f :: rest)
    (htrap : t.trapped = true → (t.fail pc fault).PastTrap) : (t.fail pc fault).Lifecycle := by
  constructor
  · simp [Thread.fail]
  · simp [Thread.fail, hf]
  · simp [Thread.fail]
  · simp [Thread.fail]
  · exact htrap

/-- **A step keeps the stage, the exit, the frames and the trap flag in order.** -/
theorem Lifecycle.step (h : t.Lifecycle) : t.step.2.Lifecycle := by
  have hs := step_stepped t
  generalize t.step.1 = info at hs
  generalize t.step.2 = u at hs ⊢
  cases hs with
  | ended => exact h
  | noFrame hexit hf =>
    obtain ⟨v, hv⟩ := h.frames.1 hf
    rw [hexit] at hv
    cases hv
  | @outside f rest hexit hf hcode =>
    refine .fail hf fun htrap => ?_
    -- The trap right before the counter is the last instruction, since the counter has no
    -- instruction.
    cases h.trap htrap with
    | @waiting n i g rest' hi hm _ hg hpc =>
      rw [hf] at hg
      cases hg
      have hle : t.code.size ≤ f.pc := by simpa using hcode
      have hlt : n < t.code.size := (Array.getElem?_eq_some_iff.1 hi).1
      exact .left hi hm (show n + 1 = t.code.size by omega) rfl rfl
        (show (f.pc : Int) = t.code.size by omega)
    | left _ _ _ hpanic => rw [hexit] at hpanic; cases hpanic
  | failed _ hf => exact .fail (t := { t.counted with heap := _ }) hf fun htrap => (nomatch htrap)
  | @finished f rest i k u hexit hf _ hexec hu =>
    obtain ⟨htrap, _, ⟨hu', _⟩ | ⟨⟨v, hv⟩, hstate, hframes⟩⟩ :=
      Effect.stage (t := t.counted) hf (exec_effect hexec)
    · rw [hu', show t.counted.exit = none from hexit] at hu
      cases hu
    · have htrap : u.trapped = false := htrap
      constructor <;> simp [hstate, hv, hframes, htrap]
  | @moved f rest i k u hexit hf hi hexec hu =>
    obtain ⟨htrap, hsteps, ⟨_, hstate, hframes⟩ | ⟨⟨v, hv⟩, _⟩⟩ :=
      Effect.stage (t := t.counted) hf (exec_effect hexec)
    · have htrap : u.trapped = false := htrap
      have hstate : u.state = .running := hstate
      have hcode : u.code = t.code := (exec_effect hexec).fixed.1
      unfold settle
      split
      · next hk =>
        subst hk
        have hm := (exec_effect hexec).mnemonic_eq_trap
        rw [exec_trap hm] at hexec
        cases hexec
        have hframes' : (t.counted.jumpTo (f.pc + 1)).stack.frames =
            { f with pc := f.pc + 1 } :: rest :=
          Stack.frames_jump hf (f.pc + 1)
        constructor
        · simp [hu]
        · simp [hu, hframes']
        · simp [hu]
        · simp
        · intro _
          exact .waiting hi hm hu hframes' rfl
      · constructor <;> simp [hstate, hu, hframes, htrap]
    · rw [hu] at hv
      cases hv

/-- A step that ends a thread with a panic comes to a counter outside the program, or its
instruction fails. -/
theorem Lifecycle.panicked_step (h : t.Lifecycle) (hlive : t.exit = none) {e : Panic}
    (he : t.step.2.exit = some (.panicked e)) :
    ∃ f rest, t.stack.frames = f :: rest ∧
      (t.code[f.pc]? = none ∧ t.step.2 = t.fail f.pc (.counterOutside f.pc t.code.size) ∨
        ∃ i e', t.code[f.pc]? = some i ∧ t.counted.exec f i = .error e' ∧
          t.step.2 = { t.counted with heap := e'.heap }.fail f.pc e'.fault) := by
  have hs := step_stepped t
  generalize t.step.1 = info at hs
  generalize t.step.2 = u at hs he ⊢
  cases hs with
  | ended hexit => rw [hlive] at hexit; cases hexit
  | noFrame _ hf =>
    obtain ⟨f, rest, hf'⟩ := h.exists_frame hlive
    rw [hf] at hf'
    cases hf'
  | @outside f rest _ hf hcode => exact ⟨f, rest, hf, .inl ⟨hcode, rfl⟩⟩
  | @failed f rest i e' _ hf hcode hexec => exact ⟨f, rest, hf, .inr ⟨i, e', hcode, hexec, rfl⟩⟩
  | @finished f rest i k u _ hf _ hexec hu =>
    obtain ⟨_, _, ⟨hsame, _⟩ | ⟨⟨v, hv⟩, _⟩⟩ := Effect.stage (t := t.counted) hf (exec_effect hexec)
    · rw [hsame, show t.counted.exit = none from hlive] at he
      cases he
    · rw [hv] at he
      cases he
  | @moved f rest i k u _ _ _ _ hu =>
    obtain ⟨state, trapped, hsettle⟩ := settle_fields u k
    rw [hsettle] at he
    rw [show u.exit = some (.panicked e) from he] at hu
    cases hu

/-- A reclaim has no part in the life of a thread. -/
theorem Lifecycle.reclaim (h : t.Lifecycle) : t.reclaim.1.Lifecycle := by
  refine ⟨h.exited, h.frames, h.suspended, h.ready, fun htrap => ?_⟩
  cases h.trap htrap with
  | waiting hi hm hexit hf hpc => exact .waiting hi hm hexit hf hpc
  | left hi hm hlast hexit hreason hpc => exact .left hi hm hlast hexit hreason hpc

/-- **The life of every reachable thread is in order.** -/
theorem Reachable.lifecycle (h : t.Reachable) : t.Lifecycle :=
  Reachable.induction lifecycle_start Lifecycle.step Lifecycle.reclaim h

/-! ## What a run executes -/

/-- The instructions that steps and reclaims execute, in order. A step of a thread that has ended,
or whose counter has left the program, executes none. -/
def executed (t : Thread) : List Action → List Instruction
  | [] => []
  | .step :: as => t.current?.toList ++ t.step.2.executed as
  | .reclaim :: as => t.reclaim.1.executed as

/-- A step counts the instruction that it executes, and the trap flag tells whether that is a
trap. -/
theorem counted_step (h : t.Lifecycle) :
    t.step.2.steps = t.steps + t.current?.toList.length ∧
      t.step.2.trapped = (t.current?.map fun i => decide (i.mnemonic = .trap)).getD t.trapped := by
  have htrap := step_kind_eq_trap (t := t)
  have hs := step_stepped t
  generalize t.step.1 = info at hs htrap
  generalize t.step.2 = u at hs ⊢
  cases hs with
  | ended hexit => simp [current?, hexit]
  | noFrame hexit hf =>
    obtain ⟨f, rest, hf'⟩ := h.exists_frame hexit
    rw [hf] at hf'
    cases hf'
  | outside hexit hf hcode => simp [current?_of_frame hexit hf, hcode, Thread.fail]
  | failed hexit hf hcode hexec =>
    rw [current?_of_frame hexit hf, hcode] at htrap ⊢
    simpa [Thread.fail, counted] using htrap
  | @finished f rest i k u hexit hf hcode hexec hu =>
    rw [current?_of_frame hexit hf, hcode] at htrap ⊢
    obtain ⟨hflag, hsteps, _⟩ := Effect.stage (t := t.counted) hf (exec_effect hexec)
    simpa [hflag, hsteps, counted] using htrap
  | @moved f rest i k u hexit hf hcode hexec hu =>
    rw [current?_of_frame hexit hf, hcode] at htrap ⊢
    obtain ⟨hflag, hsteps, _⟩ := Effect.stage (t := t.counted) hf (exec_effect hexec)
    have hk : k = .trap ↔ i.mnemonic = .trap := by simpa using htrap
    unfold settle
    split
    · next h => simp [hk.1 h, hsteps, counted]
    · next h => simp [mt hk.2 h, hflag, hsteps, counted]

/-- **The trap flag tells whether the last instruction of a run was a trap**, and the steps count
the instructions. -/
theorem trapped_after (h : t.Lifecycle) (as : List Action) :
    (t.after as).steps = t.steps + (t.executed as).length ∧
      (t.after as).trapped =
        ((t.executed as).getLast?.map fun i => decide (i.mnemonic = .trap)).getD t.trapped := by
  induction as generalizing t with
  | nil => simp [executed]
  | cons a as ih =>
    cases a with
    | reclaim => exact ih h.reclaim
    | step =>
      obtain ⟨hsteps, htrap⟩ := counted_step h
      obtain ⟨hsteps', htrap'⟩ := ih h.step
      constructor
      · show (t.step.2.after as).steps = _
        rw [hsteps', hsteps, executed, List.length_append, Nat.add_assoc]
      · show (t.step.2.after as).trapped = _
        rw [htrap', htrap, executed, List.getLast?_append]
        cases (t.step.2.executed as).getLast? with
        | some i => simp
        | none => cases t.current? <;> simp

/-- Without an instruction to execute the thread has ended, or ends in the step. -/
theorem exit_of_no_instruction (hi : t.current? = none) : t.step.2.exit.isSome = true := by
  have hs := step_stepped t
  generalize t.step.1 = info at hs
  generalize t.step.2 = u at hs ⊢
  cases hs with
  | ended hexit => exact hexit
  | noFrame | outside => rfl
  | failed hexit hf hcode | finished hexit hf hcode | moved hexit hf hcode =>
    rw [current?_of_frame hexit hf, hcode] at hi
    cases hi

/-- A step suspends the thread when it executes a trap. -/
theorem suspended_step (h : t.Lifecycle) :
    t.step.2.state = .suspended ↔ ∃ i, t.current? = some i ∧ i.mnemonic = .trap := by
  rw [h.step.suspended, (counted_step h).2]
  constructor
  · rintro ⟨htrap, hexit⟩
    cases hi : t.current? with
    | some i => exact ⟨i, rfl, by simpa [hi] using htrap⟩
    | none =>
      have hend := exit_of_no_instruction hi
      rw [hexit] at hend
      cases hend
  · rintro ⟨i, hi, hm⟩
    exact ⟨by simp [hi, hm], exit_of_trap hi hm⟩

/-- Reclaims alone leave the stage of a thread as it is. -/
theorem state_after_reclaims {as : List Action} (h : .step ∉ as) :
    (t.after as).state = t.state := by
  induction as generalizing t with
  | nil => rfl
  | cons a as ih =>
    cases a with
    | step => exact absurd List.mem_cons_self h
    | reclaim => exact ih (t := t.reclaim.1) (fun hmem => h (List.mem_cons_of_mem _ hmem))

/-- **A thread is suspended when the last instruction was a trap and no step came after it.** -/
theorem suspended_after (h : t.Lifecycle) (hstate : t.state ≠ .suspended) (as : List Action) :
    (t.after as).state = .suspended ↔
      ∃ bs cs i, as = bs ++ .step :: cs ∧ .step ∉ cs ∧ (t.after bs).current? = some i ∧
        i.mnemonic = .trap := by
  constructor
  · intro hs
    -- From the last action back: a reclaim is skipped, and a step decides.
    induction as using List.reverseRecOn with
    | nil => exact absurd hs hstate
    | append_singleton as a ih =>
      rw [after_append] at hs
      cases a with
      | reclaim =>
        obtain ⟨bs, cs, i, rfl, hcs, hi, hm⟩ := ih hs
        exact ⟨bs, cs ++ [.reclaim], i, by simp, by simpa using hcs, hi, hm⟩
      | step =>
        have hlife := after_induction Lifecycle.step Lifecycle.reclaim h as
        obtain ⟨i, hi, hm⟩ := (suspended_step hlife).1 hs
        exact ⟨as, [], i, rfl, List.not_mem_nil, hi, hm⟩
  · rintro ⟨bs, cs, i, rfl, hcs, hi, hm⟩
    have hlife := after_induction Lifecycle.step Lifecycle.reclaim h bs
    rw [after_append, after_cons, state_after_reclaims hcs]
    exact (suspended_step hlife).2 ⟨i, hi, hm⟩

/-- A thread that has ended with the trap flag set went past the end of a program that ends with a
trap. -/
theorem Lifecycle.left_after_trap {p : Program} (h : t.Lifecycle) (hp : p.LoadedAs t.code)
    (htrap : t.trapped = true) (hexit : t.exit.isSome = true) :
    (∃ i, p.instructions.back? = some i ∧ i.mnemonic = .trap) ∧
      ∃ e, t.exit = some (.panicked e) ∧ e.reason = .counterOutOfRange ∧
        e.location.pc = p.length := by
  cases h.trap htrap with
  | waiting _ _ hnone => rw [hnone] at hexit; cases hexit
  | @left n j e hj hm hlast hpanic hreason hpc =>
    obtain ⟨i, hi, hloaded⟩ := hp.instructions hj
    have hn : p.instructions.size - 1 = n := by
      show p.length - 1 = n
      rw [← hp.size]
      omega
    refine ⟨⟨i, ?_, hloaded.mnemonic_eq.symm.trans hm⟩, e, hpanic, hreason, hp.size ▸ hpc⟩
    rw [Array.back?, hn, hi]

/-- **The life of a thread.** Whatever is done to a thread: it is in the stage of exited threads
when it has an exit, which is when it has no location; it is ready only before its first step; its
frames are all gone when it has ended gracefully; and it is suspended when the instruction that it
executed last was a trap and it was not stepped since. The trap flag tells no more than that the
last instruction was a trap. So besides suspended threads it is set for those that have ended right
after a trap, which happens when a program ends with a trap and the thread goes past its end. -/
theorem lifecycle_after {id : Bytes} {p : Program} {opts : Options} (ht : start id p opts = .ok t)
    (as : List Action) :
    ((t.after as).state = .exited ↔ (t.after as).exit.isSome = true) ∧
      ((t.after as).exit.isSome = true ↔ (t.after as).location = -1) ∧
      ((t.after as).state = .ready → (t.after as).steps = 0) ∧
      ((t.after as).stack.frames = [] ↔ ∃ v, (t.after as).exit = some (.graceful v)) ∧
      ((t.after as).state = .suspended ↔
        ∃ bs cs i, as = bs ++ .step :: cs ∧ .step ∉ cs ∧ (t.after bs).current? = some i ∧
          i.mnemonic = .trap) ∧
      ((t.after as).trapped = true ↔ ∃ i, (t.executed as).getLast? = some i ∧ i.mnemonic = .trap) ∧
      ((t.after as).state = .suspended ↔
        (t.after as).trapped = true ∧ (t.after as).exit = none) ∧
      ((t.after as).trapped = true → (t.after as).exit.isSome = true →
        (∃ i, p.instructions.back? = some i ∧ i.mnemonic = .trap) ∧
          ∃ e, (t.after as).exit = some (.panicked e) ∧ e.reason = .counterOutOfRange ∧
            e.location.pc = p.length) := by
  have hstart := lifecycle_start ht
  have h := ((Reachable.start ht).after as).lifecycle
  have hcode : (t.after as).code = t.code := (t.unchanged_after as).1
  obtain ⟨hready, hflag⟩ : t.state ≠ .suspended ∧ t.trapped = false := by
    obtain ⟨fn, s, _, _, rfl⟩ := start_inv ht
    exact ⟨by simp, rfl⟩
  refine ⟨h.exited, h.location.symm, h.ready, h.frames, suspended_after hstart hready as, ?_,
    h.suspended, h.left_after_trap (hcode ▸ loadedAs_start ht)⟩
  rw [(trapped_after hstart as).2, hflag]
  cases (t.executed as).getLast? <;> simp

/-- A main function that ends with a trap and does not return. -/
def endTrapSample : Program where
  arch := .b64
  mainExists := true
  entry := ⟨0, 3, 1⟩
  instructions :=
    #[⟨.function, .immediate (.int64 1)⟩, ⟨.store .a, .immediate (.int64 3)⟩, ⟨.trap, .implicit⟩]
  offsets := #[0, 18, 36]
  natives := []

/-- The trap suspends `endTrapSample`, also when its heap is reclaimed; the step after that ends it
with the trap flag still set. -/
theorem lifecycle_after_endTrapSample : ∃ t, start [] endTrapSample {} = .ok t ∧
    (t.after [.step, .reclaim]).state = .suspended ∧
    (t.after [.step, .reclaim, .step]).state = .exited ∧
    (t.after [.step, .reclaim, .step]).trapped = true ∧
    ∃ e, (t.after [.step, .reclaim, .step]).exit = some (.panicked e) ∧
      e.reason = .counterOutOfRange ∧ e.location.pc = 3 := by
  have ht : start [] endTrapSample {} = .ok _ := rfl
  obtain ⟨_, _, _, _, hsuspended, _⟩ := lifecycle_after ht [.step, .reclaim]
  obtain ⟨hexited, _, _, _, _, hflag, _, hleft⟩ := lifecycle_after ht [.step, .reclaim, .step]
  have htrap := hflag.2 ⟨⟨.trap, .implicit⟩, rfl, rfl⟩
  refine ⟨_, ht, hsuspended.2 ⟨[], [.reclaim], ⟨.trap, .implicit⟩, rfl, by simp, rfl, rfl⟩,
    hexited.2 rfl, htrap, ?_⟩
  exact (hleft htrap rfl).2

end RegisterMachine.Thread
