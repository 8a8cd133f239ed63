import RegisterMachine.Proofs.Codec.AcceptedFile
import RegisterMachine.Proofs.Engine.Exhaustion
import RegisterMachine.Proofs.Engine.Lifecycle
import RegisterMachine.Proofs.Engine.Reclaiming

/-!
# What a panic reports

A panic tells of the thread as it was when the step began: where it stood, in bytes too
(`Program.offset_eq`), and which frames it had. Registers and stack are still those when the thread
has ended, and the heap has all its live entries; a failing instruction may have taken new ones.
`Thread.PanicReport` says so for one step, and `Thread.panic_report` for every run, together with
the fact that nothing moves a thread that has ended. Entries stay only as long as they have indices
of their own (`Thread.panic_overwrites_crampedSample`).
-/

namespace RegisterMachine

/-- The offset of an instruction is the size of those before it, and there is none behind the
last. -/
theorem Program.offset_eq {p : Program} {code : Bytes}
    (h : Instruction.encodeAll p.arch p.instructions.toList = .ok (code, p.offsets.toList))
    (n : Nat) : p.offset n =
      if n < p.length then
        ((((p.instructions.toList.take n).map (Instruction.size p.arch)).sum : Nat) : Int)
      else -1 := by
  have hoffsets := (Instruction.encodeFrom_eq_ok h).2
  have hn : p.offsets[n]? = if n < p.length then
      some ((p.instructions.toList.take n).map (Instruction.size p.arch)).sum else none := by
    rw [← Array.getElem?_toList, hoffsets, List.getElem?_map]
    split
    · next hlt => simp [show n < p.instructions.size from hlt]
    · next hge => simp [show p.instructions.size ≤ n from Nat.not_lt.1 hge]
  unfold Program.offset
  rw [if_neg (by omega), Int.toNat_natCast, hn]
  by_cases hlt : n < p.length
  · rw [if_pos hlt, if_pos hlt]
  · rw [if_neg hlt, if_neg hlt]

namespace Thread

variable {t s : Thread} {e : Panic}

/-- A panic that ends the thread `s` reports its current frame `f` and all its frames, and leaves
registers, stack and live heap entries of `s` as they are in the thread `u` that has ended. Steps
count instructions, so a thread that has left its program does not count one more. -/
structure PanicReport (s : Thread) (f : Frame) (rest : List Frame) (e : Panic) (u : Thread) :
    Prop where
  frames : s.stack.frames = f :: rest
  location : e.location = ⟨f.pc, s.program.offset f.pc⟩
  trace : e.trace = (f :: rest).map fun g => ⟨g.hash, g.entry, g.pc, g.base⟩
  registers : u.registers = s.registers
  stack : u.stack = s.stack
  heap : u.heap.entries.size < 2 ^ 32 → s.heap.Keeps u.heap
  steps : u.steps = s.steps + if f.pc < s.program.length then 1 else 0

/-- What a failing instruction leaves behind has all live entries. -/
theorem keeps_residue (hn : t.natives.Standard) (hw : t.heap.WellFormed) (f : Frame)
    (i : Instruction) (hsize : (t.residue f i).entries.size < 2 ^ 32) :
    t.heap.Keeps (t.residue f i) := by
  obtain hadds | ⟨v, _, he⟩ := residue_cases f i fun _ => hn.honest.addsStrings
  · exact hadds.keeps hw
  · rw [he] at hsize ⊢
    exact hw.keeps_deepCopy v hsize

/-- **A step that ends in a panic reports the thread as it was.** -/
theorem panicReport_step (h : s.Lifecycle) (hp : s.program.LoadedAs s.code)
    (hn : s.natives.Standard) (hw : s.heap.WellFormed) (hlive : s.exit = none)
    (he : s.step.2.exit = some (.panicked e)) : ∃ f rest, s.PanicReport f rest e s.step.2 := by
  obtain ⟨f, rest, hf, ⟨hcode, hu⟩ | ⟨i, e', hcode, hexec, hu⟩⟩ := h.panicked_step hlive he
  · rw [hu] at he ⊢
    cases he
    have hpc : ¬ f.pc < s.program.length := by
      rw [← hp.size]
      simpa using hcode
    refine ⟨f, rest, hf, rfl, ?_, rfl, rfl, fun _ => .refl _, ?_⟩
    · rw [trace, hf]
    · rw [if_neg hpc]
      rfl
  · rw [hu] at he ⊢
    cases he
    have hpc : f.pc < s.program.length := by
      rw [← hp.size]
      exact (Array.getElem?_eq_some_iff.1 hcode).1
    have hheap : e'.heap = s.counted.residue f i := exec_error hexec
    refine ⟨f, rest, hf, rfl, ?_, rfl, rfl, fun hsize => ?_, ?_⟩
    · show s.stack.frames.map _ = _
      rw [hf]
    · show s.heap.Keeps e'.heap
      have hsize : e'.heap.entries.size < 2 ^ 32 := hsize
      rw [hheap] at hsize ⊢
      exact keeps_residue (t := s.counted) hn hw f i hsize
    · rw [if_pos hpc]
      rfl

/-- **A thread that has ended stays as it is**, however often it is stepped. -/
theorem after_steps_of_exit (h : s.exit.isSome = true) (n : Nat) :
    s.after (List.replicate n .step) = s := by
  induction n with
  | zero => rfl
  | succ n ih =>
    show s.step.2.after (List.replicate n .step) = s
    rw [step_ended h]
    exact ih

/-- **Panics report the failing state, and an exit is final.** Whatever was done to a thread before,
with standard functions: if a step ends it with a panic, the panic reports the counter of the
current frame with the byte offset of its instruction, and the frames from the innermost on;
registers, slots and frames are as before the step, every live heap entry is there with its
generation and value, as long as indices have room in a reference, and the step is counted if the
counter was inside the program. Once a thread has ended, any number of steps leaves it as it is. -/
theorem panic_report {id : Bytes} {p : Program} {opts : Options} (ht : start id p opts = .ok t)
    (hn : opts.natives.Standard) (as : List Action) (hs : t.after as = s) :
    (∀ e, s.exit = none → s.step.2.exit = some (.panicked e) →
        ∃ f rest, s.PanicReport f rest e s.step.2 ∧ s.program = p ∧
          ∀ code, Instruction.encodeAll p.arch p.instructions.toList =
            .ok (code, p.offsets.toList) → e.location.offset =
              if f.pc < p.length then
                ((((p.instructions.toList.take f.pc).map (Instruction.size p.arch)).sum : Nat) :
                  Int)
              else -1) ∧
      ∀ x, s.exit = some x → s.step.1 = ended ∧ ∀ n, s.after (List.replicate n .step) = s := by
  subst hs
  obtain ⟨hcode, _, hnatives, hprogram⟩ := t.unchanged_after as
  have hloaded := loadedAs_start ht
  have hp := program_start ht
  obtain ⟨_, hopts, _⟩ := start_eq_ok ht
  constructor
  · intro e hlive he
    obtain ⟨f, rest, hreport⟩ := panicReport_step ((Reachable.start ht).after as).lifecycle
      (by rw [hprogram, hp, hcode]; exact hloaded) (by rw [hnatives, hopts]; exact hn)
      (wellFormed_after (by rw [hopts]; exact hn) (wellFormed_start ht) as) hlive he
    refine ⟨f, rest, hreport, hprogram.trans hp, fun code hoffsets => ?_⟩
    rw [hreport.location, hprogram, hp]
    exact Program.offset_eq hoffsets f.pc
  · intro x hx
    have hended : (t.after as).exit.isSome = true := by simp [hx]
    exact ⟨by rw [step_ended hended], after_steps_of_exit hended⟩

/-- A main function that calls another, which copies an array with an element that was freed. -/
def reportSample : Program where
  arch := .b16
  mainExists := true
  entry := ⟨0, 4, 1⟩
  instructions :=
    #[⟨.function, .immediate (.int64 1)⟩, ⟨.store .a, .immediate (.int64 4)⟩, ⟨.call, .absolute 4⟩,
      ⟨.ret, .implicit⟩, ⟨.function, .immediate (.int64 2)⟩, ⟨.store .a, .immediate (.int64 14)⟩,
      ⟨.newArray, .implicit⟩, ⟨.store .a, .absolute 0⟩, ⟨.newArray, .implicit⟩,
      ⟨.push, .absolute 0⟩,
      ⟨.store .a, .absolute 1⟩, ⟨.free, .absolute 0⟩, ⟨.clone, .absolute 1⟩, ⟨.ret, .implicit⟩]
  offsets := #[0, 13, 26, 29, 30, 43, 56, 57, 60, 61, 64, 67, 70, 73]
  natives := []

/-- The eighth step of `reportSample` ends in a panic two frames deep, which reports the copying
instruction at byte 70, and leaves the array in its entry; further steps change nothing. -/
theorem panic_report_reportSample : ∃ t e f rest, start [] reportSample {} = .ok t ∧
    (t.after (List.replicate 7 .step)).step.2.exit = some (.panicked e) ∧
    (t.after (List.replicate 7 .step)).PanicReport f rest e (t.after (List.replicate 8 .step)) ∧
    f.pc = 12 ∧ rest.length = 1 ∧ e.location.offset = 70 ∧
    (t.after (List.replicate 8 .step)).heap.entries[1]? = some ⟨0, true, .array [.heapRef ⟨0, 0⟩]⟩ ∧
    (t.after (List.replicate 8 .step)).after (List.replicate 5 .step) =
      t.after (List.replicate 8 .step) := by
  have ht : start [] reportSample {} = .ok _ := rfl
  have hn : ({} : Options).natives.Standard := fun fn h => nomatch h
  obtain ⟨f, rest, hreport, _, hoffset⟩ :=
    (panic_report ht hn (List.replicate 7 .step) rfl).1 _ rfl rfl
  have hended := ((panic_report ht hn (List.replicate 8 .step) rfl).2 _ rfl).2 5
  have hframes := hreport.frames
  cases hframes
  exact ⟨_, _, _, _, ht, rfl, hreport, rfl, rfl, hoffset _ rfl,
    hreport.heap (by decide) 1 _ rfl rfl, hended⟩

/-- A main function that copies an array over and over, after it has used the first entry twice. -/
def crampedSample : Program where
  arch := .b64
  mainExists := true
  entry := ⟨0, 13, 1⟩
  instructions :=
    #[⟨.function, .immediate (.int64 1)⟩, ⟨.store .a, .immediate (.int64 13)⟩,
      ⟨.newArray, .implicit⟩, ⟨.store .a, .absolute 0⟩, ⟨.free, .absolute 0⟩,
      ⟨.newArray, .implicit⟩, ⟨.store .a, .absolute 0⟩,
      ⟨.newArray, .implicit⟩, ⟨.push, .absolute 0⟩, ⟨.store .a, .absolute 1⟩, ⟨.clone, .absolute 1⟩,
      ⟨.jump, .absolute 10⟩, ⟨.ret, .implicit⟩]
  offsets := #[]
  natives := []

/-- **A panic can change a live entry when all indices have been given out.** The copy that follows
in `crampedSample` fails after it has written over the array that it copies. -/
theorem panic_overwrites_crampedSample : ∃ t s e,
    start [] crampedSample { natives := .std } = .ok t ∧
    t.after (List.replicate (2 ^ 32 + 6) .step) = s ∧ s.exit = none ∧
    s.step.2.exit = some (.panicked e) ∧ s.heap.get ⟨1, 0⟩ = .ok (.array [.heapRef ⟨0, 1⟩]) ∧
    s.step.2.heap.get ⟨1, 0⟩ = .ok (.array []) := by
  obtain ⟨t, ht⟩ : ∃ t, start [] crampedSample { natives := .std } = .ok t := ⟨_, rfl⟩
  have hloop : (t.ahead 8).CopyLoop
      { hash := 1, entry := 0, stop := 13, base := 0, window := 13, pc := 10 } 1 2 := by
    cases ht
    exact ⟨⟨_, ⟨rfl, rfl, rfl, 10, rfl, rfl⟩, .clone rfl⟩, ⟨rfl, rfl, rfl, rfl⟩⟩
  obtain ⟨s, hs, hfull⟩ := hloop.full
  obtain ⟨h, e, hcopy, houter⟩ := Heap.Paired.deepCopy_full_error hfull.heap (by decide)
  obtain ⟨hlive, ⟨p, hexit⟩, hheap⟩ := hfull.failed hcopy
  have hsteps : t.after (List.replicate (2 ^ 32 + 6) .step) = s := by
    have hcount : 2 ^ 32 + 6 = 8 + 2 * (2 ^ 31 - 1) := by decide
    rw [hcount, ← hs]
    exact t.ahead_add 8 _
  exact ⟨t, s, p, ht, hsteps, hlive, hexit, hfull.heap.outer, hheap ▸ houter⟩

end Thread

end RegisterMachine
