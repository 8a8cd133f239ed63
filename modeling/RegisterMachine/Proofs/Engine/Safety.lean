import RegisterMachine.Proofs.Codec.AcceptedFile
import RegisterMachine.Proofs.Engine.Faults
import RegisterMachine.Proofs.Engine.Lifecycle
import RegisterMachine.Proofs.Engine.Reclaiming
import RegisterMachine.Proofs.Engine.StackLayout

/-!
# Safety of accepted programs

A program that was read from a file has legal instructions only, and with addresses of two or four
bytes it cannot name the one index whose successor is no 64-bit number: it is `Executable`. So a
step that ends the thread with a panic does so for an expected reason (`Thread.reason_of_panicked`),
and a run never ends with a fault of the engine itself or for want of a frame. `Thread.InRange`
collects what the engine relies on without a check; every thread that runs such a program has it,
whatever is done to it (`Thread.accepted_safe`).
-/

namespace RegisterMachine

/-! ## Standard functions -/

/-- Restricting the standard functions leaves standard functions only. -/
theorem NativeRegistry.standard_restrict (names : List Bytes) : (std.restrict names).Standard := by
  intro fn hfn
  unfold restrict at hfn
  split at hfn
  · exact hfn
  · exact (List.mem_filter.1 hfn).1

/-- **A standard function looks at no more arguments than it takes.** -/
theorem NativeRegistry.Standard.code_take {r : NativeRegistry} {hash : UInt64} {fn : NativeFunction}
    (hr : r.Standard) (hfn : r.lookup? hash = some fn) (h : Heap) (args : List Value) :
    fn.code h (args.take fn.arity) = fn.code h args := by
  have hmem := hr fn (List.mem_of_find?_eq_some hfn)
  simp only [std, List.mem_cons, List.not_mem_nil, or_false] at hmem
  rcases hmem with rfl | rfl | rfl
  · cases args <;> rfl
  · cases args <;> rfl
  · match args with
    | [] | [_] | _ :: _ :: _ => rfl

/-! ## Code that can be executed -/

/-- Code that the engine can execute: instructions are legal, and the indices at which headers are
looked for have a successor that is a 64-bit number. -/
structure Executable (code : Array Instruction) : Prop where
  legal : ∀ i ∈ code, i.isLegal = true
  calls : ∀ a, ⟨.call, .absolute a⟩ ∈ code → a.toNat < 2 ^ 63 - 1
  size : code.size < 2 ^ 63

/-- The instructions of an accepted program are legal and fit its architecture, and so does their
number. -/
theorem Program.fits_of_deserialize {data : Bytes} {p : Program} (h : deserialize data = .ok p) :
    (∀ i ∈ p.instructions, i.isLegal = true ∧ i.operand.fits p.arch = true) ∧
      p.length ≤ p.arch.maxAddress := by
  obtain ⟨arch, main, rest, _, _, hbody⟩ := readBody_of_deserialize h
  obtain ⟨rfl, _, _, _, numbers, code, tail, hnumbers, hcode, _⟩ := writesBack_readBody hbody
  constructor
  · intro i hi
    exact (Instruction.encodeFrom_eq_ok hcode).1 i (Array.mem_toList_iff.2 hi)
  · have hlength : p.length ∈ p.headNumbers := by simp [headNumbers]
    obtain ⟨bs, _, hbs⟩ := exists_of_mem_forall₂ (Except.mapM_eq_ok.1 hnumbers) hlength
    exact Arch.exists_encodeAddress_iff.1 ⟨bs, hbs⟩

/-- Addresses of two or four bytes stay far below the largest 64-bit number. -/
theorem Arch.maxAddress_lt_of_narrow {arch : Arch} (h : arch = .b16 ∨ arch = .b32) :
    arch.maxAddress < 2 ^ 63 - 1 := by
  rcases h with rfl | rfl <;> decide

/-- An instruction that is executed is loaded from one of the program. -/
theorem Program.LoadedAs.exists_loaded {p : Program} {code : Array Instruction}
    (hcode : p.LoadedAs code) {j : Instruction} (hj : j ∈ code) :
    ∃ i ∈ p.instructions, i.Loaded j := by
  obtain ⟨n, hn, rfl⟩ := Array.mem_iff_getElem.1 hj
  obtain ⟨i, hi, hij⟩ := hcode.instructions (Array.getElem?_eq_getElem hn)
  exact ⟨i, Array.mem_of_getElem? hi, hij⟩

/-- Accepted programs have legal instructions when they are executed. -/
theorem Program.LoadedAs.legal {data : Bytes} {p : Program} {code : Array Instruction}
    (hcode : p.LoadedAs code) (h : deserialize data = .ok p) : ∀ j ∈ code, j.isLegal = true := by
  intro j hj
  obtain ⟨i, hi, hij⟩ := hcode.exists_loaded hj
  rw [Instruction.isLegal, hij.mnemonic_eq, hij.mode_eq]
  exact ((fits_of_deserialize h).1 i hi).1

/-- **Accepted programs can be executed**, if their addresses have two or four bytes. -/
theorem Program.LoadedAs.executable {data : Bytes} {p : Program} {code : Array Instruction}
    (hcode : p.LoadedAs code) (h : deserialize data = .ok p)
    (harch : p.arch = .b16 ∨ p.arch = .b32) : Executable code := by
  obtain ⟨hlegal, hlength⟩ := fits_of_deserialize h
  have hmax := Arch.maxAddress_lt_of_narrow harch
  refine ⟨hcode.legal h, fun a hj => ?_, ?_⟩
  · -- A call has no immediate value, so it stands in the code as in the program.
    obtain ⟨i, hi, hij⟩ := hcode.exists_loaded hj
    generalize hcall : (⟨.call, .absolute a⟩ : Instruction) = j at hij
    cases hij with
    | literal => simp at hcall
    | same =>
      subst hcall
      have hfits : a.toNat ≤ p.arch.maxAddress := by simpa [Operand.fits] using (hlegal _ hi).2
      omega
  · rw [hcode.size]
    omega

namespace Thread

variable {t : Thread}

/-! ## Panics -/

/-- **A step that ends a thread with a panic has an expected reason.** -/
theorem reason_of_panicked (hc : Executable t.code) (hn : t.natives.Standard) (hl : t.Lifecycle)
    (hlive : t.exit = none) {e : Panic} (he : t.step.2.exit = some (.panicked e)) :
    e.reason ≠ .internalError ∧ e.reason ≠ .stackUnderflow := by
  obtain ⟨f, rest, hf, ⟨_, hu⟩ | ⟨i, e', hcode, hexec, hu⟩⟩ := hl.panicked_step hlive he
  · rw [hu] at he
    cases he
    exact ⟨of_decide_eq_true rfl, of_decide_eq_true rfl⟩
  · rw [hu] at he
    cases he
    have hi : i ∈ t.code := Array.mem_of_getElem? hcode
    have hpc : f.pc ≠ 2 ^ 63 - 1 := by
      have hlt := (Array.getElem?_eq_some_iff.1 hcode).1
      have hsize := hc.size
      omega
    have hcall : ∀ a, i = ⟨.call, .absolute a⟩ → a.toInt64.toInt ≠ 2 ^ 63 - 1 := by
      rintro a rfl heq
      have ha := hc.calls a hi
      rw [toNat_of_toInt64 (n := 2 ^ 63 - 1) heq] at ha
      omega
    have hexpected := faultClass_isExpected
    have hfault :=
      failsWith_exec (t := t.counted) hexpected hn (by simp [counted, hf]) (hc.legal i hi)
      (hexpected.ofRoutine (failsWith_functionAt (by omega)))
      (fun a ha => hexpected.ofRoutine (failsWith_functionAt (hcall a ha))) (fun _ _ => rfl)
        e' hexec
    exact of_decide_eq_true hfault

/-- A run never ends for a reason that is not expected. -/
theorem reason_after (hc : Executable t.code) (hn : t.natives.Standard) (hl : t.Lifecycle)
    (hlive : t.exit = none) (as : List Action) {e : Panic}
    (he : (t.after as).exit = some (.panicked e)) :
    e.reason ≠ .internalError ∧ e.reason ≠ .stackUnderflow := by
  have hrun := after_induction
    (P := fun u => Executable u.code ∧ u.natives.Standard ∧ u.Lifecycle ∧
      ∀ e, u.exit = some (.panicked e) → e.reason ≠ .internalError ∧ e.reason ≠ .stackUnderflow)
    ?_ (fun ⟨hc, hn, hl, he⟩ => ⟨hc, hn, hl.reclaim, he⟩)
    ⟨hc, hn, hl, fun e he => by rw [hlive] at he; cases he⟩ as
  · exact hrun.2.2.2 e he
  · rintro u ⟨hc, hn, hl, hreason⟩
    obtain ⟨hcode, _, hnatives, _⟩ := u.fixed_act .step
    refine ⟨hcode ▸ hc, hnatives ▸ hn, hl.step, fun e he => ?_⟩
    cases hlive : u.exit with
    | none => exact reason_of_panicked hc hn hl hlive he
    | some x =>
      rw [step_ended (by simp [hlive])] at he
      exact hreason e he

/-! ## Indices -/

/-- What a step relies on without a check. -/
structure InRange (t : Thread) : Prop where
  /-- Instructions have operands of modes that they support. -/
  legal : ∀ i ∈ t.code, i.isLegal = true
  /-- The instruction that a step shows is there when there is one to execute. -/
  shown : t.code.size = t.program.length
  /-- A thread that has not ended has a current frame. -/
  current : t.exit = none → t.stack.frames ≠ []
  /-- The slots that are kept when the current frame returns are there. -/
  kept : ∀ {f rest}, t.stack.frames = f :: rest → Stack.extent rest ≤ t.stack.slots.size
  /-- The entries that are taken again are there. -/
  free : ∀ n ∈ t.heap.dead, n < t.heap.entries.size
  /-- A native function gets the arguments that it takes, and looks at no others. -/
  arguments : ∀ {hash fn f n args}, t.natives.lookup? hash = some fn →
    t.arguments f n fn.arity = .ok args →
      args.length = fn.arity ∧ ∀ h more, fn.code h (args ++ more) = fn.code h args

/-- **Accepted programs are safe.** However a thread is run that was made from an accepted program
with addresses of two or four bytes, with any limit on its stack and standard functions, and
whenever its heap is reclaimed: it never ends with an internal error or a stack underflow, and
everything that the engine relies on without a check is in range. -/
theorem accepted_safe {data : Bytes} {p : Program} (hp : Program.deserialize data = .ok p)
    (harch : p.arch = .b16 ∨ p.arch = .b32) {id : Bytes} {opts : Options}
    (hn : opts.natives.Standard) (ht : start id p opts = .ok t) (as : List Action) :
    (∀ e, (t.after as).exit = some (.panicked e) →
      e.reason ≠ .internalError ∧ e.reason ≠ .stackUnderflow) ∧ (t.after as).InRange := by
  have hloaded := loadedAs_start ht
  obtain ⟨_, hnatives, hlive, _⟩ := start_eq_ok ht
  rw [← hnatives] at hn
  have hreach := (Reachable.start ht).after as
  obtain ⟨hcode, _, hnatives, hprogram⟩ := t.unchanged_after as
  have hexecutable := hloaded.executable hp harch
  refine ⟨fun e he => ?_, ?_⟩
  · exact reason_after hexecutable hn (lifecycle_start ht) hlive as he
  · constructor
    · rw [hcode]
      exact hexecutable.legal
    · rw [hcode, hprogram, program_start ht]
      exact hloaded.size
    · intro hexit
      obtain ⟨f, rest, hf⟩ := hreach.lifecycle.exists_frame hexit
      simp [hf]
    · intro f rest hf
      exact (hreach.laid.tail hf).2
    · intro n hn'
      obtain ⟨e, he, _⟩ := (wellFormed_after hn (wellFormed_start ht) as).dead n hn'
      exact (Array.getElem?_eq_some_iff.1 he).1
    · intro hash fn f n args hfn hargs
      rw [hnatives] at hfn
      have hlength := (holds_arguments hargs).2
      refine ⟨hlength, fun h more => ?_⟩
      rw [← hn.code_take hfn h (args ++ more), List.take_left' hlength]

/-- The file of a main function that calls the largest address. -/
def farCallFile : Bytes :=
  [82, 71, 86, 77, 1, 0, 16, 1, 0, 0, 4, 0, 7, 0, 4, 0] ++
    [118, 1, 9, 0, 64, 7, 0, 0, 0, 0, 0, 0, 0, 47, 1, 9, 0, 64, 4, 0, 0, 0, 0, 0, 0, 0,
      87, 255, 255, 88] ++
    [1, 0, 0, 0, 128]

/-- The program in `farCallFile`. -/
def farCallSample : Program where
  arch := .b16
  mainExists := true
  entry := ⟨0, 4, 7⟩
  instructions :=
    #[⟨.function, .immediate (.int64 7)⟩, ⟨.store .a, .immediate (.int64 4)⟩,
      ⟨.call, .absolute 65535⟩, ⟨.ret, .implicit⟩]
  offsets := #[0, 13, 26, 29]
  natives := []

/-- Calling the largest address, on a stack with room for one window and with one standard function,
finds no header there and is no internal error. -/
theorem accepted_safe_farCallSample : ∃ t e, Program.deserialize farCallFile = .ok farCallSample ∧
    start [] farCallSample { maxStack := 4, natives := .restrict .std [utf8 "std.len"] } = .ok t ∧
    (t.after [.reclaim, .step]).exit = some (.panicked e) ∧ e.reason = .callToUnknown ∧
    e.reason ≠ .internalError ∧ e.reason ≠ .stackUnderflow ∧
      (t.after [.reclaim, .step]).InRange := by
  have hp : Program.deserialize farCallFile = .ok farCallSample := by decide +kernel
  have ht : start [] farCallSample { maxStack := 4, natives := .restrict .std [utf8 "std.len"] } =
      .ok _ :=
    rfl
  obtain ⟨hreason, hrange⟩ := accepted_safe hp (.inl rfl) (NativeRegistry.standard_restrict _) ht
    [.reclaim, .step]
  exact ⟨_, _, hp, ht, rfl, rfl, (hreason _ rfl).1, (hreason _ rfl).2, hrange⟩

end Thread

end RegisterMachine
