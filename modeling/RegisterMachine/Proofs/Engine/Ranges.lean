import RegisterMachine.Proofs.Engine.Safety

/-!
# Ranges

The numbers that tell where a thread stands are bounded by the sizes of its code and its stack. A
frame starts, stops, stands and returns at indices of the code or right behind it, and its window
ends within the slots (`Thread.Reachable.inRange`). A panic tells of such numbers too:
`Thread.Reported` says that it has one of the thirteen reasons, a message that is a well-formed
text, and the place and the trace of the thread that it ended. Every panic of a thread that runs an
accepted program is like that (`Thread.Orderly.reported_after`).
-/

namespace RegisterMachine

/-- The windows of all frames end within that of the current one. -/
theorem Stack.LaidFrames.le_extent {frames : List Frame} (h : LaidFrames frames) {f : Frame}
    (hf : f ∈ frames) : f.base + f.window ≤ extent frames := by
  induction frames with
  | nil => cases hf
  | cons g rest ih =>
    obtain ⟨hbase, _, hrest⟩ := h
    rw [extent]
    rcases List.mem_cons.1 hf with rfl | hf
    · exact Nat.le_refl _
    · have := ih hrest hf
      omega

/-- The numbers of a frame keep within the sizes of the code and of the stack. -/
structure Frame.InRange (f : Frame) (code slots : Nat) : Prop where
  entry : f.entry ≤ code
  stop : f.stop ≤ code
  pc : f.pc ≤ code
  returnPC : ∀ n, f.returnPC = some n → n ≤ code
  window : f.base + f.window ≤ slots

/-- The codes of reasons are the numbers from 1 to 13. -/
theorem Fault.reason_range (fault : Fault) : 1 ≤ fault.reason.code ∧ fault.reason.code ≤ 13 := by
  cases fault with
  | memory e => cases e <;> exact ⟨of_decide_eq_true rfl, of_decide_eq_true rfl⟩
  | _ => exact ⟨of_decide_eq_true rfl, of_decide_eq_true rfl⟩

namespace Thread

variable {t u : Thread} {f : Frame} {rest : List Frame} {i : Instruction} {k : StepKind}

/-! ## Frames -/

/-- Every frame returns to an index of the code or right behind it. -/
def ReturnsInside (t : Thread) : Prop :=
  ∀ f ∈ t.stack.frames, ∀ n, f.returnPC = some n → n ≤ t.code.size

/-- **A successful instruction keeps the places of return inside**: a call adds the one behind
it. -/
theorem Effect.returnsInside (hf : t.stack.frames = f :: rest) (hl : t.stack.Laid)
    (hi : t.code[f.pc]? = some i) (hr : t.ReturnsInside) (he : t.Effect f i k u) :
    u.ReturnsInside := by
  have hlaid : Stack.LaidFrames (f :: rest) := hf ▸ hl.frames
  have hcode := he.fixed.1
  have hpc : f.pc + 1 ≤ t.code.size := (Array.getElem?_eq_some_iff.1 hi).1
  unfold ReturnsInside at hr ⊢
  rw [hcode]
  rcases he.stack_cases hf hlaid with ⟨⟨⟨pc, hframes⟩, _, _, _⟩, _, _⟩ | ⟨_, a, fn, s,
    _, hpush, rfl⟩ |
    ⟨done, caller, lower, hframes, _, _, _, hu⟩ | ⟨_, _, hu⟩
  · rw [hf] at hr
    rw [hframes]
    obtain ⟨hfirst, hrest⟩ := List.forall_mem_cons.1 hr
    exact List.forall_mem_cons.2 ⟨hfirst, hrest⟩
  · obtain ⟨_, rfl⟩ := Stack.push_eq_ok.1 hpush
    refine List.forall_mem_cons.2 ⟨fun n hn => ?_, hr⟩
    cases hn
    exact hpc
  · rw [hframes] at hr
    rw [hu]
    obtain ⟨_, hr⟩ := List.forall_mem_cons.1 hr
    obtain ⟨hcaller, hlower⟩ := List.forall_mem_cons.1 hr
    exact List.forall_mem_cons.2 ⟨hcaller, hlower⟩
  · rw [hu]
    exact fun g hg => nomatch hg

/-- Every frame goes on returning to the inside of the code in a step. -/
theorem returnsInside_step (h : t.stack.Laid ∧ t.ReturnsInside) :
    t.step.2.stack.Laid ∧ t.step.2.ReturnsInside := by
  obtain ⟨hl, hr⟩ := h
  refine ⟨laid_step hl, ?_⟩
  have hs := step_stepped t
  generalize t.step.1 = info at hs
  generalize t.step.2 = u at hs ⊢
  cases hs with
  | ended | noFrame | outside | failed => exact hr
  | finished _ hf hi hexec =>
    exact Effect.returnsInside (t := t.counted) hf hl hi hr (exec_effect hexec)
  | @moved f rest i k u _ hf hi hexec =>
    have hu := Effect.returnsInside (t := t.counted) hf hl hi hr (exec_effect hexec)
    obtain ⟨state, trapped, he⟩ := settle_fields u k
    rw [he]
    exact hu

/-- The frame of a thread that was just started returns to the inside of the code. -/
theorem returnsInside_start {id : Bytes} {p : Program} {opts : Options}
    (h : start id p opts = .ok t) : t.ReturnsInside := by
  obtain ⟨fn, s, _, hpush, rfl⟩ := start_inv h
  obtain ⟨_, rfl⟩ := Stack.push_eq_ok.1 hpush
  intro f hf n hn
  rw [List.mem_singleton.1 hf] at hn
  cases hn

/-- **The numbers of the frames of every reachable thread are in range.** -/
theorem Reachable.inRange (h : t.Reachable) :
    ∀ f ∈ t.stack.frames, f.InRange t.code.size t.stack.slots.size := by
  have hlaid := h.laid
  obtain ⟨id, p, opts, t₀, as, ht, rfl⟩ := h
  obtain ⟨hcode, hfits⟩ := after_induction
    (P := fun u => u.code = t₀.code ∧ u.stack.Fits t₀.code (Stack.empty opts.maxStack).limit)
    fits_step (fun h => h) ⟨rfl, fits_start ht⟩ as
  have hreturns :=
    (after_induction (P := fun u => u.stack.Laid ∧ u.ReturnsInside) returnsInside_step
    (fun h => h) ⟨laid_start ht, returnsInside_start ht⟩ as).2
  intro f hf
  have hruns := hfits.runs f hf
  have hbody := hruns.body
  have hstop := hruns.stop_le
  have hwindow := hlaid.frames.le_extent hf
  rw [← hlaid.size] at hwindow
  exact ⟨by rw [hcode]; omega, hcode ▸ hstop, hcode ▸ hruns.pc_le, hreturns f hf, hwindow⟩

/-! ## Panics -/

/-- What a panic tells of the thread that it ended. -/
structure Reported (t : Thread) (e : Panic) : Prop where
  trace : e.trace = t.trace
  location : ∃ f ∈ t.stack.frames, e.location = ⟨f.pc, t.program.offset f.pc⟩
  reason : 1 ≤ e.reason.code ∧ e.reason.code ≤ 13
  message : Text.isUtf8 e.message = true

/-- The code is legal, the native functions are standard ones, and what is called is named by
well-formed texts. -/
structure Orderly (t : Thread) : Prop where
  legal : ∀ i ∈ t.code, i.isLegal = true
  natives : t.natives.Standard
  names : ∀ n ∈ t.program.natives, Text.isUtf8 n.name = true ∧ Text.isUtf8 n.module = true

/-- Whether a thread is orderly is told by its code, its native functions and its program. -/
theorem Orderly.congr (h : t.Orderly) (hu : u.code = t.code ∧ u.natives = t.natives ∧ u.program =
    t.program) : u.Orderly := by
  obtain ⟨hcode, hnatives, hprogram⟩ := hu
  exact ⟨hcode ▸ h.legal, hnatives ▸ h.natives, hprogram ▸ h.names⟩

/-- **What an instruction fails with has a well-formed message.** -/
theorem Orderly.failsWith_exec (h : t.Orderly) (hf : t.stack.frames = f :: rest) (hi : i ∈ t.code) :
    FailsWith (Failure.within Fault.isLegible) (t.exec f i) := by
  have hframes : t.stack.frames ≠ [] := by simp [hf]
  refine Thread.failsWith_exec faultClass_isLegible h.natives hframes (h.legal i hi)
    (isLegible_functionAt _ _) (fun a _ => isLegible_functionAt _ _) fun n hn => ?_
  obtain ⟨hname, hmodule⟩ := h.names n hn
  simp [Fault.isLegible, Fault.message, NativeCall.qualifiedName, hname, hmodule]

/-- A fault that ends a thread is reported. -/
theorem reported_fail (hf : f ∈ t.stack.frames) {fault : Fault} (hlegible : fault.isLegible = true)
    {e : Panic} (he : (t.fail f.pc fault).exit = some (.panicked e)) :
    (t.fail f.pc fault).Reported e := by
  cases he
  exact ⟨rfl, ⟨f, hf, rfl⟩, fault.reason_range, hlegible⟩

/-- **A step that ends in a panic reports the thread.** -/
theorem Orderly.reported_step (h : t.Orderly) (hl : t.Lifecycle) (hlive : t.exit = none) {e : Panic}
    (he : t.step.2.exit = some (.panicked e)) : t.step.2.Reported e := by
  obtain ⟨f, rest, hf, ⟨_, hu⟩ | ⟨i, e', hcode, hexec, hu⟩⟩ := hl.panicked_step hlive he
  · have hlegible : (Fault.counterOutside f.pc t.code.size).isLegible = true := by
      simp [Fault.isLegible, Fault.message]
    rw [hu] at he ⊢
    exact reported_fail (hf ▸ List.mem_cons_self) hlegible he
  · have hlegible : e'.fault.isLegible = true :=
      (h.congr (u := t.counted) ⟨rfl, rfl, rfl⟩).failsWith_exec hf (Array.mem_of_getElem? hcode)
        e' hexec
    rw [hu] at he ⊢
    exact reported_fail (t := { t.counted with heap := e'.heap }) (f := f) (hf ▸ List.mem_cons_self)
      hlegible he

/-- **Every panic of an orderly thread reports it**, whatever was done to the thread. -/
theorem Orderly.reported_after (h : t.Orderly) (hl : t.Lifecycle) (hlive : t.exit = none)
    (as : List Action) {e : Panic} (he : (t.after as).exit = some (.panicked e)) :
    (t.after as).Reported e := by
  have hrun := after_induction
    (P := fun u => u.Orderly ∧ u.Lifecycle ∧ ∀ e, u.exit = some (.panicked e) → u.Reported e)
    ?_ ?_ ⟨h, hl, fun e he => by rw [hlive] at he; cases he⟩ as
  · exact hrun.2.2 e he
  · rintro u ⟨h, hl, hreported⟩
    obtain ⟨hcode, _, hnatives, hprogram⟩ := u.fixed_act .step
    refine ⟨h.congr ⟨hcode, hnatives, hprogram⟩, hl.step, fun e he => ?_⟩
    cases hlive : u.exit with
    | none => exact h.reported_step hl hlive he
    | some x =>
      rw [step_ended (by simp [hlive])] at he ⊢
      exact hreported e he
  · rintro u ⟨h, hl, hreported⟩
    refine ⟨h.congr ⟨rfl, rfl, rfl⟩, hl.reclaim, fun e he => ?_⟩
    obtain ⟨htrace, hlocation, hreason, hmessage⟩ := hreported e he
    exact ⟨htrace, hlocation, hreason, hmessage⟩

/-- Threads of accepted programs are orderly. -/
theorem orderly_start {data id : Bytes} {p : Program} {opts : Options}
    (hp : Program.deserialize data = .ok p) (hn : opts.natives.Standard)
    (ht : start id p opts = .ok t) : t.Orderly := by
  have hloaded := loadedAs_start ht
  obtain ⟨_, hnatives, _⟩ := start_eq_ok ht
  have hprogram := program_start ht
  refine ⟨hloaded.legal hp, hnatives ▸ hn, ?_⟩
  rw [hprogram]
  exact Program.isUtf8_natives_of_deserialize hp

end Thread

end RegisterMachine
