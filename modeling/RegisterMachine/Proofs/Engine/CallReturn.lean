import RegisterMachine.Proofs.Engine.Runs

/-!
# Calls and returns

A function works in a window of its own. `Thread.Effect.stack_cases` says what an instruction can do
to the stack: it stays in the current frame and leaves the slots below its window alone, it pushes a
frame of void slots, or it gives the current frame up. Reachable threads are laid out accordingly
(`Thread.Reachable.laid`). So while a call is pending (`Thread.Pending`) the frames and slots of its
caller stay as they are, whatever the callee and the functions that it calls do, and when it returns
(`Thread.Returned`) only Y has changed among the registers. `Thread.returned_of_depth` carries this
along a run, and `Thread.call_returns` puts it together with what a call does.
-/

namespace RegisterMachine.Thread

variable {t u : Thread} {f caller : Frame} {rest : List Frame} {i : Instruction} {k : StepKind}

/-! ## What an instruction does to the stack -/

/-- Control stays in the current frame: its counter and the slots from its window on may change. -/
structure Stays (t : Thread) (f : Frame) (rest : List Frame) (u : Thread) : Prop where
  frames : ∃ pc, u.stack.frames = { f with pc } :: rest
  size : u.stack.slots.size = t.stack.slots.size
  below : ∀ n < Stack.extent rest, u.stack.slots[n]? = t.stack.slots[n]?
  limit : u.stack.limit = t.stack.limit

/-- A thread with the same stack but for the counter. -/
theorem Stays.ofJump (hf : t.stack.frames = f :: rest) {pc : Nat} (hu : u.stack = t.stack.jump pc) :
    t.Stays f rest u := by
  refine ⟨⟨pc, ?_⟩, ?_, fun n _ => ?_, ?_⟩
  · rw [hu]; exact Stack.frames_jump hf pc
  · rw [hu, Stack.slots_jump]
  · rw [hu, Stack.slots_jump]
  · rw [hu, Stack.limit_jump]

/-- A thread with one slot of the frame's window written. -/
theorem Stays.ofSet (hf : t.stack.frames = f :: rest) {slot pc : Nat} {v : Value} {s : Stack}
    (hslot : Stack.extent rest ≤ slot) (hs : t.stack.set slot v = .ok s)
    (hu : u.stack = s.jump pc) : t.Stays f rest u := by
  obtain ⟨_, rfl⟩ := Stack.set_eq_ok.1 hs
  refine ⟨⟨pc, ?_⟩, ?_, fun n hn => ?_, ?_⟩
  · rw [hu]
    refine Stack.frames_jump ?_ pc
    exact hf
  · rw [hu, Stack.slots_jump]; simp
  · rw [hu, Stack.slots_jump]
    exact Array.getElem?_setIfInBounds_ne (by simp; omega)
  · rw [hu, Stack.limit_jump]

/-- **What an instruction does to the stack.** -/
theorem Effect.stack_cases (hf : t.stack.frames = f :: rest) (hl : Stack.LaidFrames (f :: rest))
    (he : t.Effect f i k u) :
    (t.Stays f rest u ∧ u.exit = t.exit ∧ k ≠ .call) ∨
      (k = .call ∧ ∃ a fn s, functionAt t.code a = .ok fn ∧
        t.stack.push (t.callee f a fn) = .ok s ∧ u = { t with stack := s }) ∨
      (∃ done caller lower, t.stack.frames = done :: caller :: lower ∧ k = .ret ∧ u.exit = t.exit ∧
        u.registers = done.saved.set .y t.registers.y ∧
        u.stack =
          { slots := t.stack.slots.take (Stack.extent (caller :: lower))
            frames := { caller with pc := done.returnPC.getD caller.pc } :: lower
            limit := t.stack.limit }) ∨
      (rest = [] ∧ k = .ret ∧
        u.stack = { slots := t.stack.slots.take 0, frames := [], limit := t.stack.limit }) := by
  cases he with
  | assign | update | pop | native | skip | trap =>
    exact .inl ⟨.ofJump hf rfl, rfl, by simp⟩
  | jump => exact .inl ⟨.ofJump hf rfl, rfl, by simp⟩
  | store _ hslot hs => exact .inl ⟨.ofSet hf (hl.base_le_slot hslot).1 hs rfl, rfl, by simp⟩
  | free _ hslot _ _ hs | clear _ hslot _ _ hs =>
    exact .inl ⟨.ofSet hf (hl.base_le_slot (.inr ⟨_, hslot⟩)).1 hs rfl, rfl, by simp⟩
  | call _ hfn hs => exact .inr (.inl ⟨rfl, _, _, _, hfn, hs, rfl⟩)
  | ret _ hfr => exact .inr (.inr (.inl ⟨_, _, _, hfr, rfl, rfl, rfl, rfl⟩))
  | finish _ hfr =>
    rw [hf] at hfr
    cases hfr
    exact .inr (.inr (.inr ⟨rfl, rfl, rfl⟩))

/-! ## The layout of reachable threads -/

/-- A successful instruction keeps the layout. -/
theorem Effect.laid (hf : t.stack.frames = f :: rest) (hl : t.stack.Laid) (he : t.Effect f i k u) :
    u.stack.Laid := by
  have hlf : Stack.LaidFrames (f :: rest) := hf ▸ hl.frames
  rcases he.stack_cases hf hlf with ⟨⟨⟨pc, hfr⟩, hsize, _, _⟩, _, _⟩ | ⟨_, a, fn, s, _, hs, rfl⟩ |
    ⟨done, caller, lower, hfr, _, _, _, hu⟩ | ⟨_, _, hu⟩
  · refine ⟨hfr ▸ hlf, ?_⟩
    rw [hsize, hl.size, hf, hfr]
    rfl
  · exact hl.push (by rw [hf]; rfl) rfl hs
  · obtain ⟨hlower, hle⟩ := hl.tail hfr
    rw [hu]
    refine ⟨hlower, ?_⟩
    rw [Array.take_eq_extract, Array.size_extract_of_le hle]
    rfl
  · rw [hu]
    exact ⟨trivial, by simp [Stack.extent]⟩

/-- A step keeps the layout. -/
theorem laid_step (hl : t.stack.Laid) : t.step.2.stack.Laid := by
  have hs := step_stepped t
  generalize t.step.1 = info at hs
  generalize t.step.2 = u at hs ⊢
  cases hs with
  | ended | noFrame | outside | failed => exact hl
  | finished _ hf _ hexec => exact Effect.laid (t := t.counted) hf hl (exec_effect hexec)
  | moved _ hf _ hexec =>
    have := Effect.laid (t := t.counted) hf hl (exec_effect hexec)
    rw [settle]
    split <;> exact this

/-- A new thread has one frame, and its window is the whole stack. -/
theorem laid_start {id : Bytes} {p : Program} {opts : Options} (h : start id p opts = .ok t) :
    t.stack.Laid := by
  obtain ⟨fn, s, _, hs, rfl⟩ := start_inv h
  exact Stack.Laid.push (s := Stack.empty opts.maxStack) ⟨trivial, rfl⟩ rfl rfl hs

/-- **Every reachable thread is laid out.** -/
theorem Reachable.laid (h : t.Reachable) : t.stack.Laid := by
  refine Reachable.induction (P := fun t => t.stack.Laid) ?_ ?_ ?_ h
  · intro _ _ _ _ hs
    exact laid_start hs
  · intro _ hl
    exact laid_step hl
  · intro _ hl
    exact hl

/-! ## Pending calls -/

/-- Frames that stand above the frame `caller`: the one right above it has saved the registers
`regs` and returns behind the call. -/
inductive Above (regs : Registers) (caller : Frame) (rest : List Frame) : List Frame → Prop
  | callee {g : Frame} : g.saved = regs → g.returnPC = some (caller.pc + 1) →
      Above regs caller rest (g :: caller :: rest)
  | deeper {g : Frame} {gs : List Frame} : Above regs caller rest gs →
      Above regs caller rest (g :: gs)

section
variable {regs : Registers} {g : Frame} {gs : List Frame}

/-- What a frame has saved and where it returns to stay the same when it moves. -/
theorem Above.move (h : Above regs caller rest (g :: gs)) (pc : Nat) :
    Above regs caller rest ({ g with pc } :: gs) := by
  cases h with
  | callee hs hr => exact .callee hs hr
  | deeper h => exact .deeper h

/-- More frames stand on the stack than the caller's and those below it. -/
theorem Above.length_lt (h : Above regs caller rest gs) : (caller :: rest).length < gs.length := by
  induction h with
  | callee => simp
  | deeper _ ih => exact Nat.lt_succ_of_lt ih

/-- The caller's window ends below the window of the frames above it. -/
theorem Above.extent_le (h : Above regs caller rest (g :: gs)) (hl : Stack.LaidFrames (g :: gs)) :
    Stack.extent (caller :: rest) ≤ Stack.extent gs := by
  generalize hgs : g :: gs = gs' at h hl
  induction h generalizing g gs with
  | callee => cases hgs; exact Nat.le_refl _
  | @deeper g' gs' h ih =>
    cases hgs
    cases gs' with
    | nil => cases h
    | cons g₁ gs₁ =>
      have hbase : g₁.base = Stack.extent gs₁ := hl.2.2.1
      calc Stack.extent (caller :: rest)
          _ ≤ Stack.extent gs₁ := ih rfl hl.2.2
          _ ≤ g₁.base + g₁.window := by omega
end

/-- A call made by `t` from the frame `caller` is pending in `u`: the callee's frame stands above
the caller's, and the slots of the caller and of the frames below it are those of `t`. -/
structure Pending (t : Thread) (caller : Frame) (rest : List Frame) (u : Thread) : Prop where
  frames : Above t.registers caller rest u.stack.frames
  slots : ∀ n < Stack.extent (caller :: rest), u.stack.slots[n]? = t.stack.slots[n]?
  limit : u.stack.limit = t.stack.limit

/-- A call made by `t` from the frame `caller` has returned in `u`: apart from Y the registers are
those of `t`, and so is the stack, with the caller moved on to the instruction after the call. -/
structure Returned (t : Thread) (caller : Frame) (rest : List Frame) (u : Thread) : Prop where
  registers : u.registers = t.registers.set .y u.registers.y
  stack : u.stack =
    { slots := t.stack.slots
      frames := { caller with pc := caller.pc + 1 } :: rest
      limit := t.stack.limit }

/-- Whether a call is pending is told by the stack alone. -/
theorem Pending.congr {u' : Thread} (h : t.Pending caller rest u) (hs : u'.stack = u.stack) :
    t.Pending caller rest u' :=
  ⟨hs ▸ h.frames, hs ▸ h.slots, hs ▸ h.limit⟩

/-- Whether a call has returned is told by the stack and the registers alone. -/
theorem Returned.congr {u' : Thread} (h : t.Returned caller rest u) (hs : u'.stack = u.stack)
    (hr : u'.registers = u.registers) : t.Returned caller rest u' :=
  ⟨hr ▸ h.registers, hs ▸ h.stack⟩

/-- While a call is pending there are more frames than at the call. -/
theorem Pending.depth_lt (h : t.Pending caller rest u) : (caller :: rest).length < u.stack.depth :=
  h.frames.length_lt

/-- Behind a return the stack is as deep as before the call. -/
theorem Returned.depth_eq (h : t.Returned caller rest u) :
    u.stack.depth = (caller :: rest).length := by
  rw [Stack.depth, h.stack]
  rfl

/-- An array that agrees with another on its whole length is a start of it. -/
theorem take_eq_of_agree {xs ys : Array Value} (hle : xs.size ≤ ys.size)
    (h : ∀ n < xs.size, ys[n]? = xs[n]?) : ys.take xs.size = xs := by
  apply Array.ext_getElem?
  intro n
  rw [Array.take_eq_extract, Array.getElem?_extract, Nat.zero_add]
  split
  · next hn => exact h n (by omega)
  · next hn => rw [Array.getElem?_eq_none (by omega)]

/-- **What an instruction does to a pending call**: it stays pending or returns. -/
theorem Pending.effect (ht : t.stack.Laid) (htf : t.stack.frames = caller :: rest)
    (hp : t.Pending caller rest u) (hl : u.stack.Laid) {below : List Frame} {u' : Thread}
    (huf : u.stack.frames = f :: below) (he : u.Effect f i k u') :
    t.Pending caller rest u' ∨ t.Returned caller rest u' := by
  obtain ⟨habove, hslots, hlimit⟩ := hp
  have hlf : Stack.LaidFrames (f :: below) := huf ▸ hl.frames
  rw [huf] at habove
  have hext : Stack.extent (caller :: rest) ≤ Stack.extent below := habove.extent_le hlf
  have hsize : Stack.extent below ≤ u.stack.slots.size := (hl.tail huf).2
  rcases he.stack_cases huf hlf with ⟨⟨⟨pc, hfr⟩, _, hbelow, hlimit'⟩, _, _⟩ |
    ⟨_, a, fn, s, _, hs, rfl⟩ | ⟨done, top, lower, hfr, _, _, hregs, hu⟩ | ⟨rfl, _, _⟩
  · -- The caller's slots lie below the window of the current frame.
    refine .inl ⟨hfr ▸ habove.move pc, fun n hn => ?_, hlimit'.trans hlimit⟩
    rw [hbelow n (by omega), hslots n hn]
  · obtain ⟨_, rfl⟩ := Stack.push_eq_ok.1 hs
    refine .inl ⟨.deeper (huf ▸ habove), fun n hn => ?_, hlimit⟩
    rw [← hslots n hn]
    exact Array.getElem?_append_left (by omega)
  · rw [huf] at hfr
    cases hfr
    cases habove with
    | callee hsaved hret =>
      have hts : t.stack.slots.size = Stack.extent (caller :: rest) := htf ▸ ht.size
      have htake := take_eq_of_agree (by omega) (fun n hn => hslots n (by omega))
      refine .inr ⟨by rw [hregs, hsaved]; rfl, ?_⟩
      rw [hu, hret, ← hts, htake, hlimit]
      rfl
    | deeper habove =>
      refine .inl ⟨hu ▸ habove.move _, fun n hn => ?_, hu ▸ hlimit⟩
      rw [hu, Array.take_eq_extract, Array.getElem?_extract, Nat.zero_add, if_pos (by omega),
        hslots n hn]
  · have := habove.length_lt
    simp at this

/-- **What an action does to a pending call.** -/
theorem Pending.act (ht : t.stack.Laid) (htf : t.stack.frames = caller :: rest)
    (hp : t.Pending caller rest u) (hl : u.stack.Laid) (a : Action) :
    t.Pending caller rest (u.act a) ∨ t.Returned caller rest (u.act a) := by
  cases a with
  | reclaim => exact .inl (hp.congr rfl)
  | step =>
    rw [Thread.act]
    have hs := step_stepped u
    generalize u.step.1 = info at hs
    generalize u.step.2 = u' at hs ⊢
    have heffect : ∀ {f below i k v},
        u.stack.frames = f :: below → u.counted.exec f i = .ok (k, v) →
        t.Pending caller rest v ∨ t.Returned caller rest v := by
      intro f below i k v hf hexec
      exact Pending.effect (u := u.counted) ht htf (hp.congr rfl) hl hf (exec_effect hexec)
    cases hs with
    | ended => exact .inl hp
    | noFrame | outside | failed => exact .inl (hp.congr rfl)
    | finished _ hf _ hexec => exact heffect hf hexec
    | @moved f below i k v _ hf _ hexec =>
      have hsettle : (v.settle k).stack = v.stack ∧ (v.settle k).registers = v.registers := by
        rw [settle]
        split <;> exact ⟨rfl, rfl⟩
      rcases heffect hf hexec with h | h
      · exact .inl (h.congr hsettle.1)
      · exact .inr (h.congr hsettle.1 hsettle.2)

/-- **A pending call has returned when the depth is that of the call again**, for the first time. -/
theorem returned_of_depth (ht : t.stack.Laid) (htf : t.stack.frames = caller :: rest) :
    ∀ (as : List Action) {u : Thread}, u.Reachable → t.Pending caller rest u →
      (u.after as).stack.depth = t.stack.depth →
      (∀ n < as.length, (u.after (as.take n)).stack.depth ≠ t.stack.depth) →
      t.Returned caller rest (u.after as)
  | [], u, _, hp, hd, _ => by
    have := hp.depth_lt
    rw [after_nil, Stack.depth, Stack.depth, htf] at hd
    rw [Stack.depth] at this
    omega
  | a :: as, u, hu, hp, hd, hfirst => by
    rcases hp.act ht htf hu.laid a with hp' | hr
    · refine returned_of_depth ht htf as (hu.act a) hp' hd (fun n hn => ?_)
      exact hfirst (n + 1) (by simpa using hn)
    · cases as with
      | nil => exact hr
      | cons b bs =>
        -- The call has returned already, so this is not the first time.
        refine absurd ?_ (hfirst 1 (by simp))
        have := hr.depth_eq
        rw [← htf] at this
        simpa [Stack.depth] using this

/-! ## The discipline -/

/-- A call made by `t` from the frame `caller` has just been entered in `u`: the registers are those
of `t`, and the callee's window lies behind the slots of `t` and is void. -/
structure Entered (t : Thread) (caller : Frame) (rest : List Frame) (u : Thread) : Prop where
  registers : u.registers = t.registers
  frames : ∃ callee, u.stack.frames = callee :: caller :: rest ∧
    ∀ n < callee.window, u.stack.slots[callee.base + n]? = some .void

/-- A call instruction that succeeds moves control as a call does. -/
theorem exec_call (hi : i.mnemonic = .call) (h : t.exec f i = .ok (k, u)) : k = .call := by
  obtain ⟨m, op⟩ := i
  obtain rfl : m = .call := hi
  cases op with
  | absolute a =>
    have h : t.execCall f a.toInt64.toInt = .ok (k, u) := h
    unfold execCall at h
    dsimp only at h
    repeat' split at h
    all_goals cases h
    rfl
  | _ => cases h

/-- **What a call does**: the callee starts with a void window, and from there on the call is
pending. -/
theorem entered_of_call (hl : t.stack.Laid) (hf : t.stack.frames = caller :: rest)
    (hi : t.code[caller.pc]? = some i) (hm : i.mnemonic = .call) (hok : t.step.2.exit = none) :
    t.Entered caller rest t.step.2 ∧ t.Pending caller rest t.step.2 := by
  have hs := step_stepped t
  generalize t.step.1 = info at hs
  generalize t.step.2 = u at hs hok ⊢
  cases hs with
  | ended h => rw [hok] at h; cases h
  | noFrame | outside | failed => cases hok
  | finished _ _ _ _ h => rw [hok] at h; cases h
  | moved _ hf' hi' hexec _ =>
    rw [hf] at hf'
    cases hf'
    rw [hi] at hi'
    cases hi'
    obtain rfl := exec_call hm hexec
    have hsize : t.stack.slots.size = caller.base + caller.window := by
      rw [hl.size, hf]
      rfl
    obtain ⟨_, h⟩ | ⟨_, a, fn, s, _, hpush, rfl⟩ | ⟨_, _, _, _, h, _⟩ | ⟨_, h, _⟩ :=
      Effect.stack_cases (t := t.counted) hf (hf ▸ hl.frames) (exec_effect hexec)
    · exact absurd rfl h.2
    · obtain ⟨_, rfl⟩ := Stack.push_eq_ok.1 hpush
      refine ⟨⟨rfl, _, congrArg _ hf, fun n hn => ?_⟩, ⟨?_, fun n hn => ?_, rfl⟩⟩
      · -- The caller's window ends with the last slot, so the callee's is all new.
        exact Stack.window_push hpush (Nat.le_of_eq hsize) hn
      · exact hf ▸ .callee rfl rfl
      · exact Array.getElem?_append_left (hsize ▸ hn)
    · cases h
    · cases h

/-- **Calls and returns.** A call starts with the caller's registers and a void window. Whatever is
done to the thread until the depth is that of the call again for the first time, the call has then
returned: only Y and the heap may have changed, and the caller goes on behind the call. -/
theorem call_returns (ht : t.Reachable) (hf : t.stack.frames = caller :: rest)
    (hi : t.code[caller.pc]? = some i) (hm : i.mnemonic = .call) (hok : t.step.2.exit = none) :
    t.Entered caller rest t.step.2 ∧
      ∀ as : List Action, (t.step.2.after as).stack.depth = t.stack.depth →
        (∀ n < as.length, (t.step.2.after (as.take n)).stack.depth ≠ t.stack.depth) →
        t.Returned caller rest (t.step.2.after as) := by
  obtain ⟨hentered, hpending⟩ := entered_of_call ht.laid hf hi hm hok
  refine ⟨hentered, fun as hdepth hfirst => ?_⟩
  exact returned_of_depth ht.laid hf as (ht.act .step) hpending hdepth hfirst

/-- Main calls the function at index 4, which puts a number into Y and returns. -/
def callSample : Program where
  arch := .b64
  mainExists := true
  entry := ⟨0, 4, 1⟩
  instructions :=
    #[⟨.function, .immediate (.int64 1)⟩, ⟨.store .a, .immediate (.int64 4)⟩, ⟨.call, .absolute 4⟩,
      ⟨.ret, .implicit⟩, ⟨.function, .immediate (.int64 2)⟩, ⟨.store .a, .immediate (.int64 8)⟩,
      ⟨.load .y, .immediate (.int64 9)⟩, ⟨.ret, .implicit⟩]
  offsets := #[]
  natives := []

/-- The call in `callSample` returns after two steps, with a reclaim between them. -/
theorem call_returns_callSample : ∃ t f, start [] callSample {} = .ok t ∧ t.stack.frames = [f] ∧
    t.Returned f [] (t.step.2.after [.step, .reclaim, .step]) := by
  have ht : start [] callSample {} = .ok _ := rfl
  refine ⟨_, _, ht, rfl, (call_returns (.start ht) rfl rfl rfl rfl).2 [.step, .reclaim,
    .step] rfl ?_⟩
  intro n hn
  obtain rfl | rfl | rfl : n = 0 ∨ n = 1 ∨ n = 2 := by
    have hn : n < 3 := hn
    omega
  · decide
  · decide
  · decide

end RegisterMachine.Thread
