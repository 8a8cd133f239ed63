import RegisterMachine.Proofs.Engine.CallReturn

/-!
# Frames, slots and code

The engine never checks again where its frames lie. `Frame.Runs` says that a frame belongs to a
function of the code: its entry is a header, its body ends within the code and so does its counter.
`Frame.Called` says that a call instruction of the code made it, and `Stack.Fits` that all frames
are such and that the slots stay within the limit. Steps and reclaims keep this
(`Thread.fits_step`), as they keep the windows one behind the other, so every slot that a frame
names is there (`Stack.Laid.slot_exists`). `Thread.stack_layout` puts this together for whatever is
done to a thread.
-/

namespace RegisterMachine

/-- The frame belongs to a function of the code, and its counter is an index of the code or right
behind it. -/
structure Frame.Runs (f : Frame) (code : Array Instruction) : Prop where
  header : ∃ v, code[f.entry]? = some ⟨.function, .immediate v⟩
  body : f.entry + 2 ≤ f.stop
  stop_le : f.stop ≤ code.size
  pc_le : f.pc ≤ code.size

/-- A call instruction of the code names the frame's function, and the frame returns behind it. -/
def Frame.Called (f : Frame) (code : Array Instruction) : Prop :=
  ∃ i a, code[i]? = some ⟨.call, .absolute a⟩ ∧ f.entry = a.toNat ∧ f.returnPC = some (i + 1)

namespace Stack

variable {s s' : Stack} {code : Array Instruction} {limit : Nat}

/-- Every frame belongs to a function of the code and, but for the first, was called by it; the
slots keep within the limit. -/
structure Fits (s : Stack) (code : Array Instruction) (limit : Nat) : Prop where
  runs : ∀ f ∈ s.frames, f.Runs code
  called : ∀ f ∈ s.frames.dropLast, f.Called code
  limit_eq : s.limit = limit
  room : s.slots.size ≤ limit

/-- Jumping within the code keeps the frames fitting. -/
theorem Fits.jump (h : s.Fits code limit) {pc : Nat} (hpc : pc ≤ code.size) :
    (s.jump pc).Fits code limit := by
  cases hf : s.frames with
  | nil =>
    rw [Stack.jump, hf]
    exact h
  | cons f rest =>
    have hruns : f.Runs code := h.runs f (hf ▸ List.mem_cons_self)
    refine ⟨fun g hg => ?_, fun g hg => ?_, ?_, ?_⟩
    · rw [frames_jump hf, List.mem_cons] at hg
      rcases hg with rfl | hg
      · exact ⟨hruns.header, hruns.body, hruns.stop_le, hpc⟩
      · exact h.runs g (hf ▸ List.mem_cons_of_mem f hg)
    · -- The callers and the return address do not depend on the counter.
      have hcalled := h.called
      rw [frames_jump hf] at hg
      rw [hf] at hcalled
      cases rest with
      | nil => cases hg
      | cons g' rest =>
        rw [List.dropLast_cons_cons, List.mem_cons] at hg
        rcases hg with rfl | hg
        · exact hcalled f List.mem_cons_self
        · exact hcalled g (List.mem_cons_of_mem f hg)
    · rw [limit_jump]
      exact h.limit_eq
    · rw [slots_jump]
      exact h.room

/-- Writing a slot keeps the frames fitting. -/
theorem Fits.set (h : s.Fits code limit) {n : Int} {v : Value} (hs : s.set n v = .ok s') :
    s'.Fits code limit := by
  obtain ⟨_, rfl⟩ := set_eq_ok.1 hs
  refine ⟨h.runs, h.called, h.limit_eq, ?_⟩
  simpa using h.room

/-- A frame that a call instruction makes on top of others. -/
theorem Fits.push (h : s.Fits code limit) {f : Frame} (hruns : f.Runs code)
    (hcalled : s.frames ≠ [] → f.Called code) (hs : s.push f = .ok s') : s'.Fits code limit := by
  have hroom := h.room
  have hlimit := h.limit_eq
  obtain ⟨hneed, rfl⟩ := push_eq_ok.1 hs
  refine ⟨fun g hg => ?_, fun g hg => ?_, hlimit, ?_⟩
  · rcases List.mem_cons.1 hg with rfl | hg
    · exact hruns
    · exact h.runs g hg
  · cases hf : s.frames with
    | nil =>
      rw [hf] at hg
      cases hg
    | cons g' rest =>
      dsimp only at hg
      rw [hf, List.dropLast_cons_cons, List.mem_cons] at hg
      rcases hg with rfl | hg
      · exact hcalled (by simp [hf])
      · exact h.called g (hf ▸ hg)
  · simp only [Array.size_append, Array.size_replicate]
    omega

/-- Without the current frame. -/
theorem Fits.pop (h : s.Fits code limit) {f : Frame} {rest : List Frame} (hf : s.frames = f :: rest)
    (n : Nat) : Fits { slots := s.slots.take n, frames := rest, limit := s.limit } code limit := by
  refine ⟨fun g hg => h.runs g (hf ▸ List.mem_cons_of_mem f hg), fun g hg => ?_, h.limit_eq, ?_⟩
  · refine h.called g ?_
    rw [hf]
    cases rest with
    | nil => cases hg
    | cons g' rest => exact List.mem_cons_of_mem f hg
  · have hroom := h.room
    simp only [Array.take_eq_extract, Array.size_extract]
    omega

/-- **A slot that the current frame names is there**: it can be read and written. -/
theorem Laid.slot_exists (h : s.Laid) {f : Frame} {slot : Nat} (hf : s.top? = some f)
    (hslot : (∃ n, f.slot n = .ok slot) ∨ ∃ pc, f.ownSlot pc = .ok slot) :
    (∃ v, s.get slot = .ok v) ∧ ∀ v, ∃ s', s.set slot v = .ok s' := by
  obtain ⟨rest, hframes⟩ := List.head?_eq_some_iff.1 hf
  obtain ⟨hlaid, hsize⟩ := h
  rw [hframes] at hlaid hsize
  obtain ⟨_, hwindow, _⟩ := hlaid
  have hlt : slot < s.slots.size := by
    rw [hsize, extent]
    rcases hslot with ⟨n, hn⟩ | ⟨pc, hpc⟩
    · obtain ⟨hn, rfl⟩ := Frame.slot_eq_ok.1 hn
      omega
    · have hnat : f.entry ≤ pc := by
        rw [Frame.ownSlot] at hpc
        split at hpc
        · cases hpc
        · omega
      obtain ⟨m, rfl⟩ := Int.eq_ofNat_of_zero_le (a := pc) (by omega)
      obtain ⟨hle, hstop, rfl⟩ := Frame.ownSlot_eq_ok.1 hpc
      omega
  refine ⟨⟨s.slots[slot], get_eq_ok.2 ⟨by omega, ?_⟩⟩,
    fun v => ⟨_, set_eq_ok.2 ⟨⟨by omega, ?_⟩, rfl⟩⟩⟩
  · exact Array.getElem?_eq_getElem hlt
  · exact hlt

end Stack

namespace Thread

variable {t u : Thread} {f : Frame} {rest : List Frame} {i : Instruction} {k : StepKind}
  {limit : Nat}

/-- **A successful instruction keeps the frames and the limit in order.** -/
theorem Effect.fits (hi : t.code[f.pc]? = some i) (hs : t.stack.Fits t.code limit)
    (he : t.Effect f i k u) : u.stack.Fits t.code limit := by
  have hpc : f.pc + 1 ≤ t.code.size := (Array.getElem?_eq_some_iff.1 hi).1
  cases he with
  | assign | update | pop | native | skip | trap => exact hs.jump hpc
  | jump hle => exact hs.jump hle
  | store _ _ hset | free _ _ _ _ hset | clear _ _ _ _ hset => exact (hs.set hset).jump hpc
  | @call a fn s hcall hfn hpush =>
    obtain ⟨n, hn, hheader, _, hbody, hstop⟩ := functionAt_eq_ok hfn
    refine hs.push ⟨?_, ?_, hstop, ?_⟩ (fun _ => ⟨f.pc, a, hcall ▸ hi, ?_, rfl⟩) hpush
    · rw [callee, hn]
      exact hheader
    · rw [callee, hn]
      exact hbody
    · rw [callee, hn]
      exact Nat.le_trans hbody hstop
    · rw [callee, hn, toNat_of_toInt64 hn]
      rfl
  | @ret done caller rest' _ hframes =>
    -- The frame that returns was called, so it names the instruction behind a call.
    have hpop := hs.pop hframes (Stack.extent (caller :: rest'))
    obtain ⟨j, a, hj, _, hreturn⟩ := hs.called done (by simp [hframes])
    have hnext : done.returnPC.getD caller.pc ≤ t.code.size := by
      rw [hreturn]
      exact (Array.getElem?_eq_some_iff.1 hj).1
    exact hpop.jump hnext
  | finish _ hframes => exact hs.pop hframes 0

/-- A step keeps the frames and the limit in order. -/
theorem fits_step {code : Array Instruction} (h : t.code = code ∧ t.stack.Fits code limit) :
    t.step.2.code = code ∧ t.step.2.stack.Fits code limit := by
  obtain ⟨rfl, hs⟩ := h
  refine ⟨(t.fixed_act .step).1, ?_⟩
  have hst := step_stepped t
  generalize t.step.1 = info at hst
  generalize t.step.2 = u at hst ⊢
  cases hst with
  | ended | noFrame | outside | failed => exact hs
  | finished _ _ hi hexec => exact Effect.fits (t := t.counted) hi hs (exec_effect hexec)
  | @moved f rest i k u _ _ hi hexec =>
    have hu := Effect.fits (t := t.counted) hi hs (exec_effect hexec)
    obtain ⟨state, trapped, he⟩ := settle_fields u k
    rw [he]
    exact hu

/-- A new thread has the one frame of its main function. -/
theorem fits_start {id : Bytes} {p : Program} {opts : Options} (h : start id p opts = .ok t) :
    t.stack.Fits t.code (Stack.empty opts.maxStack).limit := by
  obtain ⟨fn, s, hfn, hpush, rfl⟩ := start_inv h
  obtain ⟨n, hn, hheader, _, hbody, hstop⟩ := functionAt_eq_ok hfn
  obtain rfl := Int.ofNat.inj hn
  have hempty : ∀ code, (Stack.empty opts.maxStack).Fits code (Stack.empty opts.maxStack).limit :=
    fun code => ⟨fun g hg => (nomatch hg), fun g hg => (nomatch hg), rfl, Nat.zero_le _⟩
  refine (hempty _).push ⟨hheader, hbody, hstop, ?_⟩ (fun h => absurd rfl h) hpush
  exact Nat.le_trans hbody hstop

/-- **The layout of the stack.** Whatever is done to a thread, the windows of its frames lie one
behind the other from slot 0 on, each as long as the body of its function, and the slots end with
the current window and keep within the limit; every frame belongs to a function of the code and, but
for the first, returns behind a call of that function. So a slot that the current frame names can be
read and written. -/
theorem stack_layout {id : Bytes} {p : Program} {opts : Options} (ht : start id p opts = .ok t)
    (as : List Action) :
    (t.after as).stack.Laid ∧ (t.after as).code = t.code ∧
      (t.after as).stack.Fits t.code (Stack.empty opts.maxStack).limit ∧
      ∀ f slot, (t.after as).stack.top? = some f →
        (∃ n, f.slot n = .ok slot) ∨ (∃ pc, f.ownSlot pc = .ok slot) →
        (∃ v, (t.after as).stack.get slot = .ok v) ∧ ∀ v, ∃ s,
          (t.after as).stack.set slot v = .ok s := by
  have hlaid : (t.after as).stack.Laid := ((Reachable.start ht).after as).laid
  have hfits := after_induction
    (P := fun u => u.code = t.code ∧ u.stack.Fits t.code (Stack.empty opts.maxStack).limit)
    fits_step (fun h => h) ⟨rfl, fits_start ht⟩ as
  exact ⟨hlaid, hfits.1, hfits.2, fun f slot hf hslot => hlaid.slot_exists hf hslot⟩

/-- In `callSample`, with room for the two windows and no more, the callee's frame is laid out
behind main's, and the slot of its first instruction can be read. -/
theorem stack_layout_callSample : ∃ t f, start [] callSample { maxStack := 8 } = .ok t ∧
    (t.after [.step, .reclaim]).stack.frames.head? = some f ∧ f.base = 4 ∧ f.Called t.code ∧
    (t.after [.step, .reclaim]).stack.slots.size ≤ 8 ∧
    ∃ v, (t.after [.step, .reclaim]).stack.get (6 : Nat) = .ok v := by
  have ht : start [] callSample { maxStack := 8 } = .ok _ := rfl
  obtain ⟨_, _, hfits, hslots⟩ := stack_layout ht [.step, .reclaim]
  exact ⟨_, _, ht, rfl, rfl, hfits.called _ List.mem_cons_self, hfits.room,
    (hslots _ 6 rfl (.inr ⟨6, rfl⟩)).1⟩

end Thread

end RegisterMachine
