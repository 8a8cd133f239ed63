import RegisterMachine.Proofs.Engine.Runs
import RegisterMachine.Proofs.Memory.Copying

/-!
# Failing instructions

An instruction that fails ends the thread with a panic and changes neither registers nor stack. The
heap is another matter: `Thread.residue` is the heap that a failing instruction leaves behind
(`Thread.exec_error`), and it is not the heap of before when the instruction had begun to copy an
entry or a native function had left its mark (`Thread.Disturbs`). `Thread.panic_atomic` puts this
together for a step of a thread.
-/

namespace RegisterMachine.Thread

variable {t u : Thread} {f : Frame} {i : Instruction} {k : StepKind} {e : Failure}

/-! ## The heap that a failure leaves behind -/

/-- The heap after an operand is read: an immediate value may be a literal, which is copied. -/
def loadHeap (t : Thread) (op : Operand) : Heap :=
  match op with
  | .immediate v => (t.immediate v).1
  | _ => t.heap

/-- The heap that a native function leaves behind when it fails. -/
def nativeResidue (t : Thread) (f : Frame) (a : UInt64) : Heap :=
  match t.program.native? f.pc with
  | none => t.heap
  | some call =>
    match t.natives.lookup? call.hash with
    | none => t.heap
    | some fn =>
      match t.arguments f a fn.arity with
      | .error _ => t.heap
      | .ok args =>
        match fn.code t.heap args with
        | .failed _ left | .crashed _ left => left.getD t.heap
        | .returned .. => t.heap

/-- The heap that an instruction leaves behind when it fails. -/
def residue (t : Thread) (f : Frame) (i : Instruction) : Heap :=
  match i.mnemonic, i.operand with
  | .load _, op => t.loadHeap op
  | .store _, op => t.loadHeap op
  | .push, op | .pushString, op =>
    match asRef t.registers.a with
    | .error _ => t.heap
    | .ok _ => t.loadHeap op
  | .clone, .absolute a =>
    match t.getLocal f a.toNat with
    | .error _ => t.heap
    | .ok v => (t.heap.deepCopy v).1
  | .callNative, .absolute a => t.nativeResidue f a
  | _, _ => t.heap

/-- Loading gives the same heap whether it succeeds or fails. -/
theorem heap_load (t : Thread) (f : Frame) (op : Operand) :
    match t.load f op with
    | .error e => e.heap = t.loadHeap op
    | .ok (_, h) => h = t.loadHeap op := by
  unfold load loadHeap
  cases op with
  | immediate v =>
    dsimp only
    cases (t.immediate v).2 with
    | error e => rfl
    | ok w => cases w <;> rfl
  | _ =>
    dsimp only
    generalize t.readOperand f _ = res
    cases res with
    | error e => rfl
    | ok w => cases w <;> rfl

/-- Loading that fails leaves the heap that loading leaves. -/
theorem loadHeap_of_error {op : Operand} (h : t.load f op = .error e) : e.heap = t.loadHeap op := by
  have := heap_load t f op
  rw [h] at this
  exact this

/-- Loading that succeeds leaves the heap that loading leaves. -/
theorem loadHeap_of_ok {op : Operand} {v : Value} {heap : Heap} (h : t.load f op = .ok (v, heap)) :
    heap = t.loadHeap op := by
  have := heap_load t f op
  rw [h] at this
  exact this

/-- What does not touch the heap before it fails leaves it alone. -/
theorem proceed_error {res : Except Fault Thread} (h : t.proceed f res = .error e) :
    e.heap = t.heap := by
  cases res with
  | error fault => cases h; rfl
  | ok t' => cases h

/-- A load that fails leaves the heap that loading leaves. -/
theorem execLoad_error {r : Register} {op : Operand} (h : t.execLoad f r op = .error e) :
    e.heap = t.loadHeap op := by
  rw [execLoad] at h
  split at h
  · next hl => cases h; exact loadHeap_of_error hl
  · cases h

/-- Storing that fails leaves the heap that it was given. -/
theorem store_error {op : Operand} {heap : Heap} {v : Value} (h : t.store f op heap v = .error e) :
    e.heap = heap := by
  obtain ⟨fault, _, rfl⟩ := Except.mapError_eq_error.1 h
  rfl

/-- A store that fails leaves the heap that loading its source leaves. -/
theorem execStore_error {r : Register} {op : Operand} (h : t.execStore f r op = .error e) :
    e.heap = t.loadHeap op := by
  have hheap : (match op with
      | .immediate v => t.immediate v
      | _ => (t.heap, .ok (t.registers.get r))).1 = t.loadHeap op := by
    cases op <;> rfl
  rw [← hheap]
  unfold execStore at h
  dsimp only at h
  split at h
  · cases h; rfl
  · split at h
    · next hs => cases h; exact store_error hs
    · cases h

/-- Pushing a value that fails leaves the residue. -/
theorem execPush_error {op : Operand} (h : t.execPush f op = .error e) :
    e.heap = t.residue f ⟨.push, op⟩ := by
  unfold execPush at h
  change e.heap = match asRef t.registers.a with
    | .error _ => t.heap
    | .ok _ => t.loadHeap op
  cases hr : asRef t.registers.a with
  | error fault =>
    rw [hr] at h
    cases h
    rfl
  | ok r =>
    rw [hr] at h
    dsimp only at h ⊢
    split at h
    · next hl => cases h; exact loadHeap_of_error hl
    · next v heap hl =>
      split at h
      · cases h; exact loadHeap_of_ok hl
      · cases h

/-- Pushing a string that fails leaves the residue. -/
theorem execPushString_error {op : Operand} (h : t.execPushString f op = .error e) :
    e.heap = t.residue f ⟨.pushString, op⟩ := by
  unfold execPushString at h
  change e.heap = match asRef t.registers.a with
    | .error _ => t.heap
    | .ok _ => t.loadHeap op
  cases hr : asRef t.registers.a with
  | error fault =>
    rw [hr] at h
    cases h
    rfl
  | ok r =>
    rw [hr] at h
    dsimp only at h ⊢
    split at h
    · next hl => cases h; exact loadHeap_of_error hl
    · next v heap hl =>
      split at h
      · cases h; exact loadHeap_of_ok hl
      · cases h

/-- Copying that fails leaves the residue. -/
theorem execClone_error {a : UInt64} (h : t.execClone f a.toNat = .error e) :
    e.heap = t.residue f ⟨.clone, .absolute a⟩ := by
  unfold execClone at h
  change e.heap = match t.getLocal f a.toNat with
    | .error _ => t.heap
    | .ok v => (t.heap.deepCopy v).1
  split at h
  · next hv => cases h; rw [hv]
  · next hv =>
    cases h
    rw [hv]
    exact ((Heap.deepCopy_eq_self t.heap .void).2 (fun r c hr => nomatch hr)).symm
  · next v _ hv =>
    rw [hv]
    dsimp only
    split at h
    · next hcopy => cases h; rw [hcopy]
    · cases h

/-- A native call that fails leaves the residue of the function. -/
theorem execCallNative_error {a : UInt64} (h : t.execCallNative f a = .error e) :
    e.heap = t.nativeResidue f a := by
  unfold execCallNative at h
  unfold nativeResidue
  cases hcall : t.program.native? f.pc with
  | none => rw [hcall] at h; cases h; rfl
  | some call =>
    rw [hcall] at h
    dsimp only at h ⊢
    cases hfn : t.natives.lookup? call.hash with
    | none => rw [hfn] at h; cases h; rfl
    | some fn =>
      rw [hfn] at h
      dsimp only at h ⊢
      cases hargs : t.arguments f a fn.arity with
      | error err => rw [hargs] at h; cases h; rfl
      | ok args =>
        rw [hargs] at h
        dsimp only at h ⊢
        cases hcode : fn.code t.heap args with
        | failed msg left => rw [hcode] at h; cases h; rfl
        | crashed msg left => rw [hcode] at h; cases h; rfl
        | returned v heap printed => rw [hcode] at h; cases h

/-- A jump that fails leaves the heap alone. -/
theorem execJump_error {target : Nat} (h : t.execJump target = .error e) : e.heap = t.heap := by
  rw [execJump] at h
  split at h
  · cases h; rfl
  · cases h

/-- A call that fails leaves the heap alone. -/
theorem execCall_error {entry : Int} (h : t.execCall f entry = .error e) : e.heap = t.heap := by
  unfold execCall at h
  dsimp only at h
  repeat' split at h
  all_goals cases h
  all_goals rfl

/-- A return that fails leaves the heap alone. -/
theorem execReturn_error (h : t.execReturn = .error e) : e.heap = t.heap := by
  unfold execReturn at h
  dsimp only at h
  repeat' split at h
  all_goals cases h
  rfl

/-- Making an array that fails leaves the heap alone. -/
theorem execNewStatic_error {v : Value} (h : t.execNewStatic f v = .error e) : e.heap = t.heap := by
  unfold execNewStatic at h
  dsimp only at h
  repeat' split at h
  all_goals cases h
  all_goals rfl

/-- **What a failing instruction leaves behind.** -/
theorem exec_error (h : t.exec f i = .error e) : e.heap = t.residue f i := by
  obtain ⟨m, op⟩ := i
  unfold exec at h
  dsimp only at h
  split at h
  · exact execLoad_error h
  · exact execStore_error h
  · exact proceed_error h
  · exact proceed_error h
  · exact proceed_error h
  · exact execJump_error h
  · split at h
    · exact execJump_error h
    · cases h
    · cases h; rfl
  · exact execCall_error h
  · exact execReturn_error h
  · split at h
    · cases h; rfl
    · cases h
  · exact execPush_error h
  · exact execPushString_error h
  · exact proceed_error h
  · cases h
  · cases h
  · exact execNewStatic_error h
  · exact proceed_error h
  · exact proceed_error h
  · exact execClone_error h
  · exact proceed_error h
  · cases h
  · exact execCallNative_error h
  · -- The instruction is none of those that change the heap.
    cases h
    unfold residue
    dsimp only
    split
    all_goals first | rfl | (exfalso; simp_all)

/-! ## When the heap is left as it was -/

/-- The instruction changes the heap before it is known to succeed. -/
inductive Disturbs (t : Thread) (f : Frame) (i : Instruction) : Prop
  /-- A literal is copied, to be put into a register or a slot. -/
  | loaded {reg : Register} {r : Ref} {c : Value} :
      i.mnemonic = .load reg ∨ i.mnemonic = .store reg →
      i.operand = .immediate (.heapRef r) → r ∈ t.literals → t.heap.get r = .ok c → Disturbs t f i
  /-- A literal is copied, to be appended to what A refers to. -/
  | appended {q r : Ref} {c : Value} : i.mnemonic = .push ∨ i.mnemonic = .pushString →
      t.registers.a = .heapRef q → i.operand = .immediate (.heapRef r) → r ∈ t.literals →
      t.heap.get r = .ok c → Disturbs t f i
  /-- What a slot refers to is copied. -/
  | cloned {a : UInt64} {r : Ref} {c : Value} : i = ⟨.clone, .absolute a⟩ →
      t.getLocal f a.toNat = .ok (.heapRef r) → t.heap.get r = .ok c → Disturbs t f i
  /-- A native function that fails leaves another heap behind. -/
  | native {a : UInt64} : i = ⟨.callNative, .absolute a⟩ → t.nativeResidue f a ≠ t.heap →
      Disturbs t f i

/-- Reading an operand changes the heap exactly if a literal is copied. -/
theorem loadHeap_eq_self (t : Thread) (op : Operand) : t.loadHeap op = t.heap ↔
    ¬ ∃ r c, op = .immediate (.heapRef r) ∧ r ∈ t.literals ∧ t.heap.get r = .ok c := by
  by_cases hop : ∃ r, op = .immediate (.heapRef r)
  · obtain ⟨r, rfl⟩ := hop
    change (if t.literals.contains r then t.heap.deepCopy (.heapRef r)
      else (t.heap, .ok (.heapRef r))).1
      = t.heap ↔ _
    split
    · next hmem =>
      rw [Heap.deepCopy_eq_self]
      constructor
      · rintro hno ⟨_, c, h, _, hc⟩
        cases h
        exact hno r c rfl hc
      · rintro hno _ c h hc
        cases h
        exact hno ⟨r, c, rfl, List.contains_iff_mem.1 hmem, hc⟩
    · next hmem =>
      refine ⟨?_, fun _ => rfl⟩
      rintro _ ⟨_, c, h, hr, _⟩
      cases h
      exact hmem (List.contains_iff_mem.2 hr)
  · refine ⟨?_, fun _ => ?_⟩
    · rintro _ ⟨r, _, h, _⟩
      exact hop ⟨r, h⟩
    · cases op with
      | immediate v =>
        cases v with
        | heapRef r => exact absurd ⟨r, rfl⟩ hop
        | _ => rfl
      | _ => rfl

/-- **The heap is left as it was exactly if the instruction does not disturb it.** -/
theorem residue_eq_self (t : Thread) (f : Frame) (i : Instruction) :
    t.residue f i = t.heap ↔ ¬ t.Disturbs f i := by
  obtain ⟨m, op⟩ := i
  constructor
  · intro heq hd
    cases hd with
    | @loaded reg r c hm hop hr hc =>
      have hload : t.residue f ⟨m, op⟩ = t.loadHeap op := by rcases hm with rfl | rfl <;> rfl
      rw [hload, loadHeap_eq_self] at heq
      exact heq ⟨r, c, hop, hr, hc⟩
    | @appended q r c hm ha hop hr hc =>
      have hload : t.residue f ⟨m, op⟩ = t.loadHeap op := by
        rcases hm with rfl | rfl <;> (unfold residue; dsimp only; rw [ha]; rfl)
      rw [hload, loadHeap_eq_self] at heq
      exact heq ⟨r, c, hop, hr, hc⟩
    | @cloned a r c hi hv hc =>
      cases hi
      unfold residue at heq
      dsimp only at heq
      rw [hv] at heq
      exact (Heap.deepCopy_eq_self _ _).1 heq r c rfl hc
    | native hi hne =>
      cases hi
      exact hne heq
  · intro hno
    have hload : ∀ {r c}, op = .immediate (.heapRef r) → r ∈ t.literals → t.heap.get r = .ok c →
        ¬ ((∃ reg, m = .load reg ∨ m = .store reg) ∨
          (m = .push ∨ m = .pushString) ∧ ∃ q, t.registers.a = .heapRef q) := by
      rintro r c hop hr hc (⟨reg, hm⟩ | ⟨hm, q, ha⟩)
      · exact hno (.loaded hm hop hr hc)
      · exact hno (.appended hm ha hop hr hc)
    unfold residue
    dsimp only
    split
    · exact (loadHeap_eq_self t op).2 fun ⟨r, c, hop, hr, hc⟩ =>
        hload hop hr hc (.inl ⟨_, .inl rfl⟩)
    · exact (loadHeap_eq_self t op).2 fun ⟨r, c, hop, hr, hc⟩ =>
        hload hop hr hc (.inl ⟨_, .inr rfl⟩)
    · split
      · rfl
      · next q ha =>
        refine (loadHeap_eq_self t op).2 fun ⟨r, c, hop, hr, hc⟩ => ?_
        refine hload hop hr hc (.inr ⟨.inl rfl, q, ?_⟩)
        exact asRef_eq_ok ha
    · split
      · rfl
      · next q ha =>
        refine (loadHeap_eq_self t op).2 fun ⟨r, c, hop, hr, hc⟩ => ?_
        refine hload hop hr hc (.inr ⟨.inr rfl, q, ?_⟩)
        exact asRef_eq_ok ha
    · split
      · rfl
      · next v hv =>
        refine (Heap.deepCopy_eq_self _ _).2 fun r c hr hc => ?_
        subst hr
        exact hno (.cloned rfl hv hc)
    · by_contra hne
      exact hno (.native rfl hne)
    · rfl

/-! ## Steps that end in a panic -/

/-- An instruction that succeeds ends the thread, if at all, without a panic. -/
theorem Effect.exit_cases (he : t.Effect f i k u) :
    u.exit = t.exit ∨ ∃ v, u.exit = some (.graceful v) := by
  cases he with
  | finish => exact .inr ⟨_, rfl⟩
  | _ => exact .inl rfl

/-- **A step that ends in a panic** changes nothing but the exit, the stage and the count of steps,
and the heap: that is left as it was exactly if the instruction did not disturb it. -/
theorem panic_atomic {p : Panic} (hlive : t.exit = none)
    (hp : t.step.2.exit = some (.panicked p)) :
    t.step.2 =
        { t with
          heap := t.step.2.heap
          state := .exited
          trapped := t.step.2.trapped
          exit := some (.panicked p)
          steps := t.step.2.steps } ∧
      (t.step.2.heap = t.heap ↔ ∀ f rest i, t.stack.frames = f :: rest → t.code[f.pc]? = some i →
        ¬ t.Disturbs f i) := by
  have hs := step_stepped t
  generalize t.step.1 = info at hs
  generalize t.step.2 = u at hs hp ⊢
  have hpanic : ∀ {f i k v}, t.counted.exec f i = .ok (k, v) → v.exit ≠ some (.panicked p) := by
    intro f i k v hexec hv
    obtain he | ⟨w, he⟩ := (exec_effect hexec).exit_cases
    · rw [hv] at he
      exact absurd (he.trans hlive) (by simp)
    · rw [hv] at he
      cases he
  cases hs with
  | ended h => rw [hlive] at h; cases h
  | noFrame _ hf =>
    cases hp
    refine ⟨rfl, fun _ f rest i hf' => ?_, fun _ => rfl⟩
    rw [hf] at hf'
    cases hf'
  | outside _ hf hcode =>
    cases hp
    refine ⟨rfl, fun _ f rest i hf' hi => ?_, fun _ => rfl⟩
    rw [hf] at hf'
    cases hf'
    rw [hcode] at hi
    cases hi
  | @failed f rest i e _ hf hcode hexec =>
    cases hp
    refine ⟨rfl, ?_⟩
    have hheap : e.heap = t.counted.residue f i := exec_error hexec
    have hcounted : t.counted.residue f i = t.residue f i := rfl
    change e.heap = t.heap ↔ _
    rw [hheap, hcounted, residue_eq_self]
    constructor
    · intro hno f' rest' i' hf' hi'
      rw [hf] at hf'
      cases hf'
      rw [hcode] at hi'
      cases hi'
      exact hno
    · intro hno
      exact hno f rest i hf hcode
  | finished _ _ _ hexec => exact absurd hp (hpanic hexec)
  | @moved f rest i k v _ _ _ hexec _ =>
    have hv := hpanic hexec
    refine absurd hp ?_
    rw [settle]
    split <;> exact hv

/-- A main function that copies an array with an element that was freed. -/
def staleSample : Program where
  arch := .b64
  mainExists := true
  entry := ⟨0, 10, 1⟩
  instructions :=
    #[⟨.function, .immediate (.int64 1)⟩, ⟨.store .a, .immediate (.int64 10)⟩,
      ⟨.newArray, .implicit⟩, ⟨.store .a, .absolute 0⟩, ⟨.newArray, .implicit⟩,
      ⟨.push, .absolute 0⟩, ⟨.store .a, .absolute 1⟩,
      ⟨.free, .absolute 0⟩, ⟨.clone, .absolute 1⟩, ⟨.ret, .implicit⟩]
  offsets := #[]
  natives := []

/-- The seventh step of `staleSample` ends in a panic, and the heap is not what it was. -/
theorem panic_atomic_staleSample : ∃ t, start [] staleSample {} = .ok t ∧
    ∃ p, (t.after (List.replicate 6 .step)).step.2.exit = some (.panicked p) ∧
      (t.after (List.replicate 7 .step)).heap ≠ (t.after (List.replicate 6 .step)).heap := by
  refine ⟨_, rfl, _, rfl, fun heq => ?_⟩
  exact (panic_atomic rfl rfl).2.1 heq _ _ _ rfl rfl (.cloned rfl rfl rfl)

end RegisterMachine.Thread
