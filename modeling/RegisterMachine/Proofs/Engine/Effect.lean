import RegisterMachine.Engine.Step
import RegisterMachine.Proofs.Engine.Headers
import RegisterMachine.Proofs.Engine.Stack
import RegisterMachine.Proofs.Fallible

/-!
# What an instruction does

`Thread.Effect` lists everything that an instruction can do to a thread when it succeeds, and
`Thread.exec_effect` says that the list is complete. Each entry says where the value that is written
comes from (`Thread.Yields`): it is held by the thread already (`Thread.Holds`), is computed without
touching the heap, is the immediate value of the instruction, or refers to heap entries that were
made for it. Whatever a run preserves is proved from this list and not from the definition of the
engine.
-/

namespace RegisterMachine

/-- Values that hold no reference and need no heap entry. -/
def Value.isPlain : Value → Bool
  | .string _ | .array _ | .heapRef _ => false
  | _ => true

/-- What a container becomes when a value is written into it: an array with one element replaced or
added, or a string with other text. -/
inductive Value.Rewritten (v : Value) : Value → Value → Prop
  | element {es : List Value} (n : Nat) : Rewritten v (.array es) (.array (es.set n v))
  | added {es : List Value} : Rewritten v (.array es) (.array (es ++ [v]))
  | text {s s' : Bytes} : Rewritten v (.string s) (.string s')

namespace Thread

/-- The values that an instruction can take up: those in registers and slots, and the elements of
the arrays that these refer to. -/
inductive Holds (t : Thread) : Value → Prop
  | register (r : Register) : Holds t (t.registers.get r)
  | slot {n : Nat} {v : Value} : t.stack.slots[n]? = some v → Holds t v
  | element {r : Ref} {es : List Value} {v : Value} :
      Holds t (.heapRef r) → t.heap.get r = .ok (.array es) → v ∈ es → Holds t v

/-- The values that instruction `i` can come up with, each with the heap after it. -/
inductive Yields (t : Thread) (i : Instruction) : Value → Heap → Prop
  | held {v : Value} : t.Holds v → Yields t i v t.heap
  | plain {v : Value} : v.isPlain = true → Yields t i v t.heap
  | immediate {v : Value} : i.operand = .immediate v → (∀ r ∈ t.literals, v ≠ .heapRef r) →
      Yields t i v t.heap
  | literal {r : Ref} {v : Value} {h : Heap} : i.operand = .immediate (.heapRef r) →
      r ∈ t.literals → t.heap.deepCopy (.heapRef r) = (h, .ok v) → Yields t i v h
  | clone {v w : Value} {h : Heap} : t.Holds w → t.heap.deepCopy w = (h, .ok v) → Yields t i v h
  | newString (s : Bytes) : Yields t i (.heapRef (t.heap.alloc (.string s)).2)
      (t.heap.alloc (.string s)).1
  | newArray (n : Nat) : Yields t i (.heapRef (t.heap.alloc (.array (List.replicate n .void))).2)
      (t.heap.alloc (.array (List.replicate n .void))).1

/-- The frame of a function called from frame `f`. -/
def callee (t : Thread) (f : Frame) (entry : Int) (fn : FunctionHeader) : Frame :=
  { hash := fn.hash, entry := entry.toNat, stop := fn.stop, base := f.base + f.window
    window := fn.stop - entry.toNat, pc := entry.toNat + 2, returnPC := some (f.pc + 1)
    saved := t.registers }

/-- What instruction `i`, executed in frame `f`, does to a thread: how control moves, and the thread
after it. -/
inductive Effect (t : Thread) (f : Frame) (i : Instruction) : StepKind → Thread → Prop
  /-- A register gets a value. -/
  | assign {r : Register} {v : Value} {h : Heap} : t.Yields i v h →
      Effect t f i .next (({ t with heap := h }.setRegister r v).jumpTo (f.pc + 1))
  /-- A slot of the frame's window gets a value. -/
  | store {slot : Nat} {v : Value} {h : Heap} {s : Stack} : t.Yields i v h →
      (f.ownSlot f.pc = .ok slot ∨ ∃ n, f.slot n = .ok slot) → t.stack.set slot v = .ok s →
      Effect t f i .next ({ t with heap := h, stack := s }.jumpTo (f.pc + 1))
  /-- A string or array in the heap is changed. -/
  | update {r : Ref} {v c c' : Value} {h h' : Heap} : t.Yields i v h → t.Holds (.heapRef r) →
      h.get r = .ok c → Value.Rewritten v c c' → h.set r c' = .ok h' →
      Effect t f i .next ({ t with heap := h' }.jumpTo (f.pc + 1))
  /-- The last element of an array moves to A. -/
  | pop {r : Ref} {es : List Value} {v : Value} {h : Heap} : t.Holds (.heapRef r) →
      t.heap.get r = .ok (.array es) → es.getLast? = some v →
      t.heap.set r (.array es.dropLast) = .ok h →
      Effect t f i .next (({ t with heap := h }.setRegister .a v).jumpTo (f.pc + 1))
  /-- A heap entry is freed and the slot that refers to it is cleared. -/
  | free {a : UInt64} {slot : Nat} {r : Ref} {h : Heap} {s : Stack} : i = ⟨.free, .absolute a⟩ →
      f.slot a.toNat = .ok slot → t.stack.get slot = .ok (.heapRef r) → t.heap.free r = .ok h →
      t.stack.set slot .void = .ok s →
      Effect t f i .next ({ t with heap := h, stack := s }.jumpTo (f.pc + 1))
  /-- A slot that refers to nothing is cleared. -/
  | clear {a : UInt64} {slot : Nat} {v : Value} {s : Stack} : i = ⟨.free, .absolute a⟩ →
      f.slot a.toNat = .ok slot → t.stack.get slot = .ok v → (∀ r, v ≠ .heapRef r) →
      t.stack.set slot .void = .ok s → Effect t f i .next ({ t with stack := s }.jumpTo (f.pc + 1))
  /-- A native function runs; its result goes to Y. -/
  | native {call : NativeCall} {fn : NativeFunction} {args : List Value} {v w : Value}
      {h h' : Heap} {text : Bytes} {printed : List Bytes} : i.mnemonic = .callNative →
      t.program.native? f.pc = some call → t.natives.lookup? call.hash = some fn →
      (∀ a ∈ args, t.Holds a) → args.length = fn.arity →
      fn.code t.heap args = .returned v h text → h.intern v = (h', w) →
      Effect t f i .next (({ t with heap := h', printed }.setRegister .y w).jumpTo (f.pc + 1))
  /-- Nothing happens. -/
  | skip : Effect t f i .next (t.jumpTo (f.pc + 1))
  /-- Control moves within the frame. -/
  | jump {pc : Nat} : pc ≤ t.code.size → Effect t f i .jump (t.jumpTo pc)
  /-- The thread is to be suspended. -/
  | trap : i.mnemonic = .trap → Effect t f i .trap (t.jumpTo (f.pc + 1))
  /-- A function is called. -/
  | call {a : UInt64} {fn : FunctionHeader} {s : Stack} : i = ⟨.call, .absolute a⟩ →
      functionAt t.code a.toInt64.toInt = .ok fn →
      t.stack.push (t.callee f a.toInt64.toInt fn) = .ok s →
        Effect t f i .call { t with stack := s }
  /-- A function returns to its caller. -/
  | ret {done caller : Frame} {rest : List Frame} : i.mnemonic = .ret →
      t.stack.frames = done :: caller :: rest →
      Effect t f i .ret
        { t with
          registers := done.saved.set .y t.registers.y
          stack :=
            { slots := t.stack.slots.take (Stack.extent (caller :: rest))
              frames := { caller with pc := done.returnPC.getD caller.pc } :: rest
              limit := t.stack.limit } }
  /-- The first function returns, and the thread ends. -/
  | finish {done : Frame} : i.mnemonic = .ret → t.stack.frames = [done] →
      Effect t f i .ret
        { t with
          stack := { slots := t.stack.slots.take 0, frames := [], limit := t.stack.limit }
          exit := some (.graceful t.registers.y)
          state := .exited }

/-! ## Where values come from -/

variable {t u : Thread} {f : Frame} {i : Instruction} {k : StepKind}

/-- Reading a slot of a frame gives a value that the thread holds. -/
theorem Holds.ofLocal {n : Nat} {v : Value} (h : t.getLocal f n = .ok v) : t.Holds v := by
  obtain ⟨slot, _, hget⟩ := Except.bind_eq_ok.1 h
  exact .slot (Stack.get_eq_ok.1 hget).2

/-- A value that passes for a reference is one. -/
theorem asRef_eq_ok {v : Value} {r : Ref} (h : asRef v = .ok r) : v = .heapRef r := by
  cases v with
  | heapRef r' => cases h; rfl
  | _ => cases h

/-- The reference in a slot is held by the thread. -/
theorem Holds.ofSlotRef {n : Nat} {r : Ref} (h : t.slotRef f n = .ok r) : t.Holds (.heapRef r) := by
  obtain ⟨v, hv, hr⟩ := Except.bind_eq_ok.1 h
  rw [← asRef_eq_ok hr]
  exact .ofLocal (Except.mapError_eq_ok.1 hv)

/-- An element of what a held reference leads to is held too, or is a character. -/
theorem holds_elementAt {r : Ref} {n : Int} {v : Value} (hr : t.Holds (.heapRef r))
    (h : elementAt t.heap r n = .ok v) : t.Holds v ∨ v.isPlain = true := by
  obtain ⟨c, hc, h⟩ := Except.bind_eq_ok.1 h
  have hc := Except.mapError_eq_ok.1 hc
  cases c with
  | array es =>
    dsimp only at h
    split at h
    · next w hw =>
      cases h
      split at hw
      · cases hw
      · exact .inl (.element hr hc (List.mem_of_getElem? hw))
    · cases h
  | string s =>
    dsimp only at h
    split at h
    · cases h; exact .inr rfl
    · cases h
  | _ => cases h

/-- What an operand other than an immediate names is held by the thread, or is a character. -/
theorem holds_readOperand {op : Operand} {v : Value} (h : t.readOperand f op = .ok v) :
    t.Holds v ∨ v.isPlain = true := by
  cases op with
  | absolute a => exact .inl (.ofLocal (Except.mapError_eq_ok.1 h))
  | static a => exact .inl (.slot (Stack.get_eq_ok.1 (Except.mapError_eq_ok.1 h)).2)
  | index a j =>
    obtain ⟨r, hr, h⟩ := Except.bind_eq_ok.1 h
    obtain ⟨n, _, h⟩ := Except.bind_eq_ok.1 h
    exact holds_elementAt (.ofSlotRef hr) h
  | property a j =>
    obtain ⟨r, hr, h⟩ := Except.bind_eq_ok.1 h
    exact holds_elementAt (.ofSlotRef hr) h
  | indirect r =>
    have h := Except.mapError_eq_ok.1 h
    rw [indirect] at h
    split at h
    · exact .inl (.slot (Stack.get_eq_ok.1 h).2)
    · cases h; exact .inl (.register r)
  | implicit | immediate w => cases h

/-- The value of an immediate operand is the value itself or a copy of a literal. -/
theorem Yields.ofImmediate {v w : Value} {h : Heap} (hi : i.operand = .immediate v)
    (hv : t.immediate v = (h, .ok w)) : t.Yields i w h := by
  have hself : (∀ r ∈ t.literals, v ≠ .heapRef r) →
      (t.heap, Except.ok (ε := MemoryError) v) = (h, .ok w) → t.Yields i w h := by
    intro hne he
    cases he
    exact .immediate hi hne
  cases v with
  | heapRef r =>
    rw [Thread.immediate] at hv
    split at hv
    · next hmem => exact .literal hi (List.contains_iff_mem.1 hmem) hv
    · next hmem =>
      refine hself (fun r' hr' he => ?_) hv
      cases he
      exact hmem (List.contains_iff_mem.2 hr')
  | _ => exact hself (fun _ _ he => by cases he) hv

/-- A value that was loaded was held, computed, or copied from a literal. -/
theorem Yields.ofLoad {v : Value} {h : Heap} (hl : t.load f i.operand = .ok (v, h)) :
    t.Yields i v h := by
  have hread : ∀ {w : Value}, t.readOperand f i.operand = .ok w → t.Yields i w t.heap := by
    intro w hw
    rcases holds_readOperand hw with hw | hw
    · exact .held hw
    · exact .plain hw
  unfold Thread.load at hl
  cases hop : i.operand with
  | immediate w =>
    rw [hop] at hl
    dsimp only at hl
    cases himm : t.immediate w with
    | mk h' res =>
      rw [himm] at hl
      cases res with
      | error e => cases hl
      | ok x =>
        cases x <;> cases hl <;> exact .ofImmediate hop himm
  | implicit | absolute | index | property | static | indirect =>
    rw [hop] at hl hread
    dsimp only at hl
    split at hl
    · cases hl
    · cases hl
    · next hres => cases hl; exact hread hres

/-! ## Results of computing -/

/-- Arithmetic gives plain values. -/
theorem isPlain_arith {op : ArithOp} {b c v : Value} (h : Arithmetic.arith op b c = .ok v) :
    v.isPlain = true := by
  rw [Arithmetic.arith] at h
  split at h
  · cases h
  · obtain ⟨n, _, rfl⟩ := Except.map_eq_ok.1 h; rfl
  · obtain ⟨n, _, rfl⟩ := Except.map_eq_ok.1 h; rfl
  · cases h; rfl
  · cases h; rfl

/-- Logic gives truth values, which are plain. -/
theorem isPlain_logic {op : LogicOp} {b c v : Value} (h : Arithmetic.logic op b c = .ok v) :
    v.isPlain = true := by
  unfold Arithmetic.logic at h
  split at h
  · cases h; rfl
  · cases h

/-- Integers from conversions refer to nothing. -/
theorem isPlain_toInt {a v : Value} (h : Conversion.toInt a = .ok v) : v.isPlain = true := by
  unfold Conversion.toInt at h
  dsimp only at h
  repeat' split at h
  all_goals cases h <;> rfl

/-- Bytes from conversions refer to nothing. -/
theorem isPlain_toByte {a v : Value} (h : Conversion.toByte a = .ok v) : v.isPlain = true := by
  unfold Conversion.toByte at h
  dsimp only at h
  repeat' split at h
  all_goals cases h <;> rfl

/-- Characters from conversions refer to nothing. -/
theorem isPlain_toChar {a v : Value} (h : Conversion.toChar a = .ok v) : v.isPlain = true := by
  unfold Conversion.toChar at h
  dsimp only at h
  repeat' split at h
  all_goals cases h <;> rfl

/-- Truth values from conversions refer to nothing. -/
theorem isPlain_toBool {a v : Value} (h : Conversion.toBool a = .ok v) : v.isPlain = true := by
  cases a <;> cases h <;> rfl

/-- A conversion gives a string or a plain value. -/
theorem isPlain_convert {target : Conversion} {a v : Value}
    (h : Conversion.convert target a = .ok v) : (∃ s, v = .string s) ∨ v.isPlain = true := by
  cases target with
  | int => exact .inr (isPlain_toInt h)
  | float => obtain ⟨b, _, rfl⟩ := Except.map_eq_ok.1 h; exact .inr rfl
  | double => obtain ⟨b, _, rfl⟩ := Except.map_eq_ok.1 h; exact .inr rfl
  | byte => exact .inr (isPlain_toByte h)
  | string =>
    have h : Conversion.toText a = .ok v := h
    cases a <;> cases h <;> exact .inl ⟨_, rfl⟩
  | char => exact .inr (isPlain_toChar h)
  | bool => exact .inr (isPlain_toBool h)

/-! ## One lemma for each instruction -/

/-- What goes on to the next instruction was computed without a fault. -/
theorem proceed_eq_ok {res : Except Fault Thread} (h : t.proceed f res = .ok (k, u)) :
    ∃ t', res = .ok t' ∧ k = .next ∧ u = t'.jumpTo (f.pc + 1) := by
  cases res with
  | error e => cases h
  | ok t' => cases h; exact ⟨t', rfl, rfl, rfl⟩

/-- A register that is assigned a computed value. -/
theorem assign_eq_ok {r : Register} {res : Except Fault Value} (h : t.assign f r res = .ok (k, u)) :
    ∃ v, res = .ok v ∧ k = .next ∧ u = (t.setRegister r v).jumpTo (f.pc + 1) := by
  obtain ⟨t', ht', rfl, rfl⟩ := proceed_eq_ok h
  obtain ⟨v, rfl, rfl⟩ := Except.map_eq_ok.1 ht'
  exact ⟨v, rfl, rfl, rfl⟩

/-- The effect of a load. -/
theorem effect_load {r : Register} (h : t.execLoad f r i.operand = .ok (k, u)) :
    t.Effect f i k u := by
  rw [execLoad] at h
  split at h
  · cases h
  · next hl => cases h; exact .assign (.ofLoad hl)

/-- Replacing an element rewrites the container. -/
theorem rewritten_withElement {c c' v : Value} {n : Int} (h : withElement c n v = .ok c') :
    Value.Rewritten v c c' := by
  unfold withElement at h
  dsimp only at h
  split at h
  · split at h
    · cases h
    · cases h; exact .element _
  · split at h
    · cases h
    · split at h
      all_goals cases h
      all_goals exact .text
  · cases h

/-- What a reference leads to is read, changed and written back. -/
theorem updateHeap_eq_ok {h h' : Heap} {r : Ref} {change : Value → Except Fault Value}
    (hu : updateHeap h r change = .ok h') :
    ∃ c c', h.get r = .ok c ∧ change c = .ok c' ∧ h.set r c' = .ok h' := by
  obtain ⟨c, hc, hu⟩ := Except.bind_eq_ok.1 hu
  obtain ⟨c', hc', hu⟩ := Except.bind_eq_ok.1 hu
  exact ⟨c, c', Except.mapError_eq_ok.1 hc, hc', Except.mapError_eq_ok.1 hu⟩

/-- Writing an element where a held reference leads. -/
theorem effect_element {heap heap' : Heap} {r : Ref} {v : Value} {n : Int} (hy : t.Yields i v heap)
    (hr : t.Holds (.heapRef r)) (h : updateHeap heap r (withElement · n v) = .ok heap') :
    t.Effect f i .next ({ t with heap := heap' }.jumpTo (f.pc + 1)) := by
  obtain ⟨c, c', hc, hc', hset⟩ := updateHeap_eq_ok h
  exact .update hy hr hc (rewritten_withElement hc') hset

/-- Storing through an operand writes a slot of the frame's window or an element in the heap. -/
theorem effect_storeAt {heap : Heap} {v : Value} {t' : Thread} (hy : t.Yields i v heap)
    (h : t.store f i.operand heap v = .ok t') : t.Effect f i .next (t'.jumpTo (f.pc + 1)) := by
  unfold store at h
  have h := Except.mapError_eq_ok.1 h
  cases hop : i.operand with
  | implicit | immediate w =>
    rw [hop] at h
    obtain ⟨slot, hslot, h⟩ := Except.bind_eq_ok.1 h
    obtain ⟨s, hs, h⟩ := Except.bind_eq_ok.1 h
    cases h
    exact .store hy (.inl (Except.mapError_eq_ok.1 hslot)) (Except.mapError_eq_ok.1 hs)
  | absolute a =>
    rw [hop] at h
    obtain ⟨slot, hslot, h⟩ := Except.bind_eq_ok.1 h
    obtain ⟨s, hs, h⟩ := Except.bind_eq_ok.1 h
    cases h
    exact .store hy (.inr ⟨_, Except.mapError_eq_ok.1 hslot⟩) (Except.mapError_eq_ok.1 hs)
  | index a j =>
    rw [hop] at h
    obtain ⟨r, hr, h⟩ := Except.bind_eq_ok.1 h
    obtain ⟨n, _, h⟩ := Except.bind_eq_ok.1 h
    obtain ⟨h', hh', h⟩ := Except.bind_eq_ok.1 h
    cases h
    exact effect_element hy (.ofSlotRef hr) hh'
  | property a j =>
    rw [hop] at h
    obtain ⟨r, hr, h⟩ := Except.bind_eq_ok.1 h
    obtain ⟨h', hh', h⟩ := Except.bind_eq_ok.1 h
    cases h
    exact effect_element hy (.ofSlotRef hr) hh'
  | static a | indirect r =>
    rw [hop] at h
    cases h

/-- The effect of a store. -/
theorem effect_store {r : Register} (h : t.execStore f r i.operand = .ok (k, u)) :
    t.Effect f i k u := by
  unfold execStore at h
  dsimp only at h
  split at h
  · cases h
  · next v hv =>
    split at h
    · cases h
    · next t' ht' =>
      cases h
      refine effect_storeAt ?_ ht'
      split at hv
      · next w hop => exact .ofImmediate hop (Prod.ext rfl hv)
      · cases hv; exact .held (.register r)

/-- The effect of arithmetic. -/
theorem effect_arith {op : ArithOp} (h : t.execArith f op = .ok (k, u)) : t.Effect f i k u := by
  obtain ⟨t', ht', rfl, rfl⟩ := proceed_eq_ok h
  obtain ⟨⟨b, c⟩, _, ht'⟩ := Except.bind_eq_ok.1 ht'
  dsimp only at ht'
  split at ht'
  · cases ht'; exact .assign (.newString _)
  · obtain ⟨v, hv, ht'⟩ := Except.bind_eq_ok.1 ht'
    cases ht'
    exact .assign (.plain (isPlain_arith hv))

/-- The effect of logic. -/
theorem effect_logic {op : LogicOp}
    (h : t.assign f .a (Arithmetic.logic op t.registers.b t.registers.c) = .ok (k, u)) :
    t.Effect f i k u := by
  obtain ⟨v, hv, rfl, rfl⟩ := assign_eq_ok h
  exact .assign (.plain (isPlain_logic hv))

/-- The effect of a jump. -/
theorem effect_jump {target : Nat} (h : t.execJump target = .ok (k, u)) : t.Effect f i k u := by
  rw [execJump] at h
  split at h
  · cases h
  · cases h; exact .jump (by omega)

/-- The effect of a call. -/
theorem effect_call {a : UInt64} (hi : i = ⟨.call, .absolute a⟩)
    (h : t.execCall f a.toInt64.toInt = .ok (k, u)) : t.Effect f i k u := by
  unfold execCall at h
  split at h
  · cases h
  · next fn hfn =>
    dsimp only at h
    split at h
    · cases h
    · next s hs => cases h; exact .call hi hfn hs

/-- The effect of a return. -/
theorem effect_return (hi : i.mnemonic = .ret) (h : t.execReturn = .ok (k, u)) :
    t.Effect f i k u := by
  unfold execReturn Stack.pop at h
  cases hf : t.stack.frames with
  | nil => rw [hf] at h; cases h
  | cons done rest =>
    rw [hf] at h
    dsimp only at h
    cases rest with
    | nil => cases h; exact .finish hi hf
    | cons caller rest => cases h; exact .ret hi hf

/-- The effect of pushing a value. -/
theorem effect_push (h : t.execPush f i.operand = .ok (k, u)) : t.Effect f i k u := by
  unfold execPush at h
  split at h
  · cases h
  · next r hr =>
    have hr : t.Holds (.heapRef r) := asRef_eq_ok hr ▸ .register .a
    split at h
    · cases h
    · next v heap hl =>
      split at h
      · cases h
      · next heap' hu =>
        cases h
        obtain ⟨c, c', hc, hc', hset⟩ := updateHeap_eq_ok hu
        refine .update (.ofLoad hl) hr hc ?_ hset
        split at hc'
        · cases hc'; exact .added
        · cases hc'

/-- The effect of pushing a string. -/
theorem effect_pushString (h : t.execPushString f i.operand = .ok (k, u)) : t.Effect f i k u := by
  unfold execPushString at h
  split at h
  · cases h
  · next r hr =>
    have hr : t.Holds (.heapRef r) := asRef_eq_ok hr ▸ .register .a
    split at h
    · cases h
    · next v heap hl =>
      dsimp only at h
      split at h
      · cases h
      · next heap' hu =>
        cases h
        obtain ⟨w, _, hu⟩ := Except.bind_eq_ok.1 hu
        obtain ⟨tail, _, hu⟩ := Except.bind_eq_ok.1 hu
        obtain ⟨c, c', hc, hc', hset⟩ := updateHeap_eq_ok hu
        refine .update (.ofLoad hl) hr hc ?_ hset
        split at hc'
        · cases hc'; exact .text
        · cases hc'

/-- The effect of taking a length. -/
theorem effect_length {n : Nat} (h : t.execLength f n = .ok (k, u)) : t.Effect f i k u := by
  obtain ⟨v, hv, rfl, rfl⟩ := assign_eq_ok h
  obtain ⟨r, _, hv⟩ := Except.bind_eq_ok.1 hv
  obtain ⟨c, _, hv⟩ := Except.bind_eq_ok.1 hv
  split at hv
  · cases hv; exact .assign (.plain rfl)
  · cases hv

/-- The effect of making an array. -/
theorem effect_newStatic {v : Value} (h : t.execNewStatic f v = .ok (k, u)) :
    t.Effect f i k u := by
  unfold execNewStatic at h
  dsimp only at h
  repeat' split at h
  all_goals cases h
  exact .assign (.newArray _)

/-- The effect of popping a value. -/
theorem effect_pop {n : Nat} (h : t.execPop f n = .ok (k, u)) : t.Effect f i k u := by
  obtain ⟨t', ht', rfl, rfl⟩ := proceed_eq_ok h
  obtain ⟨r, hr, ht'⟩ := Except.bind_eq_ok.1 ht'
  obtain ⟨c, hc, ht'⟩ := Except.bind_eq_ok.1 ht'
  split at ht'
  · split at ht'
    · cases ht'
    · next last hlast =>
      obtain ⟨heap, hset, ht'⟩ := Except.bind_eq_ok.1 ht'
      cases ht'
      exact .pop (.ofSlotRef hr) (Except.mapError_eq_ok.1 hc) hlast (Except.mapError_eq_ok.1 hset)
  · cases ht'

/-- The effect of a conversion. -/
theorem effect_convert {target : Conversion} (h : t.execConvert f target = .ok (k, u)) :
    t.Effect f i k u := by
  obtain ⟨t', ht', rfl, rfl⟩ := proceed_eq_ok h
  obtain ⟨v, _, ht'⟩ := Except.bind_eq_ok.1 ht'
  split at ht'
  · cases ht'; exact .skip
  · obtain ⟨w, hw, ht'⟩ := Except.bind_eq_ok.1 ht'
    split at ht'
    · cases ht'; exact .assign (.newString _)
    · next hns =>
      cases ht'
      rcases isPlain_convert hw with ⟨s, rfl⟩ | hp
      · exact absurd rfl (hns s)
      · exact .assign (.plain hp)

/-- The effect of copying. -/
theorem effect_clone {n : Nat} (h : t.execClone f n = .ok (k, u)) : t.Effect f i k u := by
  unfold execClone at h
  split at h
  · cases h
  · cases h
  · next v _ hv =>
    split at h
    · cases h
    · next heap w hw => cases h; exact .assign (.clone (.ofLocal hv) hw)

/-- The effect of freeing. -/
theorem effect_free {a : UInt64} (hi : i = ⟨.free, .absolute a⟩)
    (h : t.execFree f a.toNat = .ok (k, u)) : t.Effect f i k u := by
  obtain ⟨t', ht', rfl, rfl⟩ := proceed_eq_ok h
  obtain ⟨slot, hslot, ht'⟩ := Except.bind_eq_ok.1 ht'
  obtain ⟨v, hv, ht'⟩ := Except.bind_eq_ok.1 ht'
  have hslot := Except.mapError_eq_ok.1 hslot
  have hv := Except.mapError_eq_ok.1 hv
  dsimp only at ht'
  split at ht'
  · obtain ⟨heap, hheap, ht'⟩ := Except.bind_eq_ok.1 ht'
    obtain ⟨s, hs, ht'⟩ := Except.bind_eq_ok.1 ht'
    cases ht'
    exact .free hi hslot hv (Except.mapError_eq_ok.1 hheap) (Except.mapError_eq_ok.1 hs)
  · next hne =>
    obtain ⟨heap, hheap, ht'⟩ := Except.bind_eq_ok.1 ht'
    obtain ⟨s, hs, ht'⟩ := Except.bind_eq_ok.1 ht'
    cases hheap
    cases ht'
    exact .clear hi hslot hv hne (Except.mapError_eq_ok.1 hs)

/-- The arguments of a native call stand in slots, as many as the function takes. -/
theorem holds_arguments {n : UInt64} {arity : Nat} {args : List Value}
    (h : t.arguments f n arity = .ok args) : (∀ a ∈ args, t.Holds a) ∧ args.length = arity := by
  refine ⟨fun a ha => ?_, by simpa using (Except.mapM_eq_ok.1 h).length_eq.symm⟩
  obtain ⟨j, _, hj⟩ := Except.exists_of_mem_mapM h ha
  exact .ofLocal hj

/-- The effect of calling a native function. -/
theorem effect_callNative {a : UInt64} (hi : i.mnemonic = .callNative)
    (h : t.execCallNative f a = .ok (k, u)) : t.Effect f i k u := by
  unfold execCallNative at h
  split at h
  · cases h
  · next call hcall =>
    split at h
    · cases h
    · next fn hfn =>
      split at h
      · cases h
      · next args hargs =>
        split at h
        · cases h
        · cases h
        · next v heap printed hret =>
          cases h
          obtain ⟨hheld, hlen⟩ := holds_arguments hargs
          exact .native hi hcall hfn hheld hlen hret rfl

/-- **An instruction that succeeds does one of the listed things.** -/
theorem exec_effect (h : t.exec f i = .ok (k, u)) : t.Effect f i k u := by
  obtain ⟨m, op⟩ := i
  unfold exec at h
  dsimp only at h
  split at h
  · exact effect_load h
  · exact effect_store h
  · exact effect_arith h
  · exact effect_logic h
  · obtain ⟨v, hv, rfl, rfl⟩ := assign_eq_ok h
    obtain ⟨⟨b, c⟩, _, hv⟩ := Except.bind_eq_ok.1 hv
    obtain ⟨o, _, hv⟩ := Except.bind_eq_ok.1 hv
    cases hv
    exact .assign (.plain rfl)
  · exact effect_jump h
  · split at h
    · exact effect_jump h
    · cases h; exact .skip
    · cases h
  · exact effect_call rfl h
  · exact effect_return rfl h
  · split at h
    · cases h
    · next fn hfn =>
      cases h
      obtain ⟨_, _, hheader⟩ := functionAt_eq_ok hfn
      exact .jump hheader.stop_le
  · exact effect_push h
  · exact effect_pushString h
  · exact effect_length h
  · cases h; exact .assign (.newArray 0)
  · cases h; exact .assign (.newString [])
  · exact effect_newStatic h
  · exact effect_pop h
  · exact effect_convert h
  · exact effect_clone h
  · exact effect_free rfl h
  · cases h; exact .trap rfl
  · exact effect_callNative rfl h
  · cases h

end Thread

end RegisterMachine
