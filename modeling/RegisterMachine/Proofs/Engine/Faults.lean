import RegisterMachine.Proofs.Engine.LiveReferences
import RegisterMachine.Proofs.Text.WellFormed

/-!
# What instructions fail with

Computing with values fails with faults of its own, whose messages are well-formed texts
(`Fault.isRoutine`); naming a slot and following a reference fail with an error of stack or heap
memory (`MemoryError.isOfSlot`, `MemoryError.isOfReference`); and a call can overflow the stack.
What is left are faults of the engine itself and a missing frame. A legal instruction fails only
with faults of any class that takes in the former (`FaultClass`), if looking for headers and calls
of functions that are not there do so too (`Thread.failsWith_exec`): no branch is taken that has no
meaning for the operand. Two classes matter: the faults that are expected (`Fault.isExpected`) and
those that have a well-formed message (`Fault.isLegible`).
-/

namespace RegisterMachine

variable {α : Type}

/-! ## Kinds of faults -/

namespace MemoryError

/-- The error is due to the address of a slot. -/
def isOfSlot : MemoryError → Bool
  | slotOutside .. | localOutside .. | counterOutside .. => true
  | _ => false

/-- The error is due to a reference into the heap. -/
def isOfReference : MemoryError → Bool
  | heapOutside .. | stale _ => true
  | _ => false

end MemoryError

namespace Fault

/-- The instruction cannot do what it is asked to; neither memory nor the engine has a part in
it. -/
def isOperational : Fault → Bool
  | memory _ | noFrame | internal _ => false
  | _ => true

/-- The fault is neither one of the engine itself nor due to a missing frame. -/
def isExpected (fault : Fault) : Bool :=
  fault.reason ≠ .internalError ∧ fault.reason ≠ .stackUnderflow

/-- The message of the fault is a well-formed text. -/
def isLegible (fault : Fault) : Bool := Text.isUtf8 fault.message

/-- The instruction cannot do what it is asked to, and a well-formed text says so. -/
def isRoutine (fault : Fault) : Bool := fault.isOperational && fault.isLegible

/-- What an instruction cannot do is routine if its message is well formed. -/
theorem isRoutine_of_message {fault : Fault} (hf : fault.isOperational = true)
    (hm : Text.isUtf8 fault.message = true) : fault.isRoutine = true :=
  Bool.and_eq_true_iff.2 ⟨hf, hm⟩

/-- Types are named by well-formed texts. -/
theorem isRoutine_ofValues (m : Mnemonic) (vs : List Value) : (ofValues m vs).isRoutine = true := by
  refine isRoutine_of_message rfl ?_
  have hnames : Text.isUtf8 (Bytes.join (utf8 ", ") (vs.map Value.typeName)) = true :=
    Text.isUtf8_join (by simp) (by simp)
  simp [ofValues, message, hnames]

end Fault

/-- Reasons are named by well-formed texts. -/
theorem PanicReason.isUtf8_name (r : PanicReason) : Text.isUtf8 r.name = true := by
  unfold name
  split <;> simp

/-- The messages of memory errors are well-formed texts. -/
theorem MemoryError.isUtf8_message (e : MemoryError) : Text.isUtf8 e.message = true := by
  cases e <;> simp [message, PanicReason.isUtf8_name]

/-- A class of faults that takes in what instructions cannot do and errors of memory, a missing
frame apart. -/
structure FaultClass (P : Fault → Bool) : Prop where
  routine : ∀ {fault}, fault.isRoutine = true → P fault = true
  memory : ∀ {e}, e ≠ .stackUnderflow → P (.memory e) = true

/-- The expected faults are a class. -/
theorem faultClass_isExpected : FaultClass Fault.isExpected where
  routine {fault} hf := by
    have hoperational := (Bool.and_eq_true_iff.1 hf).1
    cases fault with
    | memory e | noFrame | internal msg => cases hoperational
    | _ => rfl
  memory {e} he := by
    cases e with
    | stackUnderflow => exact absurd rfl he
    | _ => rfl

/-- The faults with a well-formed message are a class. -/
theorem faultClass_isLegible : FaultClass Fault.isLegible where
  routine hf := (Bool.and_eq_true_iff.1 hf).2
  memory {e} _ := e.isUtf8_message

/-- The failure is due to a fault of the class. -/
def Failure.within (P : Fault → Bool) (e : Failure) : Bool := P e.fault

namespace FaultClass

variable {P : Fault → Bool} (hP : FaultClass P)
include hP

/-- A routine failure is one of the class. -/
theorem ofRoutine {x : Except Fault α} (hx : FailsWith Fault.isRoutine x) : FailsWith P x :=
  hx.mono fun _ => hP.routine

/-- The class takes in the errors of slots. -/
theorem slot {e : MemoryError} (he : e.isOfSlot = true) : P (.memory e) = true :=
  hP.memory fun h => by subst h; cases he

/-- The class takes in the errors of references. -/
theorem reference {e : MemoryError} (he : e.isOfReference = true) : P (.memory e) = true :=
  hP.memory fun h => by subst h; cases he

/-- Failing to find a slot is a failure of the class. -/
theorem ofSlot {x : Except MemoryError α} (hx : FailsWith MemoryError.isOfSlot x) :
    FailsWith P (x.mapError .memory) :=
  hx.mapError fun _ => hP.slot

/-- Failing to follow a reference is a failure of the class. -/
theorem ofReference {x : Except MemoryError α} (hx : FailsWith MemoryError.isOfReference x) :
    FailsWith P (x.mapError .memory) :=
  hx.mapError fun _ => hP.reference

end FaultClass

/-! ## Computing with values -/

namespace Arithmetic

/-- Integer operations fail for routine reasons only. -/
theorem failsWith_onInts (op : ArithOp) (x y : Int64) :
    FailsWith Fault.isRoutine (onInts op x y) := by
  intro e he
  unfold onInts at he
  repeat' split at he
  all_goals cases he
  all_goals exact Fault.isRoutine_of_message rfl (by simp [Fault.message])

/-- Arithmetic fails for routine reasons only. -/
theorem failsWith_arith (op : ArithOp) (b c : Value) :
    FailsWith Fault.isRoutine (arith op b c) := by
  unfold arith
  split
  · exact .error (Fault.isRoutine_ofValues _ _)
  · exact (failsWith_onInts op _ _).map
  · exact (failsWith_onInts op _ _).map
  · exact .ok _
  · exact .ok _

/-- Logic fails for routine reasons only. -/
theorem failsWith_logic (op : LogicOp) (b c : Value) :
    FailsWith Fault.isRoutine (logic op b c) := by
  unfold logic
  split
  · exact .ok _
  · exact .error (Fault.isRoutine_ofValues _ _)

/-- Ordering fails for routine reasons only. -/
theorem failsWith_order (op : Comparison) (b c : Value) :
    FailsWith Fault.isRoutine (order op b c) := by
  unfold order
  split
  · exact .ok _
  · split
    · exact .ok _
    · exact .error (Fault.isRoutine_ofValues _ _)

/-- Testing for equality fails for routine reasons only. -/
theorem failsWith_equal (op : Comparison) (b c : Value) :
    FailsWith Fault.isRoutine (equal op b c) := by
  unfold equal
  repeat' split
  · exact .ok _
  · exact (failsWith_order op b c).map
  · exact .error (Fault.isRoutine_ofValues _ _)
  · exact .ok _

/-- Comparing fails for routine reasons only. -/
theorem failsWith_compareValues (op : Comparison) (b c : Value) :
    FailsWith Fault.isRoutine (compareValues op b c) := by
  unfold compareValues
  split
  · exact failsWith_equal _ b c
  · exact (failsWith_equal _ b c).map
  · exact (failsWith_order _ b c).map

end Arithmetic

namespace Conversion

/-- Converting to a double fails for routine reasons only. -/
theorem failsWith_toDouble (target : Conversion) (a : Value) :
    FailsWith Fault.isRoutine (toDouble target a) := by
  intro e he
  unfold toDouble at he
  repeat' split at he
  all_goals cases he
  all_goals first
    | exact Fault.isRoutine_ofValues _ _
    | exact Fault.isRoutine_of_message rfl (by simp [Fault.message])

/-- Converting to an integer fails for routine reasons only. -/
theorem failsWith_toInt (a : Value) : FailsWith Fault.isRoutine (toInt a) := by
  intro e he
  unfold toInt at he
  dsimp only at he
  repeat' split at he
  all_goals cases he
  all_goals first
    | exact Fault.isRoutine_ofValues _ _
    | exact Fault.isRoutine_of_message rfl (by simp [Fault.message])

/-- Converting to a byte fails for routine reasons only. -/
theorem failsWith_toByte (a : Value) : FailsWith Fault.isRoutine (toByte a) := by
  intro e he
  unfold toByte at he
  dsimp only at he
  repeat' split at he
  all_goals cases he
  all_goals first
    | exact Fault.isRoutine_ofValues _ _
    | exact Fault.isRoutine_of_message rfl (by simp [Fault.message])

/-- Converting to a character fails for routine reasons only. -/
theorem failsWith_toChar (a : Value) : FailsWith Fault.isRoutine (toChar a) := by
  intro e he
  unfold toChar at he
  dsimp only at he
  repeat' split at he
  all_goals cases he
  all_goals first
    | exact Fault.isRoutine_ofValues _ _
    | exact Fault.isRoutine_of_message rfl (by simp [Fault.message])

/-- Converting fails for routine reasons only. -/
theorem failsWith_convert (target : Conversion) (a : Value) :
    FailsWith Fault.isRoutine (convert target a) := by
  cases target with
  | float | double => exact (failsWith_toDouble _ a).map
  | int => exact failsWith_toInt a
  | byte => exact failsWith_toByte a
  | char => exact failsWith_toChar a
  | string | bool =>
    intro e he
    cases a <;> cases he
    all_goals exact Fault.isRoutine_ofValues _ _

end Conversion

/-- A header is looked for at an index whose successor is an index too. -/
theorem failsWith_functionAt {code : Array Instruction} {entry : Int} (he : entry ≠ 2 ^ 63 - 1) :
    FailsWith Fault.isRoutine (functionAt code entry) := by
  intro e hfail
  unfold functionAt at hfail
  rw [if_neg he] at hfail
  dsimp only at hfail
  repeat' split at hfail
  all_goals cases hfail
  all_goals exact Fault.isRoutine_of_message rfl (by simp [Fault.message])

/-- Wherever a header is looked for, it is said in a well-formed text that there is none. -/
theorem isLegible_functionAt (code : Array Instruction) (entry : Int) :
    FailsWith Fault.isLegible (functionAt code entry) := by
  by_cases he : entry = 2 ^ 63 - 1
  · intro e hfail
    unfold functionAt at hfail
    rw [if_pos he] at hfail
    cases hfail
    simp [Fault.isLegible, Fault.message]
  · exact faultClass_isLegible.ofRoutine (failsWith_functionAt he)

/-! ## Slots and references -/

/-- Naming a slot fails because of its address. -/
theorem Frame.failsWith_slot (f : Frame) (n : Nat) : FailsWith MemoryError.isOfSlot (f.slot n) := by
  unfold slot
  split
  · exact .error rfl
  · exact .ok _

/-- Naming a slot of one's own fails because of its address. -/
theorem Frame.failsWith_ownSlot (f : Frame) (pc : Int) :
    FailsWith MemoryError.isOfSlot (f.ownSlot pc) := by
  unfold ownSlot
  split
  · exact .error rfl
  · exact .ok _

/-- Reading a slot fails because of its address. -/
theorem Stack.failsWith_get (s : Stack) (n : Int) : FailsWith MemoryError.isOfSlot (s.get n) := by
  unfold get
  split
  · exact .ok _
  · exact .error rfl

/-- Writing a slot fails because of its address. -/
theorem Stack.failsWith_set (s : Stack) (n : Int) (v : Value) :
    FailsWith MemoryError.isOfSlot (s.set n v) := by
  unfold set
  split
  · exact .ok _
  · exact .error rfl

namespace Heap

/-- Reading an entry fails because of its reference. -/
theorem failsWith_get (h : Heap) (r : Ref) : FailsWith MemoryError.isOfReference (h.get r) := by
  unfold get
  split
  · exact .error rfl
  · split
    · exact .ok _
    · exact .error rfl

/-- Writing an entry fails because of its reference. -/
theorem failsWith_set (h : Heap) (r : Ref) (v : Value) :
    FailsWith MemoryError.isOfReference (h.set r v) := by
  unfold set
  split
  · next he => exact .error (h.failsWith_get r _ he)
  · exact .ok _

/-- Freeing an entry fails because of its reference. -/
theorem failsWith_free (h : Heap) (r : Ref) : FailsWith MemoryError.isOfReference (h.free r) := by
  unfold free
  split
  · next he => exact .error (h.failsWith_get r _ he)
  · exact .ok _

/-- Following a value fails because of its reference. -/
theorem failsWith_deref (h : Heap) (v : Value) :
    FailsWith MemoryError.isOfReference (Native.deref h v) := by
  cases v with
  | heapRef r => exact h.failsWith_get r
  | _ => exact .ok _

end Heap

/-- Writing a finished copy to its entry fails because of its reference. -/
theorem failsWith_finish (st : CopyState) (dst : Ref) (c : Value) :
    FailsWith MemoryError.isOfReference (copyValue.finish st dst c).2 := by
  unfold copyValue.finish
  split
  · next he => exact .error (st.heap.failsWith_set dst c _ he)
  · exact .ok _

/-- Copying a list fails because of references if copying its elements does. -/
theorem failsWith_copyAll {copy : CopyState → Value → CopyState × Except MemoryError Value}
    (hcopy : ∀ st v, FailsWith MemoryError.isOfReference (copy st v).2) (st : CopyState)
    (vs : List Value) : FailsWith MemoryError.isOfReference (copyAll copy st vs).2 := by
  induction vs generalizing st with
  | nil => exact .ok []
  | cons v vs ih =>
    have hv := hcopy st v
    rw [copyAll_cons]
    generalize copy st v = res at hv ⊢
    obtain ⟨st', e | w⟩ := res
    · exact .error (hv e rfl)
    · exact (ih st').map

/-- Copying fails only because of a reference. -/
theorem failsWith_copyValue (fuel : Nat) (st : CopyState) (v : Value) :
    FailsWith MemoryError.isOfReference (copyValue fuel st v).2 := by
  induction fuel using Nat.strongRecOn generalizing st v with
  | ind fuel ih =>
    by_cases hv : ∃ src, v = .heapRef src
    · obtain ⟨src, rfl⟩ := hv
      obtain ⟨dst, _, he⟩ | ⟨_, ⟨e, hget, he⟩ | ⟨c, _, _, he⟩ | ⟨n, c, rfl, _, he⟩⟩ :=
        copyValue_cases fuel st src
      · rw [he]; exact .ok _
      · rw [he]; exact .error (st.heap.failsWith_get src e hget)
      · rw [he]; exact .error rfl
      · rw [he]
        unfold copyContent
        split
        · next es _ =>
          have hes := failsWith_copyAll (ih n (Nat.lt_succ_self n)) (st.take src) es
          split
          · next hall => exact .error (hes _ (by rw [hall]))
          · exact failsWith_finish _ _ _
        · exact failsWith_finish _ _ _
    · rw [copyValue_of_ne fun r hr => hv ⟨r, hr⟩]
      exact .ok v

/-- Copying a value fails because of references only. -/
theorem Heap.failsWith_deepCopy (h : Heap) (v : Value) :
    FailsWith MemoryError.isOfReference (h.deepCopy v).2 :=
  failsWith_copyValue Heap.maxEntries ⟨h, []⟩ v

/-! ## Standard functions -/

/-- **Standard functions report their errors in well-formed texts.** -/
theorem NativeRegistry.Standard.isRoutine_failed {r : NativeRegistry} {hash : UInt64}
    {fn : NativeFunction} (hr : r.Standard) (hfn : r.lookup? hash = some fn) {h : Heap}
    {args : List Value} {message : Bytes} {left : Option Heap}
    (hfail : fn.code h args = .failed message left) :
    (Fault.nativeFailed fn.qualifiedName message).isRoutine = true := by
  have hmem := hr fn (List.mem_of_find?_eq_some hfn)
  have htext : Text.isUtf8 message = true ∧ Text.isUtf8 fn.qualifiedName = true := by
    simp only [NativeRegistry.std, List.mem_cons, List.not_mem_nil, or_false] at hmem
    rcases hmem with rfl | rfl | rfl
    all_goals refine ⟨?_, by simp [NativeFunction.qualifiedName, Native.standard]⟩
    · change Native.println h args = .failed message left at hfail
      unfold Native.println at hfail
      split at hfail
      · cases hfail
        exact MemoryError.isUtf8_message _
      · cases hfail
    · change Native.len h args = .failed message left at hfail
      unfold Native.len at hfail
      split at hfail
      · cases hfail
        exact MemoryError.isUtf8_message _
      · cases hfail
      · cases hfail
      · cases hfail
        simp
    · change Native.concat h args = .failed message left at hfail
      unfold Native.concat at hfail
      split at hfail
      · cases hfail
        exact MemoryError.isUtf8_message _
      · cases hfail
        exact MemoryError.isUtf8_message _
      · cases hfail
  exact Fault.isRoutine_of_message rfl (by simp [Fault.message, htext])

namespace Thread

variable {t : Thread} {f : Frame} {i : Instruction} {op : Operand}

/-! ## Operands -/

/-- Reading a local slot fails because of its address. -/
theorem failsWith_getLocal (t : Thread) (f : Frame) (n : Nat) :
    FailsWith MemoryError.isOfSlot (t.getLocal f n) :=
  (f.failsWith_slot n).bind fun slot _ => t.stack.failsWith_get slot

/-- Asking for a reference fails for routine reasons only. -/
theorem failsWith_asRef (v : Value) : FailsWith Fault.isRoutine (asRef v) := by
  intro e he
  cases v <;> cases he
  all_goals exact Fault.isRoutine_of_message rfl (by simp [Fault.message])

/-- Setting an element fails for routine reasons only. -/
theorem failsWith_withElement (c : Value) (n : Int) (v : Value) :
    FailsWith Fault.isRoutine (withElement c n v) := by
  intro e he
  unfold withElement at he
  dsimp only at he
  repeat' split at he
  all_goals cases he
  all_goals exact Fault.isRoutine_of_message rfl (by simp [Fault.message])

/-- Asking for a text to append fails for routine reasons only. -/
theorem failsWith_appendix (v : Value) : FailsWith Fault.isRoutine (appendix v) := by
  unfold appendix
  split
  · exact .ok _
  · exact .ok _
  · exact .ok _
  · exact .error (Fault.isRoutine_ofValues _ _)

/-- Following a register to a slot fails because of its address. -/
theorem failsWith_indirect (t : Thread) (reg : Register) :
    FailsWith MemoryError.isOfSlot (t.indirect reg) := by
  unfold indirect
  split
  · exact t.stack.failsWith_get _
  · exact .ok _

/-- Taking an immediate value fails because of references only. -/
theorem failsWith_immediate (t : Thread) (v : Value) :
    FailsWith MemoryError.isOfReference (t.immediate v).2 := by
  unfold immediate
  split
  · split
    · exact t.heap.failsWith_deepCopy _
    · exact .ok _
  · exact .ok _

section
variable {P : Fault → Bool} (hP : FaultClass P)
include hP

/-- Asking a slot for a reference fails within the class. -/
theorem failsWith_slotRef (t : Thread) (f : Frame) (n : Nat) : FailsWith P (t.slotRef f n) :=
  (hP.ofSlot (t.failsWith_getLocal f n)).bind fun v _ => hP.ofRoutine (failsWith_asRef v)

/-- Asking a slot for an index fails within the class. -/
theorem failsWith_indexIn (t : Thread) (f : Frame) (n : Nat) : FailsWith P (t.indexIn f n) := by
  refine (hP.ofSlot (t.failsWith_getLocal f n)).bind fun v _ => ?_
  split
  · exact .ok _
  · exact .error (hP.routine (Fault.isRoutine_of_message rfl (by simp [Fault.message])))

/-- Reading an element fails within the class. -/
theorem failsWith_elementAt (h : Heap) (r : Ref) (n : Int) : FailsWith P (elementAt h r n) := by
  refine (hP.ofReference (h.failsWith_get r)).bind fun c _ => ?_
  intro e he
  dsimp only at he
  repeat' split at he
  all_goals cases he
  all_goals exact hP.routine (Fault.isRoutine_of_message rfl (by simp [Fault.message]))

/-- Changing an entry fails within the class if the change fails for routine reasons. -/
theorem failsWith_updateHeap {change : Value → Except Fault Value} (h : Heap) (r : Ref)
    (hchange : ∀ c, FailsWith Fault.isRoutine (change c)) : FailsWith P (updateHeap h r change) :=
  (hP.ofReference (h.failsWith_get r)).bind fun c _ =>
    (hP.ofRoutine (hchange c)).bind fun c' _ => hP.ofReference (h.failsWith_set r c')

/-- Operands other than implicit and immediate ones have a source. -/
theorem failsWith_readOperand (t : Thread) (f : Frame) (hop : op.mode ≠ .implicit)
    (hop' : op.mode ≠ .immediate) : FailsWith P (t.readOperand f op) := by
  cases op with
  | implicit => exact absurd rfl hop
  | immediate v => exact absurd rfl hop'
  | absolute a => exact hP.ofSlot (t.failsWith_getLocal f _)
  | static a => exact hP.ofSlot (t.stack.failsWith_get _)
  | index a n =>
    refine (failsWith_slotRef hP t f _).bind fun r _ => ?_
    refine (failsWith_indexIn hP t f _).bind fun m _ => ?_
    exact failsWith_elementAt hP t.heap r m
  | property a n =>
    exact (failsWith_slotRef hP t f _).bind fun r _ => failsWith_elementAt hP t.heap r _
  | indirect reg => exact hP.ofSlot (t.failsWith_indirect reg)

/-- Loads have a source, unless the operand is implicit. -/
theorem failsWith_load (t : Thread) (f : Frame) (hop : op.mode ≠ .implicit) :
    FailsWith (Failure.within P) (t.load f op) := by
  intro e he
  have hempty : P (.emptyOperand op) = true :=
    hP.routine (Fault.isRoutine_of_message rfl (by simp [Fault.message]))
  unfold load at he
  cases op with
  | implicit => exact absurd rfl hop
  | immediate v =>
    dsimp only at he
    split at he
    · next hres =>
      cases he
      exact hP.ofReference (t.failsWith_immediate v) _ hres
    · cases he
      exact hempty
    · cases he
  | _ =>
    dsimp only at he
    split at he
    · next hres =>
      cases he
      exact failsWith_readOperand hP t f hop (by simp [Operand.mode]) _ hres
    · cases he
      exact hempty
    · cases he

/-- Stores have a destination, if a store instruction supports the operand's mode. -/
theorem failsWith_store (t : Thread) (f : Frame) (h : Heap) (v : Value) {reg : Register}
    (hop : (Mnemonic.store reg).supports op.mode = true) :
    FailsWith (Failure.within P) (t.store f op h v) := by
  refine FailsWith.mapError (P := P) ?_ fun _ he => he
  cases op with
  | implicit | immediate w =>
    refine (hP.ofSlot (f.failsWith_ownSlot _)).bind fun slot _ => ?_
    exact (hP.ofSlot (t.stack.failsWith_set _ _)).bind fun s _ => .ok _
  | absolute a =>
    refine (hP.ofSlot (f.failsWith_slot _)).bind fun slot _ => ?_
    exact (hP.ofSlot (t.stack.failsWith_set _ _)).bind fun s _ => .ok _
  | index a n =>
    refine (failsWith_slotRef hP _ f _).bind fun r _ => ?_
    refine (failsWith_indexIn hP _ f _).bind fun m _ => ?_
    refine (failsWith_updateHeap hP h r fun c => ?_).bind fun _ _ => .ok _
    exact failsWith_withElement c m v
  | property a n =>
    refine (failsWith_slotRef hP _ f _).bind fun r _ => ?_
    refine (failsWith_updateHeap hP h r fun c => ?_).bind fun _ _ => .ok _
    exact failsWith_withElement c _ v
  | static a | indirect q => simp [Mnemonic.supports, Mnemonic.modes, Operand.mode] at hop

/-! ## Instructions -/

omit hP in
/-- Going on behind an instruction fails within the class if the instruction does. -/
theorem failsWith_proceed {res : Except Fault Thread} (hres : FailsWith P res) :
    FailsWith (Failure.within P) (t.proceed f res) := by
  cases res with
  | error fault => exact .error (hres fault rfl)
  | ok u => exact .ok _

omit hP in
/-- Setting a register to a result fails within the class if the result does. -/
theorem failsWith_assign {reg : Register} {res : Except Fault Value} (hres : FailsWith P res) :
    FailsWith (Failure.within P) (t.assign f reg res) :=
  failsWith_proceed hres.map

/-- A load fails within the class. -/
theorem failsWith_execLoad (t : Thread) (f : Frame) (reg : Register) (hop : op.mode ≠ .implicit) :
    FailsWith (Failure.within P) (t.execLoad f reg op) := by
  unfold execLoad
  split
  · next hl => exact .error (failsWith_load hP t f hop _ hl)
  · exact .ok _

/-- A store fails within the class. -/
theorem failsWith_execStore (t : Thread) (f : Frame) {reg : Register}
    (hop : (Mnemonic.store reg).supports op.mode = true) :
    FailsWith (Failure.within P) (t.execStore f reg op) := by
  have hstore : ∀ {h : Heap} {v : Value} {e : Failure}, t.store f op h v = .error e →
      e.within P = true :=
    fun hs => failsWith_store hP t f _ _ hop _ hs
  unfold execStore
  cases op with
  | immediate v =>
    dsimp only
    split
    · next hv => exact .error (hP.reference (t.failsWith_immediate v _ hv))
    · split
      · next hs => exact .error (hstore hs)
      · exact .ok _
  | _ =>
    dsimp only
    split
    · next hs => exact .error (hstore hs)
    · exact .ok _

/-- Following the operands in registers B and C fails within the class. -/
theorem failsWith_operands (t : Thread) : FailsWith P t.operands :=
  (hP.ofReference (t.heap.failsWith_deref _)).bind fun _ _ =>
    (hP.ofReference (t.heap.failsWith_deref _)).bind fun _ _ => .ok _

/-- Arithmetic on registers fails within the class. -/
theorem failsWith_execArith (t : Thread) (f : Frame) (op : ArithOp) :
    FailsWith (Failure.within P) (t.execArith f op) := by
  refine failsWith_proceed ((failsWith_operands hP t).bind fun (b, c) _ => ?_)
  dsimp only
  split
  · exact .ok _
  · exact (hP.ofRoutine (Arithmetic.failsWith_arith _ _ _)).bind fun v _ => .ok _

/-- A jump fails within the class. -/
theorem failsWith_execJump (t : Thread) (target : Nat) :
    FailsWith (Failure.within P) (t.execJump target) := by
  unfold execJump
  split
  · exact .error (hP.routine (Fault.isRoutine_of_message rfl (by simp [Fault.message])))
  · exact .ok _

/-- A call fails if there is no header or no room on the stack. -/
theorem failsWith_execCall (t : Thread) (f : Frame) {entry : Int}
    (he : FailsWith P (functionAt t.code entry)) :
    FailsWith (Failure.within P) (t.execCall f entry) := by
  unfold execCall
  split
  · next hfn => exact .error (he _ hfn)
  · dsimp only
    split
    · next hpush =>
      rw [Stack.push] at hpush
      split at hpush
      · cases hpush
        exact .error (hP.memory (by rintro ⟨⟩))
      · cases hpush
    · exact .ok _

omit hP in
/-- A return takes the current frame off, which is there. -/
theorem failsWith_execReturn (hf : t.stack.frames ≠ []) :
    FailsWith (Failure.within P) t.execReturn := by
  unfold execReturn Stack.pop
  cases hframes : t.stack.frames with
  | nil => exact absurd hframes hf
  | cons done rest =>
    dsimp only
    split <;> exact .ok _

/-- Pushing a value fails within the class. -/
theorem failsWith_execPush (t : Thread) (f : Frame) (hop : op.mode ≠ .implicit) :
    FailsWith (Failure.within P) (t.execPush f op) := by
  unfold execPush
  split
  · next hr => exact .error (hP.ofRoutine (failsWith_asRef _) _ hr)
  · split
    · next hl => exact .error (failsWith_load hP t f hop _ hl)
    · split
      · next hu =>
        refine .error (failsWith_updateHeap hP _ _ (fun c => ?_) _ hu)
        split
        · exact .ok _
        · exact .error (Fault.isRoutine_ofValues _ _)
      · exact .ok _

/-- Pushing a string fails within the class. -/
theorem failsWith_execPushString (t : Thread) (f : Frame) (hop : op.mode ≠ .implicit) :
    FailsWith (Failure.within P) (t.execPushString f op) := by
  unfold execPushString
  split
  · next hr => exact .error (hP.ofRoutine (failsWith_asRef _) _ hr)
  · split
    · next hl => exact .error (failsWith_load hP t f hop _ hl)
    · next v heap hl =>
      dsimp only
      split
      · next hu =>
        refine .error (((hP.ofReference (heap.failsWith_deref v)).bind fun w _ => ?_) _ hu)
        refine (hP.ofRoutine (failsWith_appendix w)).bind fun tail _ =>
          failsWith_updateHeap hP heap _ fun c => ?_
        split
        · exact .ok _
        · exact .error (Fault.isRoutine_ofValues _ _)
      · exact .ok _

/-- Taking a length fails within the class. -/
theorem failsWith_execLength (t : Thread) (f : Frame) (n : Nat) :
    FailsWith (Failure.within P) (t.execLength f n) := by
  refine failsWith_assign ((failsWith_slotRef hP t f n).bind fun r _ => ?_)
  refine (hP.ofReference (t.heap.failsWith_get r)).bind fun c _ => ?_
  split
  · exact .ok _
  · exact .error (hP.routine (Fault.isRoutine_ofValues _ _))

/-- Making an array fails within the class. -/
theorem failsWith_execNewStatic (t : Thread) (f : Frame) (v : Value) :
    FailsWith (Failure.within P) (t.execNewStatic f v) := by
  intro e he
  unfold execNewStatic at he
  dsimp only at he
  repeat' split at he
  all_goals cases he
  all_goals exact hP.routine (Fault.isRoutine_of_message rfl (by simp [Fault.message]))

/-- Popping a value fails within the class. -/
theorem failsWith_execPop (t : Thread) (f : Frame) (n : Nat) :
    FailsWith (Failure.within P) (t.execPop f n) := by
  refine failsWith_proceed ((failsWith_slotRef hP t f n).bind fun r _ => ?_)
  refine (hP.ofReference (t.heap.failsWith_get r)).bind fun c _ => ?_
  split
  · split
    · exact .error (hP.routine (Fault.isRoutine_of_message rfl (by simp [Fault.message])))
    · exact (hP.ofReference (t.heap.failsWith_set r _)).bind fun _ _ => .ok _
  · exact .error (hP.routine (Fault.isRoutine_ofValues _ _))

/-- A conversion fails within the class. -/
theorem failsWith_execConvert (t : Thread) (f : Frame) (target : Conversion) :
    FailsWith (Failure.within P) (t.execConvert f target) := by
  refine failsWith_proceed ((hP.ofReference (t.heap.failsWith_deref _)).bind fun v _ => ?_)
  split
  · exact .ok _
  · refine (hP.ofRoutine (Conversion.failsWith_convert _ _)).bind fun w _ => ?_
    split
    · exact .ok _
    · exact .ok _

/-- Copying fails within the class. -/
theorem failsWith_execClone (t : Thread) (f : Frame) (n : Nat) :
    FailsWith (Failure.within P) (t.execClone f n) := by
  unfold execClone
  split
  · next hv => exact .error (hP.slot (t.failsWith_getLocal f n _ hv))
  · exact .error (hP.routine (Fault.isRoutine_of_message rfl (by simp [Fault.message])))
  · next v _ _ =>
    have hcopy := t.heap.failsWith_deepCopy v
    split
    · next hres => exact .error (hP.reference (hcopy _ (by rw [hres])))
    · exact .ok _

/-- Freeing fails within the class. -/
theorem failsWith_execFree (t : Thread) (f : Frame) (n : Nat) :
    FailsWith (Failure.within P) (t.execFree f n) := by
  refine failsWith_proceed ((hP.ofSlot (f.failsWith_slot n)).bind fun slot _ => ?_)
  refine (hP.ofSlot (t.stack.failsWith_get slot)).bind fun v _ => ?_
  have hclear : ∀ heap : Heap, FailsWith P (do
      let stack ← (t.stack.set slot .void).mapError Fault.memory
      return { t with heap, stack }) :=
    fun _ => (hP.ofSlot (t.stack.failsWith_set slot .void)).bind fun s _ => .ok _
  dsimp only
  split
  · exact (hP.ofReference (t.heap.failsWith_free _)).bind fun heap _ => hclear heap
  · exact hclear t.heap

/-- Standard functions report their errors in well-formed texts and do not break down. -/
theorem failsWith_execCallNative (hn : t.natives.Standard) (f : Frame) (a : UInt64)
    (hunknown : ∀ c ∈ t.program.natives, P (.unknownNative c) = true) :
    FailsWith (Failure.within P) (t.execCallNative f a) := by
  unfold execCallNative
  split
  · exact .error (hP.routine (Fault.isRoutine_of_message rfl (by simp [Fault.message])))
  · next call hcall =>
    split
    · exact .error (hunknown call (List.mem_of_find?_eq_some hcall))
    · next fn hfn =>
      split
      · next hargs =>
        have hslots :=
          FailsWith.mapM (fun n => t.failsWith_getLocal f (a + UInt64.ofNat n).toNat) _ _ hargs
        exact .error (hP.slot hslots)
      · next args _ =>
        have htame := hn.tame hfn t.heap args
        split
        · next hfail => exact .error (hP.routine (hn.isRoutine_failed hfn hfail))
        · next hcrash =>
          rw [hcrash] at htame
          cases htame
        · exact .ok _

/-- **A legal instruction fails only with faults of the class**, when there is a frame to return
from and faults of the class say that there is no header or no native function. -/
theorem failsWith_exec (hn : t.natives.Standard) (hf : t.stack.frames ≠ []) (hi : i.isLegal = true)
    (hpc : FailsWith P (functionAt t.code f.pc))
    (hcall : ∀ a, i = ⟨.call, .absolute a⟩ → FailsWith P (functionAt t.code a.toInt64.toInt))
    (hunknown : ∀ c ∈ t.program.natives, P (.unknownNative c) = true) :
    FailsWith (Failure.within P) (t.exec f i) := by
  obtain ⟨m, op⟩ := i
  have hmode : op.mode ∈ m.modes := List.contains_iff_mem.1 hi
  -- The instructions that have a meaning for one mode only support no other.
  have habsolute : m.modes = [.absolute] → ∃ a, op = .absolute a := by
    intro hm
    rw [hm, List.mem_singleton] at hmode
    cases op with
    | absolute a => exact ⟨a, rfl⟩
    | _ => cases hmode
  have hsource : .implicit ∉ m.modes → op.mode ≠ .implicit := fun hm heq => hm (heq ▸ hmode)
  cases m with
  | load reg => exact failsWith_execLoad hP t f reg (hsource (by simp [Mnemonic.modes]))
  | store reg => exact failsWith_execStore hP t f hi
  | arith op => exact failsWith_execArith hP t f op
  | logic op => exact failsWith_assign (hP.ofRoutine (Arithmetic.failsWith_logic _ _ _))
  | compare op =>
    refine failsWith_assign ((failsWith_operands hP t).bind fun (b, c) _ => ?_)
    exact (hP.ofRoutine (Arithmetic.failsWith_compareValues _ b c)).bind fun _ _ => .ok _
  | jump =>
    obtain ⟨a, rfl⟩ := habsolute rfl
    exact failsWith_execJump hP t _
  | jumpIf =>
    obtain ⟨a, rfl⟩ := habsolute rfl
    unfold exec
    dsimp only
    split
    · exact failsWith_execJump hP t _
    · exact .ok _
    · exact .error (hP.routine (Fault.isRoutine_of_message rfl (by simp [Fault.message])))
  | call =>
    obtain ⟨a, rfl⟩ := habsolute rfl
    exact failsWith_execCall hP t f (hcall a rfl)
  | ret => exact failsWith_execReturn hf
  | function =>
    unfold exec
    dsimp only
    split
    · next hfn => exact .error (hpc _ hfn)
    · exact .ok _
  | push => exact failsWith_execPush hP t f (hsource (by simp [Mnemonic.modes]))
  | pushString => exact failsWith_execPushString hP t f (hsource (by simp [Mnemonic.modes]))
  | length =>
    obtain ⟨a, rfl⟩ := habsolute rfl
    exact failsWith_execLength hP t f _
  | newArray | newString | trap => exact .ok _
  | newStaticArray =>
    cases op with
    | immediate v => exact failsWith_execNewStatic hP t f v
    | _ => simp [Mnemonic.modes, Operand.mode] at hmode
  | pop =>
    obtain ⟨a, rfl⟩ := habsolute rfl
    exact failsWith_execPop hP t f _
  | convert target => exact failsWith_execConvert hP t f target
  | clone =>
    obtain ⟨a, rfl⟩ := habsolute rfl
    exact failsWith_execClone hP t f _
  | free =>
    obtain ⟨a, rfl⟩ := habsolute rfl
    exact failsWith_execFree hP t f _
  | callNative =>
    obtain ⟨a, rfl⟩ := habsolute rfl
    exact failsWith_execCallNative hP hn f a hunknown

end

end Thread

end RegisterMachine
