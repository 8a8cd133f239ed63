import RegisterMachine.Proofs.Engine.Faults

/-!
# Stale references

An instruction fails because of a stale reference only when it follows one. `Fresh` says of a
computation that it does not fail in this way; computing with values never does, and following a
reference does not if the reference resolves. So an instruction of a sound thread whose program
freed nothing never fails because of a stale reference (`Thread.Sound.spared_exec`).
-/

namespace RegisterMachine

variable {α β : Type} {x : Except Fault α} {h : Heap} {r : Ref} {v : Value}

/-! ## Computations that meet no stale reference -/

/-- The computation does not fail because of a stale reference. -/
def Fresh (x : Except Fault α) : Prop := ∀ r, x ≠ .error (.memory (.stale r))

/-- A success meets no stale reference. -/
theorem Fresh.ok (a : α) : Fresh (.ok a) := fun _ he => nomatch he

/-- Two computations in a row meet no stale reference if neither does. -/
theorem Fresh.bind {g : α → Except Fault β} (hx : Fresh x) (hg : ∀ a, x = .ok a → Fresh (g a)) :
    Fresh (x >>= g) := by
  intro r he
  rcases Except.bind_eq_error.1 he with he | ⟨a, ha, he⟩
  · exact hx r he
  · exact hg a ha r he

/-- Mapping a computation adds no stale reference. -/
theorem Fresh.map {g : α → β} (hx : Fresh x) : Fresh (x.map g) :=
  fun r he => hx r (Except.map_eq_error.1 he)

/-- Computing with values meets no stale reference. -/
theorem Fresh.ofRoutine (hx : FailsWith Fault.isRoutine x) : Fresh x :=
  fun _ he => Bool.false_ne_true (hx _ he)

/-- Neither does naming a slot. -/
theorem Fresh.ofSlot {x : Except MemoryError α} (hx : FailsWith MemoryError.isOfSlot x) :
    Fresh (x.mapError .memory) := by
  intro r he
  obtain ⟨e, he, heq⟩ := Except.mapError_eq_error.1 he
  cases heq
  exact Bool.false_ne_true (hx _ he)

/-- The failure is not due to a stale reference. -/
def Failure.Spared (e : Failure) : Prop := ∀ r, e.fault ≠ .memory (.stale r)

/-- Only faults that name a stale reference have that reason. -/
theorem Failure.Spared.reason_ne {e : Failure} (he : e.Spared) :
    e.fault.reason ≠ .staleReference := by
  obtain ⟨fault, h⟩ := e
  cases fault with
  | memory err =>
    cases err with
    | stale r => exact absurd rfl (he r)
    | _ => exact of_decide_eq_true rfl
  | _ => exact of_decide_eq_true rfl

/-- A failure of a computation that meets no stale reference is due to none. -/
theorem Fresh.spared (hx : Fresh x) {fault : Fault} (he : x = .error fault) :
    (⟨fault, h⟩ : Failure).Spared :=
  fun r heq => hx r (he.trans (congrArg Except.error heq))

/-- What an instruction cannot do is not due to a stale reference. -/
theorem Failure.Spared.ofOperational {fault : Fault} (hf : fault.isOperational = true) :
    (⟨fault, h⟩ : Failure).Spared := by
  rintro r rfl
  cases hf

/-- A reference that resolves is followed without an error. -/
theorem Fresh.ofGet (hr : h.Resolves r) : Fresh ((h.get r).mapError .memory) := by
  obtain ⟨v, hv⟩ := hr
  rw [hv]
  exact .ok v

/-- A reference that is known, when nothing was freed, resolves. -/
theorem Heap.Knows.resolves (hv : h.Knows [] (.heapRef r)) : h.Resolves r :=
  (hv r (.self r)).resolve_right List.not_mem_nil

/-- Following a value that is known, when nothing was freed, meets no stale reference. -/
theorem Fresh.ofDeref (hv : h.Knows [] v) : Fresh ((Native.deref h v).mapError .memory) := by
  cases v with
  | heapRef r => exact .ofGet hv.resolves
  | _ => exact .ok _

namespace Thread

variable {t : Thread} {f : Frame} {i : Instruction} {op : Operand} {e : Failure}

/-! ## Operands -/

/-- Asking a slot for a reference meets no stale reference. -/
theorem fresh_slotRef (t : Thread) (f : Frame) (n : Nat) : Fresh (t.slotRef f n) :=
  .bind (.ofSlot (t.failsWith_getLocal f n)) fun v _ => .ofRoutine (failsWith_asRef v)

/-- Asking a slot for an index meets no stale reference. -/
theorem fresh_indexIn (t : Thread) (f : Frame) (n : Nat) : Fresh (t.indexIn f n) := by
  refine .bind (.ofSlot (t.failsWith_getLocal f n)) fun v _ => ?_
  intro r he
  cases v <;> cases he

/-- Reading an element meets no stale reference if the container's reference resolves. -/
theorem fresh_elementAt (hr : h.Resolves r) (n : Int) : Fresh (elementAt h r n) := by
  refine .bind (.ofGet hr) fun c _ => ?_
  intro q he
  dsimp only at he
  repeat' split at he
  all_goals cases he

/-- Changing an entry meets no stale reference if its own resolves. -/
theorem fresh_updateHeap {change : Value → Except Fault Value} (hr : h.Resolves r)
    (hchange : ∀ c, FailsWith Fault.isRoutine (change c)) : Fresh (updateHeap h r change) := by
  refine .bind (.ofGet hr) fun c _ => .bind (.ofRoutine (hchange c)) fun c' _ => ?_
  obtain ⟨w, hw⟩ := hr
  rw [Heap.set, hw]
  exact .ok _

/-- The reference in a slot of a sound thread resolves. -/
theorem Sound.resolves_slotRef (hs : t.Sound []) {n : Nat} (hr : t.slotRef f n = .ok r) :
    t.heap.Resolves r :=
  (hs.holds (.ofSlotRef hr)).resolves

/-- So does the reference in A. -/
theorem Sound.resolves_asRef (hs : t.Sound []) (hr : asRef t.registers.a = .ok r) :
    t.heap.Resolves r := by
  have hr : t.Holds (.heapRef r) := asRef_eq_ok hr ▸ .register .a
  exact (hs.holds hr).resolves

/-- Reading an operand of a sound thread meets no stale reference. -/
theorem Sound.fresh_readOperand (hs : t.Sound []) (f : Frame) (op : Operand) :
    Fresh (t.readOperand f op) := by
  cases op with
  | absolute a => exact .ofSlot (t.failsWith_getLocal f _)
  | static a => exact .ofSlot (t.stack.failsWith_get _)
  | index a n =>
    refine .bind (t.fresh_slotRef f _) fun r hr => .bind (t.fresh_indexIn f _) fun m _ => ?_
    exact fresh_elementAt (hs.resolves_slotRef hr) m
  | property a n =>
    refine .bind (t.fresh_slotRef f _) fun r hr => ?_
    exact fresh_elementAt (hs.resolves_slotRef hr) _
  | indirect q => exact .ofSlot (t.failsWith_indirect q)
  | implicit | immediate w => rintro r ⟨⟩

/-- The immediate values of a sound thread are read without an error. -/
theorem Sound.immediate_ok (hs : t.Sound []) (hsize : (t.immediate v).1.entries.size < 2 ^ 32) :
    ∃ w, (t.immediate v).2 = .ok w := by
  unfold immediate at hsize ⊢
  split
  · next r =>
    dsimp only at hsize
    split at hsize
    · next hmem =>
      rw [if_pos hmem]
      have hcopy := hs.heap.deepCopy (hs.roots (.literal (List.contains_iff_mem.1 hmem))) hsize
      cases hres : (t.heap.deepCopy (.heapRef r)).2 with
      | error e => exact absurd rfl (hcopy.2.2 hres)
      | ok w => exact ⟨w, rfl⟩
    · next hmem =>
      rw [if_neg hmem]
      exact ⟨_, rfl⟩
  · exact ⟨v, rfl⟩

/-- Loading in a sound thread does not fail because of a stale reference. -/
theorem Sound.spared_load (hs : t.Sound []) (hl : t.load f op = .error e)
    (hsize : e.heap.entries.size < 2 ^ 32) : e.Spared := by
  have hheap := loadHeap_of_error hl
  unfold load at hl
  cases op with
  | immediate v =>
    rw [hheap] at hsize
    obtain ⟨w, hw⟩ := hs.immediate_ok hsize
    dsimp only at hl
    rw [hw] at hl
    cases w <;> cases hl
    exact .ofOperational rfl
  | _ =>
    dsimp only at hl
    split at hl
    · next hres => cases hl; exact (hs.fresh_readOperand f _).spared hres
    · cases hl; exact .ofOperational rfl
    · cases hl

/-! ## Instructions -/

/-- Going on behind an instruction does not fail because of a stale reference. -/
theorem spared_proceed {res : Except Fault Thread} (hres : Fresh res)
    (he : t.proceed f res = .error e) : e.Spared := by
  cases res with
  | error fault =>
    cases he
    exact hres.spared rfl
  | ok u => cases he

/-- Setting a register to a result does not fail because of a stale reference. -/
theorem spared_assign {reg : Register} {res : Except Fault Value} (hres : Fresh res)
    (he : t.assign f reg res = .error e) : e.Spared :=
  spared_proceed hres.map he

/-- A load in a sound thread does not fail because of a stale reference. -/
theorem Sound.spared_execLoad (hs : t.Sound []) {reg : Register}
    (he : t.execLoad f reg op = .error e) (hsize : e.heap.entries.size < 2 ^ 32) : e.Spared := by
  unfold execLoad at he
  split at he
  · next hl =>
    cases he
    exact hs.spared_load hl hsize
  · cases he

/-- Storing goes wrong for other reasons, if the heap keeps what the thread refers to. -/
theorem Sound.spared_store (hs : t.Sound []) (hext : Heap.Extends [] t.heap h)
    (he : t.store f op h v = .error e) : e.Spared := by
  unfold store at he
  obtain ⟨fault, hfault, rfl⟩ := Except.mapError_eq_error.1 he
  refine Fresh.spared ?_ hfault
  cases op with
  | implicit | immediate w =>
    refine .bind (.ofSlot (f.failsWith_ownSlot _)) fun slot _ => ?_
    exact .bind (.ofSlot (t.stack.failsWith_set _ _)) fun s _ => .ok _
  | absolute a =>
    refine .bind (.ofSlot (f.failsWith_slot _)) fun slot _ => ?_
    exact .bind (.ofSlot (t.stack.failsWith_set _ _)) fun s _ => .ok _
  | index a n =>
    refine .bind (t.fresh_slotRef f _) fun r hr => .bind (t.fresh_indexIn f _) fun m _ => ?_
    refine .bind (fresh_updateHeap (hext.keeps (hs.resolves_slotRef hr)) ?_) fun _ _ => .ok _
    intro c
    exact failsWith_withElement c m v
  | property a n =>
    refine .bind (t.fresh_slotRef f _) fun r hr => ?_
    refine .bind (fresh_updateHeap (hext.keeps (hs.resolves_slotRef hr)) ?_) fun _ _ => .ok _
    intro c
    exact failsWith_withElement c _ v
  | static a | indirect q => rintro r ⟨⟩

/-- A store in a sound thread does not fail because of a stale reference. -/
theorem Sound.spared_execStore (hs : t.Sound []) (hi : i ∈ t.code) {reg : Register}
    (he : t.execStore f reg i.operand = .error e) (hsize : e.heap.entries.size < 2 ^ 32) :
    e.Spared := by
  have hheap := execStore_error he
  rw [hheap] at hsize
  unfold execStore at he
  cases hop : i.operand with
  | immediate v =>
    rw [hop] at he hsize
    obtain ⟨w, hw⟩ := hs.immediate_ok hsize
    have hext := (hs.yields hi (.ofImmediate hop (Prod.ext rfl hw)) hsize).1
    dsimp only at he
    rw [hw] at he
    dsimp only at he
    split at he
    · next hstore =>
      cases he
      exact hs.spared_store hext hstore
    · cases he
  | _ =>
    rw [hop] at he
    dsimp only at he
    split at he
    · next hstore =>
      cases he
      exact hs.spared_store (.refl hs.heap) hstore
    · cases he

/-- The operands of a sound thread meet no stale reference. -/
theorem Sound.fresh_operands (hs : t.Sound []) : Fresh t.operands := by
  refine .bind (.ofDeref (hs.roots (.register .b))) fun b _ => ?_
  exact .bind (.ofDeref (hs.roots (.register .c))) fun c _ => .ok _

/-- Arithmetic in a sound thread does not fail because of a stale reference. -/
theorem Sound.spared_execArith (hs : t.Sound []) {op : ArithOp} (he : t.execArith f op = .error e) :
    e.Spared := by
  refine spared_proceed (.bind hs.fresh_operands fun (b, c) _ => ?_) he
  dsimp only
  split
  · exact .ok _
  · exact .bind (.ofRoutine (Arithmetic.failsWith_arith _ _ _)) fun v _ => .ok _

/-- A jump does not fail because of a stale reference. -/
theorem spared_execJump {target : Nat} (he : t.execJump target = .error e) : e.Spared := by
  unfold execJump at he
  split at he
  · cases he
    exact .ofOperational rfl
  · cases he

/-- Looking up a function meets no stale reference. -/
theorem fresh_functionAt (code : Array Instruction) (entry : Int) :
    Fresh (functionAt code entry) := by
  intro r he
  unfold functionAt at he
  dsimp only at he
  repeat' split at he
  all_goals cases he

/-- A call does not fail because of a stale reference. -/
theorem spared_execCall {entry : Int} (he : t.execCall f entry = .error e) : e.Spared := by
  unfold execCall at he
  split at he
  · next hfn =>
    cases he
    exact (fresh_functionAt _ _).spared hfn
  · dsimp only at he
    split at he
    · next hpush =>
      cases he
      rw [Stack.push] at hpush
      split at hpush
      · cases hpush
        rintro r ⟨⟩
      · cases hpush
    · cases he

/-- A return does not fail because of a stale reference. -/
theorem spared_execReturn (he : t.execReturn = .error e) : e.Spared := by
  unfold execReturn Stack.pop at he
  cases hf : t.stack.frames with
  | nil =>
    rw [hf] at he
    cases he
    rintro r ⟨⟩
  | cons done rest =>
    rw [hf] at he
    dsimp only at he
    split at he <;> cases he

/-- Pushing a value in a sound thread does not fail because of a stale reference. -/
theorem Sound.spared_execPush (hs : t.Sound []) (hi : i ∈ t.code)
    (he : t.execPush f i.operand = .error e) (hsize : e.heap.entries.size < 2 ^ 32) : e.Spared := by
  unfold execPush at he
  split at he
  · next hr =>
    cases he
    exact (Fresh.ofRoutine (failsWith_asRef _)).spared hr
  · next r hr =>
    have hr := hs.resolves_asRef hr
    split at he
    · next hl =>
      cases he
      exact hs.spared_load hl hsize
    · next v heap hl =>
      split at he
      · next hu =>
        cases he
        obtain ⟨hext, _⟩ := hs.yields hi (.ofLoad hl) hsize
        refine Fresh.spared (fresh_updateHeap (hext.keeps hr) fun c => ?_) hu
        split
        · exact .ok _
        · exact .error (Fault.isRoutine_ofValues _ _)
      · cases he

/-- Pushing a string in a sound thread does not fail because of a stale reference. -/
theorem Sound.spared_execPushString (hs : t.Sound []) (hi : i ∈ t.code)
    (he : t.execPushString f i.operand = .error e) (hsize : e.heap.entries.size < 2 ^ 32) :
    e.Spared := by
  unfold execPushString at he
  split at he
  · next hr =>
    cases he
    exact (Fresh.ofRoutine (failsWith_asRef _)).spared hr
  · next r hr =>
    have hr := hs.resolves_asRef hr
    split at he
    · next hl =>
      cases he
      exact hs.spared_load hl hsize
    · next v heap hl =>
      dsimp only at he
      split at he
      · next hu =>
        cases he
        obtain ⟨hext, hknows⟩ := hs.yields hi (.ofLoad hl) hsize
        refine Fresh.spared (.bind (.ofDeref hknows) fun w _ => ?_) hu
        refine .bind (.ofRoutine (failsWith_appendix w)) fun tail _ =>
          fresh_updateHeap (hext.keeps hr) fun c => ?_
        split
        · exact .ok _
        · exact .error (Fault.isRoutine_ofValues _ _)
      · cases he

/-- Taking a length in a sound thread does not fail because of a stale reference. -/
theorem Sound.spared_execLength (hs : t.Sound []) {n : Nat} (he : t.execLength f n = .error e) :
    e.Spared := by
  refine spared_assign (.bind (t.fresh_slotRef f n) fun r hr => ?_) he
  refine .bind (.ofGet (hs.resolves_slotRef hr)) fun c _ => ?_
  split
  · exact .ok _
  · exact .ofRoutine (.error (Fault.isRoutine_ofValues _ _))

/-- Making an array does not fail because of a stale reference. -/
theorem spared_execNewStatic {v : Value} (he : t.execNewStatic f v = .error e) : e.Spared := by
  unfold execNewStatic at he
  dsimp only at he
  repeat' split at he
  all_goals cases he
  all_goals exact .ofOperational rfl

/-- Popping a value in a sound thread does not fail because of a stale reference. -/
theorem Sound.spared_execPop (hs : t.Sound []) {n : Nat} (he : t.execPop f n = .error e) :
    e.Spared := by
  refine spared_proceed (.bind (t.fresh_slotRef f n) fun r hr => ?_) he
  have hr := hs.resolves_slotRef hr
  refine .bind (.ofGet hr) fun c _ => ?_
  split
  · split
    · exact .ofRoutine (.error (Fault.isRoutine_of_message rfl (by simp [Fault.message])))
    · refine .bind ?_ fun _ _ => .ok _
      obtain ⟨w, hw⟩ := hr
      rw [Heap.set, hw]
      exact .ok _
  · exact .ofRoutine (.error (Fault.isRoutine_ofValues _ _))

/-- A conversion in a sound thread does not fail because of a stale reference. -/
theorem Sound.spared_execConvert (hs : t.Sound []) {target : Conversion}
    (he : t.execConvert f target = .error e) : e.Spared := by
  refine spared_proceed (.bind (.ofDeref (hs.roots (.register .a))) fun v _ => ?_) he
  split
  · exact .ok _
  · refine .bind (.ofRoutine (Conversion.failsWith_convert _ _)) fun w _ => ?_
    split
    · exact .ok _
    · exact .ok _

/-- Copying in a sound thread does not fail because of a stale reference. -/
theorem Sound.spared_execClone (hs : t.Sound []) {n : Nat} (he : t.execClone f n = .error e)
    (hsize : e.heap.entries.size < 2 ^ 32) : e.Spared := by
  unfold execClone at he
  split at he
  · next hv =>
    cases he
    rintro r hr
    cases hr
    exact Bool.false_ne_true (t.failsWith_getLocal f n _ hv)
  · cases he
    exact .ofOperational rfl
  · next v _ hv =>
    split at he
    · next h e' hcopy =>
      cases he
      have hspec := hs.heap.deepCopy (hs.holds (.ofLocal hv)) (by rw [hcopy]; exact hsize)
      exact absurd rfl (hspec.2.2 (by rw [hcopy]))
    · cases he

/-- Freeing in a sound thread does not fail because of a stale reference. -/
theorem Sound.spared_execFree (hs : t.Sound []) {n : Nat} (he : t.execFree f n = .error e) :
    e.Spared := by
  refine spared_proceed (.bind (.ofSlot (f.failsWith_slot n)) fun slot _ => ?_) he
  refine .bind (.ofSlot (t.stack.failsWith_get slot)) fun v hv => ?_
  have hstack : ∀ heap : Heap, Fresh (do
      let stack ← (t.stack.set slot .void).mapError Fault.memory
      return { t with heap, stack }) :=
    fun _ => .bind (.ofSlot (t.stack.failsWith_set slot .void)) fun s _ => .ok _
  dsimp only
  split
  · next r =>
    refine .bind ?_ fun heap _ => hstack heap
    obtain ⟨_, hslot⟩ := Stack.get_eq_ok.1 (Except.mapError_eq_ok.1 hv)
    obtain ⟨w, hw⟩ := (hs.holds (.slot hslot)).resolves
    rw [Heap.free, hw]
    exact .ok _
  · exact .bind (.ok _) fun heap _ => hstack heap

/-- A native call does not fail because of a stale reference: what a function reports is a fault of
its own. -/
theorem spared_execCallNative {a : UInt64} (he : t.execCallNative f a = .error e) : e.Spared := by
  unfold execCallNative at he
  split at he
  · cases he
    exact .ofOperational rfl
  · split at he
    · cases he
      exact .ofOperational rfl
    · split at he
      · next hargs =>
        cases he
        rintro r hr
        cases hr
        have hslots :=
          FailsWith.mapM (fun n => t.failsWith_getLocal f (a + UInt64.ofNat n).toNat) _ _ hargs
        exact Bool.false_ne_true hslots
      · split at he
        all_goals cases he
        · exact .ofOperational rfl
        · rintro r ⟨⟩

/-- **An instruction of a sound thread whose program freed nothing** never fails because of a stale
reference. -/
theorem Sound.spared_exec (hs : t.Sound []) (hi : i ∈ t.code) (he : t.exec f i = .error e)
    (hsize : e.heap.entries.size < 2 ^ 32) : e.Spared := by
  obtain ⟨m, op⟩ := i
  unfold exec at he
  dsimp only at he
  split at he
  · exact hs.spared_execLoad he hsize
  · exact hs.spared_execStore hi he hsize
  · exact hs.spared_execArith he
  · exact spared_assign (.ofRoutine (Arithmetic.failsWith_logic _ _ _)) he
  · refine spared_assign (.bind hs.fresh_operands fun (b, c) _ => ?_) he
    exact .bind (.ofRoutine (Arithmetic.failsWith_compareValues _ b c)) fun o _ => .ok _
  · exact spared_execJump he
  · split at he
    · exact spared_execJump he
    · cases he
    · cases he
      exact .ofOperational rfl
  · exact spared_execCall he
  · exact spared_execReturn he
  · split at he
    · next hfn =>
      cases he
      exact (fresh_functionAt _ _).spared hfn
    · cases he
  · exact hs.spared_execPush hi he hsize
  · exact hs.spared_execPushString hi he hsize
  · exact hs.spared_execLength he
  · cases he
  · cases he
  · exact spared_execNewStatic he
  · exact hs.spared_execPop he
  · exact hs.spared_execConvert he
  · exact hs.spared_execClone he hsize
  · exact hs.spared_execFree he
  · cases he
  · exact spared_execCallNative he
  · cases he
    rintro r ⟨⟩

end Thread

end RegisterMachine
