import RegisterMachine.Proofs.Engine.LiveReferences
import RegisterMachine.Proofs.Memory.Renaming

/-!
# Threads up to renaming

Two threads of the same program are the same up to a renaming of references (`Thread.Renamed`) when
their registers, slots, frames and heaps are and everything else is equal, except for the wording of
a panic, which may show a reference. Reading an operand on both sides either succeeds with values
that are the same up to renaming or fails for the same reason (`Thread.Renamed.load`); since a
literal is copied when it is loaded, the renaming grows with it.
-/

namespace RegisterMachine

variable {K K' : Renaming}

/-- Faults with the same reason. -/
def Fault.Alike (f f' : Fault) : Prop := f'.reason = f.reason

/-- The register files are the same up to renaming. -/
def Registers.Renamed (K : Renaming) (rs₁ rs₂ : Registers) : Prop :=
  ∀ r, (rs₁.get r).Renamed K (rs₂.get r)

/-- The frames are equal but for the saved registers, which are the same up to renaming. -/
inductive Frame.Renamed (K : Renaming) (f : Frame) : Frame → Prop
  | mk {saved : Registers} : f.saved.Renamed K saved → Frame.Renamed K f { f with saved }

/-- The stacks are the same up to renaming. -/
structure Stack.Renamed (K : Renaming) (s₁ s₂ : Stack) : Prop where
  slots : List.Forall₂ (Value.Renamed K) s₁.slots.toList s₂.slots.toList
  frames : List.Forall₂ (Frame.Renamed K) s₁.frames s₂.frames
  limit : s₂.limit = s₁.limit

/-- The threads ended in the same way, up to renaming and the wording of a panic. -/
inductive Exit.Renamed (K : Renaming) : Exit → Exit → Prop
  | graceful {v w : Value} : v.Renamed K w → Exit.Renamed K (.graceful v) (.graceful w)
  | panicked {p p' : Panic} : p'.reason = p.reason → p'.location = p.location → p'.trace = p.trace →
      Exit.Renamed K (.panicked p) (.panicked p')

/-- The threads are the same up to renaming; their code calls no native function and refers to
nothing but literals, which have the same references on both sides. -/
structure Thread.Renamed (K : Renaming) (t₁ t₂ : Thread) : Prop where
  program : t₂.program = t₁.program
  code : t₂.code = t₁.code
  literals : t₂.literals = t₁.literals
  state : t₂.state = t₁.state
  trapped : t₂.trapped = t₁.trapped
  steps : t₂.steps = t₁.steps
  exit : Option.Rel (Exit.Renamed K) t₁.exit t₂.exit
  registers : t₁.registers.Renamed K t₂.registers
  stack : t₁.stack.Renamed K t₂.stack
  heap : Heap.Renamed K t₁.heap t₂.heap
  literal : ∀ r ∈ t₁.literals, K r r
  immediate : ∀ {i v}, i ∈ t₁.code → i.operand = .immediate v →
    (∃ r ∈ t₁.literals, v = .heapRef r) ∨ ∀ r, ¬ v.Mentions r
  noNative : ∀ i ∈ t₁.code, i.mnemonic ≠ .callNative

/-! ## Registers, frames and stacks -/

/-- Registers stay the same up to a renaming that says more. -/
theorem Registers.Renamed.mono {rs₁ rs₂ : Registers} (hK : K ≤ K') (hrs : rs₁.Renamed K rs₂) :
    rs₁.Renamed K' rs₂ :=
  fun r => (hrs r).mono hK

/-- Setting a register to values that agree keeps the registers the same up to the renaming. -/
theorem Registers.Renamed.set {rs₁ rs₂ : Registers} {v w : Value} (hrs : rs₁.Renamed K rs₂)
    (r : Register) (hv : v.Renamed K w) : (rs₁.set r v).Renamed K (rs₂.set r w) := by
  intro q
  by_cases hq : q = r
  · subst hq
    rw [Registers.get_set, Registers.get_set]
    exact hv
  · rw [Registers.get_set_ne _ _ hq, Registers.get_set_ne _ _ hq]
    exact hrs q

/-- Frames that are the same up to a renaming have the same counter. -/
theorem Frame.Renamed.pc_eq {f₁ f₂ : Frame} (hf : f₁.Renamed K f₂) : f₂.pc = f₁.pc := by
  cases hf
  rfl

/-- Frames stay the same up to a renaming that says more. -/
theorem Frame.Renamed.mono {f₁ f₂ : Frame} (hK : K ≤ K') (hf : f₁.Renamed K f₂) :
    f₁.Renamed K' f₂ := by
  cases hf with
  | mk hsaved => exact .mk (hsaved.mono hK)

/-- Frames that are the same up to a renaming take the same room. -/
theorem Stack.extent_renamed {fs₁ fs₂ : List Frame} (hfs : List.Forall₂ (Frame.Renamed K) fs₁ fs₂) :
    Stack.extent fs₂ = Stack.extent fs₁ := by
  cases hfs with
  | nil => rfl
  | cons hf _ =>
    cases hf
    rfl

namespace Stack.Renamed

variable {s₁ s₂ : Stack} {v w : Value}

/-- Stacks stay the same up to a renaming that says more. -/
theorem mono (hK : K ≤ K') (hs : s₁.Renamed K s₂) : s₁.Renamed K' s₂ :=
  ⟨hs.slots.imp fun _ _ => .mono hK, hs.frames.imp fun _ _ => .mono hK, hs.limit⟩

/-- Stacks that are the same up to a renaming have as many slots. -/
theorem size_eq (hs : s₁.Renamed K s₂) : s₂.slots.size = s₁.slots.size := by
  have := hs.slots.length_eq
  simpa using this.symm

/-- Reading a slot does the same on both sides. -/
theorem get (hs : s₁.Renamed K s₂) (n : Int) :
    Agree MemoryError.Alike (Value.Renamed K) (s₁.get n) (s₂.get n) := by
  have hrel := forall₂_getElem? hs.slots n.toNat
  rw [Array.getElem?_toList, Array.getElem?_toList] at hrel
  unfold Stack.get
  split
  · next v hv =>
    split at hv
    · cases hv
    · next hn =>
      rw [hv] at hrel
      rw [if_neg hn]
      generalize s₂.slots[n.toNat]? = o at hrel ⊢
      cases hrel with
      | some hv => exact .ok hv
  · next hnone =>
    have hnone' : (if n < 0 then none else s₂.slots[n.toNat]?) = none := by
      split at hnone
      · next hn => exact if_pos hn
      · next hn =>
        rw [hnone] at hrel
        rw [if_neg hn]
        generalize s₂.slots[n.toNat]? = o at hrel ⊢
        cases hrel
        rfl
    rw [hnone']
    exact .error rfl

/-- Writing values that agree to a slot does the same on both sides. -/
theorem set (hs : s₁.Renamed K s₂) (n : Int) (hv : v.Renamed K w) :
    Agree MemoryError.Alike (Stack.Renamed K) (s₁.set n v) (s₂.set n w) := by
  unfold Stack.set
  rw [hs.size_eq]
  split
  · refine .ok ⟨?_, hs.frames, hs.limit⟩
    dsimp only
    rw [Array.toList_setIfInBounds, Array.toList_setIfInBounds]
    exact forall₂_set hs.slots hv _
  · exact .error rfl

/-- Pushing frames that agree does the same on both sides. -/
theorem push {f₁ f₂ : Frame} (hs : s₁.Renamed K s₂) (hf : f₁.Renamed K f₂) :
    Agree MemoryError.Alike (Stack.Renamed K) (s₁.push f₁) (s₂.push f₂) := by
  have hsize := hs.size_eq
  have hlimit := hs.limit
  cases hf with
  | mk hsaved =>
    unfold Stack.push
    dsimp only
    rw [hlimit]
    split
    · exact .error rfl
    · refine .ok ⟨?_, .cons (.mk hsaved) hs.frames, rfl⟩
      dsimp only
      rw [hsize, Array.toList_append, Array.toList_append, Array.toList_replicate]
      refine List.rel_append hs.slots (List.forall₂_same.2 fun v hv => .same fun r hr => ?_)
      rw [List.eq_of_mem_replicate hv] at hr
      cases hr

/-- Popping a frame does the same on both sides. -/
theorem pop (hs : s₁.Renamed K s₂) :
    Agree MemoryError.Alike (fun p p' => p.1.Renamed K p'.1 ∧ p.2.Renamed K p'.2) s₁.pop
      s₂.pop := by
  have hframes := hs.frames
  unfold Stack.pop
  generalize s₁.frames = fs₁ at hframes
  generalize s₂.frames = fs₂ at hframes
  cases hframes with
  | nil => exact .error rfl
  | cons hf hfs =>
    refine .ok ⟨hf, ?_, hfs, hs.limit⟩
    dsimp only
    rw [extent_renamed hfs, Array.take_eq_extract, Array.take_eq_extract, Array.toList_extract,
      Array.toList_extract]
    exact List.forall₂_take _ hs.slots

/-- Jumping keeps stacks the same up to the renaming. -/
theorem jump (hs : s₁.Renamed K s₂) (pc : Nat) : (s₁.jump pc).Renamed K (s₂.jump pc) := by
  obtain ⟨hslots, hframes, hlimit⟩ := hs
  unfold Stack.jump
  generalize hfs₁ : s₁.frames = fs₁ at hframes
  generalize hfs₂ : s₂.frames = fs₂ at hframes
  cases hframes with
  | nil => exact ⟨hslots, by rw [hfs₁, hfs₂]; exact .nil, hlimit⟩
  | cons hf hfs =>
    cases hf with
    | mk hsaved => exact ⟨hslots, .cons (.mk hsaved) hfs, hlimit⟩

end Stack.Renamed

namespace Thread

variable {t₁ t₂ : Thread} {f₁ f₂ : Frame} {i : Instruction} {v w : Value} {h₁ h₂ : Heap} {r q : Ref}

namespace Renamed

/-- The threads with other heaps, under a renaming that says more. -/
theorem withHeap (hm : Renamed K t₁ t₂) (hK : K ≤ K') (hheap : Heap.Renamed K' h₁ h₂) :
    Renamed K' { t₁ with heap := h₁ } { t₂ with heap := h₂ } := by
  have hexit : Option.Rel (Exit.Renamed K') t₁.exit t₂.exit := by
    have hexit := hm.exit
    generalize t₁.exit = e₁ at hexit
    generalize t₂.exit = e₂ at hexit
    cases hexit with
    | none => exact .none
    | some he =>
      cases he with
      | graceful hv => exact .some (.graceful (hv.mono hK))
      | panicked hreason hlocation htrace => exact .some (.panicked hreason hlocation htrace)
  exact ⟨hm.program, hm.code, hm.literals, hm.state, hm.trapped, hm.steps, hexit,
    hm.registers.mono hK, hm.stack.mono hK, hheap, fun r hr => hK _ _ (hm.literal r hr),
    hm.immediate, hm.noNative⟩

/-- Threads stay the same up to the renaming when their stacks are replaced by such stacks. -/
theorem withStack {s₁ s₂ : Stack} (hm : Renamed K t₁ t₂) (hstack : s₁.Renamed K s₂) :
    Renamed K { t₁ with stack := s₁ } { t₂ with stack := s₂ } :=
  { hm with stack := hstack }

/-- Setting a register to values that agree keeps threads the same up to the renaming. -/
theorem setRegister (hm : Renamed K t₁ t₂) (r : Register) (hv : v.Renamed K w) :
    Renamed K (t₁.setRegister r v) (t₂.setRegister r w) :=
  { hm with registers := hm.registers.set r hv }

/-- Jumping keeps threads the same up to the renaming. -/
theorem jumpTo (hm : Renamed K t₁ t₂) (pc : Nat) : Renamed K (t₁.jumpTo pc) (t₂.jumpTo pc) :=
  hm.withStack (hm.stack.jump pc)

/-! ## Reading operands -/

/-- Reading a local slot does the same on both sides. -/
theorem getLocal (hm : Renamed K t₁ t₂) (hf : f₁.Renamed K f₂) (n : Nat) :
    Agree MemoryError.Alike (Value.Renamed K) (t₁.getLocal f₁ n) (t₂.getLocal f₂ n) := by
  cases hf with
  | mk _ =>
    refine Agree.bind (R := Eq) (.refl (fun _ => rfl) fun _ _ => rfl) fun slot _ he => ?_
    subst he
    exact hm.stack.get slot

end Renamed

/-- Values that agree are references that agree, or neither is one. -/
theorem asRef_renamed (hv : v.Renamed K w) : Agree Fault.Alike K (asRef v) (asRef w) := by
  cases hv with
  | ref hr => exact .ok hr
  | same hnone =>
    refine .refl (fun _ => rfl) fun r hr => ?_
    rw [asRef_eq_ok hr] at hnone
    exact absurd (.self r) (hnone r)

namespace Renamed

/-- An error of memory as a fault. -/
theorem memory {α β : Type} {R : α → β → Prop} {x : Except MemoryError α} {y : Except MemoryError β}
    (hxy : Agree MemoryError.Alike R x y) :
    Agree Fault.Alike R (x.mapError .memory) (y.mapError .memory) :=
  hxy.mapError fun _ _ he => he

/-- Asking a slot for a reference does the same on both sides. -/
theorem slotRef (hm : Renamed K t₁ t₂) (hf : f₁.Renamed K f₂) (n : Nat) :
    Agree Fault.Alike K (t₁.slotRef f₁ n) (t₂.slotRef f₂ n) :=
  (memory (hm.getLocal hf n)).bind fun _ _ hv => asRef_renamed hv

/-- Asking a slot for an index does the same on both sides. -/
theorem indexIn (hm : Renamed K t₁ t₂) (hf : f₁.Renamed K f₂) (n : Nat) :
    Agree Fault.Alike Eq (t₁.indexIn f₁ n) (t₂.indexIn f₂ n) := by
  refine (memory (hm.getLocal hf n)).bind fun v w hv => ?_
  cases hv with
  | ref _ => exact .error rfl
  | same _ => exact .refl (fun _ => rfl) fun _ _ => rfl

/-- Reading an element does the same on both sides. -/
theorem elementAt (hm : Heap.Renamed K h₁ h₂) (hr : K r q) (n : Int) :
    Agree Fault.Alike (Value.Renamed K) (elementAt h₁ r n) (elementAt h₂ q n) := by
  refine (memory (hm.get hr)).bind fun c d hcd => ?_
  cases hcd with
  | @array es es' hes =>
    have hrel := forall₂_getElem? hes n.toNat
    dsimp only
    by_cases hn : n < 0
    · rw [if_pos hn, if_pos hn]
      exact .error rfl
    · rw [if_neg hn, if_neg hn]
      generalize es[n.toNat]? = o at hrel ⊢
      generalize es'[n.toNat]? = o' at hrel ⊢
      cases hrel with
      | some hv => exact .ok hv
      | none => exact .error rfl
  | same hne _ =>
    refine .refl (fun _ => rfl) fun v hv => ?_
    cases c with
    | array es => exact absurd rfl (hne es)
    | string s =>
      dsimp only at hv
      split at hv
      · cases hv
        exact .same fun _ hr => nomatch hr
      · cases hv
    | _ => cases hv

/-- Setting an element to values that agree does the same on both sides. -/
theorem withElement {c d : Value} (hcd : c.ContentRenamed K d) (n : Int) (hv : v.Renamed K w) :
    Agree Fault.Alike (Value.ContentRenamed K) (withElement c n v) (withElement d n w) := by
  cases hcd with
  | @array es es' hes =>
    unfold Thread.withElement
    dsimp only
    rw [← hes.length_eq]
    split
    · exact .error rfl
    · exact .ok (.array (forall₂_set hes hv _))
  | same hne _ =>
    cases c with
    | array es => exact absurd rfl (hne es)
    | string s =>
      unfold Thread.withElement
      dsimp only
      split
      · exact .error rfl
      · cases hv with
        | ref _ => exact .error rfl
        | same _ =>
          refine .refl (fun _ => rfl) fun x hx => ?_
          split at hx <;> cases hx
          all_goals exact .same (fun _ he => nomatch he) fun _ hr => nomatch hr
    | _ => exact .error rfl

/-- Changing an entry does the same on both sides if the change does. -/
theorem updateHeap (hm : Heap.Renamed K h₁ h₂) (hr : K r q) {g g' : Value → Except Fault Value}
    (hg : ∀ c d, c.ContentRenamed K d → Agree Fault.Alike (Value.ContentRenamed K) (g c) (g' d)) :
    Agree Fault.Alike (Heap.Renamed K) (updateHeap h₁ r g) (updateHeap h₂ q g') := by
  refine (memory (hm.get hr)).bind fun c d hcd => ?_
  refine (hg c d hcd).bind fun c' d' hcd' => ?_
  exact memory (hm.set hr hcd')

/-- Following a register does the same on both sides. -/
theorem indirect (hm : Renamed K t₁ t₂) (r : Register) :
    Agree MemoryError.Alike (Value.Renamed K) (t₁.indirect r) (t₂.indirect r) := by
  have hv := hm.registers r
  unfold Thread.indirect
  generalize t₁.registers.get r = v at hv
  generalize t₂.registers.get r = w at hv
  cases hv with
  | ref hr => exact .ok (.ref hr)
  | same hnone =>
    cases v with
    | stackRef s => exact hm.stack.get _
    | _ => exact .ok (.same hnone)

/-- Reading an operand does the same on both sides. -/
theorem readOperand (hm : Renamed K t₁ t₂) (hf : f₁.Renamed K f₂) (op : Operand) :
    Agree Fault.Alike (Value.Renamed K) (t₁.readOperand f₁ op) (t₂.readOperand f₂ op) := by
  cases op with
  | absolute a => exact memory (hm.getLocal hf _)
  | static a => exact memory (hm.stack.get _)
  | index a j =>
    refine (hm.slotRef hf _).bind fun r q hr => ?_
    refine (hm.indexIn hf _).bind fun n _ he => ?_
    subst he
    exact elementAt hm.heap hr n
  | property a j => exact (hm.slotRef hf _).bind fun r q hr => elementAt hm.heap hr _
  | indirect r => exact memory (hm.indirect r)
  | implicit | immediate v => exact .error rfl

/-- **Resolving an immediate value**, which copies it if it is a literal. -/
theorem resolve (hm : Renamed K t₁ t₂) (hi : i ∈ t₁.code) (hop : i.operand = .immediate v)
    (hs₁ : (t₁.immediate v).1.entries.size < 2 ^ 32)
    (hs₂ : (t₂.immediate v).1.entries.size < 2 ^ 32) :
    ∃ K', K ≤ K' ∧ Heap.Renamed K' (t₁.immediate v).1 (t₂.immediate v).1 ∧
      Agree MemoryError.Alike (Value.Renamed K') (t₁.immediate v).2 (t₂.immediate v).2 := by
  rcases hm.immediate hi hop with ⟨r, hr, rfl⟩ | hnone
  · have hcopy₁ : t₁.immediate (.heapRef r) = t₁.heap.deepCopy (.heapRef r) :=
      if_pos (List.contains_iff_mem.2 hr)
    have hcopy₂ : t₂.immediate (.heapRef r) = t₂.heap.deepCopy (.heapRef r) :=
      if_pos (List.contains_iff_mem.2 (hm.literals ▸ hr))
    rw [hcopy₁] at hs₁ ⊢
    rw [hcopy₂] at hs₂ ⊢
    exact hm.heap.deepCopy (.ref (hm.literal r hr)) hs₁ hs₂
  · have hself : ∀ t : Thread, t.immediate v = (t.heap, .ok v) := by
      intro t
      cases v with
      | heapRef r => exact absurd (.self r) (hnone r)
      | _ => rfl
    rw [hself, hself]
    exact ⟨K, le_rfl, hm.heap, .ok (.same hnone)⟩

end Renamed

/-- Failures for the same reason, with heaps that are the same up to a renaming that says more. -/
def FailedAlike (K : Renaming) (e e' : Failure) : Prop :=
  e.fault.Alike e'.fault ∧ ∃ K', K ≤ K' ∧ Heap.Renamed K' e.heap e'.heap

/-- Values and heaps that are the same up to a renaming that says more. -/
def LoadedAlike (K : Renaming) (p p' : Value × Heap) : Prop :=
  ∃ K', K ≤ K' ∧ Heap.Renamed K' p.2 p'.2 ∧ p.1.Renamed K' p'.1

/-- What loading makes of the value that an operand names: void is refused. -/
def loaded (op : Operand) (h : Heap) (result : Except Fault Value) :
    Except Failure (Value × Heap) :=
  match result with
  | .error fault => .error ⟨fault, h⟩
  | .ok .void => .error ⟨.emptyOperand op, h⟩
  | .ok v => .ok (v, h)

/-- Loading is making the heap that loading leaves, and taking the operand's value unless it is
void. -/
theorem load_eq (t : Thread) (f : Frame) (op : Operand) :
    t.load f op = loaded op (t.loadHeap op)
      (match op with
        | .immediate v => (t.immediate v).2.mapError .memory
        | op => t.readOperand f op) := by
  cases op <;> rfl

/-- What is loaded is the same on both sides if the operands' values agree. -/
theorem loaded_alike {op : Operand} {x y : Except Fault Value} (hK : K ≤ K')
    (hheap : Heap.Renamed K' h₁ h₂) (hxy : Agree Fault.Alike (Value.Renamed K') x y) :
    Agree (FailedAlike K) (LoadedAlike K) (loaded op h₁ x) (loaded op h₂ y) := by
  cases hxy with
  | error he => exact .error ⟨he, K', hK, hheap⟩
  | @ok v w hv =>
    cases hv with
    | ref hr => exact .ok ⟨K', hK, hheap, .ref hr⟩
    | same hnone =>
      cases v with
      | void => exact .error ⟨rfl, K', hK, hheap⟩
      | _ => exact .ok ⟨K', hK, hheap, .same hnone⟩

/-- **Loading an operand.** -/
theorem Renamed.load (hm : Renamed K t₁ t₂) (hf : f₁.Renamed K f₂) (hi : i ∈ t₁.code)
    (hs₁ : (t₁.loadHeap i.operand).entries.size < 2 ^ 32)
    (hs₂ : (t₂.loadHeap i.operand).entries.size < 2 ^ 32) :
    Agree (FailedAlike K) (LoadedAlike K) (t₁.load f₁ i.operand) (t₂.load f₂ i.operand) := by
  rw [load_eq, load_eq]
  cases hop : i.operand with
  | immediate v =>
    rw [hop] at hs₁ hs₂
    obtain ⟨K', hK, hheap, hv⟩ := hm.resolve hi hop hs₁ hs₂
    exact loaded_alike hK hheap (memory hv)
  | implicit | absolute | index | property | static | indirect =>
    exact loaded_alike le_rfl hm.heap (hm.readOperand hf _)

end Thread

end RegisterMachine
