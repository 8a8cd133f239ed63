import RegisterMachine.Proofs.Engine.Renaming
import RegisterMachine.Proofs.Engine.Turnover

/-!
# Instructions in lockstep

An instruction does the same to two threads that are the same up to renaming
(`Thread.Renamed.exec`): it fails on both sides for the same reason, or succeeds on both sides and
leaves threads that are the same up to a renaming that says more (`Thread.Outcome.Renamed`). This
holds as long as neither heap runs out of indices or generations on the way (`Heap.Spares`). There
is one lemma for each instruction; each follows the parts of the instruction, which agree one by
one.
-/

namespace RegisterMachine

variable {K K' : Renaming}

namespace Thread

variable {t₁ t₂ u₁ u₂ : Thread} {f₁ f₂ : Frame} {i : Instruction} {v w b c b' c' : Value}
  {h₁ h₂ : Heap} {r q : Ref} {op : Operand}

/-! ## Outcomes -/

/-- The heap that an instruction leaves behind, whether it succeeds or not. -/
def Outcome.heap : Outcome → Heap
  | .error e => e.heap
  | .ok (_, t) => t.heap

/-- Threads that are the same up to a renaming that says more. -/
def Matches (K : Renaming) (u₁ u₂ : Thread) : Prop := ∃ K', K ≤ K' ∧ Renamed K' u₁ u₂

/-- Threads that match as long as indices and generations last. -/
def MatchesWithin (K : Renaming) (t₁ t₂ u₁ u₂ : Thread) : Prop :=
  t₁.heap.Spares u₁.heap → t₂.heap.Spares u₂.heap → Matches K u₁ u₂

/-- Instructions that do the same: both succeed, and control moves in the same way, or both fail for
the same reason. -/
def Outcome.Renamed (K : Renaming) : Outcome → Outcome → Prop :=
  Agree (FailedAlike K) fun p p' => p'.1 = p.1 ∧ Matches K p.2 p'.2

/-- Threads that are the same up to a renaming match. -/
theorem Renamed.matched (hm : Renamed K t₁ t₂) : Matches K t₁ t₂ := ⟨K, le_rfl, hm⟩

/-- Refusing an instruction does the same on both sides. -/
theorem Renamed.refuse (hm : Renamed K t₁ t₂) {fault fault' : Fault} (hf : fault.Alike fault') :
    Outcome.Renamed K (t₁.refuse fault) (t₂.refuse fault') :=
  .error ⟨hf, K, le_rfl, hm.heap⟩

/-- Going on to the next instruction does the same on both sides. -/
theorem Matches.next (hf : f₁.Renamed K f₂) (hm : Matches K t₁ t₂) :
    Outcome.Renamed K (.ok (.next, t₁.jumpTo (f₁.pc + 1)))
      (.ok (.next, t₂.jumpTo (f₂.pc + 1))) := by
  obtain ⟨K', hK, hm⟩ := hm
  rw [hf.pc_eq]
  exact .ok ⟨rfl, K', hK, hm.jumpTo _⟩

/-- Going on behind an instruction does the same on both sides if its results match. -/
theorem Renamed.proceed (hm : Renamed K t₁ t₂) (hf : f₁.Renamed K f₂) {x y : Except Fault Thread}
    (hxy : Agree Fault.Alike (MatchesWithin K t₁ t₂) x y)
    (hs₁ : t₁.heap.Spares (Outcome.heap (t₁.proceed f₁ x)))
    (hs₂ : t₂.heap.Spares (Outcome.heap (t₂.proceed f₂ y))) :
    Outcome.Renamed K (t₁.proceed f₁ x) (t₂.proceed f₂ y) := by
  cases hxy with
  | error he => exact hm.refuse he
  | ok hu => exact (hu hs₁ hs₂).next hf

/-- Setting a register does the same on both sides if the values agree. -/
theorem Renamed.assign (hm : Renamed K t₁ t₂) (hf : f₁.Renamed K f₂) (r : Register)
    {x y : Except Fault Value} (hxy : Agree Fault.Alike (Value.Renamed K) x y) :
    Outcome.Renamed K (t₁.assign f₁ r x) (t₂.assign f₂ r y) := by
  cases hxy with
  | error he => exact hm.refuse he
  | ok hv => exact (hm.setRegister r hv).matched.next hf

/-! ## Loading and storing -/

/-- A load leaves the heap that loading leaves, whether it succeeds or not. -/
theorem heap_execLoad (t : Thread) (f : Frame) (r : Register) (op : Operand) :
    Outcome.heap (t.execLoad f r op) = t.loadHeap op := by
  have hload := t.heap_load f op
  rw [execLoad]
  split
  · next he => rw [he] at hload; exact hload
  · next he => rw [he] at hload; exact hload

/-- A load does the same on both sides. -/
theorem Renamed.execLoad (hm : Renamed K t₁ t₂) (hf : f₁.Renamed K f₂) (hi : i ∈ t₁.code)
    (r : Register) (hs₁ : (Outcome.heap (t₁.execLoad f₁ r i.operand)).entries.size < 2 ^ 32)
    (hs₂ : (Outcome.heap (t₂.execLoad f₂ r i.operand)).entries.size < 2 ^ 32) :
    Outcome.Renamed K (t₁.execLoad f₁ r i.operand) (t₂.execLoad f₂ r i.operand) := by
  rw [heap_execLoad] at hs₁ hs₂
  have hload := hm.load hf hi hs₁ hs₂
  unfold Thread.execLoad
  generalize t₁.load f₁ i.operand = x at hload ⊢
  generalize t₂.load f₂ i.operand = y at hload ⊢
  cases hload with
  | error he => exact .error he
  | ok hv =>
    obtain ⟨K', hK, hheap, hv⟩ := hv
    exact Matches.next hf ⟨K', hK, (hm.withHeap hK hheap).setRegister r hv⟩

/-- Writing a slot whose number may not exist. -/
theorem Renamed.setSlot (hm : Renamed K t₁ t₂) (slot : Except MemoryError Nat)
    (hv : v.Renamed K w) : Agree Fault.Alike (Thread.Renamed K)
      (do let n ← slot.mapError .memory
          let stack ← (t₁.stack.set n v).mapError .memory
          return { t₁ with stack })
      (do let n ← slot.mapError .memory
          let stack ← (t₂.stack.set n w).mapError .memory
          return { t₂ with stack }) := by
  refine Agree.bind (R := Eq) (.refl (fun _ => rfl) fun _ _ => rfl) fun n _ he => ?_
  subst he
  exact (memory (hm.stack.set n hv)).bind fun _ _ hstack => .ok (hm.withStack hstack)

/-- Storing values that agree gives threads that match, or fails on both sides. -/
theorem Renamed.store (hm : Renamed K t₁ t₂) (hf : f₁.Renamed K f₂) (op : Operand) (hK : K ≤ K')
    (hheap : Heap.Renamed K' h₁ h₂) (hv : v.Renamed K' w) :
    Agree (FailedAlike K) (Matches K) (t₁.store f₁ op h₁ v) (t₂.store f₂ op h₂ w) := by
  have hm' := hm.withHeap hK hheap
  have hf' := hf.mono hK
  have hupdate : ∀ {r q : Ref} (n : Int), K' r q → Agree Fault.Alike (Thread.Renamed K')
      (do let heap ← Thread.updateHeap h₁ r (Thread.withElement · n v); return { t₁ with heap })
      (do let heap ← Thread.updateHeap h₂ q (Thread.withElement · n w)
          return { t₂ with heap }) := by
    intro r q n hr
    exact (updateHeap hheap hr fun _ _ hcd => withElement hcd n hv).bind
      fun _ _ hheap => .ok (hm.withHeap hK hheap)
  suffices hresult : ∀ {x y : Except Fault Thread}, Agree Fault.Alike (Thread.Renamed K') x y →
      Agree (FailedAlike K) (Matches K) (x.mapError fun fault => ⟨fault, h₁⟩)
        (y.mapError fun fault => ⟨fault, h₂⟩) by
    unfold Thread.store
    refine hresult ?_
    cases hf with
    | mk hsaved =>
      cases op with
      | implicit | immediate => exact hm'.setSlot (f₁.ownSlot f₁.pc) hv
      | absolute a => exact hm'.setSlot (f₁.slot a.toNat) hv
      | index a j =>
        refine (hm'.slotRef hf' _).bind fun r q hr => ?_
        refine (hm'.indexIn hf' _).bind fun n _ he => ?_
        subst he
        exact hupdate n hr
      | property a j => exact (hm'.slotRef hf' _).bind fun r q hr => hupdate _ hr
      | static | indirect => exact .error rfl
  intro x y hxy
  cases hxy with
  | error he => exact .error ⟨he, K', hK, hheap⟩
  | ok hu => exact .ok ⟨K', hK, hu⟩

/-- What storing does once the value is known. -/
def storing (t : Thread) (f : Frame) (op : Operand) (source : Heap × Except MemoryError Value) :
    Outcome :=
  match source.2 with
  | .error e => .error ⟨.memory e, source.1⟩
  | .ok v =>
    match t.store f op source.1 v with
    | .error e => .error e
    | .ok t => .ok (.next, t.jumpTo (f.pc + 1))

/-- A store takes an immediate value or one that was loaded, and stores it. -/
theorem execStore_eq (t : Thread) (f : Frame) (r : Register) (op : Operand) :
    t.execStore f r op = t.storing f op
      (match op with
        | .immediate v => t.immediate v
        | _ => (t.heap, .ok (t.registers.get r))) := by
  cases op <;> rfl

/-- Storing what was taken does the same on both sides. -/
theorem Renamed.storing (hm : Renamed K t₁ t₂) (hf : f₁.Renamed K f₂) (op : Operand)
    {source₁ source₂ : Heap × Except MemoryError Value} (hK : K ≤ K')
    (hheap : Heap.Renamed K' source₁.1 source₂.1)
    (hv : Agree MemoryError.Alike (Value.Renamed K') source₁.2 source₂.2) :
    Outcome.Renamed K (t₁.storing f₁ op source₁) (t₂.storing f₂ op source₂) := by
  obtain ⟨h₁, x⟩ := source₁
  obtain ⟨h₂, y⟩ := source₂
  cases hv with
  | error he => exact .error ⟨he, K', hK, hheap⟩
  | @ok v w hv =>
    have hstore := hm.store hf op hK hheap hv
    unfold Thread.storing
    dsimp only
    generalize t₁.store f₁ op h₁ v = x at hstore ⊢
    generalize t₂.store f₂ op h₂ w = y at hstore ⊢
    cases hstore with
    | error he => exact .error he
    | ok hu => exact hu.next hf

/-- Storing an immediate value leaves the heap that resolving it leaves. -/
theorem heap_storing_immediate (t : Thread) (f : Frame) (v : Value)
    (source : Heap × Except MemoryError Value) :
    Outcome.heap (t.storing f (.immediate v) source) = source.1 := by
  obtain ⟨h, x⟩ := source
  unfold Thread.storing
  split
  · rfl
  · next w _ =>
    split
    · next e he => exact store_error he
    · next u hu =>
      obtain ⟨_, _, hu⟩ := Except.bind_eq_ok.1 (Except.mapError_eq_ok.1 hu)
      obtain ⟨_, _, hu⟩ := Except.bind_eq_ok.1 hu
      cases hu
      rfl

/-- A store does the same on both sides. -/
theorem Renamed.execStore (hm : Renamed K t₁ t₂) (hf : f₁.Renamed K f₂) (hi : i ∈ t₁.code)
    (r : Register) (hs₁ : (Outcome.heap (t₁.execStore f₁ r i.operand)).entries.size < 2 ^ 32)
    (hs₂ : (Outcome.heap (t₂.execStore f₂ r i.operand)).entries.size < 2 ^ 32) :
    Outcome.Renamed K (t₁.execStore f₁ r i.operand) (t₂.execStore f₂ r i.operand) := by
  rw [execStore_eq] at hs₁ hs₂ ⊢
  rw [execStore_eq]
  cases hop : i.operand with
  | immediate v =>
    rw [hop, heap_storing_immediate] at hs₁ hs₂
    obtain ⟨K', hK, hheap, hv⟩ := hm.resolve hi hop hs₁ hs₂
    exact hm.storing hf _ hK hheap hv
  | implicit | absolute | index | property | static | indirect =>
    exact hm.storing hf _ le_rfl hm.heap (.ok (hm.registers r))

/-! ## Computing -/

/-- Following values that agree gives contents that agree. -/
theorem Renamed.deref (hm : Heap.Renamed K h₁ h₂) (hv : v.Renamed K w) :
    Agree MemoryError.Alike (Value.ContentRenamed K) (Native.deref h₁ v) (Native.deref h₂ w) := by
  cases hv with
  | ref hr => exact hm.get hr
  | same hnone =>
    cases v with
    | heapRef r => exact absurd (.self r) (hnone r)
    | _ => exact .ok (Value.Renamed.content (.same hnone) fun _ he => nomatch he)

/-- The operands in registers B and C agree. -/
theorem Renamed.operands (hm : Renamed K t₁ t₂) :
    Agree Fault.Alike (fun p p' => p.1.ContentRenamed K p'.1 ∧ p.2.ContentRenamed K p'.2)
      t₁.operands t₂.operands := by
  refine (memory (deref hm.heap (hm.registers .b))).bind fun b b' hb => ?_
  refine (memory (deref hm.heap (hm.registers .c))).bind fun c c' hc => ?_
  exact .ok ⟨hb, hc⟩

/-- Arrays are no numbers, and everything else is the same on both sides. -/
theorem arith_renamed (op : ArithOp) (hb : b.ContentRenamed K b') (hc : c.ContentRenamed K c') :
    Agree Fault.Alike (Value.Renamed K) (Arithmetic.arith op b c) (Arithmetic.arith op b' c') := by
  cases hb with
  | array _ => exact .error rfl
  | same _ _ =>
    cases hc with
    | array _ => cases b <;> exact .error rfl
    | same _ _ =>
      exact .refl (fun _ => rfl) fun v hv => .same (v.not_mentions_of_isPlain (isPlain_arith hv))

/-- Logic gives values that agree. -/
theorem logic_renamed (op : LogicOp) (hb : b.Renamed K b') (hc : c.Renamed K c') :
    Agree Fault.Alike (Value.Renamed K) (Arithmetic.logic op b c) (Arithmetic.logic op b' c') := by
  cases hb with
  | ref _ => exact .error rfl
  | same _ =>
    cases hc with
    | ref _ => cases b <;> exact .error rfl
    | same _ =>
      exact .refl (fun _ => rfl) fun v hv => .same (v.not_mentions_of_isPlain (isPlain_logic hv))

/-- Values whose contents agree are ordered alike. -/
theorem order_renamed (op : Comparison) (hb : b.ContentRenamed K b') (hc : c.ContentRenamed K c') :
    Agree Fault.Alike Eq (Arithmetic.order op b c) (Arithmetic.order op b' c') := by
  cases hb with
  | array _ => exact .error rfl
  | same _ _ =>
    cases hc with
    | array _ => cases b <;> exact .error rfl
    | same _ _ => exact .refl (fun _ => rfl) fun _ _ => rfl

/-- Values whose contents agree are nothing on both sides or on neither. -/
theorem isNothing_renamed (hb : b.ContentRenamed K b') :
    Arithmetic.isNothing b' = Arithmetic.isNothing b := by
  cases hb <;> rfl

/-- **Equality does not tell references apart**: it is that of the renamed values. -/
theorem equal_renamed (hm : Heap.Renamed K h₁ h₂) (op : Comparison) (hb : b.ContentRenamed K b')
    (hc : c.ContentRenamed K c') :
    Agree Fault.Alike Eq (Arithmetic.equal op b c) (Arithmetic.equal op b' c') := by
  unfold Arithmetic.equal
  rw [isNothing_renamed hb, isNothing_renamed hc, hb.kind_eq, hc.kind_eq]
  split
  · exact .ok rfl
  · split
    · exact (order_renamed op hb hc).map fun _ _ he => by rw [he]
    · split
      · exact .error rfl
      · exact .ok (decide_eq_decide.2 (hm.content_eq_iff hb hc))

/-- Values whose contents agree compare alike. -/
theorem compareValues_renamed (hm : Heap.Renamed K h₁ h₂) (op : Comparison)
    (hb : b.ContentRenamed K b') (hc : c.ContentRenamed K c') :
    Agree Fault.Alike Eq (Arithmetic.compareValues op b c) (Arithmetic.compareValues op b' c') := by
  cases op with
  | eq => exact equal_renamed hm .eq hb hc
  | ne => exact (equal_renamed hm .ne hb hc).map fun _ _ he => by rw [he]
  | gt | lt | ge | le => exact (order_renamed _ hb hc).map fun _ _ he => by rw [he]

/-- A conversion gives the same string or plain value on both sides. -/
theorem convert_renamed (target : Conversion) (hc : c.ContentRenamed K c') :
    Agree Fault.Alike (fun v w => w = v ∧ ((∃ s, v = .string s) ∨ v.isPlain = true))
      (Conversion.convert target c) (Conversion.convert target c') := by
  cases hc with
  | same _ _ => exact .refl (fun _ => rfl) fun v hv => ⟨rfl, isPlain_convert hv⟩
  | @array es es' hes =>
    cases target with
    | bool =>
      refine .ok ⟨?_, .inr rfl⟩
      change Value.bool (0 < es'.length) = .bool (0 < es.length)
      rw [hes.length_eq]
    | _ => exact .error rfl

/-- A reference to a new entry in A. -/
theorem Renamed.allocated (hm : Renamed K t₁ t₂) (hc : c.ContentRenamed K c') :
    MatchesWithin K t₁ t₂
      ({ t₁ with heap := (t₁.heap.alloc c).1 }.setRegister .a (.heapRef (t₁.heap.alloc c).2))
      ({ t₂ with heap := (t₂.heap.alloc c').1 }.setRegister .a
        (.heapRef (t₂.heap.alloc c').2)) := by
  intro hs₁ hs₂
  have hle := K.le_extend (t₁.heap.alloc c).2 (t₂.heap.alloc c').2
  have hheap := hm.heap.alloc hc hs₁.size hs₂.size
  exact ⟨_, hle, (hm.withHeap hle hheap).setRegister .a (.ref (.inr ⟨rfl, rfl⟩))⟩

/-- A string is the same under any renaming. -/
theorem contentRenamed_string (s : Bytes) : (Value.string s).ContentRenamed K (.string s) :=
  .same (fun _ he => nomatch he) fun _ hr => nomatch hr

/-- Arithmetic does the same on both sides. -/
theorem Renamed.execArith (hm : Renamed K t₁ t₂) (hf : f₁.Renamed K f₂) (op : ArithOp)
    (hs₁ : t₁.heap.Spares (Outcome.heap (t₁.execArith f₁ op)))
    (hs₂ : t₂.heap.Spares (Outcome.heap (t₂.execArith f₂ op))) :
    Outcome.Renamed K (t₁.execArith f₁ op) (t₂.execArith f₂ op) := by
  refine hm.proceed hf (hm.operands.bind ?_) hs₁ hs₂
  rintro ⟨b, c⟩ ⟨b', c'⟩ ⟨hb, hc⟩
  have hcomputed : Agree Fault.Alike (MatchesWithin K t₁ t₂)
      (do return t₁.setRegister .a (← Arithmetic.arith op b c))
      (do return t₂.setRegister .a (← Arithmetic.arith op b' c')) :=
    (arith_renamed op hb hc).bind fun _ _ hv => .ok fun _ _ => (hm.setRegister .a hv).matched
  dsimp only at hb hc ⊢
  -- Only the sum of two strings is not computed by `arith`.
  cases op with
  | add =>
    cases hb with
    | array _ => exact hcomputed
    | same _ _ =>
      cases hc with
      | array _ => cases b <;> exact hcomputed
      | same _ _ =>
        cases b with
        | string s =>
          cases c with
          | string u => exact .ok (hm.allocated (contentRenamed_string _))
          | _ => exact hcomputed
        | _ => exact hcomputed
  | _ => exact hcomputed

/-- Allocating an entry does the same on both sides. -/
theorem Renamed.execNew (hm : Renamed K t₁ t₂) (hf : f₁.Renamed K f₂) (hc : c.ContentRenamed K c')
    (hs₁ : t₁.heap.Spares (Outcome.heap (t₁.execNew f₁ c)))
    (hs₂ : t₂.heap.Spares (Outcome.heap (t₂.execNew f₂ c'))) :
    Outcome.Renamed K (t₁.execNew f₁ c) (t₂.execNew f₂ c') :=
  (hm.allocated hc hs₁ hs₂).next hf

/-- Making an array does the same on both sides. -/
theorem Renamed.execNewStatic (hm : Renamed K t₁ t₂) (hf : f₁.Renamed K f₂) (count : Value)
    (hs₁ : t₁.heap.Spares (Outcome.heap (t₁.execNewStatic f₁ count)))
    (hs₂ : t₂.heap.Spares (Outcome.heap (t₂.execNewStatic f₂ count))) :
    Outcome.Renamed K (t₁.execNewStatic f₁ count) (t₂.execNewStatic f₂ count) := by
  cases count with
  | int width b =>
    unfold Thread.execNewStatic at hs₁ hs₂ ⊢
    dsimp only at hs₁ hs₂ ⊢
    split at hs₁
    · next hneg =>
      rw [if_pos hneg, if_pos hneg]
      exact hm.refuse rfl
    · next hneg =>
      rw [if_neg hneg] at hs₂ ⊢
      rw [if_neg hneg]
      split at hs₁
      · next hlarge =>
        rw [if_pos hlarge, if_pos hlarge]
        exact hm.refuse rfl
      · next hlarge =>
        rw [if_neg hlarge] at hs₂ ⊢
        rw [if_neg hlarge]
        refine hm.execNew hf (.array (List.forall₂_same.2 fun e he => .same fun r hr => ?_)) hs₁ hs₂
        rw [List.eq_of_mem_replicate he] at hr
        cases hr
  | _ => exact hm.refuse rfl

/-- What is put into A for a converted value, a string through a new entry. -/
theorem Renamed.converted (hm : Renamed K t₁ t₂) (target : Conversion) {c d : Value}
    (hcd : c.ContentRenamed K d) :
    Agree Fault.Alike (MatchesWithin K t₁ t₂)
      (do match ← Conversion.convert target c with
          | .string s =>
            let (heap, r) := t₁.heap.alloc (.string s)
            return { t₁ with heap }.setRegister .a (.heapRef r)
          | v => return t₁.setRegister .a v)
      (do match ← Conversion.convert target d with
          | .string s =>
            let (heap, r) := t₂.heap.alloc (.string s)
            return { t₂ with heap }.setRegister .a (.heapRef r)
          | v => return t₂.setRegister .a v) := by
  refine (convert_renamed target hcd).bind fun v w hv => ?_
  obtain ⟨rfl, ⟨s, rfl⟩ | hplain⟩ := hv
  · exact .ok (hm.allocated (contentRenamed_string s))
  · have hset := (hm.setRegister .a (.same (w.not_mentions_of_isPlain hplain))).matched
    cases w with
    | string s => cases hplain
    | _ => exact .ok fun _ _ => hset

/-- A conversion does the same on both sides. -/
theorem Renamed.execConvert (hm : Renamed K t₁ t₂) (hf : f₁.Renamed K f₂) (target : Conversion)
    (hs₁ : t₁.heap.Spares (Outcome.heap (t₁.execConvert f₁ target)))
    (hs₂ : t₂.heap.Spares (Outcome.heap (t₂.execConvert f₂ target))) :
    Outcome.Renamed K (t₁.execConvert f₁ target) (t₂.execConvert f₂ target) := by
  have ha : t₁.registers.a.Renamed K t₂.registers.a := hm.registers .a
  refine hm.proceed hf ((memory (deref hm.heap ha)).bind fun c d hcd => ?_) hs₁ hs₂
  have hconverted := hm.converted target hcd
  generalize t₁.registers.a = a at ha
  generalize t₂.registers.a = a' at ha
  -- A string that A refers to is kept when it is converted to a string.
  cases target with
  | string =>
    cases ha with
    | same hnone =>
      cases a with
      | heapRef r => exact absurd (.self r) (hnone r)
      | _ => exact hconverted
    | ref _ =>
      cases hcd with
      | array _ => exact hconverted
      | same _ _ =>
        cases c with
        | string s => exact .ok fun _ _ => hm.matched
        | _ => exact hconverted
  | _ => exact hconverted

/-! ## Control -/

/-- Moving control does the same on both sides. -/
theorem Renamed.moved (hm : Renamed K t₁ t₂) (kind : StepKind) (pc : Nat) :
    Outcome.Renamed K (.ok (kind, t₁.jumpTo pc)) (.ok (kind, t₂.jumpTo pc)) :=
  .ok ⟨rfl, (hm.jumpTo pc).matched⟩

/-- A jump does the same on both sides. -/
theorem Renamed.execJump (hm : Renamed K t₁ t₂) (target : Nat) :
    Outcome.Renamed K (t₁.execJump target) (t₂.execJump target) := by
  unfold Thread.execJump
  rw [hm.code]
  split
  · exact hm.refuse rfl
  · exact hm.moved .jump target

/-- A call does the same on both sides. -/
theorem Renamed.execCall (hm : Renamed K t₁ t₂) (hf : f₁.Renamed K f₂) (entry : Int) :
    Outcome.Renamed K (t₁.execCall f₁ entry) (t₂.execCall f₂ entry) := by
  have hcode : functionAt t₂.code entry = functionAt t₁.code entry := by rw [hm.code]
  unfold Thread.execCall
  rw [hcode]
  split
  · exact hm.refuse rfl
  · next fn _ =>
    have hcallee : Frame.Renamed K (t₁.callee f₁ entry fn) (t₂.callee f₁ entry fn) :=
      .mk hm.registers
    have hpush := hm.stack.push hcallee
    cases hf with
    | mk hsaved =>
      dsimp only [callee] at hpush ⊢
      generalize t₁.stack.push _ = x at hpush ⊢
      generalize t₂.stack.push _ = y at hpush ⊢
      cases hpush with
      | error he => exact hm.refuse he
      | ok hstack => exact .ok ⟨rfl, (hm.withStack hstack).matched⟩

/-- A return does the same on both sides. -/
theorem Renamed.execReturn (hm : Renamed K t₁ t₂) :
    Outcome.Renamed K t₁.execReturn t₂.execReturn := by
  have hpop := hm.stack.pop
  unfold Thread.execReturn
  generalize t₁.stack.pop = x at hpop ⊢
  generalize t₂.stack.pop = y at hpop ⊢
  cases hpop with
  | error he => exact hm.refuse he
  | @ok p p' hpop =>
    obtain ⟨done₁, s₁⟩ := p
    obtain ⟨done₂, s₂⟩ := p'
    obtain ⟨hdone, hs⟩ := hpop
    have hframes := hs.frames
    dsimp only at hdone hs hframes ⊢
    generalize hfs₁ : s₁.frames = fs₁ at hframes ⊢
    generalize hfs₂ : s₂.frames = fs₂ at hframes ⊢
    cases hframes with
    | nil =>
      have hexit : Option.Rel (Exit.Renamed K) (some (.graceful t₁.registers.y))
          (some (.graceful t₂.registers.y)) := .some (.graceful (hm.registers .y))
      exact .ok ⟨rfl, K, le_rfl, { hm with stack := hs, exit := hexit, state := rfl }⟩
    | cons hcaller _ =>
      cases hdone with
      | mk hsaved =>
        cases hcaller with
        | mk _ =>
          refine .ok ⟨rfl, K, le_rfl, { hm with stack := hs.jump _, registers := ?_ }⟩
          exact hsaved.set .y (hm.registers .y)

/-! ## Strings and arrays -/

/-- Loads an operand and changes the heap with it. -/
def loadInto (t : Thread) (f : Frame) (op : Operand) (change : Value → Heap → Except Fault Heap) :
    Outcome :=
  match t.load f op with
  | .error e => .error e
  | .ok (v, heap) =>
    match change v heap with
    | .error fault => .error ⟨fault, heap⟩
    | .ok heap => .ok (.next, { t with heap }.jumpTo (f.pc + 1))

/-- Changing the heap with a loaded value leaves no fewer entries than loading does. -/
theorem size_loadInto {change : Value → Heap → Except Fault Heap}
    (hchange : ∀ {v h h'}, change v h = .ok h' → h.entries.size ≤ h'.entries.size) (t : Thread)
    (f : Frame) (op : Operand) :
    (t.loadHeap op).entries.size ≤ (Outcome.heap (t.loadInto f op change)).entries.size := by
  unfold loadInto
  split
  · next he => rw [← loadHeap_of_error he]; exact Nat.le_refl _
  · next he =>
    rw [← loadHeap_of_ok he]
    split
    · exact Nat.le_refl _
    · next hc => exact hchange hc

/-- Changing the heap with a loaded value does the same on both sides if the changes do. -/
theorem Renamed.loadInto (hm : Renamed K t₁ t₂) (hf : f₁.Renamed K f₂) (hi : i ∈ t₁.code)
    {change₁ change₂ : Value → Heap → Except Fault Heap}
    (hgrows₁ : ∀ {v h h'}, change₁ v h = .ok h' → h.entries.size ≤ h'.entries.size)
    (hgrows₂ : ∀ {v h h'}, change₂ v h = .ok h' → h.entries.size ≤ h'.entries.size)
    (hchange : ∀ {K' v w h₁ h₂}, K ≤ K' → Heap.Renamed K' h₁ h₂ → v.Renamed K' w →
      Agree Fault.Alike (Heap.Renamed K') (change₁ v h₁) (change₂ w h₂))
    (hs₁ : t₁.heap.Spares (Outcome.heap (t₁.loadInto f₁ i.operand change₁)))
    (hs₂ : t₂.heap.Spares (Outcome.heap (t₂.loadInto f₂ i.operand change₂))) :
    Outcome.Renamed K (t₁.loadInto f₁ i.operand change₁) (t₂.loadInto f₂ i.operand change₂) := by
  have hload := hm.load hf hi
    (Nat.lt_of_le_of_lt (size_loadInto hgrows₁ t₁ f₁ i.operand) hs₁.size)
    (Nat.lt_of_le_of_lt (size_loadInto hgrows₂ t₂ f₂ i.operand) hs₂.size)
  unfold Thread.loadInto
  generalize t₁.load f₁ i.operand = x at hload ⊢
  generalize t₂.load f₂ i.operand = y at hload ⊢
  cases hload with
  | error he => exact .error he
  | @ok p p' hp =>
    obtain ⟨v, h₁⟩ := p
    obtain ⟨w, h₂⟩ := p'
    obtain ⟨K', hK, hheap, hv⟩ := hp
    have hchanged := hchange hK hheap hv
    dsimp only
    generalize change₁ v h₁ = x at hchanged ⊢
    generalize change₂ w h₂ = y at hchanged ⊢
    cases hchanged with
    | error he => exact .error ⟨he, K', hK, hheap⟩
    | ok hheap => exact Matches.next hf ⟨K', hK, hm.withHeap hK hheap⟩

/-- Changing an entry leaves no fewer entries. -/
theorem size_updateHeap {h h' : Heap} {change : Value → Except Fault Value}
    (hu : updateHeap h r change = .ok h') : h.entries.size ≤ h'.entries.size := by
  obtain ⟨_, _, _, _, hset⟩ := updateHeap_eq_ok hu
  exact (Heap.grows_set hset).size_le

/-- Appends an element to the array behind a reference. -/
def pushing (r : Ref) (v : Value) (h : Heap) : Except Fault Heap :=
  updateHeap h r fun
    | .array es => .ok (.array (es ++ [v]))
    | c => .error (.ofValues .push [c])

/-- Appends the text of a value to the string behind a reference. -/
def pushingText (r : Ref) (v : Value) (h : Heap) : Except Fault Heap := do
  let v ← (Native.deref h v).mapError .memory
  let tail ← appendix v
  updateHeap h r fun
    | .string s => .ok (.string (s ++ tail))
    | c => .error (.ofValues .pushString [c])

/-- Pushing a value onto an entry gives heaps that are the same up to the renaming. -/
theorem Renamed.pushing (hm : Heap.Renamed K h₁ h₂) (hr : K r q) (hv : v.Renamed K w) :
    Agree Fault.Alike (Heap.Renamed K) (pushing r v h₁) (pushing q w h₂) := by
  refine updateHeap hm hr fun c d hcd => ?_
  cases hcd with
  | array hes => exact .ok (.array (List.rel_append hes (.cons hv .nil)))
  | same hne _ =>
    cases c with
    | array es => exact absurd rfl (hne es)
    | _ => exact .error rfl

/-- Contents that agree are appended as the same text. -/
theorem appendix_renamed (hc : c.ContentRenamed K c') :
    Agree Fault.Alike Eq (appendix c) (appendix c') := by
  cases hc with
  | array _ => exact .error rfl
  | same _ _ => exact .refl (fun _ => rfl) fun _ _ => rfl

/-- Pushing text onto an entry gives heaps that are the same up to the renaming. -/
theorem Renamed.pushingText (hm : Heap.Renamed K h₁ h₂) (hr : K r q) (hv : v.Renamed K w) :
    Agree Fault.Alike (Heap.Renamed K) (pushingText r v h₁) (pushingText q w h₂) := by
  refine (memory (deref hm hv)).bind fun c d hcd => ?_
  refine (appendix_renamed hcd).bind fun tail _ he => ?_
  subst he
  refine updateHeap hm hr fun c d hcd => ?_
  cases hcd with
  | array _ => exact .error rfl
  | same _ _ =>
    cases c with
    | string s => exact .ok (contentRenamed_string _)
    | _ => exact .error rfl

/-- Pushing a value does the same on both sides. -/
theorem Renamed.execPush (hm : Renamed K t₁ t₂) (hf : f₁.Renamed K f₂) (hi : i ∈ t₁.code)
    (hs₁ : t₁.heap.Spares (Outcome.heap (t₁.execPush f₁ i.operand)))
    (hs₂ : t₂.heap.Spares (Outcome.heap (t₂.execPush f₂ i.operand))) :
    Outcome.Renamed K (t₁.execPush f₁ i.operand) (t₂.execPush f₂ i.operand) := by
  have hr := asRef_renamed (hm.registers .a)
  change Agree Fault.Alike K (asRef t₁.registers.a) (asRef t₂.registers.a) at hr
  unfold Thread.execPush at hs₁ hs₂ ⊢
  generalize asRef t₁.registers.a = x at hr hs₁ ⊢
  generalize asRef t₂.registers.a = y at hr hs₂ ⊢
  cases hr with
  | error he => exact hm.refuse he
  | ok hr =>
    exact hm.loadInto hf hi size_updateHeap size_updateHeap
      (fun hK hheap hv => pushing hheap (hK _ _ hr) hv) hs₁ hs₂

/-- Pushing text leaves no fewer entries. -/
theorem size_pushingText {h h' : Heap} (hu : pushingText r v h = .ok h') :
    h.entries.size ≤ h'.entries.size := by
  obtain ⟨_, _, hu⟩ := Except.bind_eq_ok.1 hu
  obtain ⟨_, _, hu⟩ := Except.bind_eq_ok.1 hu
  exact size_updateHeap hu

/-- Pushing a string does the same on both sides. -/
theorem Renamed.execPushString (hm : Renamed K t₁ t₂) (hf : f₁.Renamed K f₂) (hi : i ∈ t₁.code)
    (hs₁ : t₁.heap.Spares (Outcome.heap (t₁.execPushString f₁ i.operand)))
    (hs₂ : t₂.heap.Spares (Outcome.heap (t₂.execPushString f₂ i.operand))) :
    Outcome.Renamed K (t₁.execPushString f₁ i.operand) (t₂.execPushString f₂ i.operand) := by
  have hr := asRef_renamed (hm.registers .a)
  change Agree Fault.Alike K (asRef t₁.registers.a) (asRef t₂.registers.a) at hr
  unfold Thread.execPushString at hs₁ hs₂ ⊢
  generalize asRef t₁.registers.a = x at hr hs₁ ⊢
  generalize asRef t₂.registers.a = y at hr hs₂ ⊢
  cases hr with
  | error he => exact hm.refuse he
  | ok hr =>
    exact hm.loadInto hf hi size_pushingText size_pushingText
      (fun hK hheap hv => pushingText hheap (hK _ _ hr) hv) hs₁ hs₂

/-- Taking a length does the same on both sides. -/
theorem Renamed.execLength (hm : Renamed K t₁ t₂) (hf : f₁.Renamed K f₂) (n : Nat) :
    Outcome.Renamed K (t₁.execLength f₁ n) (t₂.execLength f₂ n) := by
  refine hm.assign hf .a ((hm.slotRef hf n).bind fun r q hr => ?_)
  refine (memory (hm.heap.get hr)).bind fun c d hcd => ?_
  cases hcd with
  | @array es es' hes =>
    change Agree _ _ (.ok (Value.int64 es.length)) (.ok (Value.int64 es'.length))
    rw [hes.length_eq]
    exact .ok (.same fun _ hr => nomatch hr)
  | same _ _ =>
    refine .refl (fun _ => rfl) fun v hv => .same (v.not_mentions_of_isPlain ?_)
    split at hv
    · cases hv
      rfl
    · cases hv

/-- Popping a value does the same on both sides. -/
theorem Renamed.execPop (hm : Renamed K t₁ t₂) (hf : f₁.Renamed K f₂) (n : Nat)
    (hs₁ : t₁.heap.Spares (Outcome.heap (t₁.execPop f₁ n)))
    (hs₂ : t₂.heap.Spares (Outcome.heap (t₂.execPop f₂ n))) :
    Outcome.Renamed K (t₁.execPop f₁ n) (t₂.execPop f₂ n) := by
  refine hm.proceed hf ((hm.slotRef hf n).bind fun r q hr => ?_) hs₁ hs₂
  refine (memory (hm.heap.get hr)).bind fun c d hcd => ?_
  cases hcd with
  | @array es es' hes =>
    have hlast := forall₂_getElem? hes (es.length - 1)
    have hinit : (Value.array es.dropLast).ContentRenamed K (.array es'.dropLast) := by
      rw [List.dropLast_eq_take, List.dropLast_eq_take, ← hes.length_eq]
      exact .array (List.forall₂_take _ hes)
    dsimp only
    rw [List.getLast?_eq_getElem?, List.getLast?_eq_getElem?, ← hes.length_eq]
    generalize es[es.length - 1]? = o at hlast ⊢
    generalize es'[es.length - 1]? = o' at hlast ⊢
    cases hlast with
    | none => exact .error rfl
    | some hv =>
      refine (memory (hm.heap.set hr hinit)).bind fun h₁ h₂ hheap => .ok fun _ _ => ?_
      exact ((hm.withHeap le_rfl hheap).setRegister .a hv).matched
  | same hne _ =>
    cases c with
    | array es => exact absurd rfl (hne es)
    | _ => exact .error rfl

/-! ## Copying and freeing -/

/-- Puts a deep copy of a value into A. -/
def copying (t : Thread) (f : Frame) (v : Value) : Outcome :=
  match t.heap.deepCopy v with
  | (heap, .error e) => .error ⟨.memory e, heap⟩
  | (heap, .ok v) => .ok (.next, ({ t with heap }.setRegister .a v).jumpTo (f.pc + 1))

/-- Copying leaves the heap that the copier leaves, whether it succeeds or not. -/
theorem heap_copying (t : Thread) (f : Frame) (v : Value) :
    Outcome.heap (t.copying f v) = (t.heap.deepCopy v).1 := by
  unfold copying
  generalize t.heap.deepCopy v = copy
  obtain ⟨h, x⟩ := copy
  cases x <;> rfl

/-- Copying values that agree does the same on both sides. -/
theorem Renamed.copying (hm : Renamed K t₁ t₂) (hf : f₁.Renamed K f₂) (hv : v.Renamed K w)
    (hs₁ : t₁.heap.Spares (Outcome.heap (t₁.copying f₁ v)))
    (hs₂ : t₂.heap.Spares (Outcome.heap (t₂.copying f₂ w))) :
    Outcome.Renamed K (t₁.copying f₁ v) (t₂.copying f₂ w) := by
  rw [heap_copying] at hs₁ hs₂
  obtain ⟨K', hK, hheap, hcopy⟩ := hm.heap.deepCopy hv hs₁.size hs₂.size
  unfold Thread.copying
  generalize t₁.heap.deepCopy v = copy₁ at hheap hcopy ⊢
  generalize t₂.heap.deepCopy w = copy₂ at hheap hcopy ⊢
  obtain ⟨h₁, x⟩ := copy₁
  obtain ⟨h₂, y⟩ := copy₂
  cases hcopy with
  | error he => exact .error ⟨he, K', hK, hheap⟩
  | ok hv => exact Matches.next hf ⟨K', hK, (hm.withHeap hK hheap).setRegister .a hv⟩

/-- Copying does the same on both sides. -/
theorem Renamed.execClone (hm : Renamed K t₁ t₂) (hf : f₁.Renamed K f₂) (n : Nat)
    (hs₁ : t₁.heap.Spares (Outcome.heap (t₁.execClone f₁ n)))
    (hs₂ : t₂.heap.Spares (Outcome.heap (t₂.execClone f₂ n))) :
    Outcome.Renamed K (t₁.execClone f₁ n) (t₂.execClone f₂ n) := by
  have hlocal := hm.getLocal hf n
  unfold Thread.execClone at hs₁ hs₂ ⊢
  generalize t₁.getLocal f₁ n = x at hlocal hs₁ ⊢
  generalize t₂.getLocal f₂ n = y at hlocal hs₂ ⊢
  cases hlocal with
  | error he => exact hm.refuse he
  | @ok v w hv =>
    cases hv with
    | ref hr => exact hm.copying hf (.ref hr) hs₁ hs₂
    | same hnone =>
      cases v with
      | void => exact hm.refuse rfl
      | _ => exact hm.copying hf (.same hnone) hs₁ hs₂

/-- Freeing does the same on both sides. -/
theorem Renamed.execFree (hm : Renamed K t₁ t₂) (hf : f₁.Renamed K f₂) (n : Nat)
    (hs₁ : t₁.heap.Spares (Outcome.heap (t₁.execFree f₁ n)))
    (hs₂ : t₂.heap.Spares (Outcome.heap (t₂.execFree f₂ n))) :
    Outcome.Renamed K (t₁.execFree f₁ n) (t₂.execFree f₂ n) := by
  have hvoid : Value.void.Renamed K .void := .same fun _ hr => nomatch hr
  cases hf with
  | mk hsaved =>
    refine hm.proceed (.mk hsaved) ?_ hs₁ hs₂
    refine Agree.bind (R := Eq) (.refl (fun _ => rfl) fun _ _ => rfl) fun slot _ he => ?_
    subst he
    refine (memory (hm.stack.get slot)).bind fun v w hv => ?_
    have hclear : ∀ {x y : Except Fault Heap},
        Agree Fault.Alike (fun h h' => t₁.heap.Ages h → t₂.heap.Ages h' → Heap.Renamed K h h') x y →
        Agree Fault.Alike (MatchesWithin K t₁ t₂)
          (do let heap ← x
              let stack ← (t₁.stack.set slot .void).mapError .memory
              return { t₁ with heap, stack })
          (do let heap ← y
              let stack ← (t₂.stack.set slot .void).mapError .memory
              return { t₂ with heap, stack }) := by
      intro x y hxy
      refine hxy.bind fun h h' hheap => ?_
      refine (memory (hm.stack.set slot hvoid)).bind fun s s' hstack => .ok fun hs hs' => ?_
      exact ((hm.withHeap le_rfl (hheap hs.ages hs'.ages)).withStack hstack).matched
    cases hv with
    | ref hr => exact hclear (memory (hm.heap.free hr))
    | same hnone =>
      cases v with
      | heapRef r => exact absurd (.self r) (hnone r)
      | _ => exact hclear (.ok fun _ _ => hm.heap)

/-- **An instruction does the same on both sides.** -/
theorem Renamed.exec (hm : Renamed K t₁ t₂) (hf : f₁.Renamed K f₂) (hi : i ∈ t₁.code)
    (hs₁ : t₁.heap.Spares (Outcome.heap (t₁.exec f₁ i)))
    (hs₂ : t₂.heap.Spares (Outcome.heap (t₂.exec f₂ i))) :
    Outcome.Renamed K (t₁.exec f₁ i) (t₂.exec f₂ i) := by
  obtain ⟨m, op⟩ := i
  have hundefined : ∀ m : Mnemonic, Outcome.Renamed K
      (t₁.refuse (.internal (utf8 "no effect defined for " ++ utf8 m.name)))
      (t₂.refuse (.internal (utf8 "no effect defined for " ++ utf8 m.name))) :=
    fun _ => hm.refuse rfl
  cases m with
  | load r => exact hm.execLoad hf hi r hs₁.size hs₂.size
  | store r => exact hm.execStore hf hi r hs₁.size hs₂.size
  | arith op => exact hm.execArith hf op hs₁ hs₂
  | logic op => exact hm.assign hf .a (logic_renamed op (hm.registers .b) (hm.registers .c))
  | compare op =>
    refine hm.assign hf .a (hm.operands.bind fun p p' hp => ?_)
    refine (compareValues_renamed hm.heap op hp.1 hp.2).bind fun o _ he => ?_
    subst he
    exact .ok (.same fun _ hr => nomatch hr)
  | ret => exact hm.execReturn
  | function =>
    have hcode : functionAt t₂.code f₂.pc = functionAt t₁.code f₁.pc := by rw [hm.code, hf.pc_eq]
    unfold Thread.exec
    dsimp only
    rw [hcode]
    split
    · exact hm.refuse rfl
    · exact hm.moved .jump _
  | push => exact hm.execPush hf hi hs₁ hs₂
  | pushString => exact hm.execPushString hf hi hs₁ hs₂
  | newArray => exact hm.execNew hf (.array .nil) hs₁ hs₂
  | newString => exact hm.execNew hf (contentRenamed_string []) hs₁ hs₂
  | convert target => exact hm.execConvert hf target hs₁ hs₂
  | trap =>
    unfold Thread.exec
    dsimp only
    rw [hf.pc_eq]
    exact hm.moved .trap _
  | callNative => exact absurd rfl (hm.noNative _ hi)
  | jump =>
    cases op with
    | absolute a => exact hm.execJump a.toNat
    | _ => exact hundefined .jump
  | jumpIf =>
    cases op with
    | absolute a =>
      have ha : t₁.registers.a.Renamed K t₂.registers.a := hm.registers .a
      unfold Thread.exec
      dsimp only
      generalize t₁.registers.a = v at ha ⊢
      generalize t₂.registers.a = w at ha ⊢
      cases ha with
      | ref _ => exact hm.refuse rfl
      | same _ =>
        cases v with
        | bool b =>
          cases b with
          | true => exact hm.execJump a.toNat
          | false => exact hm.matched.next hf
        | _ => exact hm.refuse rfl
    | _ => exact hundefined .jumpIf
  | call =>
    cases op with
    | absolute a => exact hm.execCall hf a.toInt64.toInt
    | _ => exact hundefined .call
  | length =>
    cases op with
    | absolute a => exact hm.execLength hf a.toNat
    | _ => exact hundefined .length
  | newStaticArray =>
    cases op with
    | immediate v => exact hm.execNewStatic hf v hs₁ hs₂
    | _ => exact hundefined .newStaticArray
  | pop =>
    cases op with
    | absolute a => exact hm.execPop hf a.toNat hs₁ hs₂
    | _ => exact hundefined .pop
  | clone =>
    cases op with
    | absolute a => exact hm.execClone hf a.toNat hs₁ hs₂
    | _ => exact hundefined .clone
  | free =>
    cases op with
    | absolute a => exact hm.execFree hf a.toNat hs₁ hs₂
    | _ => exact hundefined .free

end Thread

end RegisterMachine
