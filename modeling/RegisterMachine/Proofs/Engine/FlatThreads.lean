import RegisterMachine.Proofs.Engine.Reclaiming
import RegisterMachine.Proofs.Memory.Flatness

/-!
# A thread keeps strings and arrays in its heap

`Thread.Flat` says that no register, slot or saved register holds a string or an array, and that the
elements of the arrays in the heap are neither. It holds at the start, where the literals are moved
into the heap, and whatever is done to a thread whose native functions add nothing but strings to
the heap keeps it (`Thread.Flat.after`).
-/

namespace RegisterMachine

/-- Writing what fits a slot into a container leaves what an entry may hold. -/
theorem Value.isStored_rewritten {v c c' : Value} (hv : v.isCell = true) (hc : c.isStored = true)
    (hw : Value.Rewritten v c c') : c'.isStored = true := by
  cases hw with
  | element n =>
    refine isStored_array.2 fun e he => ?_
    rcases List.mem_or_eq_of_mem_set he with he | rfl
    · exact isStored_array.1 hc e he
    · exact hv
  | added =>
    refine isStored_array.2 fun e he => ?_
    rcases List.mem_append.1 he with he | he
    · exact isStored_array.1 hc e he
    · rw [List.mem_singleton.1 he]
      exact hv
  | text => rfl

/-- A heap stays flat when strings are added. -/
theorem Heap.AddsStrings.flat {h h' : Heap} (ha : h.AddsStrings h') (hf : h.Flat) : h'.Flat := by
  induction ha with
  | nothing => exact hf
  | string s _ ih => exact ih.alloc (v := .string s) rfl

/-- A value that refers to nothing may stand in a cell. -/
theorem Value.isCell_of_isPlain {v : Value} (hv : v.isPlain = true) : v.isCell = true := by
  cases v <;> first | rfl | cases hv

namespace Thread

variable {t u : Thread} {f : Frame} {i : Instruction} {k : StepKind} {v : Value}

/-- The heap is flat, and whatever the thread holds outside it fits a slot. -/
structure Flat (t : Thread) : Prop where
  heap : t.heap.Flat
  roots : ∀ {v}, t.Root v → v.isCell = true
  code : ∀ {i v}, i ∈ t.code → i.operand = .immediate v → v.isCell = true
  natives : t.natives.AddsStrings

/-- A thread stays flat if its heap does and every root is an old one or fits a slot. -/
theorem Flat.change (hf : t.Flat) (hfixed : u.code = t.code ∧ u.natives = t.natives)
    (hheap : u.heap.Flat) (hroots : ∀ {v}, u.Root v → t.Root v ∨ v.isCell = true) : u.Flat := by
  refine ⟨hheap, fun hv => (hroots hv).elim hf.roots fun hcell => hcell, ?_, ?_⟩
  · rw [hfixed.1]
    exact hf.code
  · rw [hfixed.2]
    exact hf.natives

/-- What an instruction can take up fits a slot. -/
theorem Flat.holds (hf : t.Flat) (hv : t.Holds v) : v.isCell = true := by
  cases hv with
  | register r => exact hf.roots (.register r)
  | slot hslot => exact hf.roots (.slot (Array.mem_of_getElem? hslot))
  | element _ hget hmem => exact hf.heap.element hget hmem

/-- **What an instruction comes up with fits a slot**, and the heap after it is flat. -/
theorem Flat.yields (hf : t.Flat) (hi : i ∈ t.code) {h : Heap} (hy : t.Yields i v h) :
    h.Flat ∧ v.isCell = true := by
  have hcopy : ∀ {w}, w.isCell = true → t.heap.deepCopy w = (h, .ok v) →
      h.Flat ∧ v.isCell = true := by
    intro w hw he
    obtain ⟨hheap, hcell⟩ := hf.heap.deepCopy hw
    rw [he] at hheap hcell
    exact ⟨hheap, hcell rfl⟩
  cases hy with
  | held hv => exact ⟨hf.heap, hf.holds hv⟩
  | plain hv => exact ⟨hf.heap, Value.isCell_of_isPlain hv⟩
  | immediate hop _ => exact ⟨hf.heap, hf.code hi hop⟩
  | literal _ hr he => exact hcopy (hf.roots (.literal hr)) he
  | clone hw he => exact hcopy (hf.holds hw) he
  | newString s => exact ⟨hf.heap.alloc (v := .string s) rfl, rfl⟩
  | newArray n =>
    have hvoid : (Value.array (List.replicate n .void)).isStored = true :=
      Value.isStored_array.2 fun e he => List.eq_of_mem_replicate he ▸ rfl
    exact ⟨hf.heap.alloc hvoid, rfl⟩

/-- **A successful instruction keeps a thread flat.** -/
theorem Flat.effect (hf : t.Flat) (hi : i ∈ t.code) (he : t.Effect f i k u) : u.Flat := by
  cases he with
  | assign hy =>
    obtain ⟨hheap, hcell⟩ := hf.yields hi hy
    refine hf.change ⟨rfl, rfl⟩ hheap fun hv => ?_
    rcases hv.ofJumpTo.ofSetRegister with hv | rfl
    · exact .inl (hv.congr rfl rfl rfl rfl)
    · exact .inr hcell
  | store hy _ hset =>
    obtain ⟨hheap, hcell⟩ := hf.yields hi hy
    refine hf.change ⟨rfl, rfl⟩ hheap fun hv => ?_
    rcases Root.ofStackSet hset hv.ofJumpTo with hv | rfl
    · exact .inl hv
    · exact .inr hcell
  | update hy hr hc hw hset =>
    obtain ⟨hheap, hcell⟩ := hf.yields hi hy
    have hflat := Value.isStored_rewritten hcell (hheap.get hc) hw
    refine hf.change ⟨rfl, rfl⟩ (hheap.set hflat hset) fun hv => ?_
    exact .inl (hv.ofJumpTo.congr rfl rfl rfl rfl)
  | @pop r es v h hr hc hlast hset =>
    have hes : ∀ e ∈ es, e.isCell = true := fun e => hf.heap.element hc
    have hrest := Value.isStored_array.2 fun e he => hes e (List.dropLast_subset es he)
    refine hf.change ⟨rfl, rfl⟩ (hf.heap.set hrest hset) fun hv => ?_
    rcases hv.ofJumpTo.ofSetRegister with hv | rfl
    · exact .inl (hv.congr rfl rfl rfl rfl)
    · exact .inr (hes _ (List.mem_of_getLast? hlast))
  | free _ _ _ hfree hset =>
    refine hf.change ⟨rfl, rfl⟩ (hf.heap.free hfree) fun hv => ?_
    rcases Root.ofStackSet hset hv.ofJumpTo with hv | rfl
    · exact .inl hv
    · exact .inr rfl
  | clear _ _ _ _ hset =>
    refine hf.change ⟨rfl, rfl⟩ hf.heap fun hv => ?_
    rcases Root.ofStackSet hset hv.ofJumpTo with hv | rfl
    · exact .inl hv
    · exact .inr rfl
  | @native call fn args v w h h' text printed _ _ hfn _ _ hcode hintern =>
    have hcall : h.Flat := by
      have hadds := hf.natives.call hfn t.heap args
      rw [hcode] at hadds
      exact hadds.flat hf.heap
    obtain ⟨hheap, hcell⟩ := Heap.Flat.intern h v hcall
    rw [hintern] at hheap hcell
    refine hf.change ⟨rfl, rfl⟩ hheap fun hv => ?_
    rcases hv.ofJumpTo.ofSetRegister with hv | rfl
    · exact .inl (hv.congr rfl rfl rfl rfl)
    · exact .inr hcell
  | skip | jump _ | trap _ => exact hf.change ⟨rfl, rfl⟩ hf.heap fun hv => .inl hv.ofJumpTo
  | call _ _ hpush =>
    refine hf.change ⟨rfl, rfl⟩ hf.heap fun hv => ?_
    rcases Root.ofCall hpush hv with hv | rfl
    · exact .inl hv
    · exact .inr rfl
  | ret _ hframes => exact hf.change ⟨rfl, rfl⟩ hf.heap fun hv => .inl (hv.ofReturn hframes)
  | finish _ _ => exact hf.change ⟨rfl, rfl⟩ hf.heap fun hv => .inl hv.ofFinish

/-- What a failing instruction leaves behind is flat. -/
theorem Flat.residue (hf : t.Flat) : (t.residue f i).Flat := by
  obtain hadds | ⟨v, hv, he⟩ := residue_cases f i fun _ => hf.natives
  · exact hadds.flat hf.heap
  · rw [he]
    exact (hf.heap.deepCopy (hf.roots hv)).1

/-- Counting a step keeps a thread flat. -/
theorem Flat.counted (hf : t.Flat) : t.counted.Flat :=
  hf.change ⟨rfl, rfl⟩ hf.heap fun hv => .inl (hv.congr rfl rfl rfl rfl)

/-- A step keeps a thread flat. -/
theorem Flat.step (hf : t.Flat) : t.step.2.Flat := by
  have hs := step_stepped t
  generalize t.step.1 = info at hs
  generalize t.step.2 = u at hs ⊢
  cases hs with
  | ended => exact hf
  | noFrame | outside => exact hf.change ⟨rfl, rfl⟩ hf.heap fun hv => .inl hv.ofFail
  | @failed f rest i e _ _ _ hexec =>
    refine hf.change ⟨rfl, rfl⟩ (exec_error hexec ▸ hf.counted.residue) fun hv => ?_
    exact .inl (hv.ofFail.congr rfl rfl rfl rfl)
  | finished _ _ hcode hexec =>
    exact hf.counted.effect (Array.mem_of_getElem? hcode) (exec_effect hexec)
  | @moved f rest i k u _ _ hcode hexec =>
    obtain ⟨state, trapped, he⟩ := settle_fields u k
    have hu := hf.counted.effect (Array.mem_of_getElem? hcode) (exec_effect hexec)
    rw [he]
    exact hu.change ⟨rfl, rfl⟩ hu.heap fun hv => .inl (hv.congr rfl rfl rfl rfl)

/-- **Whatever is done to a flat thread keeps it flat.** -/
theorem Flat.after (hf : t.Flat) (as : List Action) : (t.after as).Flat :=
  after_induction Flat.step (fun hf =>
    hf.change ⟨rfl, rfl⟩ (hf.heap.reclaim _) fun hv => .inl (hv.congr rfl rfl rfl rfl)) hf as

/-! ## The start -/

/-- The literals are moved into the heap, and immediate values that stay fit a slot. -/
theorem flat_internLiterals {h : Heap} (hh : h.Flat) (is : List Instruction) :
    (internLiterals h is).1.Flat ∧
      ∀ i ∈ (internLiterals h is).2.1, ∀ v, i.operand = .immediate v → v.isCell = true := by
  induction is generalizing h with
  | nil => exact ⟨hh, fun i hi => nomatch hi⟩
  | cons i is ih =>
    obtain ⟨hplain, he⟩ | ⟨v, r, _, _, he⟩ := internLiterals_cons h i is
    · rw [he]
      obtain ⟨hheap, hcode⟩ := ih hh
      refine ⟨hheap, List.forall_mem_cons.2 ⟨fun v hv => ?_, hcode⟩⟩
      obtain ⟨hstring, harray⟩ := hplain v hv
      cases v with
      | string s => exact absurd rfl hstring
      | array es => exact absurd rfl harray
      | _ => rfl
    · rw [he]
      obtain ⟨hheap, hcode⟩ := ih (Heap.Flat.intern h v hh).1
      refine ⟨hheap, List.forall_mem_cons.2 ⟨fun w hw => ?_, hcode⟩⟩
      cases hw
      rfl

/-- A thread is flat when it is made. -/
theorem flat_start {id : Bytes} {p : Program} {opts : Options} (ht : start id p opts = .ok t)
    (hn : opts.natives.AddsStrings) : t.Flat := by
  obtain ⟨fn, s, _, hpush, rfl⟩ := start_inv ht
  obtain ⟨hheap, hcode⟩ := flat_internLiterals Heap.flat_empty p.instructions.toList
  obtain ⟨_, rfl⟩ := Stack.push_eq_ok.1 hpush
  refine ⟨hheap, fun {v} hv => ?_, fun {i v} hi => hcode i (by simpa using hi) v, hn⟩
  have hempty : ∀ r, (({} : Registers).get r).isCell = true := by
    intro r
    cases r <;> rfl
  cases hv with
  | literal => rfl
  | register r => exact hempty r
  | saved r hf =>
    rw [List.mem_singleton.1 hf]
    exact hempty r
  | slot hv =>
    have hv : v ∈ (#[] : Array Value) ++ Array.replicate _ .void := hv
    rw [Array.empty_append] at hv
    rw [Array.eq_of_mem_replicate hv]
    rfl
  | result hexit => cases hexit

end Thread

end RegisterMachine
