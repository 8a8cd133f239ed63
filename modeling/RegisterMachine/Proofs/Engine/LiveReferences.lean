import RegisterMachine.Proofs.Engine.Atomicity
import RegisterMachine.Proofs.Engine.NativeCalls
import RegisterMachine.Proofs.Memory.Marking

/-!
# References that a thread holds

Whatever a thread can get at (`Thread.Held`) starts from its roots (`Thread.Root`): registers, saved
registers, slots, literals and the value returned at the end. `Thread.Sound` says that every
reference in the roots and in the heap resolves, except for those that the program itself freed, and
that the immediate values of its code refer to nothing but literals. Steps and reclaims keep a
thread sound (`Thread.Sound.after`), where `Thread.freedBy` collects what free instructions freed on
the way.
-/

namespace RegisterMachine

variable {freed : List Ref}

/-- The values of the registers are what the registers hold. -/
theorem Registers.mem_toList {rs : Registers} {v : Value} : v ∈ rs.toList ↔ ∃ r, v = rs.get r := by
  rw [Registers.toList]
  simp only [List.mem_cons, List.not_mem_nil, or_false]
  constructor
  · rintro (rfl | rfl | rfl | rfl | rfl)
    exacts [⟨.a, rfl⟩, ⟨.b, rfl⟩, ⟨.c, rfl⟩, ⟨.x, rfl⟩, ⟨.y, rfl⟩]
  · rintro ⟨r, rfl⟩
    cases r <;> simp [Registers.get]

namespace Thread

variable {t u : Thread} {f : Frame} {i : Instruction} {k : StepKind} {v w : Value}

/-! ## Roots -/

/-- The values that a thread holds outside its heap. -/
inductive Root (t : Thread) : Value → Prop
  | literal {r : Ref} : r ∈ t.literals → Root t (.heapRef r)
  | register (r : Register) : Root t (t.registers.get r)
  | saved {f : Frame} (r : Register) : f ∈ t.stack.frames → Root t (f.saved.get r)
  | slot {v : Value} : v ∈ t.stack.slots → Root t v
  | result {v : Value} : t.exit = some (.graceful v) → Root t v

/-- Reclaiming starts from the roots. -/
theorem mem_roots : v ∈ t.roots ↔ t.Root v := by
  rw [roots]
  simp only [List.mem_append, List.mem_map, List.mem_flatMap, Registers.mem_toList,
    Array.mem_toList_iff]
  constructor
  · rintro ((((⟨r, hr, rfl⟩ | ⟨r, rfl⟩) | ⟨f, hf, r, rfl⟩) | hv) | hv)
    · exact .literal hr
    · exact .register r
    · exact .saved r hf
    · exact .slot hv
    · split at hv
      · next w hexit =>
        rw [List.mem_singleton] at hv
        exact .result (hv ▸ hexit)
      · cases hv
  · intro hv
    cases hv with
    | literal hr => exact .inl (.inl (.inl (.inl ⟨_, hr, rfl⟩)))
    | register r => exact .inl (.inl (.inl (.inr ⟨r, rfl⟩)))
    | saved r hf => exact .inl (.inl (.inr ⟨_, hf, r, rfl⟩))
    | slot hv => exact .inl (.inr hv)
    | result hexit =>
      rw [hexit]
      exact .inr (List.mem_singleton.2 rfl)

/-- The thread without its literals, so that its roots are what the program itself holds: registers,
saved registers, slots and the value returned at the end. -/
def bare (t : Thread) : Thread := { t with literals := [] }

/-- A jump has the same effect without the literals. -/
theorem bare_jumpTo (t : Thread) (pc : Nat) : (t.jumpTo pc).bare = t.bare.jumpTo pc := rfl

/-- Setting a register has the same effect without the literals. -/
theorem bare_setRegister (t : Thread) (r : Register) (v : Value) :
    (t.setRegister r v).bare = t.bare.setRegister r v := rfl

/-- Failing has the same effect without the literals. -/
theorem bare_fail (t : Thread) (pc : Int) (fault : Fault) :
    (t.fail pc fault).bare = t.bare.fail pc fault := rfl

/-- A root is a literal or held by the program itself. -/
theorem Root.literal_or_bare (hv : t.Root v) :
    (∃ r ∈ t.literals, v = .heapRef r) ∨ t.bare.Root v := by
  cases hv with
  | literal hr => exact .inl ⟨_, hr, rfl⟩
  | register r => exact .inr (.register (t := t.bare) r)
  | saved r hf => exact .inr (.saved (t := t.bare) r hf)
  | slot hv => exact .inr (.slot (t := t.bare) hv)
  | result hexit => exact .inr (.result (t := t.bare) hexit)

/-- The references that a thread can get at: those in its roots, and those in the entries that they
lead to. -/
inductive Held (t : Thread) : Ref → Prop
  | root {v : Value} {r : Ref} : t.Root v → v.Mentions r → Held t r
  | entry {q r : Ref} {v : Value} : Held t q → t.heap.get q = .ok v → v.Mentions r → Held t r

/-- The heap and the counts of a thread have no part in its roots. -/
theorem Root.congr (hv : u.Root v) (hliterals : u.literals = t.literals)
    (hregisters : u.registers = t.registers) (hstack : u.stack = t.stack)
    (hexit : u.exit = t.exit) : t.Root v := by
  cases hv with
  | literal hr => exact .literal (hliterals ▸ hr)
  | register r => exact hregisters ▸ .register r
  | saved r hf => exact .saved r (hstack ▸ hf)
  | slot hv => exact .slot (hstack ▸ hv)
  | result he => exact .result (hexit ▸ he)

/-- A jump adds no root. -/
theorem Root.ofJumpTo {pc : Nat} (hv : (t.jumpTo pc).Root v) : t.Root v := by
  cases hv with
  | literal hr => exact .literal hr
  | register r => exact .register r
  | @saved f r hf =>
    change f ∈ (t.stack.jump pc).frames at hf
    unfold Stack.jump at hf
    split at hf
    · exact .saved r hf
    · next g rest hframes =>
      rcases List.mem_cons.1 hf with rfl | hf
      · have hg : g ∈ t.stack.frames := by simp [hframes]
        exact .saved (f := g) r hg
      · exact .saved r (by simp [hframes, hf])
  | slot hv =>
    change v ∈ (t.stack.jump pc).slots at hv
    rw [Stack.slots_jump] at hv
    exact .slot hv
  | result hexit => exact .result hexit

/-- Setting a register adds no root but the value. -/
theorem Root.ofSetRegister {r : Register} (hv : (t.setRegister r w).Root v) : t.Root v ∨ v = w := by
  cases hv with
  | literal hr => exact .inl (.literal hr)
  | register q =>
    change t.Root ((t.registers.set r w).get q) ∨ (t.registers.set r w).get q = w
    by_cases hq : q = r
    · subst hq
      exact .inr (Registers.get_set ..)
    · rw [Registers.get_set_ne _ _ hq]
      exact .inl (.register q)
  | saved q hf => exact .inl (.saved q hf)
  | slot hv => exact .inl (.slot hv)
  | result hexit => exact .inl (.result hexit)

/-- Writing a slot makes the value a root. -/
theorem Root.ofStackSet {n : Int} {h : Heap} {s : Stack} (hs : t.stack.set n w = .ok s)
    (hv : { t with heap := h, stack := s }.Root v) : t.Root v ∨ v = w := by
  obtain ⟨_, rfl⟩ := Stack.set_eq_ok.1 hs
  cases hv with
  | literal hr => exact .inl (.literal hr)
  | register q => exact .inl (.register q)
  | saved q hf => exact .inl (.saved q hf)
  | slot hv =>
    obtain ⟨m, hm⟩ := Array.mem_iff_getElem?.1 hv
    dsimp only at hm
    rw [Array.getElem?_setIfInBounds] at hm
    split at hm
    · split at hm
      · cases hm; exact .inr rfl
      · cases hm
    · exact .inl (.slot (Array.mem_of_getElem? hm))
  | result hexit => exact .inl (.result hexit)

/-! ## Sound threads -/

/-- Every reference in the roots and in the heap resolves, except for those freed, and code refers
to literals only. -/
structure Sound (t : Thread) (freed : List Ref) : Prop where
  heap : t.heap.Sound freed
  roots : ∀ {v}, t.Root v → t.heap.Knows freed v
  code : ∀ {i v r}, i ∈ t.code → i.operand = .immediate v → v.Mentions r → r ∈ t.literals
  natives : t.natives.Honest

/-- All that a sound thread can get at resolves or was freed. -/
theorem Sound.held (hs : t.Sound freed) {r : Ref} (hr : t.Held r) :
    t.heap.Resolves r ∨ r ∈ freed := by
  induction hr with
  | root hv hr => exact hs.roots hv _ hr
  | entry _ hget hr _ => exact hs.heap.knows hget _ hr

/-- A thread stays sound when more references count as freed. -/
theorem Sound.weaken {freed' : List Ref} (hs : t.Sound freed) (hsub : freed ⊆ freed') :
    t.Sound freed' :=
  ⟨hs.heap.weaken hsub, fun hv => (hs.roots hv).weaken hsub, hs.code, hs.natives⟩

/-- A thread stays sound if its heap does and every root is an old one or known. -/
theorem Sound.change {freed' : List Ref} (hs : t.Sound freed)
    (hfixed : u.code = t.code ∧ u.literals = t.literals ∧ u.natives = t.natives)
    (hheap : u.heap.Sound freed') (hknows : ∀ v, t.heap.Knows freed v → u.heap.Knows freed' v)
    (hroots : ∀ {v}, u.Root v → t.Root v ∨ u.heap.Knows freed' v) : u.Sound freed' := by
  obtain ⟨hcode, hliterals, hnatives⟩ := hfixed
  refine ⟨hheap, fun {v} hv => ?_, ?_, ?_⟩
  · rcases hroots hv with hv | hv
    · exact hknows v (hs.roots hv)
    · exact hv
  · rw [hcode, hliterals]
    exact hs.code
  · rw [hnatives]
    exact hs.natives

/-- `Sound.change` when the heap is extended. -/
theorem Sound.extend (hs : t.Sound freed)
    (hfixed : u.code = t.code ∧ u.literals = t.literals ∧ u.natives = t.natives)
    (hheap : Heap.Extends freed t.heap u.heap)
    (hroots : ∀ {v}, u.Root v → t.Root v ∨ u.heap.Knows freed v) : u.Sound freed :=
  hs.change hfixed hheap.sound (fun _ => hheap.knows) hroots

/-- What an instruction can take up is known. -/
theorem Sound.holds (hs : t.Sound freed) (hv : t.Holds v) : t.heap.Knows freed v := by
  induction hv with
  | register r => exact hs.roots (.register r)
  | slot hslot => exact hs.roots (.slot (Array.mem_of_getElem? hslot))
  | element _ hget hmem _ => exact (hs.heap.knows hget).element hmem

/-- **What an instruction comes up with is known** to the heap after it. -/
theorem Sound.yields (hs : t.Sound freed) (hi : i ∈ t.code) {h : Heap} (hy : t.Yields i v h)
    (hsize : h.entries.size < 2 ^ 32) : Heap.Extends freed t.heap h ∧ h.Knows freed v := by
  have hcopy : ∀ {w}, t.heap.Knows freed w → t.heap.deepCopy w = (h, .ok v) →
      Heap.Extends freed t.heap h ∧ h.Knows freed v := by
    intro w hw he
    have hspec := hs.heap.deepCopy hw (by rw [he]; exact hsize)
    rw [he] at hspec
    exact ⟨hspec.1, hspec.2.1 rfl⟩
  cases hy with
  | held hv => exact ⟨.refl hs.heap, hs.holds hv⟩
  | plain hv => exact ⟨.refl hs.heap, .ofNone (v.not_mentions_of_isPlain hv)⟩
  | immediate hop _ =>
    refine ⟨.refl hs.heap, fun r hr => ?_⟩
    exact hs.roots (.literal (hs.code hi hop hr)) r (.self r)
  | literal _ hr he => exact hcopy (hs.roots (.literal hr)) he
  | clone hw he => exact hcopy (hs.holds hw) he
  | newString s =>
    obtain ⟨hext, hr⟩ := hs.heap.alloc (v := .string s) (.ofNone fun r hr => nomatch hr) hsize
    exact ⟨hext, .ofRef (.inl hr)⟩
  | newArray n =>
    have hvoid : t.heap.Knows freed (.array (List.replicate n .void)) := by
      refine .ofElements fun e he => .ofNone fun r hr => ?_
      rw [List.eq_of_mem_replicate he] at hr
      cases hr
    obtain ⟨hext, hr⟩ := hs.heap.alloc hvoid hsize
    exact ⟨hext, .ofRef (.inl hr)⟩

/-- Writing a known value into a known container makes a known container. -/
theorem knows_rewritten {h : Heap} {c c' : Value} (hv : h.Knows freed v) (hc : h.Knows freed c)
    (hw : Value.Rewritten v c c') : h.Knows freed c' := by
  cases hw with
  | element n =>
    refine .ofElements fun e he => ?_
    rcases List.mem_or_eq_of_mem_set he with he | rfl
    · exact hc.element he
    · exact hv
  | added =>
    refine .ofElements fun e he => ?_
    rcases List.mem_append.1 he with he | he
    · exact hc.element he
    · rw [List.mem_singleton.1 he]
      exact hv
  | text => exact .ofNone fun r hr => nomatch hr

/-! ## Steps -/

/-- Calling a function makes no value a root that was none. -/
theorem Root.ofCall {entry : Int} {fn : FunctionHeader} {s : Stack}
    (hs : t.stack.push (t.callee f entry fn) = .ok s) (hv : { t with stack := s }.Root v) :
    t.Root v ∨ v = .void := by
  obtain ⟨_, rfl⟩ := Stack.push_eq_ok.1 hs
  cases hv with
  | literal hr => exact .inl (.literal hr)
  | register r => exact .inl (.register r)
  | saved r hf =>
    rcases List.mem_cons.1 hf with rfl | hf
    · exact .inl (.register r)
    · exact .inl (.saved r hf)
  | slot hv =>
    rcases Array.mem_append.1 hv with hv | hv
    · exact .inl (.slot hv)
    · exact .inr (Array.eq_of_mem_replicate hv)
  | result hexit => exact .inl (.result hexit)

/-- What stands in the first slots stands in the slots. -/
theorem mem_of_mem_take {slots : Array Value} {n : Nat} (hv : v ∈ slots.take n) : v ∈ slots := by
  obtain ⟨m, _, rfl⟩ := Array.mem_extract_iff_getElem.1 hv
  exact Array.getElem_mem _

/-- Returning makes no value a root that was none. -/
theorem Root.ofReturn {done caller : Frame} {rest : List Frame} {n pc : Nat}
    (hf : t.stack.frames = done :: caller :: rest)
    (hv : Root
      { t with
        registers := done.saved.set .y t.registers.y
        stack :=
          { slots := t.stack.slots.take n
            frames := { caller with pc } :: rest
            limit := t.stack.limit } } v) : t.Root v := by
  cases hv with
  | literal hr => exact .literal hr
  | register r =>
    dsimp only
    by_cases hr : r = .y
    · subst hr
      rw [Registers.get_set]
      exact .register .y
    · rw [Registers.get_set_ne _ _ hr]
      exact .saved r (by simp [hf])
  | saved r hmem =>
    rcases List.mem_cons.1 hmem with rfl | hmem
    · exact .saved (f := caller) r (by simp [hf])
    · exact .saved r (by simp [hf, hmem])
  | slot hv => exact .slot (mem_of_mem_take hv)
  | result hexit => exact .result hexit

/-- The end of the first function makes no value a root that was none. -/
theorem Root.ofFinish {n : Nat}
    (hv : Root
      { t with
        stack := { slots := t.stack.slots.take n, frames := [], limit := t.stack.limit }
        exit := some (.graceful t.registers.y)
        state := .exited } v) : t.Root v := by
  cases hv with
  | literal hr => exact .literal hr
  | register r => exact .register r
  | saved r hf => cases hf
  | slot hv => exact .slot (mem_of_mem_take hv)
  | result hexit =>
    cases hexit
    exact .register .y

/-- The instruction frees the entry behind a reference, which stands in the slot that it names. -/
def Frees (t : Thread) (f : Frame) (i : Instruction) (r : Ref) : Prop :=
  ∃ a, i = ⟨.free, .absolute a⟩ ∧ t.getLocal f a.toNat = .ok (.heapRef r) ∧ t.heap.Resolves r

/-- **What a successful instruction does to a sound thread**: it stays sound, apart from a reference
that the instruction frees. -/
theorem Sound.effect (hs : t.Sound freed) (hi : i ∈ t.code) (he : t.Effect f i k u)
    (hsize : u.heap.entries.size < 2 ^ 32) :
    u.Sound freed ∨ ∃ r, t.Frees f i r ∧ u.Sound (freed ++ [r]) := by
  have hvoid : ∀ {h : Heap} {freed : List Ref}, h.Knows freed .void :=
    .ofNone fun r hr => nomatch hr
  cases he with
  | assign hy =>
    obtain ⟨hext, hknows⟩ := hs.yields hi hy hsize
    refine .inl (hs.extend ⟨rfl, rfl, rfl⟩ hext fun hv => ?_)
    rcases hv.ofJumpTo.ofSetRegister with hv | rfl
    · exact .inl (hv.congr rfl rfl rfl rfl)
    · exact .inr hknows
  | store hy _ hset =>
    obtain ⟨hext, hknows⟩ := hs.yields hi hy hsize
    refine .inl (hs.extend ⟨rfl, rfl, rfl⟩ hext fun hv => ?_)
    rcases Root.ofStackSet hset hv.ofJumpTo with hv | rfl
    · exact .inl hv
    · exact .inr hknows
  | update hy hr hc hw hset =>
    obtain ⟨hext, hknows⟩ :=
      hs.yields hi hy (Nat.lt_of_le_of_lt (Heap.grows_set hset).size_le hsize)
    have hset := hext.sound.set (knows_rewritten hknows (hext.sound.knows hc) hw) hset
    refine .inl (hs.extend ⟨rfl, rfl, rfl⟩ (hext.trans hset) fun hv => ?_)
    exact .inl (hv.ofJumpTo.congr rfl rfl rfl rfl)
  | @pop r es v h hr hc hlast hset =>
    have hes := hs.heap.knows hc
    have hset := hs.heap.set (.ofElements fun e he => hes.element (List.dropLast_subset es he)) hset
    refine .inl (hs.extend ⟨rfl, rfl, rfl⟩ hset fun hv => ?_)
    rcases hv.ofJumpTo.ofSetRegister with hv | rfl
    · exact .inl (hv.congr rfl rfl rfl rfl)
    · exact .inr (hset.knows (hes.element (List.mem_of_getLast? hlast)))
  | @free a slot r h s hi hslot hget hfree hset =>
    obtain ⟨hsound, hknows⟩ := hs.heap.free hfree
    refine .inr ⟨r, ⟨a, hi, ?_, (Heap.free_eq_ok.1 hfree).1⟩, ?_⟩
    · exact Except.bind_eq_ok.2 ⟨slot, hslot, hget⟩
    · refine hs.change ⟨rfl, rfl, rfl⟩ hsound hknows fun hv => ?_
      rcases Root.ofStackSet hset hv.ofJumpTo with hv | rfl
      · exact .inl hv
      · exact .inr hvoid
  | clear _ _ _ _ hset =>
    refine .inl (hs.extend ⟨rfl, rfl, rfl⟩ (.refl hs.heap) fun hv => ?_)
    rcases Root.ofStackSet hset hv.ofJumpTo with hv | rfl
    · exact .inl hv
    · exact .inr hvoid
  | @native call fn args v w h h' text printed _ _ hfn hargs _ hcode hintern =>
    have hgrows := Heap.grows_intern h v
    rw [hintern] at hgrows
    have hcall := hs.natives.call hfn hcode hs.heap (fun a ha => hs.holds (hargs a ha))
      (Nat.lt_of_le_of_lt hgrows.size_le hsize)
    have hmoved := Heap.Sound.intern h v hcall.1.sound hcall.2 (by rw [hintern]; exact hsize)
    rw [hintern] at hmoved
    refine .inl (hs.extend ⟨rfl, rfl, rfl⟩ (hcall.1.trans hmoved.1) fun hv => ?_)
    rcases hv.ofJumpTo.ofSetRegister with hv | rfl
    · exact .inl (hv.congr rfl rfl rfl rfl)
    · exact .inr hmoved.2
  | skip | jump _ | trap _ =>
    exact .inl (hs.extend ⟨rfl, rfl, rfl⟩ (.refl hs.heap) fun hv => .inl hv.ofJumpTo)
  | call _ _ hpush =>
    refine .inl (hs.extend ⟨rfl, rfl, rfl⟩ (.refl hs.heap) fun hv => ?_)
    rcases Root.ofCall hpush hv with hv | rfl
    · exact .inl hv
    · exact .inr hvoid
  | ret _ hf =>
    exact .inl (hs.extend ⟨rfl, rfl, rfl⟩ (.refl hs.heap) fun hv => .inl (hv.ofReturn hf))
  | finish _ _ => exact .inl (hs.extend ⟨rfl, rfl, rfl⟩ (.refl hs.heap) fun hv => .inl hv.ofFinish)

/-- Reading an operand leaves the heap as it is or copies a literal. -/
theorem loadHeap_cases (t : Thread) (op : Operand) :
    t.loadHeap op = t.heap ∨ ∃ v, t.Root v ∧ t.loadHeap op = (t.heap.deepCopy v).1 := by
  cases op with
  | immediate v =>
    change (t.immediate v).1 = t.heap ∨ ∃ w, t.Root w ∧ (t.immediate v).1 = (t.heap.deepCopy w).1
    unfold immediate
    split
    · next r =>
      split
      · next hmem => exact .inr ⟨_, .literal (List.contains_iff_mem.1 hmem), rfl⟩
      · exact .inl rfl
    · exact .inl rfl
  | _ => exact .inl rfl

/-- What a native function that fails leaves behind has new strings at most. -/
theorem addsStrings_nativeResidue (hn : t.natives.AddsStrings) (f : Frame) (a : UInt64) :
    t.heap.AddsStrings (t.nativeResidue f a) := by
  unfold nativeResidue
  split
  · exact .nothing
  · split
    · exact .nothing
    · next fn hfn =>
      split
      · exact .nothing
      · next args hargs =>
        have hadds := hn.call hfn t.heap args
        split
        · next hcode => rw [hcode] at hadds; exact hadds
        · next hcode => rw [hcode] at hadds; exact hadds
        · exact .nothing

/-- A failing instruction leaves the heap as it was, with new strings at most, or has copied a
root. -/
theorem residue_cases (f : Frame) (i : Instruction)
    (hn : i.mnemonic = .callNative → t.natives.AddsStrings) :
    t.heap.AddsStrings (t.residue f i) ∨
      ∃ v, t.Root v ∧ t.residue f i = (t.heap.deepCopy v).1 := by
  have hload : ∀ op, t.heap.AddsStrings (t.loadHeap op) ∨
      ∃ v, t.Root v ∧ t.loadHeap op = (t.heap.deepCopy v).1 := by
    intro op
    rcases t.loadHeap_cases op with he | hcopy
    · rw [he]
      exact .inl .nothing
    · exact .inr hcopy
  unfold residue
  split
  · exact hload _
  · exact hload _
  · split
    · exact .inl .nothing
    · exact hload _
  · split
    · exact .inl .nothing
    · exact hload _
  · split
    · exact .inl .nothing
    · next v hv =>
      obtain ⟨slot, _, hget⟩ := Except.bind_eq_ok.1 hv
      exact .inr ⟨v, .slot (Array.mem_of_getElem? (Stack.get_eq_ok.1 hget).2), rfl⟩
  · next hi _ => exact .inl (addsStrings_nativeResidue (hn hi) f _)
  · exact .inl .nothing

/-- What a failing instruction leaves behind extends the heap. -/
theorem Sound.residue (hs : t.Sound freed) (hsize : (t.residue f i).entries.size < 2 ^ 32) :
    Heap.Extends freed t.heap (t.residue f i) := by
  obtain hadds | ⟨v, hv, he⟩ := residue_cases f i fun _ => hs.natives.addsStrings
  · exact hadds.extends hs.heap hsize
  · rw [he] at hsize ⊢
    exact (hs.heap.deepCopy (hs.roots hv) hsize).1

/-! ## What a step does to the arena -/

/-- The native functions that the code can call do nothing to the heap but store new strings in
it. -/
def AddsStrings (t : Thread) : Prop :=
  ∀ i ∈ t.code, i.mnemonic = .callNative → t.natives.AddsStrings

/-- Whatever a thread does, its native functions do no more than add strings. -/
theorem AddsStrings.act (hn : t.AddsStrings) (a : Action) : (t.act a).AddsStrings := by
  obtain ⟨hcode, _, hnatives, _⟩ := t.fixed_act a
  intro i hi
  rw [hnatives]
  exact hn i (hcode ▸ hi)

section

variable {R : Heap → Heap → Prop}

/-- Yielding a value changes the heap by steps that any monotone relation takes in. -/
theorem Yields.monotone (hR : Heap.Monotone R) {h : Heap} (hy : t.Yields i v h) : R t.heap h := by
  have hcopy : ∀ {w}, t.heap.deepCopy w = (h, .ok v) → R t.heap h := by
    intro w he
    have hcopy := Heap.deepCopy_monotone hR t.heap w
    rw [he] at hcopy
    exact hcopy
  cases hy with
  | held | plain | immediate => exact hR.refl _
  | literal _ _ he => exact hcopy he
  | clone _ he => exact hcopy he
  | newString s => exact hR.alloc _ _
  | newArray n => exact hR.alloc _ _

/-- An instruction takes and writes entries, or it frees one. -/
theorem Effect.monotone (hR : Heap.Monotone R) (he : t.Effect f i k u)
    (hn : i.mnemonic = .callNative → t.natives.AddsStrings) :
    R t.heap u.heap ∨ ∃ r, t.heap.free r = .ok u.heap := by
  cases he with
  | assign hy => exact .inl (hy.monotone hR)
  | store hy => exact .inl (hy.monotone hR)
  | update hy _ _ _ hset => exact .inl (hR.trans (hy.monotone hR) (hR.set hset))
  | pop _ _ _ hset => exact .inl (hR.set hset)
  | free _ _ _ hfree => exact .inr ⟨_, hfree⟩
  | @native call fn args v w h h' text printed hm _ hfn _ _ hcode hintern =>
    have hmoved := Heap.intern_monotone hR h v
    rw [hintern] at hmoved
    refine .inl (hR.trans ?_ hmoved)
    have hadds := (hn hm).call hfn t.heap args
    rw [hcode] at hadds
    exact hadds.monotone hR
  | clear | skip | jump | trap | call | ret | finish => exact .inl (hR.refl _)

/-- **A step takes and writes entries, or it frees one**, also when it fails. -/
theorem heap_step (hR : Heap.Monotone R) (hn : t.AddsStrings) :
    R t.heap t.step.2.heap ∨ ∃ r, t.heap.free r = .ok t.step.2.heap := by
  have hs := step_stepped t
  generalize t.step.1 = info at hs
  generalize t.step.2 = u at hs ⊢
  cases hs with
  | ended | noFrame | outside => exact .inl (hR.refl _)
  | @failed f rest i e _ _ hcode hexec =>
    refine .inl ?_
    show R t.heap e.heap
    rw [exec_error hexec]
    obtain hadds | ⟨v, _, he⟩ :=
      residue_cases (t := t.counted) f i (hn i (Array.mem_of_getElem? hcode))
    · exact hadds.monotone hR
    · rw [he]
      exact Heap.deepCopy_monotone hR t.heap v
  | finished _ _ hcode hexec =>
    exact Effect.monotone (t := t.counted) hR (exec_effect hexec)
      (hn _ (Array.mem_of_getElem? hcode))
  | @moved f rest i k u _ _ hcode hexec =>
    obtain ⟨state, trapped, he⟩ := settle_fields u k
    rw [he]
    have hu := (exec_effect hexec).monotone hR (hn i (Array.mem_of_getElem? hcode))
    exact hu

end

/-- An action leaves no fewer entries, live or dead. -/
theorem AddsStrings.size_le_act (hn : t.AddsStrings) (a : Action) :
    t.heap.entries.size ≤ (t.act a).heap.entries.size := by
  cases a with
  | reclaim => exact Nat.le_of_eq (Heap.size_reclaim t.heap t.roots).symm
  | step =>
    rcases heap_step Heap.monotone_grows hn with hgrows | ⟨r, hfree⟩
    · exact hgrows.size_le
    · obtain ⟨_, he⟩ := Heap.free_eq_ok.1 hfree
      show t.heap.entries.size ≤ t.step.2.heap.entries.size
      rw [he]
      simp

/-- The arena never shrinks. -/
theorem AddsStrings.size_le_after (hn : t.AddsStrings) (as : List Action) :
    t.heap.entries.size ≤ (t.after as).heap.entries.size := by
  induction as generalizing t with
  | nil => exact Nat.le_refl _
  | cons a as ih => exact Nat.le_trans (hn.size_le_act a) (ih (hn.act a))

/-- **The free list stays in order** whatever is done, however full the arena gets. -/
theorem AddsStrings.wellFormed_after (hn : t.AddsStrings) (hw : t.heap.WellFormed)
    (as : List Action) : (t.after as).heap.WellFormed := by
  induction as generalizing t with
  | nil => exact hw
  | cons a as ih =>
    refine ih (hn.act a) ?_
    cases a with
    | reclaim => exact hw.reclaim t.roots
    | step =>
      rcases heap_step Heap.monotone_wellFormed hn with hkeep | ⟨r, hfree⟩
      · exact hkeep hw
      · exact hw.free hfree

/-- The heap never gets fewer entries. -/
theorem size_le_after (hn : t.natives.Standard) (as : List Action) :
    t.heap.entries.size ≤ (t.after as).heap.entries.size :=
  AddsStrings.size_le_after (fun _ _ _ => hn.honest.addsStrings) as

/-- The heap stays well formed, whatever the thread does. -/
theorem wellFormed_after (hn : t.natives.Standard) (hw : t.heap.WellFormed) (as : List Action) :
    (t.after as).heap.WellFormed :=
  AddsStrings.wellFormed_after (fun _ _ _ => hn.honest.addsStrings) hw as

/-! ## Runs -/

/-- The reference that the next step frees: the one in the slot of a free instruction, if it
resolves. -/
def frees? (t : Thread) : Option Ref :=
  match t.exit, t.stack.frames with
  | none, f :: _ =>
    match t.code[f.pc]? with
    | some ⟨.free, .absolute a⟩ =>
      match t.getLocal f a.toNat with
      | .ok (.heapRef r) =>
        match t.heap.get r with
        | .ok _ => some r
        | .error _ => none
      | _ => none
    | _ => none
  | _, _ => none

/-- The references that free instructions free in the course of some actions. -/
def freedBy (t : Thread) : List Action → List Ref
  | [] => []
  | .step :: as => t.frees?.toList ++ t.step.2.freedBy as
  | .reclaim :: as => t.reclaim.1.freedBy as

/-- A free instruction whose slot holds a reference frees it. -/
theorem frees?_eq_some {rest : List Frame} {r : Ref} (hexit : t.exit = none)
    (hf : t.stack.frames = f :: rest) (hcode : t.code[f.pc]? = some i) (hr : t.Frees f i r) :
    t.frees? = some r := by
  obtain ⟨a, rfl, hlocal, v, hget⟩ := hr
  rw [frees?, hexit, hf]
  dsimp only
  rw [hcode]
  dsimp only
  rw [hlocal]
  dsimp only
  rw [hget]

/-- Executing a free instruction, when each of its parts succeeds. -/
theorem exec_free {a : UInt64} {slot : Nat} {r : Ref} {heap : Heap} {s : Stack}
    (hslot : f.slot a.toNat = .ok slot) (hget : t.stack.get slot = .ok (.heapRef r))
    (hfree : t.heap.free r = .ok heap) (hset : t.stack.set slot .void = .ok s) :
    t.exec f ⟨.free, .absolute a⟩ = .ok (.next, { t with heap, stack := s }.jumpTo (f.pc + 1)) := by
  change t.execFree f a.toNat = _
  simp only [execFree, hslot, hget, hfree, hset, bind, Except.bind, Except.mapError, pure,
    Except.pure, proceed]

/-- What a step is said to free resolves before the step, and no longer after it. -/
theorem not_resolves_of_frees? {r : Ref} (h : t.frees? = some r) :
    t.heap.Resolves r ∧ ¬ t.step.2.heap.Resolves r := by
  unfold frees? at h
  split at h
  · next f rest hexit hf =>
    split at h
    · next a hcode =>
      split at h
      · next q hlocal =>
        split at h
        · next v hget =>
          cases h
          obtain ⟨slot, hslot, hstack⟩ := Except.bind_eq_ok.1 hlocal
          obtain ⟨hn, hvalue⟩ := Stack.get_eq_ok.1 hstack
          obtain ⟨hlt, _⟩ := Array.getElem?_eq_some_iff.1 hvalue
          obtain ⟨heap, hfree⟩ : ∃ heap, t.heap.free r = .ok heap :=
            ⟨_, Heap.free_eq_ok.2 ⟨⟨v, hget⟩, rfl⟩⟩
          obtain ⟨s, hs⟩ : ∃ s, t.stack.set slot .void = .ok s :=
            ⟨_, Stack.set_eq_ok.2 ⟨⟨hn, hlt⟩, rfl⟩⟩
          have hstep : t.step.2.heap = heap := by
            rw [step_of_exec hexit hf hcode (exec_free hslot hstack hfree hs) hexit]
            rfl
          refine ⟨⟨v, hget⟩, fun ⟨w, hw⟩ => ?_⟩
          rw [hstep, Heap.get_free hfree] at hw
          exact hw.1 rfl
        · cases h
      · cases h
    · cases h
  · cases h

/-- The end of a thread by a panic makes no value a root. -/
theorem Root.ofFail {pc : Int} {fault : Fault} (hv : (t.fail pc fault).Root v) : t.Root v := by
  cases hv with
  | literal hr => exact .literal hr
  | register r => exact .register r
  | saved r hf => exact .saved r hf
  | slot hv => exact .slot hv
  | result hexit => cases hexit

/-- Counting a step keeps a thread sound. -/
theorem Sound.counted (hs : t.Sound freed) : t.counted.Sound freed :=
  hs.extend ⟨rfl, rfl, rfl⟩ (.refl hs.heap) fun hv => .inl (hv.congr rfl rfl rfl rfl)

/-- **A step keeps a thread sound**, apart from what it frees. -/
theorem Sound.step (hs : t.Sound freed) (hsize : t.step.2.heap.entries.size < 2 ^ 32) :
    t.step.2.Sound (freed ++ t.frees?.toList) := by
  have hsub : freed ⊆ freed ++ t.frees?.toList := List.subset_append_left ..
  have heffect : ∀ {f rest i k u}, t.exit = none → t.stack.frames = f :: rest →
      t.code[f.pc]? = some i → t.counted.exec f i = .ok (k, u) → u.heap.entries.size < 2 ^ 32 →
      u.Sound (freed ++ t.frees?.toList) := by
    intro f rest i k u hexit hf hcode hexec hsize
    obtain hu | ⟨r, hr, hu⟩ :=
      hs.counted.effect (Array.mem_of_getElem? hcode) (exec_effect hexec) hsize
    · exact hu.weaken hsub
    · rw [frees?_eq_some hexit hf hcode hr]
      exact hu
  have hst := step_stepped t
  generalize t.step.1 = info at hst
  generalize t.step.2 = u at hst hsize ⊢
  cases hst with
  | ended => exact hs.weaken hsub
  | noFrame | outside =>
    exact Sound.weaken (hs.extend ⟨rfl, rfl, rfl⟩ (.refl hs.heap) fun hv => .inl hv.ofFail) hsub
  | @failed f rest i e _ _ _ hexec =>
    have hheap := exec_error hexec
    have hext : Heap.Extends freed t.heap e.heap := hheap ▸ hs.counted.residue (hheap ▸ hsize)
    refine Sound.weaken (hs.extend ⟨rfl, rfl, rfl⟩ hext fun hv => ?_) hsub
    exact .inl (hv.ofFail.congr rfl rfl rfl rfl)
  | finished hexit hf hcode hexec => exact heffect hexit hf hcode hexec hsize
  | @moved f rest i k u hexit hf hcode hexec =>
    obtain ⟨state, trapped, he⟩ := settle_fields u k
    rw [he] at hsize ⊢
    have hu := heffect hexit hf hcode hexec hsize
    exact hu.extend ⟨rfl, rfl, rfl⟩ (.refl hu.heap) fun hv => .inl (hv.congr rfl rfl rfl rfl)

/-- **Reclaiming keeps a thread sound.** -/
theorem Sound.reclaim (hs : t.Sound freed) : t.reclaim.1.Sound freed := by
  obtain ⟨hheap, hroots⟩ := hs.heap.reclaim fun v hv => hs.roots (mem_roots.1 hv)
  refine ⟨hheap, fun {v} hv => ?_, hs.code, hs.natives⟩
  exact hroots v (mem_roots.2 (hv.congr rfl rfl rfl rfl))

/-- **Steps and reclaims in any order keep a thread sound**, apart from what its program frees. -/
theorem Sound.after (hs : t.Sound freed) (as : List Action)
    (hsize : (t.after as).heap.entries.size < 2 ^ 32) :
    (t.after as).Sound (freed ++ t.freedBy as) := by
  induction as generalizing t freed with
  | nil =>
    rw [freedBy, List.append_nil]
    exact hs
  | cons a as ih =>
    have hn : t.AddsStrings := fun _ _ _ => hs.natives.addsStrings
    have hact := Nat.lt_of_le_of_lt ((hn.act a).size_le_after as) hsize
    cases a with
    | step =>
      rw [freedBy, ← List.append_assoc]
      exact ih (hs.step hact) hsize
    | reclaim => exact ih hs.reclaim hsize

end Thread

end RegisterMachine
