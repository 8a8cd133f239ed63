import RegisterMachine.Proofs.Engine.Exhaustion
import RegisterMachine.Proofs.Engine.Reclaiming
import RegisterMachine.Proofs.Memory.Interning

/-!
# Literals stay as they are

The heap that a thread starts with holds nothing but literals. `Thread.Apart` says that a thread
keeps such a store apart: its entries are unchanged, and neither what the program itself holds
(`Thread.bare`) nor any other entry refers to one of them. Steps and reclaims keep it so
(`Thread.Apart.after`), because instructions write and free only what the program holds, and
literals are copied when they are loaded. `Thread.literals_untouched` puts this together with the
shape of copies: loading a literal always succeeds, with a new copy of what stands in the program.
All of this holds as long as entries have indices of their own, and not beyond
(`Thread.literals_lost_crowdedSample`).
-/

namespace RegisterMachine

/-- New strings leave a store alone and refer to nothing. -/
theorem Heap.AddsStrings.apart {store h h' : Heap} (hadds : h.AddsStrings h') (ha : store.Apart h)
    (hsize : h'.entries.size < 2 ^ 32) : store.Apart h' := by
  induction hadds with
  | nothing => exact ha
  | @string h' s _ ih =>
    have hle := (Heap.grows_alloc h' (.string s)).size_le
    exact ((ih (Nat.lt_of_le_of_lt hle hsize)).alloc (v := .string s)
      (.ofNone fun r hr => nomatch hr) hsize).1

namespace Thread

variable {store h : Heap} {t u : Thread} {f : Frame} {i : Instruction} {k : StepKind} {v w : Value}

/-- The thread keeps the store apart, its literals lead to all of the store, and no immediate value
of its code refers to anything, unless it is a literal. -/
structure Apart (store : Heap) (t : Thread) : Prop where
  heap : store.Apart t.heap
  roots : ∀ {v}, t.bare.Root v → v.Avoids store
  flat : ∀ {r v}, store.get r = .ok v → v.IsFlat
  reaches : ∀ r, store.Resolves r → store.Reaches (t.literals.map .heapRef) r
  code : ∀ {i v}, i ∈ t.code → i.operand = .immediate v →
    (∃ r ∈ t.literals, v = .heapRef r) ∨ ∀ r, ¬ v.Mentions r
  natives : t.natives.Standard

/-- The store stays apart if the heap keeps it so and every root is an old one or avoids it. -/
theorem Apart.change (ha : t.Apart store)
    (hfixed : u.code = t.code ∧ u.literals = t.literals ∧ u.natives = t.natives)
    (hheap : store.Apart u.heap) (hroots : ∀ {v}, u.bare.Root v → t.bare.Root v ∨ v.Avoids store) :
    u.Apart store := by
  obtain ⟨hcode, hliterals, hnatives⟩ := hfixed
  refine ⟨hheap, fun hv => (hroots hv).elim ha.roots fun hv => hv, ha.flat, ?_, ?_, ?_⟩
  · rw [hliterals]
    exact ha.reaches
  · rw [hcode, hliterals]
    exact ha.code
  · rw [hnatives]
    exact ha.natives

/-! ## What instructions come up with -/

/-- What an instruction can take up avoids the store. -/
theorem Apart.holds (ha : t.Apart store) (hv : t.Holds v) : v.Avoids store := by
  induction hv with
  | register r => exact ha.roots (.register (t := t.bare) r)
  | slot hslot => exact ha.roots (.slot (t := t.bare) (Array.mem_of_getElem? hslot))
  | element _ hget hmem ih => exact (ha.heap.avoids hget ih.ref).element hmem

/-- Copies of roots avoid the store, those of literals too. -/
theorem Apart.leaves (ha : t.Apart store) (hv : t.Root v) : v.Leaves store := by
  rcases hv.literal_or_bare with ⟨r, _, rfl⟩ | hv
  · exact .inl ⟨r, rfl⟩
  · exact .inr (ha.roots hv)

/-- **What an instruction comes up with avoids the store**, and so do the entries it takes for
it. -/
theorem Apart.yields (ha : t.Apart store) (hi : i ∈ t.code) (hy : t.Yields i v h)
    (hsize : h.entries.size < 2 ^ 32) : store.Apart h ∧ v.Avoids store := by
  have hcopy : ∀ {w}, w.Leaves store → t.heap.deepCopy w = (h, .ok v) →
      store.Apart h ∧ v.Avoids store := by
    intro w hw he
    have hspec := ha.heap.deepCopy ha.flat hw (by rw [he]; exact hsize)
    rw [he] at hspec
    exact ⟨hspec.1, hspec.2 rfl⟩
  have halloc : ∀ {c : Value}, c.Avoids store → (t.heap.alloc c).1.entries.size < 2 ^ 32 →
      store.Apart (t.heap.alloc c).1 ∧ (Value.heapRef (t.heap.alloc c).2).Avoids store := by
    intro c hc hsize
    obtain ⟨hapart, hr⟩ := ha.heap.alloc hc hsize
    exact ⟨hapart, .ofRef hr⟩
  cases hy with
  | held hv => exact ⟨ha.heap, ha.holds hv⟩
  | plain hv => exact ⟨ha.heap, .ofNone (v.not_mentions_of_isPlain hv)⟩
  | immediate hop hne =>
    rcases ha.code hi hop with ⟨r, hr, rfl⟩ | hnone
    · exact absurd rfl (hne r hr)
    · exact ⟨ha.heap, .ofNone hnone⟩
  | literal _ hr he => exact hcopy (.inl ⟨_, rfl⟩) he
  | clone hw he => exact hcopy (.inr (ha.holds hw)) he
  | newString s => exact halloc (.ofNone fun r hr => nomatch hr) hsize
  | newArray n =>
    refine halloc (.ofElements fun e he => .ofNone fun r hr => ?_) hsize
    rw [List.eq_of_mem_replicate he] at hr
    cases hr

/-- Writing into a container outside the store keeps it clear of the store. -/
theorem avoids_rewritten {c c' : Value} (hv : v.Avoids store) (hc : c.Avoids store)
    (hw : Value.Rewritten v c c') : c'.Avoids store := by
  cases hw with
  | element n =>
    refine .ofElements fun e he => ?_
    rcases List.mem_or_eq_of_mem_set he with he | rfl
    · exact hc.element he
    · exact hv
  | added =>
    refine .ofElements fun e he => ?_
    rcases List.mem_append.1 he with he | he
    · exact hc.element he
    · exact List.mem_singleton.1 he ▸ hv
  | text => exact .ofNone fun r hr => nomatch hr

/-! ## Steps and reclaims -/

/-- **A successful instruction keeps the store apart.** -/
theorem Apart.effect (ha : t.Apart store) (hi : i ∈ t.code) (he : t.Effect f i k u)
    (hsize : u.heap.entries.size < 2 ^ 32) : u.Apart store := by
  have hvoid : Value.void.Avoids store := .ofNone fun r hr => nomatch hr
  cases he with
  | @assign r v h hy =>
    obtain ⟨hapart, havoids⟩ := ha.yields hi hy hsize
    refine ha.change ⟨rfl, rfl, rfl⟩ hapart fun hv => ?_
    rw [bare_jumpTo, bare_setRegister] at hv
    rcases hv.ofJumpTo.ofSetRegister with hv | rfl
    · exact .inl (hv.congr rfl rfl rfl rfl)
    · exact .inr havoids
  | @store slot v h s hy _ hset =>
    obtain ⟨hapart, havoids⟩ := ha.yields hi hy hsize
    refine ha.change ⟨rfl, rfl, rfl⟩ hapart fun hv => ?_
    rw [bare_jumpTo] at hv
    rcases Root.ofStackSet (t := t.bare) hset hv.ofJumpTo with hv | rfl
    · exact .inl hv
    · exact .inr havoids
  | @update r v c c' h h' hy hr hc hw hset =>
    obtain ⟨hapart, havoids⟩ :=
      ha.yields hi hy (Nat.lt_of_le_of_lt (Heap.grows_set hset).size_le hsize)
    have hr := (ha.holds hr).ref
    refine ha.change ⟨rfl, rfl, rfl⟩
      (hapart.set hr (avoids_rewritten havoids (hapart.avoids hc hr) hw) hset) fun hv => ?_
    rw [bare_jumpTo] at hv
    exact .inl (hv.ofJumpTo.congr rfl rfl rfl rfl)
  | @pop r es v h hr hc hlast hset =>
    have hr := (ha.holds hr).ref
    have hes := ha.heap.avoids hc hr
    refine ha.change ⟨rfl, rfl, rfl⟩
      (ha.heap.set hr (.ofElements fun e he => hes.element (List.dropLast_subset es he)) hset)
      fun hv => ?_
    rw [bare_jumpTo, bare_setRegister] at hv
    rcases hv.ofJumpTo.ofSetRegister with hv | rfl
    · exact .inl (hv.congr rfl rfl rfl rfl)
    · exact .inr (hes.element (List.mem_of_getLast? hlast))
  | @free a slot r h s _ hslot hget hfree hset =>
    have hr : (Value.heapRef r).Avoids store :=
      ha.roots (.slot (t := t.bare) (Array.mem_of_getElem? (Stack.get_eq_ok.1 hget).2))
    refine ha.change ⟨rfl, rfl, rfl⟩ (ha.heap.free hr.ref hfree) fun hv => ?_
    rw [bare_jumpTo] at hv
    rcases Root.ofStackSet (t := t.bare) hset hv.ofJumpTo with hv | rfl
    · exact .inl hv
    · exact .inr hvoid
  | @clear a slot v s _ _ _ _ hset =>
    refine ha.change ⟨rfl, rfl, rfl⟩ ha.heap fun hv => ?_
    rw [bare_jumpTo] at hv
    rcases Root.ofStackSet (t := t.bare) hset hv.ofJumpTo with hv | rfl
    · exact .inl hv
    · exact .inr hvoid
  | @native call fn args v w h h' text printed _ _ hfn _ _ hcode hintern =>
    have hgrows := Heap.grows_intern h v
    rw [hintern] at hgrows
    have hcall : store.Apart h ∧ v.Avoids store := by
      have htame := ha.natives.tame hfn t.heap args
      rw [hcode] at htame
      cases htame with
      | plain hv => exact ⟨ha.heap, .ofNone (v.not_mentions_of_isPlain hv)⟩
      | newString s => exact ha.yields hi (.newString s) (Nat.lt_of_le_of_lt hgrows.size_le hsize)
    have hmoved := Heap.Apart.intern h v hcall.1 hcall.2 (by rw [hintern]; exact hsize)
    rw [hintern] at hmoved
    refine ha.change ⟨rfl, rfl, rfl⟩ hmoved.1 fun hv => ?_
    rw [bare_jumpTo, bare_setRegister] at hv
    rcases hv.ofJumpTo.ofSetRegister with hv | rfl
    · exact .inl (hv.congr rfl rfl rfl rfl)
    · exact .inr hmoved.2
  | skip | jump _ | trap _ =>
    exact ha.change ⟨rfl, rfl, rfl⟩ ha.heap fun hv => .inl (Root.ofJumpTo (t := t.bare) hv)
  | call _ _ hpush =>
    refine ha.change ⟨rfl, rfl, rfl⟩ ha.heap fun hv => ?_
    rcases Root.ofCall (t := t.bare) hpush hv with hv | rfl
    · exact .inl hv
    · exact .inr hvoid
  | ret _ hf =>
    exact ha.change ⟨rfl, rfl, rfl⟩ ha.heap fun hv => .inl (Root.ofReturn (t := t.bare) hf hv)
  | finish _ _ =>
    exact ha.change ⟨rfl, rfl, rfl⟩ ha.heap fun hv => .inl (Root.ofFinish (t := t.bare) hv)

/-- What a failing instruction leaves behind keeps the store apart. -/
theorem Apart.residue (ha : t.Apart store) (hsize : (t.residue f i).entries.size < 2 ^ 32) :
    store.Apart (t.residue f i) := by
  obtain hadds | ⟨v, hv, he⟩ := residue_cases f i fun _ => ha.natives.honest.addsStrings
  · exact hadds.apart ha.heap hsize
  · rw [he] at hsize ⊢
    exact (ha.heap.deepCopy ha.flat (ha.leaves hv) hsize).1

/-- **A step keeps the store apart.** -/
theorem Apart.step (ha : t.Apart store) (hsize : t.step.2.heap.entries.size < 2 ^ 32) :
    t.step.2.Apart store := by
  have hcounted : t.counted.Apart store :=
    ha.change ⟨rfl, rfl, rfl⟩ ha.heap fun hv => .inl (hv.congr rfl rfl rfl rfl)
  have hst := step_stepped t
  generalize t.step.1 = info at hst
  generalize t.step.2 = u at hst hsize ⊢
  cases hst with
  | ended => exact ha
  | noFrame | outside =>
    exact ha.change ⟨rfl, rfl, rfl⟩ ha.heap fun hv => .inl (Root.ofFail (t := t.bare) hv)
  | @failed f rest i e _ _ _ hexec =>
    have hheap := exec_error hexec
    refine ha.change ⟨rfl, rfl, rfl⟩ (hheap ▸ hcounted.residue (hheap ▸ hsize)) fun hv => ?_
    rw [bare_fail] at hv
    exact .inl (hv.ofFail.congr rfl rfl rfl rfl)
  | finished _ _ hcode hexec =>
    exact hcounted.effect (Array.mem_of_getElem? hcode) (exec_effect hexec) hsize
  | @moved f rest i k u _ _ hcode hexec =>
    obtain ⟨state, trapped, he⟩ := settle_fields u k
    rw [he] at hsize ⊢
    have hu := hcounted.effect (Array.mem_of_getElem? hcode) (exec_effect hexec) hsize
    exact hu.change ⟨rfl, rfl, rfl⟩ hu.heap fun hv => .inl (hv.congr rfl rfl rfl rfl)

/-- **Reclaiming keeps the store apart**, since the literals lead to all of it. -/
theorem Apart.reclaim (ha : t.Apart store) : t.reclaim.1.Apart store := by
  refine ha.change ⟨rfl, rfl, rfl⟩ (ha.heap.reclaim fun r hr => ?_)
    fun hv => .inl (hv.congr rfl rfl rfl rfl)
  refine (ha.reaches r hr).lift (fun hq => hq) fun v hv q hq => .root ?_ hq
  obtain ⟨r, hr, rfl⟩ := List.mem_map.1 hv
  exact mem_roots.2 (.literal hr)

/-- **Steps and reclaims in any order keep the store apart.** -/
theorem Apart.after (ha : t.Apart store) (as : List Action)
    (hsize : (t.after as).heap.entries.size < 2 ^ 32) : (t.after as).Apart store := by
  induction as generalizing t with
  | nil => exact ha
  | cons a as ih =>
    have hact := Nat.lt_of_le_of_lt (size_le_after ((t.fixed_act a).2.2.1 ▸ ha.natives) as) hsize
    cases a with
    | step => exact ih (ha.step hact) hsize
    | reclaim => exact ih ha.reclaim hsize

/-! ## The start of a program -/

/-- How an instruction of a program gets into the code of a thread: as it is, or with a reference
that stands for its string or array. -/
inductive Coded (h : Heap) (refs : List Ref) (i : Instruction) : Instruction → Prop
  | kept : (∀ v, i.operand = .immediate v → v.kind ≠ .string ∧ v.kind ≠ .array) → Coded h refs i i
  | literal {v : Value} {r : Ref} : i.operand = .immediate v → r ∈ refs →
      h.Shows (fun _ => True) v (.heapRef r) →
      Coded h refs i { i with operand := .immediate (.heapRef r) }

/-- Instructions stay coded when entries are kept and literals are added. -/
theorem Coded.mono {h' : Heap} {refs refs' : List Ref} {j : Instruction}
    (hkeeps : ∀ {r v}, h.get r = .ok v → h'.get r = .ok v) (hsub : refs ⊆ refs')
    (hj : Coded h refs i j) : Coded h' refs' i j := by
  cases hj with
  | kept hne => exact .kept hne
  | literal hop hr hshows => exact .literal hop (hsub hr) (hshows.mono hkeeps fun _ _ => trivial)

/-- **The literals of a program in the heap**: they take flat entries, all within reach of their
references, and each instruction gets the reference that stands for its literal. -/
theorem internLiterals_interned (is : List Instruction) (hw : h.WellFormed)
    (hrefs : ∀ i ∈ is, ∀ v r, i.operand = .immediate v → ¬ v.Mentions r)
    (hsize : (internLiterals h is).1.entries.size < 2 ^ 32) :
    h.Interned ((internLiterals h is).2.2.map .heapRef) (internLiterals h is).1 ∧
      List.Forall₂ (Coded (internLiterals h is).1 (internLiterals h is).2.2) is
        (internLiterals h is).2.1 := by
  induction is generalizing h with
  | nil => exact ⟨.refl hw fun _ hmem => (nomatch hmem), .nil⟩
  | cons i is ih =>
    have hrest : ∀ j ∈ is, ∀ v r, j.operand = .immediate v → ¬ v.Mentions r :=
      fun j hj => hrefs j (List.mem_cons_of_mem i hj)
    obtain ⟨hne, he⟩ | ⟨v, r, hop, hr, he⟩ := internLiterals_cons h i is
    · rw [he] at hsize ⊢
      obtain ⟨hinterned, hcode⟩ := ih hw hrest hsize
      exact ⟨hinterned, .cons (.kept hne) hcode⟩
    · rw [he] at hsize ⊢
      have hnone := fun q => hrefs i List.mem_cons_self v q hop
      have hlt := Nat.lt_of_le_of_lt (grows_internLiterals (h.intern v).1 is).size_le hsize
      have hone := Heap.interned_intern h v hw hnone hlt
      have hshows := Heap.shows_intern h v hw hnone hlt
      rw [hr] at hone hshows
      obtain ⟨hinterned, hcode⟩ := ih hone.apart.wellFormed hrest hsize
      refine ⟨hone.trans hinterned, .cons (.literal hop List.mem_cons_self ?_) ?_⟩
      · exact hshows.mono (fun hq => hinterned.apart.keeps hq) fun _ _ => trivial
      · exact hcode.imp fun _ _ => .mono (fun hq => hq) (List.subset_cons_self ..)

/-- Code refers to nothing but literals if the program refers to nothing. -/
theorem immediate_coded {refs : List Ref} {is js : List Instruction} {j : Instruction}
    (hrefs : ∀ i ∈ is, ∀ v r, i.operand = .immediate v → ¬ v.Mentions r)
    (hcode : List.Forall₂ (Coded h refs) is js) (hj : j ∈ js) (hop : j.operand = .immediate v) :
    (∃ r ∈ refs, v = .heapRef r) ∨ ∀ r, ¬ v.Mentions r := by
  induction hcode with
  | nil => cases hj
  | @cons i _ is js hone _ ih =>
    rcases List.mem_cons.1 hj with rfl | hj
    · cases hone with
      | kept _ => exact .inr fun r => hrefs j List.mem_cons_self v r hop
      | literal _ hr _ =>
        cases hop
        exact .inl ⟨_, hr, rfl⟩
    · exact ih (fun i hi => hrefs i (List.mem_cons_of_mem _ hi)) hj

/-- **A program without references starts with its literals apart.** -/
theorem apart_start {id : Bytes} {p : Program} {opts : Options} (ht : start id p opts = .ok t)
    (hrefs : ∀ i ∈ p.instructions, ∀ v r, i.operand = .immediate v → ¬ v.Mentions r)
    (hn : opts.natives.Standard) (hsize : t.heap.entries.size < 2 ^ 32) :
    t.Apart t.heap ∧
      List.Forall₂ (Coded t.heap t.literals) p.instructions.toList t.code.toList := by
  have hrefs : ∀ i ∈ p.instructions.toList, ∀ v r, i.operand = .immediate v → ¬ v.Mentions r :=
    fun i hi => hrefs i (Array.mem_toList_iff.1 hi)
  obtain ⟨hfields, hnatives, _, hroots⟩ := start_eq_ok ht
  have hinterned := internLiterals_interned p.instructions.toList .empty hrefs
  rw [← hfields] at hinterned
  obtain ⟨hinterned, hcode⟩ := hinterned hsize
  have hnew : ∀ {r c}, t.heap.get r = .ok c → c.IsFlat ∧
      t.heap.Reaches (t.literals.map .heapRef) r := by
    intro r c hr
    rcases hinterned.entries hr with hempty | hnew
    · cases Heap.get_eq_ok.1 hempty
    · exact hnew
  refine ⟨⟨.refl hinterned.apart.wellFormed, fun {v} hv => ?_, fun hr => (hnew hr).1,
    fun r ⟨_, hr⟩ => (hnew hr).2, fun {j v} hj hop => ?_, hnatives ▸ hn⟩, hcode⟩
  · rw [hroots hv]
    exact .ofNone fun r hr => nomatch hr
  · exact immediate_coded hrefs hcode (Array.mem_toList_iff.2 hj) hop

/-! ## Runs -/

/-- Neither code nor literals change, whatever the thread does. -/
theorem fixed_after (t : Thread) (as : List Action) :
    (t.after as).code = t.code ∧ (t.after as).literals = t.literals := by
  obtain ⟨hcode, hliterals, _⟩ := t.unchanged_after as
  exact ⟨hcode, hliterals⟩

/-- **Loading a literal always succeeds** with a new copy, as long as the thread keeps the store in
which the literal stands apart and the store refers to itself only. -/
theorem Apart.immediate {l : Value} {r : Ref} (ha : t.Apart store) (hsound : store.Sound [])
    (hr : r ∈ t.literals) (hl : ∀ q, ¬ l.Mentions q)
    (hshows : store.Shows (fun _ => True) l (.heapRef r)) (hres : store.Resolves r)
    (hsize : (t.immediate (.heapRef r)).1.entries.size < 2 ^ 32) :
    ∃ w, (t.immediate (.heapRef r)).2 = .ok w ∧
      (t.immediate (.heapRef r)).1.Shows (fun q => ¬ t.heap.Resolves q) l w := by
  have himmediate : t.immediate (.heapRef r) = t.heap.deepCopy (.heapRef r) :=
    if_pos (List.contains_iff_mem.2 hr)
  rw [himmediate] at hsize ⊢
  have hregion : t.heap.Region store.Resolves := by
    rintro q ⟨c, hc⟩
    exact ⟨c, ha.heap.keeps hc,
      fun q' hq' => (hsound.knows hc q' hq').resolve_right List.not_mem_nil⟩
  have hmentions : ∀ q, (Value.heapRef r).Mentions q → store.Resolves q := by
    intro q hq
    cases hq
    exact hres
  obtain ⟨w, copied, hok, hw, _, hcopied⟩ := hregion.deepCopy ha.heap.wellFormed hmentions hsize
  have hshows : t.heap.Shows (fun _ => True) l (.heapRef r) :=
    hshows.mono (fun hq => ha.heap.keeps hq) fun _ _ => trivial
  exact ⟨w, hok, hshows.copied hcopied l _ w hl hw⟩

/-- **Literals cannot be changed or freed.** After any steps and reclaims, every entry that the
thread started with is still there with its value; nothing that the program holds, and no other
entry, refers to one of them; and an instruction with a string or array as its immediate value gets
a new copy of it whenever it is executed. -/
theorem literals_untouched {id : Bytes} {p : Program} {opts : Options}
    (ht : start id p opts = .ok t)
    (hrefs : ∀ i ∈ p.instructions, ∀ v r, i.operand = .immediate v → ¬ v.Mentions r)
    (hn : opts.natives.Standard) (as : List Action)
    (hsize : (t.after as).heap.entries.size < 2 ^ 32) :
    (∀ r v, t.heap.get r = .ok v → (t.after as).heap.get r = .ok v) ∧
      (∀ v, (t.after as).bare.Root v → v.Avoids t.heap) ∧
      (∀ r v, (t.after as).heap.get r = .ok v → ¬ t.heap.Resolves r → v.Avoids t.heap) ∧
      ∀ (n : Nat) (i : Instruction) (l : Value), p.instructions[n]? = some i →
        i.operand = .immediate l → l.kind = .string ∨ l.kind = .array →
        ∃ r, (t.after as).code[n]? = some { i with operand := .immediate (.heapRef r) } ∧
          (((t.after as).immediate (.heapRef r)).1.entries.size < 2 ^ 32 →
            ∃ w, ((t.after as).immediate (.heapRef r)).2 = .ok w ∧
              ((t.after as).immediate (.heapRef r)).1.Shows
                (fun q => ¬ (t.after as).heap.Resolves q) l w) := by
  obtain ⟨_, hnatives, _⟩ := start_eq_ok ht
  have hstart := Nat.lt_of_le_of_lt (size_le_after (hnatives ▸ hn) as) hsize
  have hsound := sound_start ht hrefs hn hstart
  obtain ⟨happart, hcoded⟩ := apart_start ht hrefs hn hstart
  have hafter := happart.after as hsize
  refine ⟨fun _ _ hr => hafter.heap.keeps hr, fun _ hv => hafter.roots hv,
    fun _ _ hr hno => hafter.heap.avoids hr hno, fun n i l hi hop hkind => ?_⟩
  obtain ⟨hcode, hliterals⟩ := t.fixed_after as
  have hrel := forall₂_getElem? hcoded n
  rw [Array.getElem?_toList, Array.getElem?_toList, hi, ← hcode] at hrel
  generalize hj : (t.after as).code[n]? = j at hrel ⊢
  cases hrel with
  | some hone =>
    cases hone with
    | kept hne => exact absurd hkind (not_or.2 (hne l hop))
    | @literal l' r hop' hr hshows =>
      rw [hop] at hop'
      cases hop'
      have hres := (hsound.roots (.literal hr) r (.self r)).resolve_right List.not_mem_nil
      exact ⟨r, rfl, hafter.immediate hsound.heap (hliterals ▸ hr)
        (fun q => hrefs i (Array.mem_of_getElem? hi) l q hop) hshows hres⟩

/-- A main function that loads an array literal with a string in it, appends another literal to it,
frees it and loads the literal again. -/
def literalSample : Program where
  arch := .b64
  mainExists := true
  entry := ⟨0, 8, 1⟩
  instructions :=
    #[⟨.function, .immediate (.int64 1)⟩, ⟨.store .a, .immediate (.int64 8)⟩,
      ⟨.load .a, .immediate (.array [.int64 7, .string [97, 98]])⟩, ⟨.store .a, .absolute 0⟩,
      ⟨.push, .immediate (.string [99])⟩, ⟨.free, .absolute 0⟩, ⟨.jump, .absolute 2⟩,
      ⟨.ret, .implicit⟩]
  offsets := #[]
  natives := []

/-- After five rounds of the loop of `literalSample`, with a reclaim after each step, its array
literal still stands in the program's own entries, and the next load gets a new array with a new
string. -/
theorem literals_untouched_literalSample :
    ∃ t r w, start [] literalSample { natives := .std } = .ok t ∧
    (t.after (List.replicate 25 [Action.step, .reclaim]).flatten).code[2]? =
      some ⟨.load .a, .immediate (.heapRef r)⟩ ∧
    ((t.after (List.replicate 25 [Action.step, .reclaim]).flatten).immediate (.heapRef r)).2 =
      .ok w ∧
    Heap.Shows
      ((t.after (List.replicate 25 [Action.step, .reclaim]).flatten).immediate (.heapRef r)).1
      (fun q => ¬ (t.after (List.replicate 25 [Action.step, .reclaim]).flatten).heap.Resolves q)
      (.array [.int64 7, .string [97, 98]]) w := by
  have hrefs : ∀ i ∈ literalSample.instructions, ∀ v r,
      i.operand = .immediate v → ¬ v.Mentions r :=
    Program.not_mentions (by decide)
  have ht : start [] literalSample { natives := .std } = .ok _ := rfl
  obtain ⟨_, _, _, hload⟩ := literals_untouched ht hrefs (fun _ hfn => hfn)
    (List.replicate 25 [Action.step, .reclaim]).flatten (by decide +kernel)
  obtain ⟨r, hcode, himmediate⟩ := hload 2
    ⟨.load .a, .immediate (.array [.int64 7, .string [97, 98]])⟩ _ rfl rfl (.inr rfl)
  obtain rfl : r = ⟨1, 0⟩ := by
    rw [(fixed_after _ _).1] at hcode
    cases hcode
    rfl
  obtain ⟨w, hok, hshows⟩ := himmediate (by decide +kernel)
  exact ⟨_, ⟨1, 0⟩, w, ht, hcode, hok, hshows⟩

/-- A main function that loads the same nested array over and over. -/
def crowdedSample : Program where
  arch := .b64
  mainExists := true
  entry := ⟨0, 5, 1⟩
  instructions :=
    #[⟨.function, .immediate (.int64 1)⟩, ⟨.store .a, .immediate (.int64 5)⟩,
      ⟨.load .a, .immediate (.array [.array []])⟩, ⟨.jump, .absolute 2⟩, ⟨.ret, .implicit⟩]
  offsets := #[]
  natives := []

/-- **Literals are lost when all indices have been given out.** The load that follows in
`crowdedSample` puts a reference to an entry of the literal into A, and both of its entries have
changed. -/
theorem literals_lost_crowdedSample : ∃ t u, start [] crowdedSample { natives := .std } = .ok t ∧
    (∀ i ∈ crowdedSample.instructions, ∀ v r, i.operand = .immediate v → ¬ v.Mentions r) ∧
    t.after (List.replicate (2 ^ 32 - 1) .step) = u ∧ u.registers.a = .heapRef ⟨0, 0⟩ ∧
    t.heap.get ⟨0, 0⟩ = .ok (.array []) ∧ u.heap.get ⟨0, 0⟩ = .ok (.array [.heapRef ⟨1, 0⟩]) ∧
    t.heap.get ⟨1, 0⟩ = .ok (.array [.heapRef ⟨0, 0⟩]) ∧ u.heap.get ⟨1, 0⟩ = .ok (.array []) := by
  have hrefs : ∀ i ∈ crowdedSample.instructions, ∀ v r, i.operand = .immediate v →
      ¬ v.Mentions r :=
    Program.not_mentions (by decide)
  obtain ⟨t, ht⟩ : ∃ t, start [] crowdedSample { natives := .std } = .ok t := ⟨_, rfl⟩
  have hloop :
      t.CopyLoop { hash := 1, entry := 0, stop := 5, base := 0, window := 5, pc := 2 } 0 2 := by
    cases ht
    exact ⟨⟨_, ⟨rfl, rfl, rfl, 2, rfl, rfl⟩, .literal (by decide)⟩, ⟨rfl, rfl, rfl, rfl⟩⟩
  obtain ⟨s, hs, hfull⟩ := hloop.full
  obtain ⟨h, hcopy, hinner, houter⟩ := Heap.Paired.deepCopy_full_ok hfull.heap
  have hsteps : t.after (List.replicate (2 ^ 32 - 1) .step) = s.step.2 := by
    have hcount : 2 ^ 32 - 1 = 2 * (2 ^ 31 - 1) + 1 := by decide
    rw [hcount, ← hs]
    exact t.ahead_succ _
  refine ⟨t, s.step.2, ht, hrefs, hsteps, ?_, hloop.heap.inner, ?_, hloop.heap.outer, ?_⟩
  all_goals rw [hfull.copied hcopy]
  · rfl
  · exact hinner
  · exact houter

end Thread

end RegisterMachine
