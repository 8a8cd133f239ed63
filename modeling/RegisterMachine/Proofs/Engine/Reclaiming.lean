import RegisterMachine.Proofs.Engine.StaleReferences

/-!
# Reclaiming is safe

A program without references in its immediate values starts as a sound thread
(`Thread.sound_start`), and a sound thread whose program frees nothing never ends because of a stale
reference (`Thread.Sound.notStale_after`). `Thread.reclaim_safe` puts this together: reclaiming the
heap, however often and wherever between the steps, takes nothing away that the program can still
get at.
-/

namespace RegisterMachine.Thread

variable {t : Thread} {h : Heap}

/-! ## The start of a program -/

/-- Putting the literals into a heap is a change that any monotone relation takes in. -/
theorem internLiterals_monotone {R : Heap → Heap → Prop} (hR : Heap.Monotone R) (h : Heap)
    (is : List Instruction) : R h (internLiterals h is).1 := by
  induction is generalizing h with
  | nil => exact hR.refl h
  | cons i is ih =>
    obtain ⟨_, he⟩ | ⟨v, r, _, _, he⟩ := internLiterals_cons h i is
    · rw [he]
      exact ih h
    · rw [he]
      exact hR.trans (Heap.intern_monotone hR h v) (ih _)

/-- Putting the literals into a heap leaves it no fewer entries. -/
theorem grows_internLiterals (h : Heap) (is : List Instruction) : h.Grows (internLiterals h is).1 :=
  internLiterals_monotone Heap.monotone_grows h is

/-- **Literals are known**, and code without references refers to nothing else afterwards. -/
theorem internLiterals_known (is : List Instruction) (hs : h.Sound [])
    (hrefs : ∀ i ∈ is, ∀ v r, i.operand = .immediate v → ¬ v.Mentions r)
    (hsize : (internLiterals h is).1.entries.size < 2 ^ 32) :
    Heap.Extends [] h (internLiterals h is).1 ∧
      (∀ r ∈ (internLiterals h is).2.2, (internLiterals h is).1.Resolves r) ∧
      ∀ i ∈ (internLiterals h is).2.1, ∀ v r, i.operand = .immediate v → v.Mentions r →
        r ∈ (internLiterals h is).2.2 := by
  induction is generalizing h with
  | nil =>
    refine ⟨.refl hs, fun r hr => ?_, fun i hi => ?_⟩
    · cases hr
    · cases hi
  | cons i is ih =>
    have hrest : ∀ j ∈ is, ∀ v r, j.operand = .immediate v → ¬ v.Mentions r :=
      fun j hj => hrefs j (List.mem_cons_of_mem i hj)
    obtain ⟨_, he⟩ | ⟨v, r, hop, hr, he⟩ := internLiterals_cons h i is
    · rw [he] at hsize ⊢
      obtain ⟨hext, hresolves, hcode⟩ := ih hs hrest hsize
      refine ⟨hext, hresolves, fun j hj v r hop hr => ?_⟩
      rcases List.mem_cons.1 hj with rfl | hj
      · exact absurd hr (hrefs j List.mem_cons_self v r hop)
      · exact hcode j hj v r hop hr
    · rw [he] at hsize ⊢
      have hle := (grows_internLiterals (h.intern v).1 is).size_le
      obtain ⟨hone, hknown⟩ := Heap.Sound.intern h v hs
        (.ofNone fun q => hrefs i List.mem_cons_self v q hop) (Nat.lt_of_le_of_lt hle hsize)
      obtain ⟨hext, hresolves, hcode⟩ := ih hone.sound hrest hsize
      refine ⟨hone.trans hext, fun q hq => ?_, fun j hj w q hop hq => ?_⟩
      · rcases List.mem_cons.1 hq with rfl | hq
        · rw [hr] at hknown
          exact hext.keeps hknown.resolves
        · exact hresolves q hq
      · rcases List.mem_cons.1 hj with rfl | hj
        · cases hop
          cases hq
          exact List.mem_cons_self
        · exact List.mem_cons_of_mem r (hcode j hj w q hop hq)

/-- What a thread starts with: the literals in its heap, and void everywhere else. -/
theorem start_eq_ok {id : Bytes} {p : Program} {opts : Options} (ht : start id p opts = .ok t) :
    (t.heap, t.code.toList, t.literals) = internLiterals {} p.instructions.toList ∧
      t.natives = opts.natives ∧ t.exit = none ∧
      ∀ {v}, t.bare.Root v → v = .void := by
  obtain ⟨fn, s, _, hpush, rfl⟩ := start_inv ht
  obtain ⟨_, rfl⟩ := Stack.push_eq_ok.1 hpush
  refine ⟨rfl, rfl, rfl, fun {v} hv => ?_⟩
  cases hv with
  | literal hr => cases hr
  | register r => cases r <;> rfl
  | saved r hf =>
    rcases List.mem_cons.1 hf with rfl | hf
    · cases r <;> rfl
    · cases hf
  | slot hv =>
    rcases Array.mem_append.1 hv with hv | hv
    · exact absurd hv (Array.not_mem_empty v)
    · exact Array.eq_of_mem_replicate hv
  | result hexit => cases hexit

/-- The arena of a new thread is in order. -/
theorem wellFormed_start {id : Bytes} {p : Program} {opts : Options}
    (ht : start id p opts = .ok t) : t.heap.WellFormed := by
  obtain ⟨fn, s, _, _, rfl⟩ := start_inv ht
  exact internLiterals_monotone Heap.monotone_wellFormed {} _ .empty

/-- **A program without references starts sound.** -/
theorem sound_start_of_honest {id : Bytes} {p : Program} {opts : Options}
    (ht : start id p opts = .ok t)
    (hrefs : ∀ i ∈ p.instructions, ∀ v r, i.operand = .immediate v → ¬ v.Mentions r)
    (hn : opts.natives.Honest) (hsize : t.heap.entries.size < 2 ^ 32) : t.Sound [] := by
  obtain ⟨hfields, hnatives, _, hroots⟩ := start_eq_ok ht
  have hknown := internLiterals_known p.instructions.toList .empty
    fun i hi => hrefs i (Array.mem_toList_iff.1 hi)
  rw [← hfields] at hknown
  obtain ⟨hext, hresolves, hcode⟩ := hknown hsize
  refine ⟨hext.sound, fun {v} hv => ?_, fun {i v r} hi hop hr => ?_, hnatives ▸ hn⟩
  · rcases hv.literal_or_bare with ⟨r, hr, rfl⟩ | hv
    · exact .ofRef (.inl (hresolves r hr))
    · rw [hroots hv]
      exact .ofNone fun r hr => nomatch hr
  · exact hcode i (Array.mem_toList_iff.2 hi) v r hop hr

/-- A thread that was just started is sound, and its program has freed nothing. -/
theorem sound_start {id : Bytes} {p : Program} {opts : Options} (ht : start id p opts = .ok t)
    (hrefs : ∀ i ∈ p.instructions, ∀ v r, i.operand = .immediate v → ¬ v.Mentions r)
    (hn : opts.natives.Standard) (hsize : t.heap.entries.size < 2 ^ 32) : t.Sound [] :=
  sound_start_of_honest ht hrefs hn.honest hsize

/-! ## Runs -/

/-- A step frees nothing if there is no free instruction. -/
theorem frees?_eq_none (hcode : ∀ i ∈ t.code, i.mnemonic ≠ .free) : t.frees? = none := by
  unfold frees?
  split
  · split
    · next hi => exact absurd rfl (hcode _ (Array.mem_of_getElem? hi))
    · rfl
  · rfl

/-- A program without free instructions frees nothing. -/
theorem freedBy_eq_nil (hcode : ∀ i ∈ t.code, i.mnemonic ≠ .free) (as : List Action) :
    t.freedBy as = [] := by
  induction as generalizing t with
  | nil => rfl
  | cons a as ih =>
    have hrest := ih (t := t.act a) ((t.fixed_act a).1 ▸ hcode)
    cases a with
    | step =>
      rw [freedBy, frees?_eq_none hcode]
      exact hrest
    | reclaim => exact hrest

/-- The thread did not end because of a stale reference. -/
def NotStale (t : Thread) : Prop :=
  ∀ p, t.exit = some (.panicked p) → p.reason ≠ .staleReference

/-- A thread that goes on has not ended because of a stale reference. -/
theorem NotStale.ofNone (hexit : t.exit = none) : t.NotStale := by
  intro p hp
  rw [hexit] at hp
  cases hp

/-- A step of a sound thread whose program frees nothing does not end it because of a stale
reference. -/
theorem Sound.notStale_step (hs : t.Sound []) (ht : t.NotStale)
    (hsize : t.step.2.heap.entries.size < 2 ^ 32) : t.step.2.NotStale := by
  have hst := step_stepped t
  generalize t.step.1 = info at hst
  generalize t.step.2 = u at hst hsize ⊢
  cases hst with
  | ended => exact ht
  | noFrame | outside =>
    intro p hp
    cases hp
    exact of_decide_eq_true rfl
  | failed _ _ hcode hexec =>
    intro p hp
    cases hp
    exact (hs.counted.spared_exec (Array.mem_of_getElem? hcode) hexec hsize).reason_ne
  | finished hexit _ _ hexec =>
    intro p hp
    obtain he | ⟨v, he⟩ := (exec_effect hexec).exit_cases
    · rw [hp] at he
      cases he.trans hexit
    · rw [hp] at he
      cases he
  | @moved f rest i k u _ _ _ _ hexit =>
    obtain ⟨state, trapped, he⟩ := settle_fields u k
    rw [he]
    exact .ofNone hexit

/-- **A program that frees nothing never panics because of a stale reference.** -/
theorem Sound.notStale_after (hs : t.Sound []) (ht : t.NotStale)
    (hcode : ∀ i ∈ t.code, i.mnemonic ≠ .free) {as : List Action}
    (hsize : (t.after as).heap.entries.size < 2 ^ 32) : (t.after as).NotStale := by
  induction as generalizing t with
  | nil => exact ht
  | cons a as ih =>
    obtain ⟨hcode', _⟩ := t.fixed_act a
    have hn : t.AddsStrings := fun _ _ _ => hs.natives.addsStrings
    have hact := Nat.lt_of_le_of_lt ((hn.act a).size_le_after as) hsize
    have hsound : (t.act a).Sound [] := by
      have hsound := hs.after [a] hact
      rw [freedBy_eq_nil hcode] at hsound
      exact hsound
    refine ih hsound ?_ (hcode' ▸ hcode) hsize
    cases a with
    | step => exact hs.notStale_step ht hact
    | reclaim => exact ht

/-- **Reclaiming never frees what a program can still use.** After any steps and reclaims, in any
order, every reference that the thread can get at resolves, or was freed by a free instruction of
the program; and a program without free instructions never ends because of a stale reference. -/
theorem reclaim_safe {id : Bytes} {p : Program} {opts : Options} (ht : start id p opts = .ok t)
    (hrefs : ∀ i ∈ p.instructions, ∀ v r, i.operand = .immediate v → ¬ v.Mentions r)
    (hn : opts.natives.Standard) (as : List Action)
    (hsize : (t.after as).heap.entries.size < 2 ^ 32) :
    (∀ r, (t.after as).Held r → (t.after as).heap.Resolves r ∨ r ∈ t.freedBy as) ∧
      ((∀ i ∈ p.instructions, i.mnemonic ≠ .free) →
        ∀ e, (t.after as).exit = some (.panicked e) → e.reason ≠ .staleReference) := by
  obtain ⟨hfields, hnatives, hexit, _⟩ := start_eq_ok ht
  have hs : t.Sound [] :=
    sound_start ht hrefs hn (Nat.lt_of_le_of_lt (size_le_after (hnatives ▸ hn) as) hsize)
  refine ⟨fun r hr => (hs.after as hsize).held hr, fun hfree => ?_⟩
  refine hs.notStale_after (.ofNone hexit) (fun i hi => ?_) hsize
  have hmem : i.mnemonic ∈ p.instructions.toList.map (·.mnemonic) := by
    rw [← mnemonic_internLiterals {} p.instructions.toList, ← hfields]
    exact List.mem_map_of_mem (Array.mem_toList_iff.2 hi)
  obtain ⟨j, hj, he⟩ := List.mem_map.1 hmem
  rw [← he]
  exact hfree j (Array.mem_toList_iff.1 hj)

/-- A main function that drops an array and returns another, with a copy of a literal in it. -/
def keptSample : Program where
  arch := .b64
  mainExists := true
  entry := ⟨0, 9, 1⟩
  instructions :=
    #[⟨.function, .immediate (.int64 1)⟩, ⟨.store .a, .immediate (.int64 9)⟩,
      ⟨.newArray, .implicit⟩, ⟨.newArray, .implicit⟩, ⟨.load .b, .immediate (.string [97, 98])⟩,
      ⟨.push, .indirect .b⟩, ⟨.store .a, .absolute 0⟩, ⟨.load .y, .absolute 0⟩, ⟨.ret, .implicit⟩]
  offsets := #[]
  natives := []

/-- With a reclaim after each of the seven steps of `keptSample`, the string in the array that it
returns is still there. -/
theorem reclaim_safe_keptSample : ∃ t, start [] keptSample { natives := .std } = .ok t ∧
    (t.after (List.replicate 7 [Action.step, .reclaim]).flatten).exit =
      some (.graceful (.heapRef ⟨2, 0⟩)) ∧
    (t.after (List.replicate 7 [Action.step, .reclaim]).flatten).heap.Resolves ⟨1, 1⟩ := by
  have hrefs : ∀ i ∈ keptSample.instructions, ∀ v r, i.operand = .immediate v → ¬ v.Mentions r :=
    Program.not_mentions (by decide)
  have ht : start [] keptSample { natives := .std } = .ok _ := rfl
  refine ⟨_, ht, by decide +kernel, ?_⟩
  obtain ⟨hheld, _⟩ := reclaim_safe ht hrefs (fun _ hfn => hfn)
    (List.replicate 7 [Action.step, .reclaim]).flatten (by decide +kernel)
  refine (hheld ⟨1, 1⟩ (.entry (q := ⟨2, 0⟩) (v := .array [.heapRef ⟨1, 1⟩]) ?_ ?_
    ?_)).resolve_right ?_
  · exact .root (.result (by decide +kernel)) (.self _)
  · exact Heap.get_eq_ok.2 (by decide +kernel)
  · exact .element List.mem_cons_self (.self _)
  · decide +kernel

end RegisterMachine.Thread
