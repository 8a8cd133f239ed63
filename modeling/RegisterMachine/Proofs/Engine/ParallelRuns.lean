import RegisterMachine.Proofs.Engine.Literals
import RegisterMachine.Proofs.Engine.Lockstep

/-!
# Two runs of one program

Two runs of one program that reclaim their heaps at different times stay the same up to a renaming
of references. A step does the same on both sides (`Thread.Renamed.step`), and a reclaim on one side
only narrows the renaming to what that side can reach (`Thread.Renamed.reclaim`), which is why the
renaming of two threads does not grow from the start to the end of a run. `Thread.Renamed.runFrom`
puts this together for runs with any two reclaim intervals, and `Thread.renamed_start` says that
every program without references and native calls starts so.
-/

namespace RegisterMachine

variable {K K' : Renaming} {P : Ref → Prop}

namespace Thread

variable {t t₁ t₂ u₁ u₂ : Thread} {f f₁ f₂ : Frame} {rest : List Frame} {i : Instruction}
  {v w : Value}

/-! ## Steps -/

/-- What a step makes of the outcome of its instruction. -/
def concluded (t : Thread) (f : Frame) : Outcome → StepInfo × Thread
  | .error e =>
    (⟨.exit, f.pc, -1, t.program.at? f.pc⟩, { t.counted with heap := e.heap }.fail f.pc e.fault)
  | .ok (kind, u) =>
    if u.exit.isSome then (⟨.exit, f.pc, -1, t.program.at? f.pc⟩, u)
    else (⟨kind, f.pc, (u.settle kind).location, t.program.at? f.pc⟩, u.settle kind)

/-- A step of a thread without frames ends it. -/
theorem step_noFrame (hexit : t.exit = none) (hf : t.stack.frames = []) :
    t.step = (ended, t.fail (-1) .noFrame) := by
  rw [step, if_neg (by simp [hexit]), Stack.top?, hf]
  rfl

/-- A step whose counter is outside of the code ends the thread. -/
theorem step_outside (hexit : t.exit = none) (hf : t.stack.frames = f :: rest)
    (hcode : t.code[f.pc]? = none) :
    t.step = (⟨.exit, f.pc, -1, none⟩, t.fail f.pc (.counterOutside f.pc t.code.size)) := by
  rw [step, if_neg (by simp [hexit]), Stack.top?, hf]
  dsimp only [List.head?]
  rw [hcode]

/-- Any other step executes an instruction and concludes from its outcome. -/
theorem step_concluded (hexit : t.exit = none) (hf : t.stack.frames = f :: rest)
    (hcode : t.code[f.pc]? = some i) : t.step = t.concluded f (t.counted.exec f i) := by
  rw [step, if_neg (by simp [hexit]), Stack.top?, hf]
  dsimp only [List.head?]
  rw [hcode]
  rfl

/-- The heap after a step is the one that its instruction leaves behind. -/
theorem heap_concluded (t : Thread) (f : Frame) (x : Outcome) :
    (t.concluded f x).2.heap = Outcome.heap x := by
  cases x with
  | error e => rfl
  | ok p =>
    obtain ⟨k, u⟩ := p
    obtain ⟨state, trapped, he⟩ := settle_fields u k
    dsimp only [concluded]
    split
    · rfl
    · rw [he]
      rfl

namespace Renamed

/-- Counting a step keeps threads the same up to the renaming. -/
theorem counted (hm : Renamed K t₁ t₂) : Renamed K t₁.counted t₂.counted :=
  { hm with
    state := rfl
    trapped := rfl
    steps := congrArg (· + 1) hm.steps }

/-- Settling a step keeps threads the same up to the renaming. -/
theorem settle (hm : Renamed K t₁ t₂) (k : StepKind) : Renamed K (t₁.settle k) (t₂.settle k) := by
  unfold Thread.settle
  split
  · exact { hm with state := rfl, trapped := rfl }
  · exact hm

/-- Threads that are the same up to a renaming have the same trace. -/
theorem trace_eq (hm : Renamed K t₁ t₂) : t₂.trace = t₁.trace := by
  have hframes := hm.stack.frames
  unfold trace
  generalize t₁.stack.frames = fs₁ at hframes
  generalize t₂.stack.frames = fs₂ at hframes
  induction hframes with
  | nil => rfl
  | cons hf _ ih =>
    cases hf
    rw [List.map_cons, List.map_cons, ih]

/-- Threads that fail for the same reason stay the same up to the renaming. -/
theorem fail (hm : Renamed K t₁ t₂) (pc : Int) {fault fault' : Fault}
    (hfault : fault.Alike fault') : Renamed K (t₁.fail pc fault) (t₂.fail pc fault') := by
  have hlocation : (⟨pc, t₂.program.offset pc⟩ : CodeLocation) = ⟨pc, t₁.program.offset pc⟩ := by
    rw [hm.program]
  exact { hm with exit := .some (.panicked hfault hlocation hm.trace_eq), state := rfl }

/-- Of threads that are the same up to a renaming, both have ended or neither. -/
theorem isSome_exit (hm : Renamed K t₁ t₂) : t₂.exit.isSome = t₁.exit.isSome := by
  have hexit := hm.exit
  generalize t₁.exit = e at hexit
  generalize t₂.exit = e' at hexit
  cases hexit <;> rfl

/-- When one of two threads goes on, the other one does. -/
theorem exit_eq_none (hm : Renamed K t₁ t₂) (hexit : t₁.exit = none) : t₂.exit = none := by
  have hsome := hm.isSome_exit
  rw [hexit] at hsome
  simpa using hsome

/-- Threads that are the same up to a renaming are at the same instruction. -/
theorem location_eq (hm : Renamed K t₁ t₂) : t₂.location = t₁.location := by
  have hframes := hm.stack.frames
  have hexit := hm.exit
  unfold location Stack.top?
  generalize t₁.stack.frames = fs₁ at hframes ⊢
  generalize t₂.stack.frames = fs₂ at hframes ⊢
  generalize t₁.exit = e₁ at hexit ⊢
  generalize t₂.exit = e₂ at hexit ⊢
  cases hframes with
  | nil => rfl
  | cons hf _ =>
    cases hexit with
    | some _ => rfl
    | none =>
      cases hf
      rfl

/-- A step concludes the same on both sides. -/
theorem concluded (hm : Renamed K t₁ t₂) (hf : f₁.Renamed K f₂) {x y : Outcome}
    (hxy : Outcome.Renamed K x y) :
    (t₂.concluded f₂ y).1 = (t₁.concluded f₁ x).1 ∧
      Matches K (t₁.concluded f₁ x).2 (t₂.concluded f₂ y).2 := by
  have hpc := hf.pc_eq
  cases hxy with
  | error he =>
    obtain ⟨hfault, K', hK, hheap⟩ := he
    dsimp only [Thread.concluded]
    rw [hpc, hm.program]
    exact ⟨rfl, K', hK, (hm.counted.withHeap hK hheap).fail f₁.pc hfault⟩
  | @ok p p' hp =>
    obtain ⟨k, u₁⟩ := p
    obtain ⟨k', u₂⟩ := p'
    obtain ⟨rfl, K', hK, hu⟩ := hp
    dsimp only [Thread.concluded]
    rw [hpc, hm.program, hu.isSome_exit]
    split
    · exact ⟨rfl, K', hK, hu⟩
    · rw [(hu.settle k').location_eq]
      exact ⟨rfl, K', hK, hu.settle k'⟩

/-- **A step does the same on both sides.** -/
theorem step (hm : Renamed K t₁ t₂) (hs₁ : t₁.heap.Spares t₁.step.2.heap)
    (hs₂ : t₂.heap.Spares t₂.step.2.heap) :
    t₂.step.1 = t₁.step.1 ∧ Matches K t₁.step.2 t₂.step.2 := by
  cases hexit : t₁.exit with
  | some e =>
    have hsome : t₁.exit.isSome = true := by rw [hexit]; rfl
    rw [step_ended hsome, step_ended (hm.isSome_exit.trans hsome)]
    exact ⟨rfl, hm.matched⟩
  | none =>
    have hexit₂ := hm.exit_eq_none hexit
    have hframes := hm.stack.frames
    generalize hfs₁ : t₁.stack.frames = fs₁ at hframes
    generalize hfs₂ : t₂.stack.frames = fs₂ at hframes
    cases hframes with
    | nil =>
      rw [step_noFrame hexit hfs₁, step_noFrame hexit₂ hfs₂]
      exact ⟨rfl, (hm.fail (-1) rfl).matched⟩
    | @cons f₁ f₂ _ _ hf _ =>
      have hcode₂ : t₂.code[f₂.pc]? = t₁.code[f₁.pc]? := by rw [hm.code, hf.pc_eq]
      cases hcode : t₁.code[f₁.pc]? with
      | none =>
        have hfault : Fault.Alike (.counterOutside f₁.pc t₁.code.size)
            (.counterOutside f₁.pc t₂.code.size) := rfl
        rw [step_outside hexit hfs₁ hcode, step_outside hexit₂ hfs₂ (hcode₂.trans hcode), hf.pc_eq]
        exact ⟨rfl, (hm.fail _ hfault).matched⟩
      | some i =>
        rw [step_concluded hexit hfs₁ hcode] at hs₁ ⊢
        rw [step_concluded hexit₂ hfs₂ (hcode₂.trans hcode)] at hs₂ ⊢
        rw [heap_concluded] at hs₁ hs₂
        exact hm.concluded hf (hm.counted.exec hf (Array.mem_of_getElem? hcode) hs₁ hs₂)

end Renamed

end Thread

/-- Runs that came to a halt in the same way, with ends that a relation holds of. -/
inductive RunEnd.Alike (E : Exit → Exit → Prop) : RunEnd → RunEnd → Prop
  | exited {e e' : Exit} : E e e' → Alike E (.exited e) (.exited e')
  | trapped : Alike E .trapped .trapped
  | canceled : Alike E .canceled .canceled

/-- What relates the ends of runs may be weakened. -/
theorem RunEnd.Alike.mono {E E' : Exit → Exit → Prop} {x y : RunEnd} (hxy : RunEnd.Alike E x y)
    (hE : ∀ e e', E e e' → E' e e') : RunEnd.Alike E' x y := by
  cases hxy with
  | exited he => exact .exited (hE _ _ he)
  | trapped => exact .trapped
  | canceled => exact .canceled

/-! ## Reclaiming -/

/-- A renaming of registers may be confined to the references that they mention. -/
theorem Registers.Renamed.confine {rs₁ rs₂ : Registers} (hrs : rs₁.Renamed K rs₂)
    (hP : ∀ r q, (rs₁.get r).Mentions q → P q) : rs₁.Renamed (fun r q => K r q ∧ P r) rs₂ :=
  fun r => (hrs r).confine (hP r)

/-- Registers may be renamed back. -/
theorem Registers.Renamed.swap {rs₁ rs₂ : Registers} (hrs : rs₁.Renamed K rs₂) :
    rs₂.Renamed (fun r q => K q r) rs₁ :=
  fun r => (hrs r).swap

/-- Frames may be renamed back. -/
theorem Frame.Renamed.swap {f₁ f₂ : Frame} (hf : f₁.Renamed K f₂) :
    f₂.Renamed (fun r q => K q r) f₁ := by
  cases hf with
  | mk hsaved =>
    cases f₁
    exact .mk hsaved.swap

/-- Exits may be renamed back. -/
theorem Exit.Renamed.swap {e₁ e₂ : Exit} (he : e₁.Renamed K e₂) :
    e₂.Renamed (fun r q => K q r) e₁ := by
  cases he with
  | graceful hv => exact .graceful hv.swap
  | panicked hreason hlocation htrace => exact .panicked hreason.symm hlocation.symm htrace.symm

namespace Thread

variable {t t₁ t₂ u₁ u₂ : Thread} {f f₁ f₂ : Frame} {i : Instruction} {v w : Value}

namespace Renamed

/-- Threads may be renamed back. -/
theorem swap (hm : Renamed K t₁ t₂) : Renamed (fun r q => K q r) t₂ t₁ := by
  have hexit : Option.Rel (Exit.Renamed fun r q => K q r) t₂.exit t₁.exit := by
    have hexit := hm.exit
    generalize t₁.exit = e₁ at hexit
    generalize t₂.exit = e₂ at hexit
    cases hexit with
    | none => exact .none
    | some he => exact .some he.swap
  exact ⟨hm.program.symm, hm.code.symm, hm.literals.symm, hm.state.symm, hm.trapped.symm,
    hm.steps.symm, hexit, hm.registers.swap,
    ⟨(hm.stack.slots.imp fun _ _ => .swap).flip, (hm.stack.frames.imp fun _ _ => .swap).flip,
      hm.stack.limit.symm⟩,
    hm.heap.swap, fun r hr => hm.literal r (hm.literals ▸ hr), by
      rw [hm.code, hm.literals]; exact hm.immediate,
    by rw [hm.code]; exact hm.noNative⟩

/-- **Reclaiming the heap of one thread** keeps the threads the same up to the renaming of what it
can reach. -/
theorem reclaim (hm : Renamed K t₁ t₂) (hs : t₁.heap.Spares t₁.reclaim.1.heap) :
    Renamed (fun r q => K r q ∧ t₁.heap.Reaches t₁.roots r) t₁.reclaim.1 t₂ := by
  have hroot : ∀ {v}, t₁.Root v → ∀ r, v.Mentions r → t₁.heap.Reaches t₁.roots r :=
    fun hv r hr => .root (mem_roots.2 hv) hr
  have hexit : Option.Rel (Exit.Renamed fun r q => K r q ∧ t₁.heap.Reaches t₁.roots r) t₁.exit
      t₂.exit := by
    have hexit := hm.exit
    generalize he₁ : t₁.exit = e₁ at hexit
    generalize t₂.exit = e₂ at hexit
    cases hexit with
    | none => exact .none
    | some he =>
      cases he with
      | graceful hv => exact .some (.graceful (hv.confine (hroot (.result he₁))))
      | panicked hreason hlocation htrace => exact .some (.panicked hreason hlocation htrace)
  refine
    { hm with
      exit := hexit
      registers := hm.registers.confine fun r => hroot (.register r)
      stack := ⟨?_, ?_, hm.stack.limit⟩
      heap := hm.heap.reclaim t₁.roots hs.ages
      literal := fun r hr => ⟨hm.literal r hr, hroot (.literal hr) r (.self r)⟩ }
  · exact forall₂_imp_of_mem hm.stack.slots fun v hv w hvw =>
      hvw.confine (hroot (.slot (Array.mem_toList_iff.1 hv)))
  · refine forall₂_imp_of_mem hm.stack.frames fun f hf g hfg => ?_
    cases hfg with
    | mk hsaved => exact .mk (hsaved.confine fun r => hroot (.saved r hf))

/-- Reclaiming the heap of the other thread. -/
theorem reclaim_right (hm : Renamed K t₁ t₂) (hs : t₂.heap.Spares t₂.reclaim.1.heap) :
    Renamed (fun r q => K r q ∧ t₂.heap.Reaches t₂.roots q) t₁ t₂.reclaim.1 :=
  (hm.swap.reclaim hs).swap

/-! ## Runs -/

/-- The upkeep of the thread on the left keeps both the same up to some renaming. -/
theorem upkeep (hm : Renamed K t₁ t₂) (opts : RunOptions) (hs : t₁.Spared (t₁.upkeep opts)) :
    ∃ K', Renamed K' (t₁.after (t₁.upkeep opts)) t₂ := by
  unfold Thread.upkeep at hs ⊢
  split
  · next htime =>
    rw [if_pos htime] at hs
    exact ⟨_, hm.reclaim hs.1⟩
  · exact ⟨K, hm⟩

/-- The upkeep of the thread on the right keeps both the same up to some renaming. -/
theorem upkeep_right (hm : Renamed K t₁ t₂) (opts : RunOptions) (hs : t₂.Spared (t₂.upkeep opts)) :
    ∃ K', Renamed K' t₁ (t₂.after (t₂.upkeep opts)) := by
  obtain ⟨K', hm'⟩ := hm.swap.upkeep opts hs
  exact ⟨_, hm'.swap⟩

end Renamed

/-- **Runs with different reclaim intervals** lead from threads that are the same up to renaming to
threads that are. -/
theorem Renamed.runFrom {opts₁ opts₂ : RunOptions} (htrap : opts₂.stopAtTrap = opts₁.stopAtTrap)
    (budget : Nat) (hm : Renamed K t₁ t₂) (hs₁ : t₁.Spared (t₁.schedule opts₁ budget))
    (hs₂ : t₂.Spared (t₂.schedule opts₂ budget)) (profiler₁ profiler₂ : Option Profiler) :
    ∃ K', Renamed K' (t₁.runFrom opts₁ budget profiler₁).thread
        (t₂.runFrom opts₂ budget profiler₂).thread ∧
      (t₂.runFrom opts₂ budget profiler₂).budget = (t₁.runFrom opts₁ budget profiler₁).budget ∧
      RunEnd.Alike (Exit.Renamed K') (t₁.runFrom opts₁ budget profiler₁).halt
        (t₂.runFrom opts₂ budget profiler₂).halt := by
  induction budget generalizing K t₁ t₂ profiler₁ profiler₂ with
  | zero => exact ⟨K, hm, rfl, .canceled⟩
  | succ budget ih =>
    rw [schedule] at hs₁ hs₂
    rw [runFrom_succ, runFrom_succ]
    have hstep₁ : t₁.heap.Spares t₁.step.2.heap := by
      repeat' split at hs₁
      all_goals exact hs₁.1
    have hstep₂ : t₂.heap.Spares t₂.step.2.heap := by
      repeat' split at hs₂
      all_goals exact hs₂.1
    obtain ⟨hinfo, K₁, _, hu⟩ := hm.step hstep₁ hstep₂
    have hexit := hu.exit
    rw [hinfo, hu.isSome_exit, htrap] at hs₂
    rw [hinfo, htrap]
    generalize he₁ : t₁.step.2.exit = e₁ at hexit hs₁ hs₂ ⊢
    generalize he₂ : t₂.step.2.exit = e₂ at hexit ⊢
    cases hexit with
    | some he =>
      rw [Option.isSome_some, if_pos rfl] at hs₁ hs₂
      have hend := (hu.reclaim hs₁.2.1).reclaim_right hs₂.2.1
      refine ⟨_, hend, rfl, .exited ?_⟩
      have hexit := hend.exit
      change Option.Rel _ t₁.step.2.exit t₂.step.2.exit at hexit
      rw [he₁, he₂] at hexit
      cases hexit with
      | some he => exact he
    | none =>
      rw [Option.isSome_none, if_neg Bool.false_ne_true] at hs₁ hs₂
      dsimp only
      by_cases hstop : t₁.step.1.kind = .trap ∧ opts₁.stopAtTrap = true
      · rw [if_pos hstop, if_pos hstop]
        exact ⟨K₁, hu, rfl, .trapped⟩
      · rw [if_neg hstop] at hs₁ hs₂
        rw [if_neg hstop, if_neg hstop]
        obtain ⟨hkeep₁, hrest₁⟩ := spared_append.1 hs₁.2
        obtain ⟨hkeep₂, hrest₂⟩ := spared_append.1 hs₂.2
        obtain ⟨K₂, hu⟩ := hu.upkeep _ hkeep₁
        obtain ⟨K₃, hu⟩ := hu.upkeep_right _ hkeep₂
        exact ih hu hrest₁ hrest₂ _ _

/-! ## The start of a program -/

/-- A thread's code calls native functions only if its program does. -/
theorem noNative_start {id : Bytes} {p : Program} {opts : Options} (ht : start id p opts = .ok t)
    (hnative : ∀ i ∈ p.instructions, i.mnemonic ≠ .callNative) :
    ∀ i ∈ t.code, i.mnemonic ≠ .callNative := by
  have hmnemonics := mnemonic_internLiterals {} p.instructions.toList
  rw [← (start_eq_ok ht).1] at hmnemonics
  intro j hj
  have hmem : j.mnemonic ∈ p.instructions.toList.map (·.mnemonic) := by
    rw [← hmnemonics]
    exact List.mem_map_of_mem (Array.mem_toList_iff.2 hj)
  obtain ⟨i, hi, he⟩ := List.mem_map.1 hmem
  rw [← he]
  exact hnative i (Array.mem_toList_iff.1 hi)

/-- **A program without references and native calls** starts as a thread that is the same as
itself. -/
theorem renamed_start {id : Bytes} {p : Program} {opts : Options} (ht : start id p opts = .ok t)
    (hrefs : ∀ i ∈ p.instructions, ∀ v r, i.operand = .immediate v → ¬ v.Mentions r)
    (hnative : ∀ i ∈ p.instructions, i.mnemonic ≠ .callNative)
    (hsize : t.heap.entries.size < 2 ^ 32) :
    Renamed (fun r q => r = q ∧ t.heap.Resolves r) t t := by
  have hrefs : ∀ i ∈ p.instructions.toList, ∀ v r, i.operand = .immediate v → ¬ v.Mentions r :=
    fun i hi => hrefs i (Array.mem_toList_iff.1 hi)
  obtain ⟨hfields, _, hexit, hroots⟩ := start_eq_ok ht
  have hknown := internLiterals_known p.instructions.toList .empty hrefs
  have hinterned := internLiterals_interned p.instructions.toList .empty hrefs
  rw [← hfields] at hknown hinterned
  obtain ⟨hext, hresolves, _⟩ := hknown hsize
  obtain ⟨hinterned, hcode⟩ := hinterned hsize
  have hself : ∀ {v}, t.bare.Root v → v.Renamed (fun r q => r = q ∧ t.heap.Resolves r) v := by
    intro v hv
    rw [hroots hv]
    exact .same fun r hr => nomatch hr
  have hentry : ∀ {r c}, t.heap.get r = .ok c →
      c.ContentRenamed (fun r q => r = q ∧ t.heap.Resolves r) c := by
    intro r c hr
    have hflat : c.IsFlat := by
      rcases hinterned.entries hr with hempty | hnew
      · cases Heap.get_eq_ok.1 hempty
      · exact hnew.1
    cases hflat with
    | string s => exact contentRenamed_string s
    | array hes =>
      refine .array (List.forall₂_same.2 fun e he => ?_)
      rcases hes e he with ⟨q, rfl⟩ | hnone
      · have hq := hext.sound.knows hr q (.element he (.self q))
        exact .ref ⟨rfl, hq.resolve_right List.not_mem_nil⟩
      · exact .same hnone
  refine ⟨rfl, rfl, rfl, rfl, rfl, rfl, ?_, fun r => hself (.register (t := t.bare) r),
    ⟨?_, ?_, rfl⟩, ?_, fun r hr => ⟨rfl, hresolves r hr⟩,
    fun {j v} hj hop => immediate_coded hrefs hcode (Array.mem_toList_iff.2 hj) hop,
    noNative_start ht hnative⟩
  · rw [hexit]
    exact .none
  · exact List.forall₂_same.2 fun v hv => hself (.slot (t := t.bare) (Array.mem_toList_iff.1 hv))
  · refine List.forall₂_same.2 fun f hf => ?_
    have hsaved : Registers.Renamed _ f.saved f.saved := fun r => hself (.saved (t := t.bare) r hf)
    cases f
    exact .mk hsaved
  · refine ⟨hext.sound.wellFormed, hext.sound.wellFormed, fun hr => hr.2.issued,
      fun hr => hr.1 ▸ hr.2.issued, fun hr hr' => hr.1.symm.trans hr'.1,
      fun hr hr' => hr.1.trans hr'.1.symm, ?_⟩
    rintro r q ⟨rfl, c, hc⟩
    exact .inl ⟨c, c, hc, hc, hentry hc⟩

end Thread

end RegisterMachine
