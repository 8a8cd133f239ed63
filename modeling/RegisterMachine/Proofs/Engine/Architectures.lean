import RegisterMachine.Proofs.Assembly.Source
import RegisterMachine.Proofs.Codec.Rereading
import RegisterMachine.Proofs.Engine.ParallelRuns

/-!
# One source on several architectures

The architecture decides how many bytes an address takes, and so where the instructions of a program
stand in its file; the engine looks at that only to report the place of a panic. `Thread.placed` is
a thread with another name that runs its program as it is laid out for another architecture.
Whatever is done to it is done to the thread, and is then laid out: this holds of every instruction
(`Thread.exec_placed`), of a step (`Thread.step_placed`), of a reclaim and of the start. Since the
programs that are assembled from one source differ in their layout only, and are what is read from
their files, the threads that run them go in lockstep: `Thread.assembled_lockstep`.
-/

namespace RegisterMachine

/-- The program as it is laid out for an architecture, with other offsets. -/
def Program.placed (p : Program) (arch : Arch) (offsets : Array Nat) : Program :=
  { p with arch, offsets }

/-- The exit with the byte offset that the instruction of a panic has in a program. -/
def Exit.placed (p : Program) : Exit → Exit
  | graceful v => graceful v
  | panicked e => panicked { e with location := ⟨e.location.pc, p.offset e.location.pc⟩ }

namespace Thread

/-- The thread of another name that runs its program as it is laid out for an architecture. -/
def placed (t : Thread) (id : Bytes) (arch : Arch) (offsets : Array Nat) : Thread :=
  { t with
    id
    program := t.program.placed arch offsets
    exit := t.exit.map (Exit.placed (t.program.placed arch offsets)) }

/-- What an instruction comes to in such a thread. -/
def Outcome.placed (x : Outcome) (id : Bytes) (arch : Arch) (offsets : Array Nat) : Outcome :=
  x.map fun kt => (kt.1, kt.2.placed id arch offsets)

variable {id : Bytes} {arch : Arch} {offsets : Array Nat}

@[simp] theorem placed_code (t : Thread) : (t.placed id arch offsets).code = t.code := rfl
@[simp] theorem placed_literals (t : Thread) : (t.placed id arch offsets).literals = t.literals :=
  rfl
@[simp] theorem placed_natives (t : Thread) : (t.placed id arch offsets).natives = t.natives := rfl
@[simp] theorem placed_registers (t : Thread) :
    (t.placed id arch offsets).registers = t.registers := rfl
@[simp] theorem placed_stack (t : Thread) : (t.placed id arch offsets).stack = t.stack := rfl
@[simp] theorem placed_heap (t : Thread) : (t.placed id arch offsets).heap = t.heap := rfl

@[simp] theorem placed_native? (t : Thread) (site : Nat) :
    (t.placed id arch offsets).program.native? site = t.program.native? site := rfl

@[simp] theorem placed_at? (t : Thread) (pc : Nat) :
    (t.placed id arch offsets).program.at? pc = t.program.at? pc := rfl

@[simp] theorem placed_isSome_exit (t : Thread) :
    (t.placed id arch offsets).exit.isSome = t.exit.isSome := Option.isSome_map

/-! ## Instructions -/

section
variable (t : Thread) (f : Frame)

/-- Going on behind an instruction does not depend on how a thread is placed. -/
theorem proceed_placed (result : Except Fault Thread) :
    (t.placed id arch offsets).proceed f (result.map (·.placed id arch offsets)) =
      (t.proceed f result).placed id arch offsets := by
  cases result <;> rfl

/-- Setting a register does not depend on how a thread is placed. -/
theorem assign_placed (r : Register) (result : Except Fault Value) :
    (t.placed id arch offsets).assign f r result =
      (t.assign f r result).placed id arch offsets := by
  cases result <;> rfl

/-- Loading an operand does not depend on how a thread is placed. -/
theorem load_placed (op : Operand) : (t.placed id arch offsets).load f op = t.load f op := by
  cases op <;> rfl

/-- Storing an operand does not depend on how a thread is placed. -/
theorem store_placed (op : Operand) (heap : Heap) (v : Value) :
    (t.placed id arch offsets).store f op heap v =
      (t.store f op heap v).map (·.placed id arch offsets) := by
  cases op with
  | implicit | immediate | absolute | index | property =>
    rw [store, store, Except.map_mapError]
    simp only [Except.map_bind]
    rfl
  | static | indirect => rfl

/-- A load does the same to a thread that is placed otherwise. -/
theorem execLoad_placed (r : Register) (op : Operand) :
    (t.placed id arch offsets).execLoad f r op = (t.execLoad f r op).placed id arch offsets := by
  rw [execLoad, execLoad, load_placed]
  cases t.load f op <;> rfl

/-- Storing what was loaded does the same to a thread that is placed otherwise. -/
theorem storing_placed (op : Operand) (source : Heap × Except MemoryError Value) :
    (t.placed id arch offsets).storing f op source =
      (t.storing f op source).placed id arch offsets := by
  unfold storing
  split
  · rfl
  · rw [store_placed]
    cases t.store f op _ _ <;> rfl

/-- A store does the same to a thread that is placed otherwise. -/
theorem execStore_placed (r : Register) (op : Operand) :
    (t.placed id arch offsets).execStore f r op = (t.execStore f r op).placed id arch offsets := by
  rw [execStore_eq, execStore_eq]
  cases op <;> exact storing_placed t f _ _

/-- Arithmetic does the same to a thread that is placed otherwise. -/
theorem execArith_placed (op : ArithOp) :
    (t.placed id arch offsets).execArith f op = (t.execArith f op).placed id arch offsets := by
  rw [execArith, execArith, ← proceed_placed, Except.map_bind]
  change proceed _ _ (t.operands >>= _) = _
  congr 2
  funext bc
  obtain ⟨b, c⟩ := bc
  dsimp only
  split
  · rfl
  · rw [Except.map_bind]
    rfl

/-- A jump does the same to a thread that is placed otherwise. -/
theorem execJump_placed (target : Nat) :
    (t.placed id arch offsets).execJump target = (t.execJump target).placed id arch offsets := by
  unfold execJump
  rw [placed_code]
  by_cases htarget : t.code.size ≤ target
  · rw [if_pos htarget, if_pos htarget]
    rfl
  · rw [if_neg htarget, if_neg htarget]
    rfl

/-- A call does the same to a thread that is placed otherwise. -/
theorem execCall_placed (entry : Int) :
    (t.placed id arch offsets).execCall f entry = (t.execCall f entry).placed id arch offsets := by
  simp only [execCall, placed_code, placed_stack, placed_registers]
  split
  · rfl
  · split <;> rfl

/-- A return does the same to a thread that is placed otherwise. -/
theorem execReturn_placed :
    (t.placed id arch offsets).execReturn = t.execReturn.placed id arch offsets := by
  simp only [execReturn, placed_stack, placed_registers]
  split
  · rfl
  · split <;> rfl

/-- Pushing a value does the same to a thread that is placed otherwise. -/
theorem execPush_placed (op : Operand) :
    (t.placed id arch offsets).execPush f op = (t.execPush f op).placed id arch offsets := by
  simp only [execPush, placed_registers, load_placed]
  split
  · rfl
  · split
    · rfl
    · split <;> rfl

/-- Pushing a string does the same to a thread that is placed otherwise. -/
theorem execPushString_placed (op : Operand) :
    (t.placed id arch offsets).execPushString f op =
      (t.execPushString f op).placed id arch offsets := by
  simp only [execPushString, placed_registers, load_placed]
  split
  · rfl
  · split
    · rfl
    · split <;> rfl

/-- Taking a length does the same to a thread that is placed otherwise. -/
theorem execLength_placed (n : Nat) :
    (t.placed id arch offsets).execLength f n = (t.execLength f n).placed id arch offsets := by
  rw [execLength, execLength, ← assign_placed]
  rfl

/-- Making an array does the same to a thread that is placed otherwise. -/
theorem execNewStatic_placed (count : Value) :
    (t.placed id arch offsets).execNewStatic f count =
      (t.execNewStatic f count).placed id arch offsets := by
  unfold execNewStatic
  split
  · dsimp only
    split
    · rfl
    · split <;> rfl
  · rfl

/-- Popping a value does the same to a thread that is placed otherwise. -/
theorem execPop_placed (n : Nat) :
    (t.placed id arch offsets).execPop f n = (t.execPop f n).placed id arch offsets := by
  rw [execPop, execPop, ← proceed_placed, Except.map_bind]
  change proceed _ _ (t.slotRef f n >>= _) = _
  congr 2
  funext r
  rw [Except.map_bind]
  refine congrArg _ (funext fun c => ?_)
  split
  · split
    · rfl
    · rw [Except.map_bind]
      rfl
  · rfl

/-- A conversion does the same to a thread that is placed otherwise. -/
theorem execConvert_placed (target : Conversion) :
    (t.placed id arch offsets).execConvert f target =
      (t.execConvert f target).placed id arch offsets := by
  simp only [execConvert, placed_registers]
  rw [← proceed_placed, Except.map_bind]
  refine congrArg _ (congrArg _ (funext fun v => ?_))
  split
  · rfl
  · rw [Except.map_bind]
    refine congrArg _ (funext fun w => ?_)
    split <;> rfl

/-- Copying does the same to a thread that is placed otherwise. -/
theorem execClone_placed (n : Nat) :
    (t.placed id arch offsets).execClone f n = (t.execClone f n).placed id arch offsets := by
  have hslot : (t.placed id arch offsets).getLocal f n = t.getLocal f n := rfl
  simp only [execClone, hslot, placed_heap]
  split
  · rfl
  · rfl
  · split <;> rfl

/-- Freeing does the same to a thread that is placed otherwise. -/
theorem execFree_placed (n : Nat) :
    (t.placed id arch offsets).execFree f n = (t.execFree f n).placed id arch offsets := by
  rw [execFree, execFree, ← proceed_placed, Except.map_bind]
  refine congrArg _ (congrArg _ (funext fun slot => ?_))
  rw [Except.map_bind]
  refine congrArg _ (funext fun v => ?_)
  split
  · simp only [Except.map_bind]
    rfl
  · simp only [Except.map_bind]
    rfl

/-- Calling a native function does the same to a thread that is placed otherwise. -/
theorem execCallNative_placed (n : UInt64) :
    (t.placed id arch offsets).execCallNative f n =
      (t.execCallNative f n).placed id arch offsets := by
  have hargs : ∀ arity, (t.placed id arch offsets).arguments f n arity = t.arguments f n arity :=
    fun _ => rfl
  simp only [execCallNative, placed_native?, placed_natives, placed_heap, hargs]
  split
  · rfl
  · split
    · rfl
    · split
      · rfl
      · split <;> rfl

/-- **An instruction does the same wherever the program is laid out.** -/
theorem exec_placed (i : Instruction) :
    (t.placed id arch offsets).exec f i = (t.exec f i).placed id arch offsets := by
  have hoperands : (t.placed id arch offsets).operands = t.operands := rfl
  simp only [exec, placed_registers, placed_code, hoperands]
  split
  · exact execLoad_placed t f _ _
  · exact execStore_placed t f _ _
  · exact execArith_placed t f _
  · exact assign_placed t f _ _
  · exact assign_placed t f _ _
  · exact execJump_placed t _
  · split
    · exact execJump_placed t _
    · rfl
    · rfl
  · exact execCall_placed t f _
  · exact execReturn_placed t
  · split <;> rfl
  · exact execPush_placed t f _
  · exact execPushString_placed t f _
  · exact execLength_placed t f _
  · rfl
  · rfl
  · exact execNewStatic_placed t f _
  · exact execPop_placed t f _
  · exact execConvert_placed t f _
  · exact execClone_placed t f _
  · exact execFree_placed t f _
  · rfl
  · exact execCallNative_placed t f _
  · rfl

end

/-! ## Steps -/

variable (t : Thread)

/-- A thread is at the same instruction however it is placed. -/
theorem placed_location : (t.placed id arch offsets).location = t.location := by
  unfold location placed
  cases t.exit with
  | none => rfl
  | some e => cases t.stack.top? <;> rfl

/-- Settling a step does the same to a thread that is placed otherwise. -/
theorem settle_placed (k : StepKind) :
    (t.placed id arch offsets).settle k = (t.settle k).placed id arch offsets := by
  unfold settle
  split <;> rfl

/-- What a step makes of an outcome. -/
theorem concluded_placed (f : Frame) (x : Outcome) :
    (t.placed id arch offsets).concluded f (x.placed id arch offsets) =
      ((t.concluded f x).1, (t.concluded f x).2.placed id arch offsets) := by
  cases x with
  | error e => rfl
  | ok p =>
    obtain ⟨k, u⟩ := p
    change (if (u.placed id arch offsets).exit.isSome then _ else _) = _
    dsimp only [concluded]
    rw [placed_isSome_exit]
    cases u.exit.isSome with
    | true => rfl
    | false =>
      rw [if_neg Bool.false_ne_true, if_neg Bool.false_ne_true, settle_placed, placed_location,
        placed_at?]

/-- **A step does the same wherever the program is laid out**, and says the same of what it did. -/
theorem step_placed :
    (t.placed id arch offsets).step = (t.step.1, t.step.2.placed id arch offsets) := by
  cases hexit : t.exit with
  | some e =>
    have hended : t.exit.isSome = true := by rw [hexit]; rfl
    rw [step_ended hended, step_ended (t := t.placed id arch offsets) (by rwa [placed_isSome_exit])]
  | none =>
    have hexit' : (t.placed id arch offsets).exit = none := by rw [placed, hexit]; rfl
    cases hf : t.stack.frames with
    | nil =>
      rw [step_noFrame hexit hf, step_noFrame hexit' hf]
      rfl
    | cons f rest =>
      cases hcode : t.code[f.pc]? with
      | none =>
        rw [step_outside hexit hf hcode, step_outside hexit' hf hcode]
        rfl
      | some i =>
        have hcounted : (t.placed id arch offsets).counted = t.counted.placed id arch offsets := rfl
        rw [step_concluded hexit hf hcode, step_concluded hexit' hf hcode, hcounted, exec_placed,
          concluded_placed]

/-- The heap is reclaimed in the same way. -/
theorem reclaim_placed :
    (t.placed id arch offsets).reclaim.1 = t.reclaim.1.placed id arch offsets := by
  have hroots : (t.placed id arch offsets).roots = t.roots := by
    unfold roots placed
    obtain _ | _ | _ := t.exit <;> rfl
  unfold reclaim
  rw [hroots]
  rfl

/-- **Whatever is done to a thread does the same wherever its program is laid out.** -/
theorem after_placed (as : List Action) :
    (t.placed id arch offsets).after as = (t.after as).placed id arch offsets := by
  induction as generalizing t with
  | nil => rfl
  | cons a as ih =>
    cases a with
    | step => rw [after_cons, after_cons, act, act, step_placed, ih]
    | reclaim => rw [after_cons, after_cons, act, act, reclaim_placed, ih]

/-- A thread starts in the same way, or does not start for the same reason. -/
theorem start_placed (id' : Bytes) (p : Program) (opts : Options) :
    start id (p.placed arch offsets) opts = (start id' p opts).map (·.placed id arch offsets) := by
  unfold start Program.placed
  dsimp only
  split
  · rfl
  · split
    · rfl
    · split <;> rfl

end Thread

/-! ## One source -/

/-- Programs that are assembled from one source, written and read, differ in their layout only. -/
theorem Assembly.eq_placed {src data₁ data₂ : Bytes} {arch₁ arch₂ : Arch} {p₁ p₂ q₁ q₂ : Program}
    (hp₁ : assemble src arch₁ = .ok p₁) (hs₁ : p₁.serialize = .ok data₁)
    (hq₁ : Program.deserialize data₁ = .ok q₁)
    (hp₂ : assemble src arch₂ = .ok p₂) (hs₂ : p₂.serialize = .ok data₂)
    (hq₂ : Program.deserialize data₂ = .ok q₂) : q₂ = q₁.placed arch₂ q₂.offsets := by
  obtain rfl := eq_of_deserialize_assembled hp₁ hs₁ hq₁
  obtain rfl := eq_of_deserialize_assembled hp₂ hs₂ hq₂
  obtain ⟨o₁, is₁, ns₁, code₁, os₁, ho₁, his₁, hns₁, _, _, rfl⟩ := assemble_eq_ok hp₁
  obtain ⟨o₂, is₂, ns₂, code₂, os₂, ho₂, his₂, hns₂, _, _, rfl⟩ := assemble_eq_ok hp₂
  rw [ho₁] at ho₂
  cases ho₂
  rw [his₁] at his₂
  cases his₂
  rw [hns₁] at hns₂
  cases hns₂
  rfl

namespace Thread

/-- **Programs behave the same on every architecture.** When a source is assembled, written and read
for two architectures, the two programs differ in the architecture and in the byte offsets of their
instructions only, and so do the threads that run them: with the same options they start, or do not
start for the same reason; after the same steps and reclaims one is the other with the other name,
architecture and offsets, also in the place of a panic, and the next step says the same of what it
does. -/
theorem assembled_lockstep {src data₁ data₂ : Bytes} {arch₁ arch₂ : Arch} {p₁ p₂ q₁ q₂ : Program}
    (hp₁ : Assembly.assemble src arch₁ = .ok p₁) (hs₁ : p₁.serialize = .ok data₁)
    (hq₁ : Program.deserialize data₁ = .ok q₁)
    (hp₂ : Assembly.assemble src arch₂ = .ok p₂) (hs₂ : p₂.serialize = .ok data₂)
    (hq₂ : Program.deserialize data₂ = .ok q₂) (id₁ id₂ : Bytes) (opts : Options) :
    q₂ = q₁.placed arch₂ q₂.offsets ∧
      (start id₂ q₂ opts = (start id₁ q₁ opts).map (·.placed id₂ arch₂ q₂.offsets)) ∧
      ∀ t₁ t₂, start id₁ q₁ opts = .ok t₁ → start id₂ q₂ opts = .ok t₂ → ∀ as : List Action,
        t₂.after as = (t₁.after as).placed id₂ arch₂ q₂.offsets ∧
          (t₂.after as).step.1 = (t₁.after as).step.1 := by
  have hq := Assembly.eq_placed hp₁ hs₁ hq₁ hp₂ hs₂ hq₂
  have hstart : start id₂ (q₁.placed arch₂ q₂.offsets) opts = _ := start_placed id₁ q₁ opts
  rw [← hq] at hstart
  refine ⟨hq, hstart, fun t₁ t₂ ht₁ ht₂ as => ?_⟩
  rw [ht₁, ht₂] at hstart
  obtain rfl := Except.ok.inj hstart
  rw [after_placed, step_placed]
  exact ⟨rfl, rfl⟩

/-- `Program.fileSample` with addresses of eight bytes. -/
def wideSample : Program := Program.fileSample.placed .b64 #[0, 19, 38, 66, 75]

/-- The byte offset at which a thread panicked. -/
def panicOffset? (t : Thread) : Option Int :=
  match t.exit with
  | some (.panicked e) => some e.location.offset
  | _ => none

/-- With addresses of two bytes and of eight, `Assembly.sourceSample` panics for the same reason, at
another offset: the native function is not there. -/
theorem assembled_lockstep_sourceSample :
    Assembly.assemble Assembly.sourceSample .b16 = .ok Program.fileSample ∧
      Assembly.assemble Assembly.sourceSample .b64 = .ok wideSample ∧
      ∃ data₁ data₂ t₁ t₂, Program.fileSample.serialize = .ok data₁ ∧
        Program.deserialize data₁ = .ok Program.fileSample ∧ wideSample.serialize = .ok data₂ ∧
        Program.deserialize data₂ = .ok wideSample ∧ start [1] Program.fileSample {} = .ok t₁ ∧
        start [2] wideSample {} = .ok t₂ ∧
        t₂.after [.step, .step, .step] =
          (t₁.after [.step, .step, .step]).placed [2] .b64 #[0, 19, 38, 66, 75] ∧
        (t₁.after [.step, .step, .step]).panicOffset? = some 48 ∧
        (t₂.after [.step, .step, .step]).panicOffset? = some 66 := by
  have hp₁ : Assembly.assemble Assembly.sourceSample .b16 = .ok Program.fileSample := by
    decide +kernel
  have hp₂ : Assembly.assemble Assembly.sourceSample .b64 = .ok wideSample := by decide +kernel
  have hread₁ : Program.fileSample.serialize >>= Program.deserialize = .ok Program.fileSample := by
    decide +kernel
  have hread₂ : wideSample.serialize >>= Program.deserialize = .ok wideSample := by decide +kernel
  obtain ⟨data₁, hs₁, hq₁⟩ := Except.bind_eq_ok.1 hread₁
  obtain ⟨data₂, hs₂, hq₂⟩ := Except.bind_eq_ok.1 hread₂
  obtain ⟨_, hstart, hsame⟩ := assembled_lockstep hp₁ hs₁ hq₁ hp₂ hs₂ hq₂ [1] [2] {}
  have hoffset₁ : (start [1] Program.fileSample {}).toOption.bind
      (fun t => (t.after [.step, .step, .step]).panicOffset?) = some 48 := by decide +kernel
  have hoffset₂ : (start [2] wideSample {}).toOption.bind
      (fun t => (t.after [.step, .step, .step]).panicOffset?) = some 66 := by decide +kernel
  cases ht₁ : start [1] Program.fileSample {} with
  | error e => rw [ht₁] at hoffset₁; cases hoffset₁
  | ok t₁ =>
    rw [ht₁] at hoffset₁ hstart
    have ht₂ : start [2] wideSample {} = .ok _ := hstart
    rw [ht₂] at hoffset₂
    exact ⟨hp₁, hp₂, data₁, data₂, t₁, _, hs₁, hq₁, hs₂, hq₂, rfl, ht₂, (hsame t₁ _ ht₁ ht₂ _).1,
      hoffset₁, hoffset₂⟩

end Thread

end RegisterMachine
