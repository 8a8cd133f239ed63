import RegisterMachine.Engine.Profiler
import RegisterMachine.Proofs.Assembly.Line

/-!
# What a profiler counts

The counts of a profiler, and what recording a call (`Profiler.function?_recordCall`) and recording
an instruction (`Profiler.executions_recordInstruction`) do to them. Recording one of the two leaves
the counts of the other alone.
-/

namespace RegisterMachine

/-- Every mnemonic has a number below the number of mnemonics. -/
theorem Mnemonic.number_lt (m : Mnemonic) : m.number < Mnemonic.all.length :=
  List.idxOf_lt_length_of_mem m.mem_all

/-- Different mnemonics have different numbers. -/
theorem Mnemonic.number_inj {m n : Mnemonic} : m.number = n.number ↔ m = n :=
  List.idxOf_inj m.mem_all

/-- The first mnemonic of the table. -/
theorem Mnemonic.number_eq_zero {m : Mnemonic} : m.number = 0 ↔ m = .load .a :=
  Mnemonic.number_inj (n := .load .a)

/-- Changing the profiles of one function leaves those of the others alone. -/
theorem find?_changed {fs : List FunctionProfile} {hash : UInt64}
    {g : FunctionProfile → FunctionProfile} (hg : ∀ f, f.hash = hash → (g f).hash = hash)
    (hash' : UInt64) :
    (fs.map fun f => if f.hash == hash then g f else f).find? (·.hash == hash') =
      if hash' = hash then (fs.find? (·.hash == hash')).map g
      else fs.find? (·.hash == hash') := by
  induction fs with
  | nil => simp
  | cons f fs ih =>
    simp only [List.map_cons, List.find?_cons, ih]
    by_cases hf : f.hash = hash
    · have hchanged := hg f hf
      by_cases hh : hash' = hash
      · simp [hf, hchanged, hh]
      · simp [hf, hchanged, hh, beq_eq_false_iff_ne.2 (Ne.symm hh)]
    · by_cases hh : hash' = hash
      · simp [hh, beq_eq_false_iff_ne.2 hf]
      · simp [hf, hh]

/-- One more at one place is one more in all. -/
theorem sum_modify_succ {ns : List Nat} {n : Nat} (h : n < ns.length) :
    (ns.modify n (· + 1)).sum = ns.sum + 1 := by
  induction ns generalizing n with
  | nil => simp at h
  | cons k ns ih =>
    cases n with
    | zero => simp only [List.modify_zero_cons, List.sum_cons]; omega
    | succ n =>
      have := ih (Nat.lt_of_succ_lt_succ h)
      simp only [List.modify_succ_cons, List.sum_cons]
      omega

namespace Profiler

variable {p : Profiler} {hash hash' : UInt64}

/-- How often a mnemonic was executed. -/
def executions (p : Profiler) (m : Mnemonic) : Nat := p.instructions[m.number]?.getD 0

/-- The profile of a function after one more call of it. -/
def called (p : Profiler) (hash : UInt64) : FunctionProfile :=
  ⟨hash, p.calls hash + 1, p.isHot hash || decide (p.threshold ≤ p.calls hash + 1)⟩

/-- Recording a call counts it in the function's profile, which is added if there is none. -/
theorem functions_recordCall (p : Profiler) (hash : UInt64) :
    (p.recordCall hash).1.functions =
      if (p.function? hash).isSome then
        p.functions.map fun f => if f.hash == hash then p.called hash else f
      else p.functions ++ [p.called hash] := by
  unfold recordCall called calls isHot
  cases hf : p.function? hash with
  | none => by_cases hhot : p.threshold ≤ 1 <;> simp [hhot]
  | some f =>
    cases hb : f.hot <;> by_cases hhot : p.threshold ≤ f.count + 1 <;> simp [hb, hhot]

@[simp] theorem threshold_recordCall (p : Profiler) (hash : UInt64) :
    (p.recordCall hash).1.threshold = p.threshold := by
  unfold recordCall
  dsimp only
  split <;> rfl

@[simp] theorem instructions_recordCall (p : Profiler) (hash : UInt64) :
    (p.recordCall hash).1.instructions = p.instructions := by
  unfold recordCall
  dsimp only
  split <;> rfl

/-- Recording a call touches the profile of its function only. -/
theorem function?_recordCall (p : Profiler) (hash hash' : UInt64) :
    (p.recordCall hash).1.function? hash' =
      if hash' = hash then some (p.called hash) else p.function? hash' := by
  show (p.recordCall hash).1.functions.find? (·.hash == hash') = _
  rw [functions_recordCall]
  split
  · next hsome =>
    have hcalled : ∀ f : FunctionProfile, f.hash = hash → (p.called hash).hash = hash :=
      fun _ _ => rfl
    rw [find?_changed (g := fun _ => p.called hash) hcalled]
    obtain ⟨f, hf⟩ := Option.isSome_iff_exists.1 hsome
    split
    · next hh =>
      subst hh
      rw [show p.functions.find? (·.hash == hash') = some f from hf]
      rfl
    · rfl
  · next hnone =>
    rw [List.find?_append]
    split
    · next hh =>
      subst hh
      rw [show p.functions.find? (·.hash == hash') = none by simpa [function?] using hnone]
      simp [called]
    · next hh => simp [called, function?, Ne.symm hh]

/-- Recording a call adds one to the calls of its function. -/
theorem calls_recordCall (p : Profiler) (hash hash' : UInt64) :
    (p.recordCall hash).1.calls hash' = p.calls hash' + if hash' = hash then 1 else 0 := by
  rw [calls, function?_recordCall]
  split
  · next h => rw [h]; rfl
  · rfl

section
variable (p : Profiler) (n : Nat) (hash : UInt64)

@[simp] theorem function?_recordInstruction :
    (p.recordInstruction n).function? hash = p.function? hash := rfl

@[simp] theorem calls_recordInstruction : (p.recordInstruction n).calls hash = p.calls hash := rfl

@[simp] theorem isHot_recordInstruction : (p.recordInstruction n).isHot hash = p.isHot hash := rfl

@[simp] theorem hotCount_recordInstruction : (p.recordInstruction n).hotCount = p.hotCount := rfl

end

@[simp] theorem executions_recordCall (p : Profiler) (hash : UInt64) (m : Mnemonic) :
    (p.recordCall hash).1.executions m = p.executions m := by
  rw [executions, instructions_recordCall, executions]

/-- There is a counter for each mnemonic. -/
def Complete (p : Profiler) : Prop := p.instructions.size = Mnemonic.all.length

/-- Counting an instruction neither adds nor removes counters. -/
theorem Complete.recordInstruction (h : p.Complete) (n : Nat) :
    (p.recordInstruction n).Complete := by
  simpa [Complete, Profiler.recordInstruction] using h

/-- Counting a call neither adds nor removes counters of instructions. -/
theorem Complete.recordCall (h : p.Complete) (hash : UInt64) : (p.recordCall hash).1.Complete := by
  simpa [Complete] using h

/-- Recording an instruction adds one to the executions of its mnemonic. -/
theorem executions_recordInstruction (h : p.Complete) (m m' : Mnemonic) :
    (p.recordInstruction m.number).executions m' =
      p.executions m' + if m' = m then 1 else 0 := by
  have hlt : m'.number < p.instructions.size := h ▸ m'.number_lt
  simp only [executions, Profiler.recordInstruction, Array.getElem?_modify]
  split
  · next hn => simp [Mnemonic.number_inj.1 hn, hlt]
  · next hn => simp [mt (Mnemonic.number_inj.2 ∘ Eq.symm) hn]

/-- Recording an instruction adds one to the total. -/
theorem stats_recordInstruction (h : p.Complete) (m : Mnemonic) :
    (p.recordInstruction m.number).stats.instructions = p.stats.instructions + 1 := by
  have hlt : m.number < p.instructions.toList.length := by
    rw [Array.length_toList]
    exact h ▸ m.number_lt
  simpa [stats, Profiler.recordInstruction] using sum_modify_succ hlt

@[simp] theorem stats_recordCall (p : Profiler) (hash : UInt64) :
    (p.recordCall hash).1.stats.instructions = p.stats.instructions := by
  simp [stats]

end Profiler

end RegisterMachine
