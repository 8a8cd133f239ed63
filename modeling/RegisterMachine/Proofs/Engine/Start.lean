import RegisterMachine.Engine.Thread
import RegisterMachine.Proofs.Fallible

/-!
# The start of a thread

`Thread.start_inv` says what a thread that was made consists of. Its code is the program's,
instruction by instruction (`Thread.loadedAs_start`): where the immediate value of an instruction is
a string or an array, the code has a reference to it in the heap, and all else is the same
(`Instruction.Loaded`).
-/

namespace RegisterMachine

/-- How an instruction of a program stands in the code of a thread: as it is, or with a reference in
the place of its immediate value. -/
inductive Instruction.Loaded (i : Instruction) : Instruction → Prop
  | same : Loaded i i
  | literal {v : Value} {r : Ref} : i.operand = .immediate v →
      Loaded i { i with operand := .immediate (.heapRef r) }

/-- Loading keeps the mnemonic. -/
theorem Instruction.Loaded.mnemonic_eq {i j : Instruction} (h : i.Loaded j) :
    j.mnemonic = i.mnemonic := by
  cases h <;> rfl

/-- Loading keeps the addressing mode. -/
theorem Instruction.Loaded.mode_eq {i j : Instruction} (h : i.Loaded j) : j.mode = i.mode := by
  cases h with
  | same => rfl
  | literal hop => simp [mode, hop, Operand.mode]

/-- The code that a program is executed as. -/
structure Program.LoadedAs (p : Program) (code : Array Instruction) : Prop where
  size : code.size = p.length
  instructions : ∀ {n : Nat} {j : Instruction}, code[n]? = some j →
    ∃ i, p.instructions[n]? = some i ∧ i.Loaded j

namespace Thread

variable {t : Thread}

/-- A thread that was made has its literals in the heap, one frame, that of the main function, and
void everywhere else. -/
theorem start_inv {id : Bytes} {p : Program} {opts : Options} {t : Thread}
    (h : start id p opts = .ok t) :
    ∃ fn s, functionAt t.code p.entry.start.toNat = .ok fn ∧
      (Stack.empty opts.maxStack).push
        { hash := fn.hash, entry := p.entry.start.toNat, stop := fn.stop, base := 0
          window := fn.stop - p.entry.start.toNat, pc := p.entry.start.toNat + 2 } = .ok s ∧
      t =
        { id, program := p, natives := opts.natives, stack := s
          heap := (internLiterals {} p.instructions.toList).1
          code := (internLiterals {} p.instructions.toList).2.1.toArray
          literals := (internLiterals {} p.instructions.toList).2.2 } := by
  unfold start at h
  split at h
  · cases h
  · dsimp only at h
    split at h
    · cases h
    · next fn hfn =>
      split at h
      · cases h
      · next s hs =>
        cases h
        exact ⟨fn, s, hfn, hs, rfl⟩

/-- A thread starts with the program that it was given. -/
theorem program_start {id : Bytes} {p : Program} {opts : Options} (h : start id p opts = .ok t) :
    t.program = p := by
  obtain ⟨fn, s, _, _, rfl⟩ := start_inv h
  rfl

/-- An instruction without a literal is left as it is. -/
theorem internLiterals_cons_of_kept {i : Instruction}
    (hkind : ∀ v, i.operand = .immediate v → v.kind ≠ .string ∧ v.kind ≠ .array) (h : Heap)
    (is : List Instruction) : internLiterals h (i :: is) =
      ((internLiterals h is).1, i :: (internLiterals h is).2.1, (internLiterals h is).2.2) := by
  obtain ⟨m, op⟩ := i
  cases op with
  | immediate v =>
    cases v with
    | string s => exact absurd rfl (hkind _ rfl).1
    | array es => exact absurd rfl (hkind _ rfl).2
    | _ => rfl
  | _ => rfl

/-- An instruction is left as it is, or its immediate value, a string or an array, is moved into the
heap as a literal. -/
theorem internLiterals_cons (h : Heap) (i : Instruction) (is : List Instruction) :
    ((∀ v, i.operand = .immediate v → v.kind ≠ .string ∧ v.kind ≠ .array) ∧
        internLiterals h (i :: is) =
          ((internLiterals h is).1, i :: (internLiterals h is).2.1, (internLiterals h is).2.2)) ∨
      ∃ v r, i.operand = .immediate v ∧ (h.intern v).2 = .heapRef r ∧
        internLiterals h (i :: is) =
          ((internLiterals (h.intern v).1 is).1,
            { i with operand := .immediate (.heapRef r) } :: (internLiterals (h.intern v).1 is).2.1,
            r :: (internLiterals (h.intern v).1 is).2.2) := by
  obtain ⟨m, op⟩ := i
  cases op with
  | immediate v =>
    cases v with
    | string s => exact .inr ⟨_, _, rfl, rfl, rfl⟩
    | array es => exact .inr ⟨_, _, rfl, rfl, rfl⟩
    | _ =>
      refine .inl ⟨fun v hv => ?_, rfl⟩
      cases hv
      exact ⟨of_decide_eq_true rfl, of_decide_eq_true rfl⟩
  | _ => exact .inl ⟨fun v hv => (nomatch hv), rfl⟩

/-- Moving the literals into the heap leaves everything else of the instructions alone. -/
theorem internLiterals_loaded (h : Heap) (is : List Instruction) :
    List.Forall₂ Instruction.Loaded is (internLiterals h is).2.1 := by
  induction is generalizing h with
  | nil => exact .nil
  | cons i is ih =>
    obtain ⟨_, he⟩ | ⟨v, r, hop, _, he⟩ := internLiterals_cons h i is
    · rw [he]
      exact .cons .same (ih h)
    · rw [he]
      exact .cons (.literal hop) (ih _)

/-- Putting the literals into a heap keeps the mnemonics. -/
theorem mnemonic_internLiterals (h : Heap) (is : List Instruction) :
    (internLiterals h is).2.1.map (·.mnemonic) = is.map (·.mnemonic) := by
  have hloaded := internLiterals_loaded h is
  generalize (internLiterals h is).2.1 = js at hloaded
  induction hloaded with
  | nil => rfl
  | cons hij _ ih => rw [List.map_cons, List.map_cons, hij.mnemonic_eq, ih]

/-- An instruction without a literal stays as it is. -/
theorem getElem?_internLiterals {h : Heap} {is : List Instruction} {n : Nat} {i : Instruction}
    (hi : is[n]? = some i)
    (hkind : ∀ v, i.operand = .immediate v → v.kind ≠ .string ∧ v.kind ≠ .array) :
    (internLiterals h is).2.1[n]? = some i := by
  induction is generalizing h n with
  | nil => simp at hi
  | cons j is ih =>
    cases n with
    | zero =>
      obtain rfl : j = i := by simpa using hi
      rw [internLiterals_cons_of_kept hkind]
      rfl
    | succ n =>
      obtain ⟨_, he⟩ | ⟨v, r, _, _, he⟩ := internLiterals_cons h j is
      · rw [he]
        exact ih hi
      · rw [he]
        exact ih hi

/-- **A thread executes the instructions of its program**, but for the immediate values that are
literals. -/
theorem loadedAs_start {id : Bytes} {p : Program} {opts : Options} (h : start id p opts = .ok t) :
    p.LoadedAs t.code := by
  obtain ⟨fn, s, _, _, rfl⟩ := start_inv h
  have hloaded := internLiterals_loaded {} p.instructions.toList
  refine ⟨?_, fun {n j} hj => ?_⟩
  · simpa [Program.length] using hloaded.length_eq.symm
  · have hj : (internLiterals {} p.instructions.toList).2.1[n]? = some j := by simpa using hj
    have hrel := forall₂_getElem? hloaded n
    rw [hj] at hrel
    generalize hi : p.instructions.toList[n]? = i at hrel
    cases hrel with
    | some hij => exact ⟨_, by simpa using hi, hij⟩

end Thread

end RegisterMachine
