import Mathlib.Data.FinEnum
import Mathlib.Logic.Equiv.Fintype
import RegisterMachine.Proofs.Engine.ParallelRuns

/-!
# Reclaiming is unobservable

`Thread.SameUpTo` says that two threads are the same but for the names of their references: an
injective function takes the references within reach of one to those of the other, and registers,
slots, saved registers and the entries within reach are what it makes of the other's.
`Thread.reclaim_unobservable` shows this of two runs of a program that reclaim their heaps after
different numbers of steps.
-/

namespace RegisterMachine

variable {K : Renaming} {ρ : Ref → Ref} {v w : Value}

/-! ## Renaming references -/

mutual

/-- The value with every reference in it renamed. -/
def Value.rename (ρ : Ref → Ref) : Value → Value
  | .heapRef r => .heapRef (ρ r)
  | .array es => .array (Value.renameAll ρ es)
  | v => v

/-- `rename` for the elements of an array. -/
def Value.renameAll (ρ : Ref → Ref) : List Value → List Value
  | [] => []
  | v :: vs => Value.rename ρ v :: Value.renameAll ρ vs

end

/-- The registers with every reference in them renamed. -/
def Registers.rename (ρ : Ref → Ref) (rs : Registers) : Registers :=
  { a := rs.a.rename ρ, b := rs.b.rename ρ, c := rs.c.rename ρ, x := rs.x.rename ρ,
    y := rs.y.rename ρ }

/-- The frame with every reference in its saved registers renamed. -/
def Frame.rename (ρ : Ref → Ref) (f : Frame) : Frame := { f with saved := f.saved.rename ρ }

/-- The threads ended in the same way, with the same value up to renaming or with a panic for the
same reason at the same place. -/
inductive Exit.SameUpTo (ρ : Ref → Ref) : Exit → Exit → Prop
  | graceful (v : Value) : SameUpTo ρ (.graceful v) (.graceful (v.rename ρ))
  | panicked {p p' : Panic} : p'.reason = p.reason → p'.location = p.location → p'.trace = p.trace →
      SameUpTo ρ (.panicked p) (.panicked p')

/-- The threads are the same but for the names of their references: frames, registers and slots are
equal up to renaming, and so is what can be reached of the heaps. -/
structure Thread.SameUpTo (ρ : Ref → Ref) (t u : Thread) : Prop where
  frames : u.stack.frames = t.stack.frames.map (Frame.rename ρ)
  slots : u.stack.slots.toList = t.stack.slots.toList.map (Value.rename ρ)
  registers : u.registers = t.registers.rename ρ
  state : u.state = t.state
  trapped : u.trapped = t.trapped
  steps : u.steps = t.steps
  exit : Option.Rel (Exit.SameUpTo ρ) t.exit u.exit
  held : ∀ q, u.Held q ↔ ∃ r, t.Held r ∧ ρ r = q
  heap : ∀ r, t.Held r → (u.heap.get (ρ r)).toOption = (t.heap.get r).toOption.map (Value.rename ρ)

mutual

/-- Renaming changes nothing in a value that refers to nothing. -/
theorem Value.rename_eq_self : (v : Value) → (∀ r, ¬ v.Mentions r) → v.rename ρ = v
  | .heapRef r, hnone => absurd (.self r) (hnone r)
  | .array es, hnone => by
    rw [Value.rename, Value.renameAll_eq_self es fun e he r hr => hnone r (.element he hr)]
  | .int .., _ | .float _, _ | .double _, _ | .byte _, _ | .bool _, _ | .string _, _ | .char _, _
  | .void, _ | .null, _ | .function _, _ | .stackRef _, _ => rfl

/-- Renaming changes nothing in values that refer to nothing. -/
theorem Value.renameAll_eq_self : (vs : List Value) → (∀ v ∈ vs, ∀ r, ¬ v.Mentions r) →
    Value.renameAll ρ vs = vs
  | [], _ => rfl
  | v :: vs, hnone => by
    rw [Value.renameAll, Value.rename_eq_self v (hnone v List.mem_cons_self),
      Value.renameAll_eq_self vs fun w hw => hnone w (List.mem_cons_of_mem v hw)]

end

/-- The elements of an array are renamed one by one. -/
theorem Value.renameAll_eq_map (vs : List Value) :
    Value.renameAll ρ vs = vs.map (Value.rename ρ) := by
  induction vs with
  | nil => rfl
  | cons v vs ih => rw [Value.renameAll, List.map_cons, ih]

/-! ## From relations to functions -/

section Graph

variable (hρ : ∀ r q, K r q → ρ r = q)
include hρ

/-- A value that is the same up to the renaming is the renamed one. -/
theorem Value.Renamed.eq_rename (hv : v.Renamed K w) : w = v.rename ρ := by
  cases hv with
  | ref hr => rw [Value.rename, hρ _ _ hr]
  | same hnone => exact (v.rename_eq_self hnone).symm

/-- A content that is the same up to the renaming is the renamed one. -/
theorem Value.ContentRenamed.eq_rename (hv : v.ContentRenamed K w) : w = v.rename ρ := by
  cases hv with
  | array hes =>
    rw [Value.rename, Value.renameAll_eq_map,
      ← eq_map_of_forall₂ (hes.imp fun _ _ he => he.eq_rename hρ)]
  | same _ hnone => exact (v.rename_eq_self hnone).symm

/-- Registers that are the same up to the renaming are the renamed ones. -/
theorem Registers.Renamed.eq_rename {rs₁ rs₂ : Registers} (hrs : rs₁.Renamed K rs₂) :
    rs₂ = rs₁.rename ρ := by
  have hget : ∀ r, rs₂.get r = (rs₁.get r).rename ρ := fun r => (hrs r).eq_rename hρ
  obtain ⟨a, b, c, x, y⟩ := rs₂
  rw [Registers.rename, Registers.mk.injEq]
  exact ⟨hget .a, hget .b, hget .c, hget .x, hget .y⟩

/-- A frame that is the same up to the renaming is the renamed one. -/
theorem Frame.Renamed.eq_rename {f₁ f₂ : Frame} (hf : f₁.Renamed K f₂) : f₂ = f₁.rename ρ := by
  cases hf with
  | mk hsaved => rw [Frame.rename, ← hsaved.eq_rename hρ]

/-- Exits that are the same up to the renaming are the same up to the function. -/
theorem Exit.Renamed.sameUpTo {e₁ e₂ : Exit} (he : e₁.Renamed K e₂) : e₁.SameUpTo ρ e₂ := by
  cases he with
  | graceful hv =>
    rw [hv.eq_rename hρ]
    exact .graceful _
  | panicked hreason hlocation htrace => exact .panicked hreason hlocation htrace

end Graph

/-- A reference in a value has a counterpart in the renamed value. -/
theorem Value.Renamed.mentions {r : Ref} (hv : v.Renamed K w) (hr : v.Mentions r) :
    ∃ q, K r q ∧ w.Mentions q := by
  cases hv with
  | ref hq =>
    cases hr
    exact ⟨_, hq, .self _⟩
  | same hnone => exact absurd hr (hnone r)

/-- A reference in a content has a counterpart in the renamed content. -/
theorem Value.ContentRenamed.mentions {r : Ref} (hv : v.ContentRenamed K w) (hr : v.Mentions r) :
    ∃ q, K r q ∧ w.Mentions q := by
  cases hv with
  | array hes =>
    cases hr with
    | element he hr =>
      obtain ⟨e', he', hee'⟩ := exists_of_mem_forall₂ hes he
      obtain ⟨q, hq, hmentions⟩ := hee'.mentions hr
      exact ⟨q, hq, .element he' hmentions⟩
  | same _ hnone => exact absurd hr (hnone r)

/-- There are only finitely many references. -/
instance : Finite Ref := by
  refine Finite.of_injective (fun r : Ref => (r.index, r.gen)) fun r q he => ?_
  obtain ⟨hindex, hgen⟩ := Prod.mk.inj he
  cases r
  cases q
  simp_all

/-- A renaming is part of a permutation of all references. -/
theorem Heap.Renamed.exists_perm {h₁ h₂ : Heap} (hm : Heap.Renamed K h₁ h₂) :
    ∃ ρ : Equiv.Perm Ref, ∀ r q, K r q → ρ r = q := by
  classical
  obtain ⟨e, he⟩ : ∃ e : { r // ∃ q, K r q } ≃ { q // ∃ r, K r q }, ∀ r, K r.1 (e r).1 := by
    refine ⟨Equiv.ofBijective (fun r => ⟨r.2.choose, r.1, r.2.choose_spec⟩) ⟨?_, ?_⟩,
      fun r => r.2.choose_spec⟩
    · rintro ⟨r, hr⟩ ⟨r', hr'⟩ heq
      have heq : hr.choose = hr'.choose := congrArg Subtype.val heq
      exact Subtype.ext (hm.injective hr.choose_spec (heq ▸ hr'.choose_spec))
    · rintro ⟨q, r, hr⟩
      refine ⟨⟨r, q, hr⟩, Subtype.ext ?_⟩
      exact hm.functional (Exists.choose_spec (⟨q, hr⟩ : ∃ q, K r q)) hr
  refine ⟨e.extendSubtype, fun r q hr => ?_⟩
  rw [Equiv.extendSubtype_apply_of_mem e r ⟨q, hr⟩]
  exact hm.functional (he ⟨r, q, hr⟩) hr

namespace Thread

variable {t t₁ t₂ : Thread} {r : Ref}

/-- Roots correspond to each other. -/
theorem Renamed.root (hm : Renamed K t₁ t₂) (hv : t₁.Root v) : ∃ w, t₂.Root w ∧ v.Renamed K w := by
  cases hv with
  | literal hr => exact ⟨_, .literal (hm.literals ▸ hr), .ref (hm.literal _ hr)⟩
  | register r => exact ⟨_, .register r, hm.registers r⟩
  | saved r hf =>
    obtain ⟨g, hg, hfg⟩ := exists_of_mem_forall₂ hm.stack.frames hf
    cases hfg with
    | mk hsaved => exact ⟨_, .saved r hg, hsaved r⟩
  | slot hv =>
    obtain ⟨w, hw, hvw⟩ := exists_of_mem_forall₂ hm.stack.slots (Array.mem_toList_iff.2 hv)
    exact ⟨w, .slot (Array.mem_toList_iff.1 hw), hvw⟩
  | result he =>
    have hexit := hm.exit
    rw [he] at hexit
    generalize he₂ : t₂.exit = e₂ at hexit
    cases hexit with
    | some hexit =>
      cases hexit with
      | graceful hv => exact ⟨_, .result he₂, hv⟩

/-- **What one thread can get at, the other can too**, under its new name. -/
theorem Renamed.held (hm : Renamed K t₁ t₂) (hr : t₁.Held r) : ∃ q, K r q ∧ t₂.Held q := by
  induction hr with
  | root hv hr =>
    obtain ⟨w, hw, hvw⟩ := hm.root hv
    obtain ⟨q, hq, hmentions⟩ := hvw.mentions hr
    exact ⟨q, hq, .root hw hmentions⟩
  | entry _ hget hr ih =>
    obtain ⟨q, hq, hheld⟩ := ih
    rcases hm.heap.entries hq with ⟨c, d, hc, hd, hcd⟩ | ⟨hno, _⟩
    · rw [hget] at hc
      cases hc
      obtain ⟨q', hq', hmentions⟩ := hcd.mentions hr
      exact ⟨q', hq', .entry hheld hd hmentions⟩
    · exact absurd ⟨_, hget⟩ hno

/-- Threads that are the same up to the renaming are the same up to every function that extends it.
-/
theorem Renamed.sameUpTo (hm : Renamed K t₁ t₂) (hρ : ∀ r q, K r q → ρ r = q) :
    t₁.SameUpTo ρ t₂ where
  frames := eq_map_of_forall₂ (hm.stack.frames.imp fun _ _ hf => hf.eq_rename hρ)
  slots := eq_map_of_forall₂ (hm.stack.slots.imp fun _ _ hv => hv.eq_rename hρ)
  registers := hm.registers.eq_rename hρ
  state := hm.state
  trapped := hm.trapped
  steps := hm.steps
  exit := by
    have hexit := hm.exit
    generalize t₁.exit = e₁ at hexit
    generalize t₂.exit = e₂ at hexit
    cases hexit with
    | none => exact .none
    | some he => exact .some (he.sameUpTo hρ)
  held q := by
    constructor
    · intro hq
      obtain ⟨r, hr, hheld⟩ := hm.swap.held hq
      exact ⟨r, hheld, hρ r q hr⟩
    · rintro ⟨r, hr, rfl⟩
      obtain ⟨q, hq, hheld⟩ := hm.held hr
      rw [hρ r q hq]
      exact hheld
  heap r hr := by
    obtain ⟨q, hq, _⟩ := hm.held hr
    rw [hρ r q hq]
    have hget := hm.heap.get hq
    generalize t₁.heap.get r = x at hget ⊢
    generalize t₂.heap.get q = y at hget ⊢
    cases hget with
    | error _ => rfl
    | ok hcd =>
      rw [hcd.eq_rename hρ]
      rfl

/-! ## Runs -/

/-- **Periodic reclaiming is unobservable.** Two runs of a program without native calls and without
references in its immediate values, which differ in how often they reclaim their heaps, lead to
threads that are the same but for the names of references, after the same number of steps, and come
to a halt in the same way; as long as neither run fills the arena with 2^32 entries or frees one
entry 2^32 times. -/
theorem reclaim_unobservable {id : Bytes} {p : Program} {opts : Options}
    (ht : start id p opts = .ok t)
    (hrefs : ∀ i ∈ p.instructions, ∀ v r, i.operand = .immediate v → ¬ v.Mentions r)
    (hnative : ∀ i ∈ p.instructions, i.mnemonic ≠ .callNative) (stopAtTrap : Bool)
    (n m budget : Nat) (profiler₁ profiler₂ : Option Profiler)
    (hsize₁ : (t.run ⟨n, stopAtTrap⟩ budget profiler₁).thread.heap.entries.size < 2 ^ 32)
    (hsize₂ : (t.run ⟨m, stopAtTrap⟩ budget profiler₂).thread.heap.entries.size < 2 ^ 32)
    (hfrees₁ : ∀ i, t.freeCount i (t.schedule ⟨n, stopAtTrap⟩ budget) < 2 ^ 32)
    (hfrees₂ : ∀ i, t.freeCount i (t.schedule ⟨m, stopAtTrap⟩ budget) < 2 ^ 32) :
    ∃ ρ : Ref → Ref, ρ.Injective ∧
      SameUpTo ρ (t.run ⟨n, stopAtTrap⟩ budget profiler₁).thread
        (t.run ⟨m, stopAtTrap⟩ budget profiler₂).thread ∧
      (t.run ⟨m, stopAtTrap⟩ budget profiler₂).budget =
        (t.run ⟨n, stopAtTrap⟩ budget profiler₁).budget ∧
      RunEnd.Alike (Exit.SameUpTo ρ) (t.run ⟨n, stopAtTrap⟩ budget profiler₁).halt
        (t.run ⟨m, stopAtTrap⟩ budget profiler₂).halt := by
  have hno := noNative_start ht hnative
  unfold run at hsize₁ hsize₂ ⊢
  rw [runFrom_thread] at hsize₁ hsize₂
  have hstart := Nat.lt_of_le_of_lt (size_le_after_of_noNative hno _) hsize₁
  have hspared : ∀ {as : List Action}, (t.after as).heap.entries.size < 2 ^ 32 →
      (∀ i, t.freeCount i as < 2 ^ 32) → t.Spared as := fun hsize hfrees =>
    spared_after hno (gen_start ht) hsize fun i => by rw [Nat.zero_add]; exact hfrees i
  have htrap : (⟨m, stopAtTrap⟩ : RunOptions).stopAtTrap =
      (⟨n, stopAtTrap⟩ : RunOptions).stopAtTrap := rfl
  obtain ⟨K, hm, hbudget, hhalt⟩ := (renamed_start ht hrefs hnative hstart).runFrom htrap budget
    (hspared hsize₁ hfrees₁) (hspared hsize₂ hfrees₂) (profiler₁.map (·.begin t))
    (profiler₂.map (·.begin t))
  obtain ⟨ρ, hρ⟩ := hm.heap.exists_perm
  exact ⟨ρ, ρ.injective, hm.sameUpTo hρ, hbudget, hhalt.mono fun _ _ he => he.sameUpTo hρ⟩

/-- A main function that makes three arrays, drops the first two and returns the third. -/
def droppedSample : Program where
  arch := .b64
  mainExists := true
  entry := ⟨0, 8, 1⟩
  instructions :=
    #[⟨.function, .immediate (.int64 1)⟩, ⟨.store .a, .immediate (.int64 8)⟩,
      ⟨.newArray, .implicit⟩, ⟨.newArray, .implicit⟩, ⟨.newArray, .implicit⟩,
      ⟨.store .a, .absolute 0⟩, ⟨.load .y, .absolute 0⟩, ⟨.ret, .implicit⟩]
  offsets := #[]
  natives := []

/-- Without reclaiming, `droppedSample` returns its third entry, and with a reclaim after every step
its first one in the second generation; these are the same up to renaming. -/
theorem reclaim_unobservable_droppedSample :
    ∃ t ρ, start [] droppedSample {} = .ok t ∧ ρ.Injective ∧
    SameUpTo ρ (t.run ⟨0, false⟩ 10 none).thread (t.run ⟨1, false⟩ 10 none).thread ∧
    (t.run ⟨0, false⟩ 10 none).thread.exit = some (.graceful (.heapRef ⟨2, 0⟩)) ∧
    (t.run ⟨1, false⟩ 10 none).thread.exit = some (.graceful (.heapRef ⟨0, 1⟩)) ∧
    ρ ⟨2, 0⟩ = ⟨0, 1⟩ := by
  have hrefs : ∀ i ∈ droppedSample.instructions, ∀ v r,
      i.operand = .immediate v → ¬ v.Mentions r :=
    Program.not_mentions (by decide)
  have ht : start [] droppedSample {} = .ok _ := rfl
  have hfrees : ∀ {t : Thread} {as : List Action}, as.length < 2 ^ 32 →
      ∀ i, t.freeCount i as < 2 ^ 32 := fun hlen i =>
    Nat.lt_of_le_of_lt (freeCount_le_length _ i _) hlen
  obtain ⟨ρ, hinjective, hsame, _⟩ :=
    reclaim_unobservable ht hrefs (by decide +kernel) false 0 1 10 none
    none (by decide +kernel) (by decide +kernel) (hfrees (by decide +kernel))
      (hfrees (by decide +kernel))
  refine ⟨_, ρ, ht, hinjective, hsame, by decide +kernel, by decide +kernel, ?_⟩
  have hexit := hsame.exit
  rw [show (run ⟨0, false⟩ 10 none _).thread.exit =
    some (.graceful (.heapRef ⟨2, 0⟩)) by decide +kernel,
    show (run ⟨1, false⟩ 10 none _).thread.exit = some (.graceful (.heapRef ⟨0, 1⟩)) by
      decide +kernel]
    at hexit
  generalize hw : Value.heapRef ⟨0, 1⟩ = w at hexit
  cases hexit with
  | some hexit =>
    cases hexit with
    | graceful _ => exact (Value.heapRef.inj hw).symm

end Thread

end RegisterMachine
