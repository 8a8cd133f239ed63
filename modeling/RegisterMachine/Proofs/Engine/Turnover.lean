import RegisterMachine.Proofs.Engine.Reclaiming
import RegisterMachine.Proofs.Memory.Generations

/-!
# How often entries are freed

Steps and reclaims turn entries over one at a time (`Thread.AddsStrings.turns_act`): an action takes
entries or frees some, but never frees an entry and takes it again. `Thread.freeCount` counts how
often an entry is freed in the course of some actions, and its generation is at most that. So as
long as no entry is freed 2^32 times and the arena does not reach 2^32 entries, references never
start over (`Thread.AddsStrings.spared_after`).
-/

namespace RegisterMachine

/-- The heap that comes after another has indices left, and no generation has started over. -/
structure Heap.Spares (h h' : Heap) : Prop where
  size : h'.entries.size < 2 ^ 32
  ages : h.Ages h'

namespace Thread

variable {t : Thread}

/-! ## What actions do to entries -/

/-- A thread that calls no native function. -/
theorem addsStrings_of_noNative (hno : ∀ i ∈ t.code, i.mnemonic ≠ .callNative) : t.AddsStrings :=
  fun i hi hm => absurd hm (hno i hi)

/-- **An action turns each entry over at most once.** -/
theorem AddsStrings.turns_act (hn : t.AddsStrings) (a : Action) : t.heap.Turns (t.act a).heap := by
  cases a with
  | reclaim => exact Heap.turns_reclaim t.heap t.roots
  | step =>
    rcases heap_step Heap.monotone_gains hn with hgains | ⟨r, hfree⟩
    · exact hgains.turns
    · exact Heap.turns_free hfree

/-! ## Runs -/

/-- How often an entry is freed in the course of some actions, by a free instruction or a
reclaim. -/
def freeCount (t : Thread) (i : Nat) : List Action → Nat
  | [] => 0
  | a :: as => (t.heap.freesAt (t.act a).heap i).toNat + (t.act a).freeCount i as

/-- No entry is freed more often than there are actions. -/
theorem freeCount_le_length (t : Thread) (i : Nat) (as : List Action) :
    t.freeCount i as ≤ as.length := by
  induction as generalizing t with
  | nil => exact Nat.le_refl 0
  | cons a as ih =>
    have hone := (t.heap.freesAt (t.act a).heap i).toNat_le
    have hrest := ih (t.act a)
    rw [freeCount, List.length_cons]
    omega

/-- Every action leaves indices and generations to spare. -/
def Spared (t : Thread) : List Action → Prop
  | [] => True
  | a :: as => t.heap.Spares (t.act a).heap ∧ (t.act a).Spared as

/-- Actions in a row leave indices and generations to spare if the first ones do and then the
others. -/
theorem spared_append {as bs : List Action} :
    t.Spared (as ++ bs) ↔ t.Spared as ∧ (t.after as).Spared bs := by
  induction as generalizing t with
  | nil => exact (iff_of_eq (true_and _)).symm
  | cons a as ih =>
    change _ ∧ (t.act a).Spared (as ++ bs) ↔ (_ ∧ (t.act a).Spared as) ∧ _
    rw [ih, and_assoc]
    rfl

/-- **References do not start over** in a run that has fewer than 2^32 entries at the end and frees
none of them 2^32 times, counting from what generations stand at. -/
theorem AddsStrings.spared_after {count : Nat → Nat} (hn : t.AddsStrings)
    (hcount : ∀ (i : Nat) (e : HeapEntry), t.heap.entries[i]? = some e → e.gen.toNat ≤ count i)
    {as : List Action} (hsize : (t.after as).heap.entries.size < 2 ^ 32)
    (hfrees : ∀ i, count i + t.freeCount i as < 2 ^ 32) : t.Spared as := by
  induction as generalizing t count with
  | nil => trivial
  | cons a as ih =>
    have hstep : ∀ i, count i + (t.heap.freesAt (t.act a).heap i).toNat + (t.act a).freeCount i as
        < 2 ^ 32 := by
      intro i
      have hi := hfrees i
      rw [freeCount] at hi
      omega
    obtain ⟨hages, hcount'⟩ := (hn.turns_act a).ages hcount fun i =>
      Nat.lt_of_le_of_lt (Nat.le_add_right _ _) (hstep i)
    exact ⟨⟨Nat.lt_of_le_of_lt ((hn.act a).size_le_after as) hsize, hages⟩,
      ih (hn.act a) hcount' hsize hstep⟩

/-! ## The start of a program -/

/-- No entry dies while a thread is started. -/
theorem gains_start {id : Bytes} {p : Program} {opts : Options} (ht : start id p opts = .ok t) :
    Heap.Gains {} t.heap := by
  have hgains := internLiterals_monotone Heap.monotone_gains {} p.instructions.toList
  rw [← (start_eq_ok ht).1] at hgains
  exact hgains

/-- Generations start at zero. -/
theorem gen_start {id : Bytes} {p : Program} {opts : Options} (ht : start id p opts = .ok t)
    (n : Nat) (e : HeapEntry) (he : t.heap.entries[n]? = some e) : e.gen.toNat ≤ 0 := by
  have hstays := gains_start ht n
  rw [he] at hstays
  cases hstays with
  | new hgen =>
    rw [hgen]
    exact Nat.le_refl 0

/-! ## Runs without native functions -/

/-- Without native calls, a thread never gets fewer entries. -/
theorem size_le_after_of_noNative (hno : ∀ i ∈ t.code, i.mnemonic ≠ .callNative)
    (as : List Action) : t.heap.entries.size ≤ (t.after as).heap.entries.size :=
  (addsStrings_of_noNative hno).size_le_after as

/-- Actions leave indices and generations to spare if the entries last and none is freed too often.
-/
theorem spared_after {count : Nat → Nat} (hno : ∀ i ∈ t.code, i.mnemonic ≠ .callNative)
    (hcount : ∀ (i : Nat) (e : HeapEntry), t.heap.entries[i]? = some e → e.gen.toNat ≤ count i)
    {as : List Action} (hsize : (t.after as).heap.entries.size < 2 ^ 32)
    (hfrees : ∀ i, count i + t.freeCount i as < 2 ^ 32) : t.Spared as :=
  (addsStrings_of_noNative hno).spared_after hcount hsize hfrees

end Thread

end RegisterMachine
