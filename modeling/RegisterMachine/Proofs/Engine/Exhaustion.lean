import RegisterMachine.Proofs.Engine.Runs
import RegisterMachine.Proofs.Memory.Copying

/-!
# When all indices have been given out

A reference has 32 bits for the index of its entry, and an arena that has more entries than that
gives indices out again that are in use. What holds of memory below that bound fails beyond it, and
programs get there: `Thread.AtLoop.round` says what one round of a loop comes to, and a loop that
copies a nested array takes two entries in each round (`Thread.CopyLoop.rounds`) until there are as
many as indices (`Thread.CopyLoop.full`). The next copy writes over the array itself, whether it
succeeds (`Heap.Paired.deepCopy_full_ok`) or fails (`Heap.Paired.deepCopy_full_error`).
-/

namespace RegisterMachine

namespace Heap

variable {h h₁ : Heap} {g : UInt32} {n : Nat} {r : Ref} {v : Value}

/-! ## Arenas without free entries -/

/-- The arena with one more entry. -/
def widen (h : Heap) : Heap := { h with entries := h.entries.push ⟨0, true, .void⟩ }

/-- Without a free entry, a new value gets an entry behind the others. -/
theorem alloc_of_dead_eq_nil (hd : h.dead = []) :
    h.alloc .void = (h.widen, ⟨UInt32.ofNat h.entries.size, 0⟩) := by
  simp only [alloc, hd, widen]

@[simp] theorem size_widen (h : Heap) : h.widen.entries.size = h.entries.size + 1 :=
  Array.size_push _

/-- One more entry leaves the others alone. -/
theorem get_widen (hr : h.get r = .ok v) : h.widen.get r = .ok v := by
  rw [get_eq_ok] at hr ⊢
  have hlt := (Array.getElem?_eq_some_iff.1 hr).1
  rw [widen, Array.getElem?_push_lt hlt, ← hr, Array.getElem?_eq_getElem]

/-- The new entry resolves if its index has room in a reference. -/
theorem get_widen_last (hn : h.entries.size < 2 ^ 32) :
    h.widen.get ⟨UInt32.ofNat h.entries.size, 0⟩ = .ok .void := by
  have hindex : (UInt32.ofNat h.entries.size).toNat = h.entries.size := by
    rw [UInt32.toNat_ofNat']
    omega
  rw [get_eq_ok, hindex, widen, Array.getElem?_push_size]

/-- An arena of `n` entries, none of them free, that starts with an empty array, of generation `g`,
and an array that holds it. -/
structure Paired (g : UInt32) (n : Nat) (h : Heap) : Prop where
  dead : h.dead = []
  size : h.entries.size = n
  inner : h.get ⟨0, g⟩ = .ok (.array [])
  outer : h.get ⟨1, 0⟩ = .ok (.array [.heapRef ⟨0, g⟩])

/-- The pair is among the entries. -/
theorem Paired.one_lt (hp : h.Paired g n) : 1 < n :=
  hp.size ▸ (Array.getElem?_eq_some_iff.1 (get_eq_ok.1 hp.outer)).1

/-- Copying the outer array takes two entries, fills the second one and then the first. -/
theorem Paired.deepCopy_eq (hp : h.Paired g n)
    (hfill : h.widen.widen.set ⟨UInt32.ofNat (n + 1), 0⟩ (.array []) = .ok h₁) :
    h.deepCopy (.heapRef ⟨1, 0⟩) =
      match h₁.set ⟨UInt32.ofNat n, 0⟩ (.array [.heapRef ⟨UInt32.ofNat (n + 1), 0⟩]) with
      | .error e => (h₁, .error e)
      | .ok h₂ => (h₂, .ok (.heapRef ⟨UInt32.ofNat n, 0⟩)) := by
  obtain ⟨fuel, hfuel⟩ : ∃ fuel, maxEntries = fuel + 1 + 1 := ⟨4294967294, rfl⟩
  -- The outer array gets the entry behind the last, and its element the next one.
  have htake : CopyState.take ⟨h, []⟩ ⟨1, 0⟩ = ⟨h.widen, [(⟨1, 0⟩, ⟨UInt32.ofNat n, 0⟩)]⟩ := by
    rw [CopyState.take, alloc_of_dead_eq_nil hp.dead, hp.size]
  have helement : ∃ copied, copyValue (fuel + 1) ⟨h.widen, [(⟨1, 0⟩, ⟨UInt32.ofNat n, 0⟩)]⟩
      (.heapRef ⟨0, g⟩) = (⟨h₁, copied⟩, .ok (.heapRef ⟨UInt32.ofNat (n + 1), 0⟩)) := by
    rw [copyValue_succ rfl (get_widen hp.inner), CopyState.take,
      alloc_of_dead_eq_nil (h := h.widen) hp.dead, size_widen, hp.size]
    simp only [copyContent, copyAll, copyValue.finish, hfill]
    exact ⟨_, rfl⟩
  obtain ⟨copied, helement⟩ := helement
  rw [deepCopy, hfuel, copyValue_succ rfl hp.outer, htake, alloc_of_dead_eq_nil hp.dead, hp.size,
    copyContent]
  simp only [copyAll, helement, copyValue.finish]
  cases h₁.set ⟨UInt32.ofNat n, 0⟩ (.array [.heapRef ⟨UInt32.ofNat (n + 1), 0⟩]) <;> rfl

/-- While there is room for two more indices, the copy gets new entries, and the pair stays. -/
theorem Paired.copied (hp : h.Paired g n) (hn : n + 2 ≤ 2 ^ 32) : ∃ h',
    h.deepCopy (.heapRef ⟨1, 0⟩) = (h', .ok (.heapRef ⟨UInt32.ofNat n, 0⟩)) ∧
      h'.Paired g (n + 2) := by
  have hlt := hp.one_lt
  have hfirst : (UInt32.ofNat n).toNat = n := by rw [UInt32.toNat_ofNat']; omega
  have hsecond : (UInt32.ofNat (n + 1)).toNat = n + 1 := by rw [UInt32.toNat_ofNat']; omega
  have hne : (⟨UInt32.ofNat n, 0⟩ : Ref) ≠ ⟨UInt32.ofNat (n + 1), 0⟩ := by
    intro he
    have hindex := congrArg (·.index.toNat) he
    dsimp only at hindex
    omega
  have houter : h.widen.widen.get ⟨UInt32.ofNat n, 0⟩ = .ok .void :=
    get_widen (hp.size ▸ get_widen_last (hp.size ▸ by omega))
  have hinner : h.widen.widen.get ⟨UInt32.ofNat (n + 1), 0⟩ = .ok .void := by
    simpa [hp.size] using get_widen_last (h := h.widen) (by rw [size_widen, hp.size]; omega)
  obtain ⟨h₁, hfill⟩ := exists_set_eq_ok hinner (.array [])
  obtain ⟨h₂, hlink⟩ := exists_set_eq_ok ((get_set hfill).2 (.inr ⟨hne, houter⟩))
    (.array [.heapRef ⟨UInt32.ofNat (n + 1), 0⟩])
  have hkeeps : ∀ {r v}, r.index.toNat ≤ 1 → h.get r = .ok v → h₂.get r = .ok v := by
    intro r v hr hget
    refine (get_set hlink).2 (.inr ⟨?_, (get_set hfill).2 (.inr ⟨?_, get_widen (get_widen hget)⟩)⟩)
    all_goals
      rintro rfl
      dsimp only at hr
      omega
  obtain ⟨hsize₁, hdead₁⟩ := fixed_set hfill
  obtain ⟨hsize₂, hdead₂⟩ := fixed_set hlink
  refine ⟨h₂, by rw [hp.deepCopy_eq hfill, hlink], ?_, ?_, hkeeps (Nat.zero_le 1) hp.inner,
    hkeeps (Nat.le_refl 1) hp.outer⟩
  · rw [hdead₂, hdead₁]
    exact hp.dead
  · rw [hsize₂, hsize₁, size_widen, size_widen, hp.size]

/-- When all indices have been given out, the copies get the first two: the copy of the inner array
is put where the outer one is, and the outer copy where the inner one is. -/
theorem Paired.deepCopy_full (hp : h.Paired g (2 ^ 32)) :
    ∃ h₁ : Heap, h₁.get ⟨1, 0⟩ = .ok (.array []) ∧ h₁.get ⟨0, g⟩ = .ok (.array []) ∧
      h.deepCopy (.heapRef ⟨1, 0⟩) =
        match h₁.set ⟨0, 0⟩ (.array [.heapRef ⟨1, 0⟩]) with
        | .error e => (h₁, .error e)
        | .ok h₂ => (h₂, .ok (.heapRef ⟨0, 0⟩)) := by
  obtain ⟨h₁, hfill⟩ := exists_set_eq_ok (get_widen (get_widen hp.outer)) (.array [])
  refine ⟨h₁, (get_set hfill).2 (.inl ⟨rfl, rfl⟩), ?_, hp.deepCopy_eq hfill⟩
  exact (get_set hfill).2 (.inr ⟨by simp, get_widen (get_widen hp.inner)⟩)

/-- **A copy takes over entries that are in use** when all indices have been given out. -/
theorem Paired.deepCopy_full_ok (hp : h.Paired 0 (2 ^ 32)) :
    ∃ h', h.deepCopy (.heapRef ⟨1, 0⟩) = (h', .ok (.heapRef ⟨0, 0⟩)) ∧
      h'.get ⟨0, 0⟩ = .ok (.array [.heapRef ⟨1, 0⟩]) ∧ h'.get ⟨1, 0⟩ = .ok (.array []) := by
  obtain ⟨h₁, houter, hinner, he⟩ := hp.deepCopy_full
  obtain ⟨h₂, hlink⟩ := exists_set_eq_ok hinner (.array [.heapRef ⟨1, 0⟩])
  rw [hlink] at he
  exact ⟨h₂, he, (get_set hlink).2 (.inl ⟨rfl, rfl⟩),
    (get_set hlink).2 (.inr ⟨by simp, houter⟩)⟩

/-- **A copy that fails has written an entry that is in use**: the first entry has another
generation than a new one, so the outer copy cannot be put there, after the inner one was put over
the outer array. -/
theorem Paired.deepCopy_full_error (hp : h.Paired g (2 ^ 32)) (hg : g ≠ 0) :
    ∃ h' e, h.deepCopy (.heapRef ⟨1, 0⟩) = (h', .error e) ∧ h'.get ⟨1, 0⟩ = .ok (.array []) := by
  obtain ⟨h₁, houter, hinner, he⟩ := hp.deepCopy_full
  cases hlink : h₁.set ⟨0, 0⟩ (.array [.heapRef ⟨1, 0⟩]) with
  | error e => exact ⟨h₁, e, by rw [he, hlink], houter⟩
  | ok h₂ =>
    obtain ⟨⟨w, hw⟩, _⟩ := set_eq_ok.1 hlink
    cases eq_of_index_eq hinner hw rfl
    exact absurd rfl hg

end Heap

namespace Thread

variable {t u : Thread} {f : Frame} {g : UInt32} {n : Nat} {h : Heap} {i : Instruction} {r q : Ref}

/-! ## Loops of one instruction -/

/-- The thread is at instruction `i` of a loop: behind it stands a jump back to it. -/
structure AtLoop (f : Frame) (i : Instruction) (t : Thread) : Prop where
  live : t.exit = none
  frames : t.stack.frames = [f]
  code : t.code[f.pc]? = some i
  back : ∃ a : UInt64, t.code[f.pc + 1]? = some ⟨.jump, .absolute a⟩ ∧ a.toNat = f.pc

/-- **One round of a loop** comes to what its instruction makes of the thread, as long as that
leaves code and stack alone; the thread is at the instruction again. -/
theorem AtLoop.round (ht : t.AtLoop f i)
    (hexec : t.counted.exec f i = .ok (.next, u.jumpTo (f.pc + 1))) (hlive : u.exit = none)
    (hstack : u.stack = t.stack) (hcode : u.code = t.code) :
    t.ahead 2 = u.counted ∧ u.counted.AtLoop f i := by
  have hu : u.AtLoop f i := ⟨hlive, hstack ▸ ht.frames, hcode ▸ ht.code, hcode ▸ ht.back⟩
  obtain ⟨a, hback, ha⟩ := hu.back
  have hinside : a.toNat < u.code.size := ha ▸ (Array.getElem?_eq_some_iff.1 hu.code).1
  have hstep : t.step.2 = u.jumpTo (f.pc + 1) :=
    step_of_exec ht.live ht.frames ht.code hexec hlive
  have hframes : (u.jumpTo (f.pc + 1)).stack.frames = [{ f with pc := f.pc + 1 }] :=
    Stack.frames_jump hu.frames (f.pc + 1)
  refine ⟨?_, hu.live, hu.frames, hu.code, hu.back⟩
  show t.step.2.step.2 = u.counted
  rw [hstep, step_of_jump (t := u.jumpTo (f.pc + 1)) hlive hframes hback hinside, ha]
  show { u.counted with stack := (u.stack.jump (f.pc + 1)).jump f.pc } = u.counted
  rw [Stack.jump_jump, Stack.jump_self hu.frames]
  rfl

/-! ## Copying without end -/

/-- The instruction puts a copy of what the reference leads to into A: it loads a literal, or copies
a slot. -/
inductive Copies (t : Thread) (f : Frame) (r : Ref) : Instruction → Prop
  | literal : r ∈ t.literals → Copies t f r ⟨.load .a, .immediate (.heapRef r)⟩
  | clone {n : UInt64} : t.getLocal f n.toNat = .ok (.heapRef r) →
      Copies t f r ⟨.clone, .absolute n⟩

/-- A copy that succeeds gets into A. -/
theorem Copies.exec_ok (hi : t.Copies f r i)
    (hcopy : t.heap.deepCopy (.heapRef r) = (h, .ok (.heapRef q))) :
    t.exec f i =
      .ok (.next, ({ t with heap := h }.setRegister .a (.heapRef q)).jumpTo (f.pc + 1)) := by
  cases hi with
  | literal hr =>
    have himmediate : t.immediate (.heapRef r) = (h, .ok (.heapRef q)) := by
      rw [← hcopy]
      exact if_pos (List.contains_iff_mem.2 hr)
    simp only [exec, execLoad, load, himmediate, Except.mapError]
  | clone hget => simp only [exec, execClone, hget, hcopy]

/-- A copy that fails leaves its heap behind. -/
theorem Copies.exec_error {e : MemoryError} (hi : t.Copies f r i)
    (hcopy : t.heap.deepCopy (.heapRef r) = (h, .error e)) :
    t.exec f i = .error ⟨.memory e, h⟩ := by
  cases hi with
  | literal hr =>
    have himmediate : t.immediate (.heapRef r) = (h, .error e) := by
      rw [← hcopy]
      exact if_pos (List.contains_iff_mem.2 hr)
    simp only [exec, execLoad, load, himmediate, Except.mapError]
  | clone hget => simp only [exec, execClone, hget, hcopy]

/-- What is copied does not depend on the heap, the registers or the counter. -/
theorem Copies.congr (hi : t.Copies f r i) (hliterals : u.literals = t.literals)
    (hslots : u.stack.slots = t.stack.slots) : u.Copies f r i := by
  cases hi with
  | literal hr => exact .literal (hliterals ▸ hr)
  | clone hget =>
    refine .clone ?_
    rw [← hget]
    simp only [getLocal, Stack.get, hslots]

/-- The thread is at an instruction of a loop that copies the outer array of the pair. -/
structure CopyLoop (f : Frame) (g : UInt32) (n : Nat) (t : Thread) : Prop where
  copies : ∃ i, t.AtLoop f i ∧ t.Copies f ⟨1, 0⟩ i
  heap : t.heap.Paired g n

/-- A copy that succeeds is in A after the step. -/
theorem CopyLoop.copied (ht : t.CopyLoop f g n)
    (hcopy : t.heap.deepCopy (.heapRef ⟨1, 0⟩) = (h, .ok (.heapRef q))) :
    t.step.2 =
      ({ t.counted with heap := h }.setRegister .a (.heapRef q)).jumpTo (f.pc + 1) := by
  obtain ⟨i, hat, hi⟩ := ht.copies
  have hexec := Copies.exec_ok (t := t.counted) (hi.congr rfl rfl) hcopy
  exact step_of_exec hat.live hat.frames hat.code hexec hat.live

/-- A copy that fails ends the thread with a panic and leaves its heap. -/
theorem CopyLoop.failed (ht : t.CopyLoop f g n) {e : MemoryError}
    (hcopy : t.heap.deepCopy (.heapRef ⟨1, 0⟩) = (h, .error e)) :
    t.exit = none ∧ (∃ p, t.step.2.exit = some (.panicked p)) ∧ t.step.2.heap = h := by
  obtain ⟨i, hat, hi⟩ := ht.copies
  have hexec := Copies.exec_error (t := t.counted) (hi.congr rfl rfl) hcopy
  rw [step_of_exec_error hat.live hat.frames hat.code hexec]
  exact ⟨hat.live, ⟨_, rfl⟩, rfl⟩

/-- One round of the loop adds two entries. -/
theorem CopyLoop.round (ht : t.CopyLoop f g n) (hn : n + 2 ≤ 2 ^ 32) :
    (t.ahead 2).CopyLoop f g (n + 2) := by
  obtain ⟨h, hcopy, hheap⟩ := ht.heap.copied hn
  obtain ⟨i, hat, hi⟩ := ht.copies
  have hexec := Copies.exec_ok (t := t.counted) (hi.congr rfl rfl) hcopy
  obtain ⟨hround, hback⟩ := hat.round hexec hat.live rfl rfl
  rw [hround]
  exact ⟨⟨i, hback, hi.congr rfl rfl⟩, hheap⟩

/-- **The loop goes on as long as there are indices.** -/
theorem CopyLoop.rounds (ht : t.CopyLoop f g n) (m : Nat) (hn : n + 2 * m ≤ 2 ^ 32) :
    (t.ahead (2 * m)).CopyLoop f g (n + 2 * m) := by
  induction m with
  | zero => exact ht
  | succ m ih =>
    rw [Nat.mul_succ, ahead_add]
    exact (ih (by omega)).round (by omega)

/-- **The loop gets to where all indices have been given out.** -/
theorem CopyLoop.full (ht : t.CopyLoop f g 2) :
    ∃ s, t.ahead (2 * (2 ^ 31 - 1)) = s ∧ s.CopyLoop f g (2 ^ 32) := by
  have hcount : 2 + 2 * (2 ^ 31 - 1) = 2 ^ 32 := by decide
  have hrounds := ht.rounds (2 ^ 31 - 1) (Nat.le_of_eq hcount)
  rw [hcount] at hrounds
  exact ⟨_, rfl, hrounds⟩

end Thread

end RegisterMachine
