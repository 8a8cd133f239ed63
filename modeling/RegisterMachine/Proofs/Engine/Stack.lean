import Mathlib.Algebra.Group.Int.Defs
import Mathlib.Algebra.Group.Nat.Defs
import RegisterMachine.Engine.Stack

/-!
# The layout of the stack

What the operations on stack memory do when they succeed, and the shape that they keep: every
frame's window starts where its caller's ends, is as long as the function's body, and the slots end
with the current frame's window (`Stack.Laid`). A write into the window of the current frame leaves
the slots below the window alone, so a caller's slots are out of its callees' reach.
-/

namespace RegisterMachine

/-- The address of a local lies in the window. -/
theorem Frame.slot_eq_ok {f : Frame} {n slot : Nat} :
    f.slot n = .ok slot ↔ n < f.window ∧ slot = f.base + n := by
  rw [Frame.slot]
  split
  · simp; omega
  · simp; omega

/-- An instruction has a slot when it lies in the function's body. -/
theorem Frame.ownSlot_eq_ok {f : Frame} {pc slot : Nat} :
    f.ownSlot pc = .ok slot ↔ f.entry ≤ pc ∧ pc < f.stop ∧ slot = f.base + pc - f.entry := by
  rw [Frame.ownSlot]
  split
  · simp; omega
  · simp; omega

namespace Stack

variable {s s' : Stack}

/-- What is read from a slot stands in it. -/
theorem get_eq_ok {i : Int} {v : Value} :
    s.get i = .ok v ↔ 0 ≤ i ∧ s.slots[i.toNat]? = some v := by
  rw [get]
  by_cases hi : i < 0
  · simp only [hi, if_true, reduceCtorEq, false_iff]
    omega
  · simp only [hi, if_false]
    cases s.slots[i.toNat]? with
    | none => simp
    | some w => simp; omega

/-- Writing a slot changes it, if it exists. -/
theorem set_eq_ok {i : Int} {v : Value} :
    s.set i v = .ok s' ↔
      (0 ≤ i ∧ i.toNat < s.slots.size) ∧ { s with slots := s.slots.setIfInBounds i.toNat v } =
        s' := by
  rw [set]
  split
  · next h => simp [h]
  · next h => simp [h]

/-- A frame is pushed exactly if it keeps within the limit, and it brings its slots along. -/
theorem push_eq_ok {f : Frame} :
    s.push f = .ok s' ↔ f.base + f.window ≤ s.limit ∧
      { s with
        slots := s.slots ++ Array.replicate (f.base + f.window - s.slots.size) .void
        frames := f :: s.frames } = s' := by
  rw [push]
  split
  · simp; omega
  · simp; omega

/-- The window of a new frame is void where it lies behind the slots that there were. -/
theorem window_push {f : Frame} (h : s.push f = .ok s') (hbase : s.slots.size ≤ f.base) {n : Nat}
    (hn : n < f.window) : s'.slots[f.base + n]? = some .void := by
  obtain ⟨_, rfl⟩ := push_eq_ok.1 h
  dsimp only
  rw [Array.getElem?_append_right (by omega), Array.getElem?_replicate, if_pos (by omega)]

/-- A jump moves the counter of the current frame and leaves the callers alone. -/
theorem frames_jump {f : Frame} {rest : List Frame} (h : s.frames = f :: rest) (pc : Nat) :
    (s.jump pc).frames = { f with pc } :: rest := by
  rw [jump, h]

/-- The second of two jumps decides. -/
theorem jump_jump (s : Stack) (m n : Nat) : (s.jump m).jump n = s.jump n := by
  obtain ⟨slots, frames, limit⟩ := s
  cases frames <;> rfl

/-- A jump to the instruction where the counter is leaves the stack as it was. -/
theorem jump_self {f : Frame} {rest : List Frame} (h : s.frames = f :: rest) : s.jump f.pc = s := by
  obtain ⟨slots, frames, limit⟩ := s
  cases h
  rfl

@[simp] theorem slots_jump (s : Stack) (pc : Nat) : (s.jump pc).slots = s.slots := by
  rw [jump]
  split <;> rfl

@[simp] theorem limit_jump (s : Stack) (pc : Nat) : (s.jump pc).limit = s.limit := by
  rw [jump]
  split <;> rfl

/-- Each window starts where the caller's ends and has a slot for each instruction of the body. -/
def LaidFrames : List Frame → Prop
  | [] => True
  | f :: rest => f.base = extent rest ∧ f.window = f.stop - f.entry ∧ LaidFrames rest

/-- The frames are laid out one after the other, and the slots end with the current one. -/
structure Laid (s : Stack) : Prop where
  frames : LaidFrames s.frames
  size : s.slots.size = extent s.frames

/-- A frame pushed behind the current one is laid out behind it. -/
theorem Laid.push (h : s.Laid) {f : Frame} (hbase : f.base = extent s.frames)
    (hwindow : f.window = f.stop - f.entry) (hs : s.push f = .ok s') : s'.Laid := by
  obtain ⟨_, rfl⟩ := push_eq_ok.1 hs
  refine ⟨⟨hbase, hwindow, h.frames⟩, ?_⟩
  have hsize := h.size
  simp only [Array.size_append, Array.size_replicate, extent]
  omega

/-- Without the current frame the others are still laid out, and there are slots for all of them. -/
theorem Laid.tail (h : s.Laid) {f : Frame} {rest : List Frame} (hf : s.frames = f :: rest) :
    LaidFrames rest ∧ extent rest ≤ s.slots.size := by
  obtain ⟨hframes, hsize⟩ := h
  rw [hf] at hframes hsize
  obtain ⟨hbase, _, hrest⟩ := hframes
  refine ⟨hrest, ?_⟩
  rw [hsize, extent, hbase]
  omega

/-- The slot of an instruction lies in the window of its frame. -/
theorem LaidFrames.base_le_slot {f : Frame} {rest : List Frame} {slot : Nat}
    (h : LaidFrames (f :: rest)) (hslot : f.ownSlot f.pc = .ok slot ∨ ∃ n, f.slot n = .ok slot) :
    extent rest ≤ slot ∧ slot < f.base + f.window := by
  obtain ⟨hbase, hwindow, _⟩ := h
  rcases hslot with hslot | ⟨n, hslot⟩
  · obtain ⟨h1, h2, h3⟩ := Frame.ownSlot_eq_ok.1 hslot
    omega
  · obtain ⟨h1, h2⟩ := Frame.slot_eq_ok.1 hslot
    omega

end Stack

end RegisterMachine
