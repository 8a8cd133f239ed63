import RegisterMachine.Engine.Fault

/-!
# Heap memory

An arena of entries for strings, arrays and whatever else lives outside the stack. A freed entry
keeps its index and gets a new generation, so that references taken before are known to be stale;
the entry freed last is used again first. `Heap.reclaim` frees what cannot be reached from given
values.
-/

namespace RegisterMachine

/-- One entry of the arena. -/
structure HeapEntry where
  gen : UInt32
  live : Bool
  value : Value
  deriving DecidableEq, Inhabited

/-- The arena of a thread. -/
structure Heap where
  entries : Array HeapEntry := #[]
  /-- The indices of dead entries, the one freed last first. -/
  dead : List Nat := []
  deriving DecidableEq, Inhabited

namespace Heap

/-- Stores a value in a free entry, or else in a new one. -/
def alloc (h : Heap) (v : Value) : Heap × Ref :=
  match h.dead with
  | i :: rest =>
    let gen := (h.entries.getD i default).gen
    ({ entries := h.entries.setIfInBounds i ⟨gen, true, v⟩, dead := rest }, ⟨UInt32.ofNat i, gen⟩)
  | [] =>
    ({ h with entries := h.entries.push ⟨0, true, v⟩ }, ⟨UInt32.ofNat h.entries.size, 0⟩)

/-- The value behind a reference. -/
def get (h : Heap) (r : Ref) : Except MemoryError Value :=
  match h.entries[r.index.toNat]? with
  | none => .error (.heapOutside r h.entries.size)
  | some e => if e.live && e.gen == r.gen then .ok e.value else .error (.stale r)

/-- Replaces the value behind a reference. -/
def set (h : Heap) (r : Ref) (v : Value) : Except MemoryError Heap :=
  match h.get r with
  | .error e => .error e
  | .ok _ => .ok { h with entries := h.entries.setIfInBounds r.index.toNat ⟨r.gen, true, v⟩ }

/-- Kills the entry behind a reference. -/
def free (h : Heap) (r : Ref) : Except MemoryError Heap :=
  match h.get r with
  | .error e => .error e
  | .ok _ =>
    .ok
      { entries := h.entries.setIfInBounds r.index.toNat ⟨r.gen + 1, false, .void⟩
        dead := r.index.toNat :: h.dead }

/-- The number of live entries. -/
def live (h : Heap) : Nat := h.entries.size - h.dead.length

/-- The number of entries, live or not. -/
def capacity (h : Heap) : Nat := h.entries.size

/-- A live entry with its reference. -/
structure View where
  ref : Ref
  value : Value
  deriving DecidableEq, Inhabited

/-- The live entries in index order. -/
def view (h : Heap) : List View :=
  h.entries.toList.zipIdx.filterMap fun (e, i) =>
    if e.live then some ⟨⟨UInt32.ofNat i, e.gen⟩, e.value⟩ else none

end Heap

mutual

/-- Puts the references in a value in front of a list. -/
def Value.refsOnto : Value → List Ref → List Ref
  | .heapRef r, found => r :: found
  | .array es, found => Value.refsAllOnto es found
  | _, found => found

/-- Puts the references in the elements of an array in front of a list. -/
def Value.refsAllOnto : List Value → List Ref → List Ref
  | [], found => found
  | v :: vs, found => Value.refsAllOnto vs (Value.refsOnto v found)

end

namespace Heap

/-- Marks the entry behind a reference and notes the references in it, unless it is already marked
or the reference leads nowhere. -/
def markOne (h : Heap) : Array Bool × List Ref → Ref → Array Bool × List Ref
  | (marked, found), r =>
    match h.get r with
    | .error _ => (marked, found)
    | .ok v =>
      if marked.getD r.index.toNat false then (marked, found)
      else (marked.setIfInBounds r.index.toNat true, v.refsOnto found)

/-- Marks what can be reached from the references in at most `rounds` steps. -/
def mark (h : Heap) : Nat → Array Bool → List Ref → Array Bool
  | 0, marked, _ => marked
  | rounds + 1, marked, refs =>
    let (marked, found) := refs.foldl h.markOne (marked, [])
    if found.isEmpty then marked else h.mark rounds marked found

/-- The entries that can be reached from the given values. Every round but the last marks an entry,
so there are no more rounds than entries. -/
def reachable (h : Heap) (roots : List Value) : Array Bool :=
  h.mark (h.entries.size + 1) (Array.replicate h.entries.size false)
    (Value.refsAllOnto roots [])

/-- Kills an entry if it is live and not marked, and counts it. -/
def sweepOne (marked : Array Bool) : Heap × Nat → Nat → Heap × Nat
  | (h, n), i =>
    match h.entries[i]? with
    | some e =>
      if e.live && !marked.getD i false then
        ({ entries := h.entries.setIfInBounds i ⟨e.gen + 1, false, .void⟩, dead := i :: h.dead },
          n + 1)
      else (h, n)
    | none => (h, n)

/-- Frees every live entry that cannot be reached from the roots, in index order, and says how many
those are. -/
def reclaim (h : Heap) (roots : List Value) : Heap × Nat :=
  (List.range h.entries.size).foldl (sweepOne (h.reachable roots)) (h, 0)

end Heap

end RegisterMachine
