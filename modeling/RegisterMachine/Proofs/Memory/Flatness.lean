import RegisterMachine.Engine.Thread
import RegisterMachine.Proofs.Memory.Copying

/-!
# Values do not nest

What a register or a slot holds is neither a string nor an array (`Value.isCell`): these live in the
heap, where the elements of an array are such values again (`Value.isFlat`). Nothing else lives
there, apart from the void of an entry that is free or waits for its content (`Value.isStored`).
Every operation on a heap keeps its entries so (`Heap.Flat`): moving a literal in and copying deeply
give a reference for each string and array on the way.
-/

namespace RegisterMachine

/-- The value fits a register or a slot. -/
def Value.isCell : Value → Bool
  | .string _ | .array _ => false
  | _ => true

/-- The value has no strings or arrays inside. -/
def Value.isFlat : Value → Bool
  | .array es => es.all Value.isCell
  | _ => true

/-- The value is what an entry holds: a string, an array without strings or arrays inside, or
void. -/
def Value.isStored : Value → Bool
  | .array es => es.all Value.isCell
  | .string _ | .void => true
  | _ => false

/-- What an entry holds has no strings or arrays inside. -/
theorem Value.isFlat_of_isStored {v : Value} (hv : v.isStored = true) : v.isFlat = true := by
  cases v with
  | array es => exact hv
  | _ => rfl

/-- What fits a register has no strings or arrays inside. -/
theorem Value.isFlat_of_isCell {v : Value} (hv : v.isCell = true) : v.isFlat = true := by
  cases v with
  | array es => cases hv
  | _ => rfl

/-- An array is flat exactly if its elements fit registers. -/
theorem Value.isFlat_array {es : List Value} :
    (array es).isFlat = true ↔ ∀ e ∈ es, e.isCell = true :=
  List.all_eq_true

/-- An array may stand in an entry exactly if its elements fit registers. -/
theorem Value.isStored_array {es : List Value} :
    (array es).isStored = true ↔ ∀ e ∈ es, e.isCell = true :=
  List.all_eq_true

namespace Heap

/-- All entries hold what they may, the free ones too. -/
def Flat (h : Heap) : Prop := ∀ e ∈ h.entries, e.value.isStored = true

variable {h h' : Heap} {r : Ref} {v : Value}

/-- An empty heap is flat. -/
theorem flat_empty : ({} : Heap).Flat := fun e he => by simp at he

/-- What is read from a flat heap is what an entry may hold. -/
theorem Flat.get (hf : h.Flat) (hr : h.get r = .ok v) : v.isStored = true :=
  hf ⟨r.gen, true, v⟩ (Array.mem_of_getElem? (get_eq_ok.1 hr))

/-- An element of an array in the heap fits a slot. -/
theorem Flat.element (hf : h.Flat) {es : List Value} (hr : h.get r = .ok (.array es))
    (hv : v ∈ es) : v.isCell = true :=
  Value.isStored_array.1 (hf.get hr) v hv

/-- An entry is overwritten with what it may hold. -/
theorem Flat.put (hf : h.Flat) {e : HeapEntry} (he : e.value.isStored = true) (i : Nat)
    (dead : List Nat) : Flat { entries := h.entries.setIfInBounds i e, dead } := by
  intro x hx
  rcases Array.mem_or_eq_of_mem_setIfInBounds hx with hx | rfl
  · exact hf x hx
  · exact he

/-- Allocating an entry for what it may hold keeps a heap flat. -/
theorem Flat.alloc (hf : h.Flat) (hv : v.isStored = true) : (h.alloc v).1.Flat := by
  unfold Heap.alloc
  split
  · exact hf.put hv _ _
  · intro x hx
    rcases Array.mem_push.1 hx with hx | rfl
    · exact hf x hx
    · exact hv

/-- Writing what an entry may hold keeps a heap flat. -/
theorem Flat.set (hf : h.Flat) (hv : v.isStored = true) (hs : h.set r v = .ok h') : h'.Flat := by
  unfold Heap.set at hs
  split at hs
  · cases hs
  · cases hs
    exact hf.put hv _ _

/-- Freeing an entry keeps a heap flat. -/
theorem Flat.free (hf : h.Flat) (hs : h.free r = .ok h') : h'.Flat := by
  obtain ⟨_, rfl⟩ := free_eq_ok.1 hs
  exact hf.put (e := ⟨r.gen + 1, false, .void⟩) rfl _ _

/-- A reclaim keeps a heap flat. -/
theorem Flat.reclaim (hf : h.Flat) (roots : List Value) : (h.reclaim roots).1.Flat :=
  reclaim_induction (fun hf _ _ => hf.put rfl _ _) hf roots

/-! ## Literals -/

mutual

/-- **A literal is moved into the heap as a reference**, and leaves the heap flat. -/
theorem Flat.intern : (h : Heap) → (v : Value) → h.Flat →
    (h.intern v).1.Flat ∧ (h.intern v).2.isCell = true
  | h, .string s, hf => ⟨hf.alloc (v := .string s) rfl, rfl⟩
  | h, .array es, hf => by
    obtain ⟨hflat, hcells⟩ := Flat.internAll h es hf
    rw [Heap.intern]
    exact ⟨hflat.alloc (Value.isStored_array.2 hcells), rfl⟩
  | h, .int .., hf | h, .float _, hf | h, .double _, hf | h, .byte _, hf | h, .bool _, hf
  | h, .char _, hf | h, .void, hf | h, .null, hf | h, .function _, hf | h, .stackRef _, hf
  | h, .heapRef _, hf => ⟨hf, rfl⟩

/-- Moving values into a heap keeps it flat and gives values that fit registers. -/
theorem Flat.internAll : (h : Heap) → (vs : List Value) → h.Flat →
    (h.internAll vs).1.Flat ∧ ∀ w ∈ (h.internAll vs).2, w.isCell = true
  | h, [], hf => ⟨hf, fun _ hw => nomatch hw⟩
  | h, v :: vs, hf => by
    obtain ⟨hv, hcell⟩ := Flat.intern h v hf
    obtain ⟨hvs, hcells⟩ := Flat.internAll (h.intern v).1 vs hv
    rw [Heap.internAll]
    exact ⟨hvs, List.forall_mem_cons.2 ⟨hcell, hcells⟩⟩

end

end Heap

/-! ## Copies -/

/-- What copying comes to: the heap is flat, and what is copied has the property. -/
structure FlatCopy {α : Type} (P : α → Prop) (res : CopyState × Except MemoryError α) : Prop where
  heap : res.1.heap.Flat
  copy : ∀ {a}, res.2 = .ok a → P a

/-- A copy that fails leaves a flat heap behind. -/
theorem flatCopy_error {α : Type} {P : α → Prop} {st : CopyState} (hf : st.heap.Flat)
    (e : MemoryError) : FlatCopy P (st, .error e) :=
  ⟨hf, fun h => by cases h⟩

/-- Writing a finished copy keeps the heap flat. -/
theorem flatCopy_finish {st : CopyState} (hf : st.heap.Flat) {c : Value} (hc : c.isStored = true)
    (dst : Ref) : FlatCopy (fun w : Value => w.isCell = true) (copyValue.finish st dst c) := by
  rw [copyValue.finish]
  split
  · exact flatCopy_error hf _
  · next hs => exact ⟨hf.set hc hs, fun h => by cases h; rfl⟩

/-- Copying values one after the other, given what copying one comes to. -/
theorem flatCopy_all {fuel : Nat} {vs : List Value}
    (hcopy : ∀ (st : CopyState) v, st.heap.Flat → v.isCell = true →
      FlatCopy (fun w : Value => w.isCell = true) (copyValue fuel st v))
    {st : CopyState} (hf : st.heap.Flat) (hvs : ∀ v ∈ vs, v.isCell = true) :
    FlatCopy (fun ws : List Value => ∀ w ∈ ws, w.isCell = true)
      (copyAll (copyValue fuel) st vs) := by
  induction vs generalizing st with
  | nil => exact ⟨hf, fun h w hw => by cases h; cases hw⟩
  | cons v vs ih =>
    obtain ⟨hv, hvs⟩ := List.forall_mem_cons.1 hvs
    have hone := hcopy st v hf hv
    rw [copyAll_cons]
    generalize copyValue fuel st v = res at hone ⊢
    obtain ⟨st', e | w⟩ := res
    · exact flatCopy_error hone.heap e
    · have hall := ih hone.heap hvs
      refine ⟨hall.heap, fun h => ?_⟩
      obtain ⟨ws, hws, rfl⟩ := Except.map_eq_ok.1 h
      exact List.forall_mem_cons.2 ⟨hone.copy rfl, hall.copy hws⟩

/-- **Copying keeps the heap flat**, and the copy of what fits a slot does so too. -/
theorem flatCopy_copyValue (fuel : Nat) (st : CopyState) (v : Value) (hf : st.heap.Flat)
    (hv : v.isCell = true) : FlatCopy (fun w : Value => w.isCell = true) (copyValue fuel st v) := by
  induction fuel using Nat.strongRecOn generalizing st v with
  | ind fuel ih =>
    by_cases href : ∃ src, v = .heapRef src
    · obtain ⟨src, rfl⟩ := href
      obtain ⟨dst, _, he⟩ | ⟨_, ⟨e, _, he⟩ | ⟨c, _, _, he⟩ | ⟨n, c, rfl, hget, he⟩⟩ :=
        copyValue_cases fuel st src
      · rw [he]; exact ⟨hf, fun h => by cases h; rfl⟩
      · rw [he]; exact flatCopy_error hf _
      · rw [he]; exact flatCopy_error hf _
      · rw [he]
        have hc := hf.get hget
        have htake : (st.take src).heap.Flat := hf.alloc (v := .void) rfl
        unfold copyContent
        split
        · next es =>
          have hall := flatCopy_all (ih n (Nat.lt_succ_self n)) htake (Value.isStored_array.1 hc)
          split
          · next hres =>
            rw [hres] at hall
            exact flatCopy_error hall.heap _
          · next hres =>
            rw [hres] at hall
            exact flatCopy_finish hall.heap (Value.isStored_array.2 (hall.copy rfl)) _
        · exact flatCopy_finish htake hc _
    · rw [copyValue_of_ne fun r hr => href ⟨r, hr⟩]
      exact ⟨hf, fun h => by cases h; exact hv⟩

/-- A deep copy keeps the heap flat and fits a slot. -/
theorem Heap.Flat.deepCopy {h : Heap} {v : Value} (hf : h.Flat) (hv : v.isCell = true) :
    (h.deepCopy v).1.Flat ∧ ∀ {w}, (h.deepCopy v).2 = .ok w → w.isCell = true := by
  have hcopy := flatCopy_copyValue Heap.maxEntries ⟨h, []⟩ v hf hv
  exact ⟨hcopy.heap, hcopy.copy⟩

end RegisterMachine
