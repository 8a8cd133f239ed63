import RegisterMachine.Proofs.Memory.Flatness
import RegisterMachine.Proofs.Memory.Generations

/-!
# Entries that wait for their content

An arena is complete when every live entry holds a string or an array (`Heap.Complete`). A deep copy
takes a void entry for each string and array that it reaches and fills it later, when the elements
are copied. If none of the references on the way leads to an entry that was taken for the copy
itself, then no entry is left void in the end (`Heap.Complete.deepCopy`): this is so when all of
them were handed out before the copy began (`Heap.Authentic`), because an entry taken later has a
reference that never was.
-/

namespace RegisterMachine

namespace Heap

variable {store h h₁ h₂ h' : Heap} {r : Ref} {v c : Value}

/-- Every live entry holds a string or an array. -/
def Complete (h : Heap) : Prop := ∀ e ∈ h.entries, e.live = true → e.value.isCell = false

/-- All references in the value were handed out. -/
def Authentic (h : Heap) (v : Value) : Prop := ∀ r, v.Mentions r → h.Issued r

/-- What is read from a complete heap is a string or an array. -/
theorem Complete.get (hc : h.Complete) (hr : h.get r = .ok v) : v.isCell = false :=
  hc _ (Array.mem_of_getElem? (get_eq_ok.1 hr)) rfl

/-- An empty heap is complete. -/
theorem complete_empty : ({} : Heap).Complete := fun e he => by simp at he

/-! ## Filling entries -/

/-- A live entry that holds neither a string nor an array stood so before. -/
def Fills (h h' : Heap) : Prop :=
  ∀ (i : Nat) (e : HeapEntry), h'.entries[i]? = some e → e.live = true → e.value.isCell = true →
    h.entries[i]? = some e

/-- Doing nothing is filling. -/
theorem Fills.refl (h : Heap) : h.Fills h := fun _ _ he _ _ => he

/-- Filling twice is filling. -/
theorem Fills.trans (h₁₂ : h.Fills h₁) (h₂₃ : h₁.Fills h₂) : h.Fills h₂ :=
  fun i e he hlive hcell => h₁₂ i e (h₂₃ i e he hlive hcell) hlive hcell

/-- Filling keeps a heap complete. -/
theorem Fills.complete (hf : h.Fills h') (hc : h.Complete) : h'.Complete := by
  intro e he hlive
  obtain ⟨i, hi⟩ := Array.mem_iff_getElem?.1 he
  by_contra hcell
  have hcell : e.value.isCell = true := by simpa using hcell
  have hold := hc e (Array.mem_of_getElem? (hf i e hi hlive hcell)) hlive
  rw [hcell] at hold
  cases hold

/-- Overwriting an entry with a dead one, or with a string or an array. -/
theorem Fills.put (h : Heap) (i : Nat) {e : HeapEntry} (he : e.live = true → e.value.isCell = false)
    (dead : List Nat) : h.Fills ⟨h.entries.setIfInBounds i e, dead⟩ := by
  intro j x hx hlive hcell
  dsimp only at hx
  rw [Array.getElem?_setIfInBounds] at hx
  split at hx
  · split at hx
    · cases hx
      rw [he hlive] at hcell
      cases hcell
    · cases hx
  · exact hx

/-- Allocating an entry for a string or an array is filling. -/
theorem fills_alloc (h : Heap) (hv : v.isCell = false) : h.Fills (h.alloc v).1 := by
  unfold Heap.alloc
  split
  · exact .put h _ (fun _ => hv) _
  · intro i e he hlive hcell
    dsimp only at he
    rw [Array.getElem?_push] at he
    split at he
    · cases he
      rw [hv] at hcell
      cases hcell
    · exact he

/-- Writing a string or an array is filling. -/
theorem fills_set (hv : v.isCell = false) (hs : h.set r v = .ok h') : h.Fills h' := by
  obtain ⟨_, rfl⟩ := set_eq_ok.1 hs
  exact .put h _ (fun _ => hv) _

/-- Freeing an entry is filling. -/
theorem fills_free (hf : h.free r = .ok h') : h.Fills h' := by
  obtain ⟨_, rfl⟩ := free_eq_ok.1 hf
  exact .put h _ (e := ⟨r.gen + 1, false, .void⟩) (fun hlive => nomatch hlive) _

/-- A reclaim keeps a heap complete. -/
theorem Complete.reclaim (hc : h.Complete) (roots : List Value) : (h.reclaim roots).1.Complete :=
  reclaim_induction
    (fun {h i e} hc _ _ => (Fills.put h i (e := ⟨e.gen + 1, false, .void⟩)
      (fun hlive => nomatch hlive) (i :: h.dead)).complete hc) hc roots

/-- **An entry that is taken and filled later** is none that waits. -/
theorem Fills.fill (hw : h.WellFormed) (hsize : (h.alloc v).1.entries.size < 2 ^ 32)
    (hf : (h.alloc v).1.Fills h₁) (hc : c.isCell = false) (hs : h₁.set (h.alloc v).2 c = .ok h') :
    h.Fills h' := by
  obtain ⟨n, gen, href, hn, _, hentries, _⟩ := hw.alloc_cases v hsize
  obtain ⟨_, rfl⟩ := set_eq_ok.1 hs
  intro i e he hlive hcell
  have hindex : (h.alloc v).2.index.toNat = n := by
    rw [href]
    exact hn
  dsimp only at he
  rw [hindex, Array.getElem?_setIfInBounds] at he
  split at he
  · split at he
    · cases he
      rw [hc] at hcell
      cases hcell
    · cases he
  · next hne =>
    have hold := hf i e he hlive hcell
    rw [hentries, if_neg (Ne.symm hne)] at hold
    exact hold

mutual

/-- Moving a value into the heap takes entries for strings and arrays only. -/
theorem fills_intern : (h : Heap) → (v : Value) → h.Fills (h.intern v).1
  | h, .string s => fills_alloc h (v := .string s) rfl
  | h, .array es => by
    rw [Heap.intern]
    exact (fills_internAll h es).trans (fills_alloc _ (v := .array _) rfl)
  | h, .int .. | h, .float _ | h, .double _ | h, .byte _ | h, .bool _ | h, .char _ | h, .void
  | h, .null | h, .function _ | h, .stackRef _ | h, .heapRef _ => .refl h

/-- Moving values into a heap is filling. -/
theorem fills_internAll : (h : Heap) → (vs : List Value) → h.Fills (h.internAll vs).1
  | h, [] => .refl h
  | h, v :: vs => by
    rw [Heap.internAll]
    exact (fills_intern h v).trans (fills_internAll _ vs)

end

/-- **A reference that was handed out leads where it led**, as long as entries are kept. -/
theorem Issued.get (hr : store.Issued r) (hk : store.Keeps h) (hg : store.Gains h)
    (hget : h.get r = .ok v) : store.get r = .ok v := by
  obtain ⟨e, he, hor⟩ := hr
  have hentry := get_eq_ok.1 hget
  have hstays := hg r.index.toNat
  rw [he, hentry] at hstays
  cases hstays with
  | kept hgen _ =>
    rcases hor with hlt | ⟨_, hlive⟩
    · rw [← hgen] at hlt
      exact absurd hlt (Nat.lt_irrefl _)
    · have hkept := hk _ e he hlive
      rw [hentry] at hkept
      cases hkept
      exact get_eq_ok.2 he

end Heap

/-! ## Copying -/

variable {store : Heap} {st : CopyState} {fuel : Nat}

/-- A copy of what stands in the store is under way: nothing of the store is changed. -/
structure CopyState.Underway (store : Heap) (st : CopyState) : Prop where
  wellFormed : st.heap.WellFormed
  keeps : store.Keeps st.heap
  gains : store.Gains st.heap

/-- A copy stays under way when an entry is taken for a reference. -/
theorem CopyState.Underway.take (hu : st.Underway store) (src : Ref) :
    (st.take src).Underway store :=
  ⟨hu.wellFormed.alloc .void, hu.keeps.trans (hu.wellFormed.keeps_alloc .void),
    Heap.monotone_gains.trans hu.gains (Heap.gains_alloc _ _)⟩

/-- A copy stays under way when a value is copied. -/
theorem CopyState.Underway.copyValue (hu : st.Underway store) {v : Value}
    (hsize : (copyValue fuel st v).1.heap.entries.size < 2 ^ 32) :
    (RegisterMachine.copyValue fuel st v).1.Underway store :=
  ⟨copyValue_monotone Heap.monotone_wellFormed fuel st v hu.wellFormed,
    hu.keeps.trans (keeps_copyValue fuel st v hu.wellFormed hsize),
    Heap.monotone_gains.trans hu.gains (copyValue_monotone Heap.monotone_gains fuel st v)⟩

/-- Copying values one after the other fills the entries that it takes, if copying one does. -/
theorem fills_copyAll {vs ws : List Value}
    (hcopy : ∀ {st : CopyState} {v w : Value}, st.Underway store → store.Authentic v →
      (copyValue fuel st v).1.heap.entries.size < 2 ^ 32 → (copyValue fuel st v).2 = .ok w →
      st.heap.Fills (copyValue fuel st v).1.heap)
    (hu : st.Underway store) (hvs : ∀ v ∈ vs, store.Authentic v)
    (hsize : (copyAll (copyValue fuel) st vs).1.heap.entries.size < 2 ^ 32)
    (hok : (copyAll (copyValue fuel) st vs).2 = .ok ws) :
    st.heap.Fills (copyAll (copyValue fuel) st vs).1.heap := by
  induction vs generalizing st ws with
  | nil => exact .refl _
  | cons v vs ih =>
    obtain ⟨hv, hvs⟩ := List.forall_mem_cons.1 hvs
    have hle := Nat.lt_of_le_of_lt (size_copyAll_head fuel st v vs) hsize
    have hone := fun {w} => hcopy (w := w) hu hv hle
    have hu' := hu.copyValue hle
    rw [copyAll_cons] at hsize hok ⊢
    generalize copyValue fuel st v = res at hone hu' hsize hok ⊢
    obtain ⟨st', e | w⟩ := res
    · cases hok
    · obtain ⟨ws', hws, _⟩ := Except.map_eq_ok.1 hok
      exact (hone rfl).trans (ih hu' hvs hsize hws)

/-- **A copy that succeeds fills every entry that it takes**, if the store that it starts from is
complete and all references in it were handed out. -/
theorem fills_copyValue (hc : store.Complete)
    (ha : ∀ {r v}, store.get r = .ok v → store.Authentic v) {v w : Value} (hu : st.Underway store)
    (hv : store.Authentic v) (hsize : (copyValue fuel st v).1.heap.entries.size < 2 ^ 32)
    (hok : (copyValue fuel st v).2 = .ok w) : st.heap.Fills (copyValue fuel st v).1.heap := by
  induction fuel using Nat.strongRecOn generalizing st v w with
  | ind fuel ih =>
    by_cases href : ∃ src, v = .heapRef src
    · obtain ⟨src, rfl⟩ := href
      obtain ⟨dst, _, he⟩ | ⟨_, ⟨e, _, he⟩ | ⟨c, _, _, he⟩ | ⟨n, c, rfl, hget, he⟩⟩ :=
        copyValue_cases fuel st src
      · rw [he]; exact .refl _
      · rw [he]; exact .refl _
      · rw [he]; exact .refl _
      · rw [he] at hsize hok ⊢
        -- What is copied stands in the store, so it is no entry that was taken for the copy.
        have hget := (hv src (.self src)).get hu.keeps hu.gains hget
        have hgrows := grows_copyContent (grows_copyValue n) (st.take src) (st.heap.alloc .void).2 c
        have htake := Nat.lt_of_le_of_lt hgrows.size_le hsize
        have hfill : ∀ {st' : CopyState} {c' : Value} {x : Value},
            (st.take src).heap.Fills st'.heap →
            c'.isCell = false → (copyValue.finish st' (st.heap.alloc .void).2 c').2 = .ok x →
            st.heap.Fills (copyValue.finish st' (st.heap.alloc .void).2 c').1.heap := by
          intro st' c' x hfills hc' hx
          rw [copyValue.finish] at hx ⊢
          split at hx
          · cases hx
          · next hset => exact Heap.Fills.fill hu.wellFormed htake hfills hc' hset
        by_cases harray : ∃ es, c = .array es
        · obtain ⟨es, rfl⟩ := harray
          have hes : ∀ e ∈ es, store.Authentic e := fun e he q hq => ha hget q (.element he hq)
          have hall : ∀ {ws : List Value}, (copyAll (copyValue n) (st.take src) es).2 = .ok ws →
              (st.take src).heap.Fills (copyAll (copyValue n) (st.take src) es).1.heap :=
            fills_copyAll (ih n (Nat.lt_succ_self n)) (hu.take src) hes
              (Nat.lt_of_le_of_lt (size_copyContent_array n (st.take src) _ es) hsize)
          unfold copyContent at hok ⊢
          dsimp only at hok ⊢
          generalize copyAll (copyValue n) (st.take src) es = res at hall hok ⊢
          obtain ⟨st', e | ws⟩ := res
          · cases hok
          · exact hfill (hall rfl) rfl hok
        · rw [copyContent_of_ne fun es he => harray ⟨es, he⟩] at hok ⊢
          exact hfill (.refl _) (hc.get hget) hok
    · rw [copyValue_of_ne fun r hr => href ⟨r, hr⟩]
      exact .refl _

/-- **A deep copy that succeeds leaves no entry void**, if all references that it can follow were
handed out. -/
theorem Heap.Complete.deepCopy {h : Heap} {v w : Value} (hc : h.Complete) (hw : h.WellFormed)
    (ha : ∀ {r v}, h.get r = .ok v → h.Authentic v) (hv : h.Authentic v)
    (hsize : (h.deepCopy v).1.entries.size < 2 ^ 32) (hok : (h.deepCopy v).2 = .ok w) :
    (h.deepCopy v).1.Complete := by
  have hu : CopyState.Underway h ⟨h, []⟩ := ⟨hw, .refl h, monotone_gains.refl h⟩
  exact (fills_copyValue hc ha hu hv hsize hok).complete hc

end RegisterMachine
