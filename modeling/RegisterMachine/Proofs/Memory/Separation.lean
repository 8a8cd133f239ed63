import RegisterMachine.Proofs.Memory.Copying
import RegisterMachine.Proofs.Memory.Marking

/-!
# A store kept apart

A heap can hold the entries of an older heap, its store, apart from everything else (`Heap.Apart`):
the entries of the store are all there with their values, and no other entry refers to one of them.
Each operation keeps a store apart as long as it neither writes an entry of the store nor writes a
reference to one. Copying even turns references into the store into references that avoid it
(`Heap.Apart.deepCopy`), since the references in an entry of the store are elements of an array
(`Value.IsFlat`), and those are copied; and reclaiming keeps it as long as the roots lead to all of
it (`Heap.Apart.reclaim`).
-/

namespace RegisterMachine

/-- What an entry holds after a literal was moved into the heap: a string, or an array in which
references stand only as elements. -/
inductive Value.IsFlat : Value → Prop
  | string (s : Bytes) : IsFlat (.string s)
  | array {es : List Value} : (∀ e ∈ es, (∃ r, e = .heapRef r) ∨ ∀ r, ¬ e.Mentions r) →
      IsFlat (.array es)

/-- The value refers to no entry of the store. -/
def Value.Avoids (v : Value) (store : Heap) : Prop := ∀ r, v.Mentions r → ¬ store.Resolves r

variable {store h h' : Heap} {r : Ref} {v w : Value}

/-- A value that refers to nothing avoids the store. -/
theorem Value.Avoids.ofNone (hv : ∀ r, ¬ v.Mentions r) : v.Avoids store :=
  fun r hr => absurd hr (hv r)

/-- A reference that does not resolve in the store avoids it. -/
theorem Value.Avoids.ofRef (hr : ¬ store.Resolves r) : (Value.heapRef r).Avoids store := by
  intro q hq
  cases hq
  exact hr

/-- An array avoids the store if its elements do. -/
theorem Value.Avoids.ofElements {es : List Value} (hes : ∀ e ∈ es, e.Avoids store) :
    (Value.array es).Avoids store := by
  intro q hq
  cases hq with
  | element he hq => exact hes _ he q hq

/-- The elements of an array that avoids the store avoid it. -/
theorem Value.Avoids.element {es : List Value} {e : Value} (hes : (Value.array es).Avoids store)
    (he : e ∈ es) : e.Avoids store :=
  fun q hq => hes q (.element he hq)

/-- A reference that avoids the store does not resolve there. -/
theorem Value.Avoids.ref (hv : (Value.heapRef r).Avoids store) : ¬ store.Resolves r :=
  hv r (.self r)

namespace Heap

/-- The entries of the store are there with their values, and no other entry refers to one of
them. -/
structure Apart (store h : Heap) : Prop where
  wellFormed : h.WellFormed
  keeps : ∀ {r v}, store.get r = .ok v → h.get r = .ok v
  avoids : ∀ {r v}, h.get r = .ok v → ¬ store.Resolves r → v.Avoids store

/-- The store is apart from itself. -/
theorem Apart.refl (hw : store.WellFormed) : store.Apart store :=
  ⟨hw, id, fun hr hno => absurd ⟨_, hr⟩ hno⟩

/-- The store stays apart when a heap around it does. -/
theorem Apart.trans {h₁ h₂ : Heap} (h₁₂ : store.Apart h₁) (h₂₃ : h₁.Apart h₂) : store.Apart h₂ := by
  refine ⟨h₂₃.wellFormed, fun hr => h₂₃.keeps (h₁₂.keeps hr), fun {r v} hr hno q hq hres => ?_⟩
  by_cases hold : h₁.Resolves r
  · obtain ⟨w, hw⟩ := hold
    have hsame := h₂₃.keeps hw
    rw [hr] at hsame
    cases hsame
    exact h₁₂.avoids hw hno q hq hres
  · exact h₂₃.avoids hr hold q hq (hres.imp fun _ hw => h₁₂.keeps hw)

/-- What resolves in the store still does. -/
theorem Apart.resolves (ha : store.Apart h) (hr : store.Resolves r) : h.Resolves r :=
  hr.imp fun _ hv => ha.keeps hv

/-- A new reference was not in use. -/
theorem not_resolves_alloc (hw : h.WellFormed) (hsize : (h.alloc v).1.entries.size < 2 ^ 32) :
    ¬ h.Resolves (h.alloc v).2 := by
  obtain ⟨i, gen, href, hi, hlive, _⟩ := hw.alloc_cases v hsize
  rintro ⟨w, hw⟩
  rw [get_eq_ok, href] at hw
  dsimp only at hw
  rw [hi] at hw
  cases hlive _ hw

/-- **Taking an entry** for a value that avoids the store. -/
theorem Apart.alloc (ha : store.Apart h) (hv : v.Avoids store)
    (hsize : (h.alloc v).1.entries.size < 2 ^ 32) :
    store.Apart (h.alloc v).1 ∧ ¬ store.Resolves (h.alloc v).2 := by
  have hget := fun {r w} => get_alloc (r := r) (w := w) ha.wellFormed hsize
  refine ⟨⟨ha.wellFormed.alloc v, fun hr => hget.2 (.inr (ha.keeps hr)), fun hr hno => ?_⟩, ?_⟩
  · rcases hget.1 hr with ⟨_, rfl⟩ | hr
    · exact hv
    · exact ha.avoids hr hno
  · exact fun hr => not_resolves_alloc ha.wellFormed hsize (ha.resolves hr)

/-- **Writing an entry** outside the store. -/
theorem Apart.set (ha : store.Apart h) (hr : ¬ store.Resolves r) (hv : v.Avoids store)
    (hset : h.set r v = .ok h') : store.Apart h' := by
  have hget := fun {q w} => get_set (q := q) (w := w) hset
  refine ⟨ha.wellFormed.set hset, fun {q w} hq => ?_, fun hq hno => ?_⟩
  · have hne : q ≠ r := by
      rintro rfl
      exact hr ⟨w, hq⟩
    exact hget.2 (.inr ⟨hne, ha.keeps hq⟩)
  · rcases hget.1 hq with ⟨_, rfl⟩ | ⟨_, hq⟩
    · exact hv
    · exact ha.avoids hq hno

/-- **Freeing an entry** outside the store. -/
theorem Apart.free (ha : store.Apart h) (hr : ¬ store.Resolves r) (hfree : h.free r = .ok h') :
    store.Apart h' := by
  have hget := fun {q w} => get_free (q := q) (w := w) hfree
  refine ⟨ha.wellFormed.free hfree, fun {q w} hq => ?_, fun hq hno => ha.avoids (hget.1 hq).2 hno⟩
  refine hget.2 ⟨?_, ha.keeps hq⟩
  rintro rfl
  exact hr ⟨w, hq⟩

mutual

/-- **Moving a value into the heap** that avoids the store. -/
theorem Apart.intern : (h : Heap) → (v : Value) → store.Apart h → v.Avoids store →
    (h.intern v).1.entries.size < 2 ^ 32 →
    store.Apart (h.intern v).1 ∧ (h.intern v).2.Avoids store
  | h, .string s, ha, hv, hsize => by
    rw [Heap.intern] at hsize ⊢
    obtain ⟨ha', hr⟩ := ha.alloc hv hsize
    exact ⟨ha', .ofRef hr⟩
  | h, .array es, ha, hv, hsize => by
    rw [Heap.intern] at hsize ⊢
    have hle := (grows_alloc (h.internAll es).1 (.array (h.internAll es).2)).size_le
    obtain ⟨hall, havoid⟩ :=
      Apart.internAll h es ha (fun e he => hv.element he) (Nat.lt_of_le_of_lt hle hsize)
    obtain ⟨ha', hr⟩ := hall.alloc (.ofElements havoid) hsize
    exact ⟨ha', .ofRef hr⟩
  | h, .int .., ha, hv, _ | h, .float _, ha, hv, _ | h, .double _, ha, hv, _ | h, .byte _, ha, hv, _
  | h, .bool _, ha, hv, _ | h, .char _, ha, hv, _ | h, .void, ha, hv, _ | h, .null, ha, hv, _
  | h, .function _, ha, hv, _ | h, .stackRef _, ha, hv, _ | h, .heapRef _, ha, hv, _ => ⟨ha, hv⟩

/-- `Apart.intern` for the elements of an array. -/
theorem Apart.internAll : (h : Heap) → (vs : List Value) → store.Apart h →
    (∀ v ∈ vs, v.Avoids store) → (h.internAll vs).1.entries.size < 2 ^ 32 →
    store.Apart (h.internAll vs).1 ∧ ∀ v ∈ (h.internAll vs).2, v.Avoids store
  | h, [], ha, _, _ => ⟨ha, fun _ hv => nomatch hv⟩
  | h, v :: vs, ha, hvs, hsize => by
    rw [Heap.internAll] at hsize ⊢
    have hle := (grows_internAll (h.intern v).1 vs).size_le
    obtain ⟨hone, havoid⟩ :=
      Apart.intern h v ha (hvs v List.mem_cons_self) (Nat.lt_of_le_of_lt hle hsize)
    obtain ⟨hall, havoids⟩ := Apart.internAll (h.intern v).1 vs hone
      (fun w hw => hvs w (List.mem_cons_of_mem v hw)) hsize
    refine ⟨hall, fun w hw => ?_⟩
    rcases List.mem_cons.1 hw with rfl | hw
    · exact havoid
    · exact havoids w hw

end

end Heap

/-! ## Copying -/

/-- The store is apart, and nothing was copied into it. -/
structure CopyState.Apart (store : Heap) (st : CopyState) : Prop where
  heap : store.Apart st.heap
  copied : ∀ p ∈ st.copied, ¬ store.Resolves p.2

/-- A value whose copy avoids the store: a reference, for which a new one is made, or a value that
avoids the store itself. -/
def Value.Leaves (store : Heap) (v : Value) : Prop := (∃ r, v = .heapRef r) ∨ v.Avoids store

/-- The state after copying keeps the store apart, and what comes out has a property. -/
structure CopyState.Clears {α : Type} (store : Heap) (clear : α → Prop)
    (res : CopyState × Except MemoryError α) : Prop where
  apart : CopyState.Apart store res.1
  clear : ∀ {a}, res.2 = .ok a → clear a

variable {st : CopyState} {fuel : Nat} {dst : Ref}

/-- The elements of what a reference leads to leave the store, wherever it leads to. -/
theorem Heap.Apart.leaves {es : List Value} (ha : store.Apart h)
    (hflat : ∀ {r v}, store.get r = .ok v → v.IsFlat) (hr : h.get r = .ok (.array es)) :
    ∀ e ∈ es, e.Leaves store := by
  intro e he
  by_cases hstore : store.Resolves r
  · obtain ⟨c, hc⟩ := hstore
    have hsame := ha.keeps hc
    rw [hr] at hsame
    cases hsame
    cases hflat hc with
    | array hes => exact (hes e he).imp id .ofNone
  · exact .inr ((ha.avoids hr hstore).element he)

/-- The content of an entry that is no array avoids the store, wherever the entry is. -/
theorem Heap.Apart.avoids_of_ne_array (ha : store.Apart h)
    (hflat : ∀ {r v}, store.get r = .ok v → v.IsFlat) (hr : h.get r = .ok v)
    (hne : ∀ es, v ≠ .array es) : v.Avoids store := by
  by_cases hstore : store.Resolves r
  · obtain ⟨c, hc⟩ := hstore
    have hsame := ha.keeps hc
    rw [hr] at hsame
    cases hsame
    cases hflat hc with
    | string s => exact .ofNone fun q hq => nomatch hq
    | array _ => exact absurd rfl (hne _)
  · exact ha.avoids hr hstore

/-- Writing a finished copy that avoids the store keeps the store apart. -/
theorem CopyState.Apart.finish (hst : st.Apart store) (hdst : ¬ store.Resolves dst)
    (hv : v.Avoids store) :
    CopyState.Clears store (Value.Avoids · store) (copyValue.finish st dst v) := by
  rw [copyValue.finish]
  cases hs : st.heap.set dst v with
  | error e => exact ⟨hst, by simp⟩
  | ok h =>
    refine ⟨⟨hst.heap.set hdst hv hs, hst.copied⟩, fun {w} hw => ?_⟩
    cases hw
    exact .ofRef hdst

/-- Copying a list keeps the store apart if copying its elements does, and the copies avoid the
store. -/
theorem CopyState.Apart.copyAll {vs : List Value}
    (hcopy : ∀ (st : CopyState) v, st.Apart store → v.Leaves store →
      (copyValue fuel st v).1.heap.entries.size < 2 ^ 32 →
      CopyState.Clears store (Value.Avoids · store) (copyValue fuel st v))
    (hst : st.Apart store) (hvs : ∀ v ∈ vs, v.Leaves store)
    (hsize : (copyAll (copyValue fuel) st vs).1.heap.entries.size < 2 ^ 32) :
    CopyState.Clears store (fun ws => ∀ w ∈ ws, w.Avoids store)
      (copyAll (copyValue fuel) st vs) := by
  induction vs generalizing st with
  | nil =>
    refine ⟨hst, fun {ws} hws w hw => ?_⟩
    cases hws
    cases hw
  | cons v vs ih =>
    have hone := hcopy st v hst (hvs v List.mem_cons_self)
      (Nat.lt_of_le_of_lt (size_copyAll_head fuel st v vs) hsize)
    rw [copyAll_cons] at hsize ⊢
    generalize copyValue fuel st v = res at hone hsize ⊢
    obtain ⟨hapart, hw⟩ := hone
    obtain ⟨st', e | w⟩ := res
    · exact ⟨hapart, fun he => nomatch he⟩
    · obtain ⟨hapart', hws⟩ := ih hapart (fun x hx => hvs x (List.mem_cons_of_mem v hx)) hsize
      refine ⟨hapart', fun {ws'} he x hx => ?_⟩
      obtain ⟨ws, hok, rfl⟩ := Except.map_eq_ok.1 he
      rcases List.mem_cons.1 hx with rfl | hx
      · exact hw rfl
      · exact hws hok x hx

/-- **Copying leaves the store**, whether it succeeds or not. -/
theorem CopyState.Apart.copyValue (hflat : ∀ {r v}, store.get r = .ok v → v.IsFlat) (fuel : Nat)
    (st : CopyState) (v : Value) (hst : st.Apart store) (hv : v.Leaves store)
    (hsize : (copyValue fuel st v).1.heap.entries.size < 2 ^ 32) :
    CopyState.Clears store (Value.Avoids · store) (copyValue fuel st v) := by
  induction fuel using Nat.strongRecOn generalizing st v with
  | ind fuel ih =>
    by_cases href : ∃ src, v = .heapRef src
    · obtain ⟨src, rfl⟩ := href
      obtain ⟨dst, hl, he⟩ | ⟨_, ⟨e, _, he⟩ | ⟨c, _, _, he⟩ | ⟨n, c, rfl, hget, he⟩⟩ :=
        copyValue_cases fuel st src
      · rw [he]
        refine ⟨hst, fun {w} hw => ?_⟩
        cases hw
        obtain ⟨l₁, l₂, hcopied, _⟩ := List.lookup_eq_some_iff.1 hl
        exact .ofRef (hst.copied (src, dst) (by simp [hcopied]))
      · rw [he]
        exact ⟨hst, fun he => nomatch he⟩
      · rw [he]
        exact ⟨hst, fun he => nomatch he⟩
      · rw [he] at hsize ⊢
        have hgrows := grows_copyContent (grows_copyValue n) (st.take src) (st.heap.alloc .void).2 c
        obtain ⟨halloc, hdst⟩ := hst.heap.alloc (v := .void) (.ofNone fun q hq => nomatch hq)
          (Nat.lt_of_le_of_lt hgrows.size_le hsize)
        have htake : (st.take src).Apart store := by
          refine ⟨halloc, fun p hp => ?_⟩
          rcases List.mem_cons.1 hp with rfl | hp
          · exact hdst
          · exact hst.copied p hp
        by_cases harray : ∃ es, c = .array es
        · obtain ⟨es, rfl⟩ := harray
          have hall := CopyState.Apart.copyAll (ih n (Nat.lt_succ_self n)) htake
            (hst.heap.leaves hflat hget)
            (Nat.lt_of_le_of_lt (size_copyContent_array n (st.take src) _ es) hsize)
          unfold copyContent
          dsimp only
          generalize RegisterMachine.copyAll (RegisterMachine.copyValue n) (st.take src) es = res
            at hall ⊢
          obtain ⟨st', e | ws⟩ := res
          · exact ⟨hall.apart, fun he => nomatch he⟩
          · exact hall.apart.finish hdst (.ofElements (hall.clear rfl))
        · have hc := hst.heap.avoids_of_ne_array hflat hget fun es he => harray ⟨es, he⟩
          cases c with
          | array es => exact absurd ⟨es, rfl⟩ harray
          | _ => exact htake.finish hdst hc
    · rw [copyValue_of_ne fun r hr => href ⟨r, hr⟩]
      refine ⟨hst, fun {w} hw => ?_⟩
      cases hw
      exact hv.resolve_left href

namespace Heap

/-- **A deep copy keeps the store apart and avoids it**, whether it is a copy of something in the
store or not. -/
theorem Apart.deepCopy (ha : store.Apart h) (hflat : ∀ {r v}, store.get r = .ok v → v.IsFlat)
    (hv : v.Leaves store) (hsize : (h.deepCopy v).1.entries.size < 2 ^ 32) :
    store.Apart (h.deepCopy v).1 ∧ ∀ {w}, (h.deepCopy v).2 = .ok w → w.Avoids store := by
  have hst : CopyState.Apart store ⟨h, []⟩ := ⟨ha, fun _ hp => nomatch hp⟩
  have hcopy := CopyState.Apart.copyValue hflat Heap.maxEntries ⟨h, []⟩ v hst hv hsize
  exact ⟨hcopy.apart.heap, hcopy.clear⟩

/-! ## Reclaiming -/

/-- **Reclaiming keeps a store apart** that the roots lead to. -/
theorem Apart.reclaim {roots : List Value} (ha : store.Apart h)
    (hroots : ∀ r, store.Resolves r → store.Reaches roots r) : store.Apart (h.reclaim roots).1 := by
  refine ⟨ha.wellFormed.reclaim roots, fun {r v} hr => ?_, fun hr => ha.avoids (get_reclaim.1 hr).1⟩
  have hreach : h.Reaches roots r :=
    (hroots r ⟨v, hr⟩).lift (fun hq => ha.keeps hq) fun v hv q hq => .root hv hq
  exact get_reclaim.2 ⟨ha.keeps hr, hreach.covered ⟨v, ha.keeps hr⟩⟩

end Heap

end RegisterMachine
