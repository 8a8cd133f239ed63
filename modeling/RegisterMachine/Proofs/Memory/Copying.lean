import Mathlib.Data.List.Nodup
import Mathlib.Data.List.Perm.Subperm
import RegisterMachine.Engine.Resolve
import RegisterMachine.Proofs.Fallible
import RegisterMachine.Proofs.Memory.References

/-!
# Copying

A deep copy gives every entry that it reaches an entry of its own. `copyValue_cases` lists what
copying a reference can do, and the rest is proved from it: copying does nothing but take entries
and write them (`copyValue_monotone`), so a heap in which an entry was copied is never the heap of
before (`Heap.deepCopy_eq_self`); it keeps the entries that were there (`keeps_copyValue`); and it
leads from a sound heap to a sound heap that knows the copy (`Heap.Sound.deepCopy`). No entry is
copied twice, so the fuel suffices, and copying fails only because of a reference that was freed.
-/

namespace RegisterMachine

variable {fuel : Nat} {st : CopyState} {src : Ref}

/-! ## The cases of copying -/

/-- The state after an entry is taken for the copy of what a reference leads to. -/
def CopyState.take (st : CopyState) (src : Ref) : CopyState :=
  ⟨(st.heap.alloc .void).1, (src, (st.heap.alloc .void).2) :: st.copied⟩

/-- Copies the content of an entry into the entry that was taken for it. -/
def copyContent (fuel : Nat) (st : CopyState) (dst : Ref) (content : Value) :
    CopyState × Except MemoryError Value :=
  match content with
  | .array es =>
    match copyAll (copyValue fuel) st es with
    | (st, .error e) => (st, .error e)
    | (st, .ok es) => copyValue.finish st dst (.array es)
  | content => copyValue.finish st dst content

/-- What holds no array is put into its entry as it is. -/
theorem copyContent_of_ne {dst : Ref} {c : Value} (hc : ∀ es, c ≠ .array es) :
    copyContent fuel st dst c = copyValue.finish st dst c := by
  cases c with
  | array es => exact absurd rfl (hc es)
  | _ => rfl

/-- Values other than references are their own copies. -/
theorem copyValue_of_ne {v : Value} (hv : ∀ r, v ≠ .heapRef r) :
    copyValue fuel st v = (st, .ok v) := by
  cases v with
  | heapRef r => exact absurd rfl (hv r)
  | _ => cases fuel <;> rfl

/-- A reference that was copied before. -/
theorem copyValue_known {dst : Ref} (hl : st.copied.lookup src = some dst) :
    copyValue fuel st (.heapRef src) = (st, .ok (.heapRef dst)) := by
  cases fuel <;> (unfold copyValue; simp only [hl])

/-- A reference that leads nowhere. -/
theorem copyValue_stale {e : MemoryError} (hl : st.copied.lookup src = none)
    (hget : st.heap.get src = .error e) : copyValue fuel st (.heapRef src) = (st, .error e) := by
  cases fuel <;> (unfold copyValue; simp only [hl, hget])

/-- A reference that is too deep. -/
theorem copyValue_zero {c : Value} (hl : st.copied.lookup src = none)
    (hget : st.heap.get src = .ok c) :
    copyValue 0 st (.heapRef src) = (st, .error (.stale src)) := by
  unfold copyValue
  simp only [hl, hget]

/-- A reference whose content is copied into an entry of its own. -/
theorem copyValue_succ {c : Value} (hl : st.copied.lookup src = none)
    (hget : st.heap.get src = .ok c) :
    copyValue (fuel + 1) st (.heapRef src) =
      copyContent fuel (st.take src) (st.heap.alloc .void).2 c := by
  unfold copyValue
  rw [hl]
  dsimp only
  rw [hget]
  cases c <;> rfl

/-- What copying a reference does: it was copied before, leads nowhere, is too deep, or its content
is copied into an entry of its own. -/
theorem copyValue_cases (fuel : Nat) (st : CopyState) (src : Ref) :
    (∃ dst, st.copied.lookup src = some dst ∧
        copyValue fuel st (.heapRef src) = (st, .ok (.heapRef dst))) ∨
      (st.copied.lookup src = none ∧
        ((∃ e, st.heap.get src = .error e ∧ copyValue fuel st (.heapRef src) = (st, .error e)) ∨
          (∃ c, fuel = 0 ∧ st.heap.get src = .ok c ∧
            copyValue fuel st (.heapRef src) = (st, .error (.stale src))) ∨
          ∃ n c, fuel = n + 1 ∧ st.heap.get src = .ok c ∧
            copyValue fuel st (.heapRef src) =
              copyContent n (st.take src) (st.heap.alloc .void).2 c)) := by
  cases hl : st.copied.lookup src with
  | some dst => exact .inl ⟨dst, rfl, copyValue_known hl⟩
  | none =>
    refine .inr ⟨rfl, ?_⟩
    cases hg : st.heap.get src with
    | error e => exact .inl ⟨e, rfl, copyValue_stale hl hg⟩
    | ok c =>
      cases fuel with
      | zero => exact .inr (.inl ⟨c, rfl, rfl, copyValue_zero hl hg⟩)
      | succ n => exact .inr (.inr ⟨n, c, rfl, rfl, copyValue_succ hl hg⟩)

/-- Copying several values stops with the first that fails, and goes on with the others
otherwise. -/
theorem copyAll_cons (copy : CopyState → Value → CopyState × Except MemoryError Value)
    (st : CopyState) (v : Value) (vs : List Value) :
    copyAll copy st (v :: vs) =
      match copy st v with
      | (st', .error e) => (st', .error e)
      | (st', .ok w) => ((copyAll copy st' vs).1, (copyAll copy st' vs).2.map (w :: ·)) := by
  rw [copyAll]
  generalize copy st v = res
  obtain ⟨st', e | w⟩ := res
  · rfl
  · dsimp only
    generalize copyAll copy st' vs = res
    obtain ⟨st'', e | ws⟩ := res <;> rfl

/-! ## Copying takes and writes entries -/

section

variable {R : Heap → Heap → Prop}

/-- Copying a list is a change of the heap that a monotone relation takes in, if copying its
elements is. -/
theorem copyAll_monotone (hR : Heap.Monotone R)
    {copy : CopyState → Value → CopyState × Except MemoryError Value}
    (hcopy : ∀ (st : CopyState) v, R st.heap (copy st v).1.heap) (st : CopyState)
    (vs : List Value) : R st.heap (copyAll copy st vs).1.heap := by
  induction vs generalizing st with
  | nil => exact hR.refl _
  | cons v vs ih =>
    have hv := hcopy st v
    rw [copyAll_cons]
    generalize copy st v = res at hv ⊢
    obtain ⟨st', e | w⟩ := res
    · exact hv
    · exact hR.trans hv (ih st')

/-- Writing a finished copy is a change of the heap that a monotone relation takes in. -/
theorem finish_monotone (hR : Heap.Monotone R) (st : CopyState) (dst : Ref) (c : Value) :
    R st.heap (copyValue.finish st dst c).1.heap := by
  rw [copyValue.finish]
  split
  · exact hR.refl _
  · next h hs => exact hR.set hs

/-- Copying a content is a change of the heap that a monotone relation takes in, if copying values
is. -/
theorem copyContent_monotone (hR : Heap.Monotone R) {fuel : Nat}
    (hcopy : ∀ (st : CopyState) v, R st.heap (copyValue fuel st v).1.heap) (st : CopyState)
    (dst : Ref) (c : Value) : R st.heap (copyContent fuel st dst c).1.heap := by
  unfold copyContent
  split
  · next es =>
    have hes := copyAll_monotone hR hcopy st es
    split
    · next st' e he => rw [he] at hes; exact hes
    · next st' es' he => rw [he] at hes; exact hR.trans hes (finish_monotone hR _ _ _)
  · exact finish_monotone hR _ _ _

/-- **Copying does nothing to the arena but take entries and write them.** -/
theorem copyValue_monotone (hR : Heap.Monotone R) (fuel : Nat) (st : CopyState) (v : Value) :
    R st.heap (copyValue fuel st v).1.heap := by
  induction fuel using Nat.strongRecOn generalizing st v with
  | ind fuel ih =>
    by_cases hv : ∃ src, v = .heapRef src
    · obtain ⟨src, rfl⟩ := hv
      obtain ⟨dst, _, he⟩ | ⟨_, ⟨e, _, he⟩ | ⟨c, _, _, he⟩ | ⟨n, c, rfl, _, he⟩⟩ :=
        copyValue_cases fuel st src
      · rw [he]; exact hR.refl _
      · rw [he]; exact hR.refl _
      · rw [he]; exact hR.refl _
      · rw [he]
        have hcontent := copyContent_monotone hR (ih n (Nat.lt_succ_self n)) (st.take src)
        exact hR.trans (hR.alloc st.heap .void) (hcontent _ c)
    · rw [copyValue_of_ne (fun r hr => hv ⟨r, hr⟩)]
      exact hR.refl _

/-- Copying a value is a change of the heap that any monotone relation takes in. -/
theorem Heap.deepCopy_monotone (hR : Heap.Monotone R) (h : Heap) (v : Value) :
    R h (h.deepCopy v).1 :=
  copyValue_monotone hR Heap.maxEntries ⟨h, []⟩ v

end

/-- Copying a list leaves no fewer entries if copying its elements leaves no fewer. -/
theorem grows_copyAll {copy : CopyState → Value → CopyState × Except MemoryError Value}
    (hcopy : ∀ (st : CopyState) v, st.heap.Grows (copy st v).1.heap) (st : CopyState)
    (vs : List Value) : st.heap.Grows (copyAll copy st vs).1.heap :=
  copyAll_monotone Heap.monotone_grows hcopy st vs

/-- Writing a finished copy leaves no fewer entries. -/
theorem grows_finish (st : CopyState) (dst : Ref) (c : Value) :
    st.heap.Grows (copyValue.finish st dst c).1.heap :=
  finish_monotone Heap.monotone_grows st dst c

/-- Copying a content leaves no fewer entries if copying values leaves no fewer. -/
theorem grows_copyContent {fuel : Nat} (hcopy : ∀ (st : CopyState) v,
      st.heap.Grows (copyValue fuel st v).1.heap) (st : CopyState) (dst : Ref) (c : Value) :
    st.heap.Grows (copyContent fuel st dst c).1.heap :=
  copyContent_monotone Heap.monotone_grows hcopy st dst c

/-- Copying takes entries and gives none back. -/
theorem grows_copyValue (fuel : Nat) (st : CopyState) (v : Value) :
    st.heap.Grows (copyValue fuel st v).1.heap :=
  copyValue_monotone Heap.monotone_grows fuel st v

/-- After the first of several values there are no more entries than after all of them. -/
theorem size_copyAll_head (fuel : Nat) (st : CopyState) (v : Value) (vs : List Value) :
    (copyValue fuel st v).1.heap.entries.size ≤
      (copyAll (copyValue fuel) st (v :: vs)).1.heap.entries.size := by
  rw [copyAll_cons]
  generalize copyValue fuel st v = res
  obtain ⟨st', e | w⟩ := res
  · exact Nat.le_refl _
  · exact (grows_copyAll (grows_copyValue fuel) st' vs).size_le

/-- After the elements of an array are copied there are no more entries than after it is all
done. -/
theorem size_copyContent_array (fuel : Nat) (st : CopyState) (dst : Ref) (es : List Value) :
    (copyAll (copyValue fuel) st es).1.heap.entries.size ≤
      (copyContent fuel st dst (.array es)).1.heap.entries.size := by
  unfold copyContent
  dsimp only
  generalize copyAll (copyValue fuel) st es = res
  obtain ⟨st', e | ws⟩ := res
  · exact Nat.le_refl _
  · exact (grows_finish st' dst (.array ws)).size_le

/-! ## Copying keeps what is there -/

/-- Copying a list keeps the live entries if copying its elements does. -/
theorem keeps_copyAll {vs : List Value}
    (hcopy : ∀ (st : CopyState) v, st.heap.WellFormed →
      (copyValue fuel st v).1.heap.entries.size < 2 ^ 32 →
        st.heap.Keeps (copyValue fuel st v).1.heap)
    (hw : st.heap.WellFormed)
    (hsize : (copyAll (copyValue fuel) st vs).1.heap.entries.size < 2 ^ 32) :
    st.heap.Keeps (copyAll (copyValue fuel) st vs).1.heap := by
  induction vs generalizing st with
  | nil => exact .refl _
  | cons v vs ih =>
    have hone := hcopy st v hw (Nat.lt_of_le_of_lt (size_copyAll_head fuel st v vs) hsize)
    have hw' := copyValue_monotone Heap.monotone_wellFormed fuel st v hw
    rw [copyAll_cons] at hsize ⊢
    generalize copyValue fuel st v = res at hone hw' hsize ⊢
    obtain ⟨st', e | w⟩ := res
    · exact hone
    · exact hone.trans (ih hw' hsize)

/-- Filling an entry that a copy has taken keeps the entries that were there before. -/
theorem keeps_finish {store : Heap} {dst : Ref} (hk : store.Keeps st.heap)
    (hdst : ∀ e, store.entries[dst.index.toNat]? = some e → e.live = false) (c : Value) :
    store.Keeps (copyValue.finish st dst c).1.heap := by
  rw [copyValue.finish]
  split
  · exact hk
  · next h hs => exact hk.set hs hdst

/-- **Copying keeps every live entry**, whether it succeeds or not. -/
theorem keeps_copyValue (fuel : Nat) (st : CopyState) (v : Value) (hw : st.heap.WellFormed)
    (hsize : (copyValue fuel st v).1.heap.entries.size < 2 ^ 32) :
    st.heap.Keeps (copyValue fuel st v).1.heap := by
  induction fuel using Nat.strongRecOn generalizing st v with
  | ind fuel ih =>
    by_cases hv : ∃ src, v = .heapRef src
    · obtain ⟨src, rfl⟩ := hv
      obtain ⟨dst, _, he⟩ | ⟨_, ⟨e, _, he⟩ | ⟨c, _, _, he⟩ | ⟨n, c, rfl, _, he⟩⟩ :=
        copyValue_cases fuel st src
      · rw [he]; exact .refl _
      · rw [he]; exact .refl _
      · rw [he]; exact .refl _
      · rw [he] at hsize ⊢
        have hle :=
          (grows_copyContent (grows_copyValue n) (st.take src) (st.heap.alloc .void).2 c).size_le
        -- The entry that is taken was not in use, so it can be filled when its content is copied.
        obtain ⟨i, gen, href, hi, hdst, _⟩ := hw.alloc_cases .void (Nat.lt_of_le_of_lt hle hsize)
        have hdst : ∀ e, st.heap.entries[(st.heap.alloc .void).2.index.toNat]? = some e →
            e.live = false := by
          rw [href]
          dsimp only
          rw [hi]
          exact hdst
        have htake : st.heap.Keeps (st.take src).heap := hw.keeps_alloc .void
        by_cases harray : ∃ es, c = .array es
        · obtain ⟨es, rfl⟩ := harray
          have hall : (st.take src).heap.Keeps (copyAll (copyValue n) (st.take src) es).1.heap :=
            keeps_copyAll (ih n (Nat.lt_succ_self n)) (hw.alloc .void)
              (Nat.lt_of_le_of_lt (size_copyContent_array n (st.take src) _ es) hsize)
          unfold copyContent
          dsimp only
          generalize copyAll (copyValue n) (st.take src) es = res at hall ⊢
          obtain ⟨st', e | ws⟩ := res
          · exact htake.trans hall
          · exact keeps_finish (htake.trans hall) hdst _
        · cases c with
          | array es => exact absurd ⟨es, rfl⟩ harray
          | _ => exact keeps_finish htake hdst _
    · rw [copyValue_of_ne (fun r hr => hv ⟨r, hr⟩)]
      exact .refl _

namespace Heap

/-- A deep copy keeps every live entry, whether it succeeds or not. -/
theorem WellFormed.keeps_deepCopy {h : Heap} (hw : h.WellFormed) (v : Value)
    (hsize : (h.deepCopy v).1.entries.size < 2 ^ 32) : h.Keeps (h.deepCopy v).1 :=
  keeps_copyValue Heap.maxEntries ⟨h, []⟩ v hw hsize

/-- **A deep copy leaves the arena as it was exactly if there is no entry to copy**, whether it
succeeds or not. -/
theorem deepCopy_eq_self (h : Heap) (v : Value) :
    (h.deepCopy v).1 = h ↔ ∀ r c, v = .heapRef r → h.get r ≠ .ok c := by
  constructor
  · rintro heq r c rfl hr
    obtain ⟨dst, hl, _⟩ | ⟨_, ⟨e, he, _⟩ | ⟨_, h0, _⟩ | ⟨n, c', _, _, hcopy⟩⟩ :=
      copyValue_cases Heap.maxEntries ⟨h, []⟩ r
    · cases hl
    · rw [hr] at he; cases he
    · cases h0
    · have hgrows := grows_copyContent (grows_copyValue n) (CopyState.take ⟨h, []⟩ r)
        (h.alloc .void).2 c'
      rw [← hcopy] at hgrows
      exact hgrows.ne_of_alloc heq
  · intro hno
    by_cases hv : ∃ r, v = .heapRef r
    · obtain ⟨r, rfl⟩ := hv
      obtain ⟨dst, hl, _⟩ | ⟨_, ⟨e, _, he⟩ | ⟨_, _, hr, _⟩ | ⟨n, c, _, hr, _⟩⟩ :=
        copyValue_cases Heap.maxEntries ⟨h, []⟩ r
      · cases hl
      · rw [deepCopy, he]
      · exact absurd hr (hno r _ rfl)
      · exact absurd hr (hno r _ rfl)
    · rw [deepCopy, copyValue_of_ne (fun r hr => hv ⟨r, hr⟩)]

end Heap

/-! ## Copies are known -/

variable {freed : List Ref}

/-- No more references are copied than there are entries, if each is copied once and resolves. -/
theorem CopyState.length_copied_le (hget : ∀ p ∈ st.copied, st.heap.Resolves p.1)
    (hnodup : (st.copied.map (·.1)).Nodup) : st.copied.length ≤ st.heap.entries.size := by
  have hget : ∀ r ∈ st.copied.map (·.1), ∃ v, st.heap.get r = .ok v := by
    intro r hr
    obtain ⟨p, hp, rfl⟩ := List.mem_map.1 hr
    exact hget p hp
  have hindices : ((st.copied.map (·.1)).map (·.index.toNat)).Nodup := by
    refine List.Nodup.map_on (fun r hr q hq he => ?_) hnodup
    obtain ⟨v, hv⟩ := hget r hr
    obtain ⟨w, hw⟩ := hget q hq
    exact Heap.eq_of_index_eq hv hw he
  have hsub : (st.copied.map (·.1)).map (·.index.toNat) ⊆ List.range st.heap.entries.size := by
    intro i hi
    obtain ⟨r, hr, rfl⟩ := List.mem_map.1 hi
    obtain ⟨v, hv⟩ := hget r hr
    exact List.mem_range.2 (Array.getElem?_eq_some_iff.1 (Heap.get_eq_ok.1 hv)).1
  simpa using (List.subperm_of_subset hindices hsub).length_le

/-- A sound heap, and what was copied so far: each reference once, and both it and its copy
resolve. -/
structure CopyState.Valid (st : CopyState) (freed : List Ref) : Prop where
  sound : st.heap.Sound freed
  resolves : ∀ p ∈ st.copied, st.heap.Resolves p.1 ∧ st.heap.Resolves p.2
  nodup : (st.copied.map (·.1)).Nodup

/-- No more references were copied than there are entries. -/
theorem CopyState.Valid.length_le (hv : st.Valid freed) : st.copied.length ≤ st.heap.entries.size :=
  length_copied_le (fun p hp => (hv.resolves p hp).1) hv.nodup

/-- The copying has gone on: the state is valid, and nothing that resolved or was copied is lost. -/
structure CopyState.Advances (freed : List Ref) (st st' : CopyState) : Prop where
  valid : st'.Valid freed
  heap : Heap.Extends freed st.heap st'.heap
  copied : st.copied.length ≤ st'.copied.length

/-- A valid copy may go on without doing anything. -/
theorem CopyState.Advances.refl (hv : st.Valid freed) : Advances freed st st :=
  ⟨hv, .refl hv.sound, Nat.le_refl _⟩

/-- A copy that goes on twice goes on. -/
theorem CopyState.Advances.trans {st₁ st₂ st₃ : CopyState} (h₁₂ : Advances freed st₁ st₂)
    (h₂₃ : Advances freed st₂ st₃) : Advances freed st₁ st₃ :=
  ⟨h₂₃.valid, h₁₂.heap.trans h₂₃.heap, Nat.le_trans h₁₂.copied h₂₃.copied⟩

/-- What copying comes to: the copy is known, and a failure is due to what was freed. -/
structure CopySpec {α : Type} (freed : List Ref) (known : Heap → α → Prop) (st : CopyState)
    (res : CopyState × Except MemoryError α) : Prop where
  advances : CopyState.Advances freed st res.1
  known : ∀ {a}, res.2 = .ok a → known res.1.heap a
  failure : ∀ {e}, res.2 = .error e → freed ≠ []

/-- Taking an entry for the copy of a reference that was not copied before. -/
theorem CopyState.Valid.take (hv : st.Valid freed) {c : Value} (hget : st.heap.get src = .ok c)
    (hl : st.copied.lookup src = none) (hsize : (st.take src).heap.entries.size < 2 ^ 32) :
    CopyState.Advances freed st (st.take src) ∧
      (st.take src).heap.Resolves (st.heap.alloc .void).2 := by
  obtain ⟨hext, hdst⟩ := hv.sound.alloc (v := .void) (.ofNone fun r hr => nomatch hr) hsize
  refine ⟨⟨⟨hext.sound, fun p hp => ?_, ?_⟩, hext, Nat.le_succ _⟩, hdst⟩
  · rcases List.mem_cons.1 hp with rfl | hp
    · exact ⟨hext.keeps ⟨c, hget⟩, hdst⟩
    · exact ⟨hext.keeps (hv.resolves p hp).1, hext.keeps (hv.resolves p hp).2⟩
  · rw [CopyState.take, List.map_cons, List.nodup_cons]
    refine ⟨fun hmem => ?_, hv.nodup⟩
    obtain ⟨p, hp, he⟩ := List.mem_map.1 hmem
    have := List.lookup_eq_none_iff.1 hl p hp
    simp [he] at this

/-- Putting known content into an entry that is there. -/
theorem CopyState.Valid.finish (hv : st.Valid freed) {dst : Ref} {c : Value}
    (hdst : st.heap.Resolves dst) (hc : st.heap.Knows freed c) :
    CopySpec freed (Heap.Knows · freed) st (copyValue.finish st dst c) := by
  rw [copyValue.finish]
  cases hs : st.heap.set dst c with
  | error e =>
    obtain ⟨w, hw⟩ := hdst
    rw [Heap.set, hw] at hs
    cases hs
  | ok h =>
    have hext := hv.sound.set hc hs
    refine ⟨⟨⟨hext.sound, fun p hp => ?_, hv.nodup⟩, hext, Nat.le_refl _⟩, ?_, ?_⟩
    · exact ⟨hext.keeps (hv.resolves p hp).1, hext.keeps (hv.resolves p hp).2⟩
    · intro v hv
      cases hv
      exact .ofRef (.inl (hext.keeps hdst))
    · intro e he
      cases he

/-- **Copying values one after the other**, given what copying one comes to. -/
theorem copyAll_spec {vs : List Value}
    (hcopy : ∀ (st : CopyState) v, st.Valid freed → st.heap.Knows freed v →
      (copyValue fuel st v).1.heap.entries.size < 2 ^ 32 → 2 ^ 32 ≤ fuel + st.copied.length →
      CopySpec freed (Heap.Knows · freed) st (copyValue fuel st v))
    (hst : st.Valid freed) (hvs : ∀ v ∈ vs, st.heap.Knows freed v)
    (hsize : (copyAll (copyValue fuel) st vs).1.heap.entries.size < 2 ^ 32)
    (hfuel : 2 ^ 32 ≤ fuel + st.copied.length) :
    CopySpec freed (fun h ws => ∀ w ∈ ws, h.Knows freed w) st (copyAll (copyValue fuel) st vs) := by
  induction vs generalizing st with
  | nil =>
    refine ⟨.refl hst, fun {ws} hws w hw => ?_, fun {e} he => ?_⟩
    · cases hws; cases hw
    · cases he
  | cons v vs ih =>
    have hone := hcopy st v hst (hvs v List.mem_cons_self)
      (Nat.lt_of_le_of_lt (size_copyAll_head fuel st v vs) hsize) hfuel
    rw [copyAll_cons] at hsize ⊢
    generalize copyValue fuel st v = res at hone hsize ⊢
    obtain ⟨hadv, hknown, hfail⟩ := hone
    obtain ⟨st', e | w⟩ := res
    · exact ⟨hadv, fun {ws} hws => (by cases hws), fun {e} _ => hfail rfl⟩
    · have hall :=
        ih hadv.valid (fun x hx => hadv.heap.knows (hvs x (List.mem_cons_of_mem v hx))) hsize
        (Nat.le_trans hfuel (Nat.add_le_add_left hadv.copied fuel))
      dsimp only at hsize ⊢
      refine ⟨hadv.trans hall.advances, fun {ws'} hws x hx => ?_, fun {e} he => ?_⟩
      · obtain ⟨ws, hok, rfl⟩ := Except.map_eq_ok.1 hws
        rcases List.mem_cons.1 hx with rfl | hx
        · exact hall.advances.heap.knows (hknown rfl)
        · exact hall.known hok x hx
      · exact hall.failure (Except.map_eq_error.1 he)

/-- Copying known content into an entry that was taken for it. -/
theorem copyContent_spec {dst : Ref} {c : Value}
    (hcopy : ∀ (st : CopyState) v, st.Valid freed → st.heap.Knows freed v →
      (copyValue fuel st v).1.heap.entries.size < 2 ^ 32 → 2 ^ 32 ≤ fuel + st.copied.length →
      CopySpec freed (Heap.Knows · freed) st (copyValue fuel st v))
    (hst : st.Valid freed) (hdst : st.heap.Resolves dst) (hc : st.heap.Knows freed c)
    (hsize : (copyContent fuel st dst c).1.heap.entries.size < 2 ^ 32)
    (hfuel : 2 ^ 32 ≤ fuel + st.copied.length) :
    CopySpec freed (Heap.Knows · freed) st (copyContent fuel st dst c) := by
  unfold copyContent
  cases c with
  | array es =>
    have hall := copyAll_spec hcopy hst (fun e he => hc.element he)
      (Nat.lt_of_le_of_lt (size_copyContent_array fuel st dst es) hsize) hfuel
    dsimp only
    generalize copyAll (copyValue fuel) st es = res at hall ⊢
    obtain ⟨hadv, hknown, hfail⟩ := hall
    obtain ⟨st', e | ws⟩ := res
    · exact ⟨hadv, fun {w} hw => (by cases hw), fun {e} _ => hfail rfl⟩
    · have hfinish := hadv.valid.finish (hadv.heap.keeps hdst) (.ofElements (hknown rfl))
      exact ⟨hadv.trans hfinish.advances, hfinish.known, hfinish.failure⟩
  | _ => exact hst.finish hdst hc

/-- **Copying a known value.** -/
theorem copyValue_spec (fuel : Nat) (st : CopyState) (v : Value) (hst : st.Valid freed)
    (hv : st.heap.Knows freed v) (hsize : (copyValue fuel st v).1.heap.entries.size < 2 ^ 32)
    (hfuel : 2 ^ 32 ≤ fuel + st.copied.length) :
    CopySpec freed (Heap.Knows · freed) st (copyValue fuel st v) := by
  induction fuel using Nat.strongRecOn generalizing st v with
  | ind fuel ih =>
    by_cases href : ∃ src, v = .heapRef src
    · obtain ⟨src, rfl⟩ := href
      obtain ⟨dst, hl, he⟩ | ⟨hl, ⟨e, hget, he⟩ | ⟨c, rfl, _, he⟩ | ⟨n, c, rfl, hget, he⟩⟩ :=
        copyValue_cases fuel st src
      · rw [he]
        refine ⟨.refl hst, fun {w} hw => ?_, fun {e} he => (by cases he)⟩
        cases hw
        obtain ⟨l₁, l₂, hcopied, _⟩ := List.lookup_eq_some_iff.1 hl
        exact .ofRef (.inl (hst.resolves (src, dst) (by simp [hcopied])).2)
      · rw [he]
        refine ⟨.refl hst, fun {w} hw => (by cases hw), fun {e'} _ => ?_⟩
        rcases hv src (.self src) with ⟨w, hw⟩ | hmem
        · rw [hget] at hw
          cases hw
        · exact List.ne_nil_of_mem hmem
      · -- More entries would have been copied than there are.
        rw [he] at hsize
        dsimp only at hsize
        have := hst.length_le
        omega
      · rw [he] at hsize ⊢
        have hgrows := grows_copyContent (grows_copyValue n) (st.take src) (st.heap.alloc .void).2 c
        obtain ⟨hadv, hdst⟩ := hst.take hget hl (Nat.lt_of_le_of_lt hgrows.size_le hsize)
        have hlength : (st.take src).copied.length = st.copied.length + 1 := rfl
        have hcontent := copyContent_spec (fun st v hst hv hsize hfuel =>
            ih n (Nat.lt_succ_self n) st v hst hv hsize hfuel)
          hadv.valid hdst (hadv.heap.knows (hst.sound.knows hget)) hsize (by omega)
        exact ⟨hadv.trans hcontent.advances, hcontent.known, hcontent.failure⟩
    · rw [copyValue_of_ne (fun r hr => href ⟨r, hr⟩)]
      refine ⟨.refl hst, fun {w} hw => ?_, fun {e} he => (by cases he)⟩
      cases hw
      exact hv

/-- **A deep copy of a known value** leads to a sound heap that knows the copy, and fails only
because of a reference that was freed. -/
theorem Heap.Sound.deepCopy {h : Heap} {v : Value} (hs : h.Sound freed) (hv : h.Knows freed v)
    (hsize : (h.deepCopy v).1.entries.size < 2 ^ 32) :
    Heap.Extends freed h (h.deepCopy v).1 ∧
      (∀ {w}, (h.deepCopy v).2 = .ok w → (h.deepCopy v).1.Knows freed w) ∧
      ∀ {e}, (h.deepCopy v).2 = .error e → freed ≠ [] := by
  have hst : CopyState.Valid ⟨h, []⟩ freed :=
    ⟨hs, fun p hp => absurd hp List.not_mem_nil, List.nodup_nil⟩
  have hspec := copyValue_spec Heap.maxEntries ⟨h, []⟩ v hst hv hsize (Nat.le_add_right _ _)
  exact ⟨hspec.advances.heap, hspec.known, hspec.failure⟩

end RegisterMachine
