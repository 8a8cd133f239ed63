import RegisterMachine.Engine.Thread
import RegisterMachine.Proofs.Memory.Heap

/-!
# References that are known

`Value.Mentions` says that a reference stands somewhere in a value. A heap knows a value, apart from
references that were freed on purpose, when every reference in it resolves (`Heap.Knows`), and it is
sound when it knows all that it holds (`Heap.Sound`). Operations that take entries or write them
lead from a sound heap to a sound heap in which everything still resolves (`Heap.Extends`), as long
as only known values are written.
-/

namespace RegisterMachine

/-- The reference stands in the value, alone or as an element of an array. -/
inductive Value.Mentions : Value → Ref → Prop
  | self (r : Ref) : Mentions (.heapRef r) r
  | element {es : List Value} {e : Value} {r : Ref} : e ∈ es → Mentions e r → Mentions (.array es) r

mutual

/-- The references that a value adds to a list are those that it mentions. -/
theorem mem_refsOnto (r : Ref) : (v : Value) → (found : List Ref) →
    (r ∈ v.refsOnto found ↔ v.Mentions r ∨ r ∈ found)
  | .heapRef q, found => by
    rw [Value.refsOnto, List.mem_cons]
    constructor
    · rintro (rfl | h)
      · exact .inl (.self r)
      · exact .inr h
    · rintro (h | h)
      · cases h; exact .inl rfl
      · exact .inr h
  | .array es, found => by
    rw [Value.refsOnto, mem_refsAllOnto r es found]
    constructor
    · rintro (⟨e, he, h⟩ | h)
      · exact .inl (.element he h)
      · exact .inr h
    · rintro (h | h)
      · cases h with
        | element he h => exact .inl ⟨_, he, h⟩
      · exact .inr h
  | .int .., found | .float _, found | .double _, found | .byte _, found | .bool _, found
  | .string _, found | .char _, found | .void, found | .null, found | .function _, found
  | .stackRef _, found => by
    rw [Value.refsOnto]
    · refine ⟨.inr, ?_⟩
      rintro (h | h)
      · cases h
      · exact h
    all_goals simp

/-- The references that the elements of an array add to a list are those that they mention. -/
theorem mem_refsAllOnto (r : Ref) : (vs : List Value) → (found : List Ref) →
    (r ∈ Value.refsAllOnto vs found ↔ (∃ v ∈ vs, v.Mentions r) ∨ r ∈ found)
  | [], found => by simp [Value.refsAllOnto]
  | v :: vs, found => by
    rw [Value.refsAllOnto, mem_refsAllOnto r vs, mem_refsOnto r v]
    simp only [List.mem_cons, exists_eq_or_imp]
    rw [or_left_comm, or_assoc]

end

/-- The references that are written into an operand. -/
def Operand.refs : Operand → List Ref
  | .immediate v => v.refsOnto []
  | _ => []

/-- That the immediate values of a program mention no reference can be looked up. -/
theorem Program.not_mentions {p : Program} (hnone : ∀ i ∈ p.instructions, i.operand.refs = []) :
    ∀ i ∈ p.instructions, ∀ v r, i.operand = .immediate v → ¬ v.Mentions r := by
  intro i hi v r hop hr
  have hmem : r ∈ i.operand.refs := by
    rw [hop]
    exact (mem_refsOnto r v []).2 (.inl hr)
  rw [hnone i hi] at hmem
  cases hmem

namespace Heap

variable {h h₁ h₂ h' : Heap} {r : Ref} {v : Value} {freed : List Ref}

/-- The reference leads to a live entry of its generation. -/
def Resolves (h : Heap) (r : Ref) : Prop := ∃ v, h.get r = .ok v

/-- Every reference in the value resolves, or is one of those freed. -/
def Knows (h : Heap) (freed : List Ref) (v : Value) : Prop :=
  ∀ r, v.Mentions r → h.Resolves r ∨ r ∈ freed

/-- The free list is in order, and the heap knows what it holds. -/
structure Sound (h : Heap) (freed : List Ref) : Prop where
  wellFormed : h.WellFormed
  knows : ∀ {r v}, h.get r = .ok v → h.Knows freed v

/-- An empty heap is sound. -/
theorem Sound.empty : Sound {} freed := ⟨.empty, fun {r v} hr => by cases get_eq_ok.1 hr⟩

/-- A reference that resolves or was freed is known. -/
theorem Knows.ofRef (hr : h.Resolves r ∨ r ∈ freed) : h.Knows freed (.heapRef r) := by
  intro q hq
  cases hq
  exact hr

/-- An array of known elements is known. -/
theorem Knows.ofElements {es : List Value} (hes : ∀ e ∈ es, h.Knows freed e) :
    h.Knows freed (.array es) := by
  intro q hq
  cases hq with
  | element he hq => exact hes _ he q hq

/-- The elements of a known array are known. -/
theorem Knows.element {es : List Value} {e : Value} (hes : h.Knows freed (.array es))
    (he : e ∈ es) : h.Knows freed e :=
  fun q hq => hes q (.element he hq)

/-- A value without references is always known. -/
theorem Knows.ofNone (hv : ∀ r, ¬ v.Mentions r) : h.Knows freed v := fun r hr => absurd hr (hv r)

/-- A value stays known when more references count as freed. -/
theorem Knows.weaken {freed' : List Ref} (hv : h.Knows freed v) (hsub : freed ⊆ freed') :
    h.Knows freed' v :=
  fun r hr => (hv r hr).imp id (hsub ·)

/-- A heap stays sound when more references count as freed. -/
theorem Sound.weaken {freed' : List Ref} (hs : h.Sound freed) (hsub : freed ⊆ freed') :
    h.Sound freed' :=
  ⟨hs.wellFormed, fun hr => (hs.knows hr).weaken hsub⟩

/-! ## Extending a heap -/

/-- The second heap is sound, and everything that resolved in the first still does. -/
structure Extends (freed : List Ref) (h h' : Heap) : Prop where
  sound : h'.Sound freed
  keeps : ∀ {r}, h.Resolves r → h'.Resolves r

/-- A sound heap extends itself. -/
theorem Extends.refl (hs : h.Sound freed) : Extends freed h h := ⟨hs, id⟩

/-- A heap that is extended twice is extended. -/
theorem Extends.trans (h₁₂ : Extends freed h h₁) (h₂₃ : Extends freed h₁ h₂) : Extends freed h h₂ :=
  ⟨h₂₃.sound, fun hr => h₂₃.keeps (h₁₂.keeps hr)⟩

/-- A value stays known when the heap is extended. -/
theorem Extends.knows (he : Extends freed h h') (hv : h.Knows freed v) : h'.Knows freed v :=
  fun r hr => (hv r hr).imp he.keeps id

/-- **Taking an entry for a known value**: the new reference resolves. -/
theorem Sound.alloc (hs : h.Sound freed) (hv : h.Knows freed v)
    (hsize : (h.alloc v).1.entries.size < 2 ^ 32) :
    Extends freed h (h.alloc v).1 ∧ (h.alloc v).1.Resolves (h.alloc v).2 := by
  have hget := fun {r w} => get_alloc (r := r) (w := w) hs.wellFormed hsize
  have hkeeps : ∀ {r}, h.Resolves r → (h.alloc v).1.Resolves r :=
    fun ⟨w, hw⟩ => ⟨w, hget.2 (.inr hw)⟩
  refine ⟨⟨⟨hs.wellFormed.alloc v, fun {r w} hr => ?_⟩, hkeeps⟩, v, hget.2 (.inl ⟨rfl, rfl⟩)⟩
  rcases hget.1 hr with ⟨_, rfl⟩ | hr
  · exact fun q hq => (hv q hq).imp hkeeps id
  · exact fun q hq => (hs.knows hr q hq).imp hkeeps id

/-- **Writing a known value.** -/
theorem Sound.set (hs : h.Sound freed) (hv : h.Knows freed v) (hset : h.set r v = .ok h') :
    Extends freed h h' := by
  have hget := fun {q w} => get_set (q := q) (w := w) hset
  have hkeeps : ∀ {q}, h.Resolves q → h'.Resolves q := by
    rintro q ⟨w, hw⟩
    by_cases hq : q = r
    · exact ⟨v, hget.2 (.inl ⟨hq, rfl⟩)⟩
    · exact ⟨w, hget.2 (.inr ⟨hq, hw⟩)⟩
  refine ⟨⟨hs.wellFormed.set hset, fun {q w} hq => ?_⟩, hkeeps⟩
  rcases hget.1 hq with ⟨_, rfl⟩ | ⟨_, hq⟩
  · exact fun q hq => (hv q hq).imp hkeeps id
  · exact fun q' hq' => (hs.knows hq q' hq').imp hkeeps id

/-- **Freeing an entry**: its reference joins those that were freed. -/
theorem Sound.free (hs : h.Sound freed) (hf : h.free r = .ok h') :
    h'.Sound (freed ++ [r]) ∧ ∀ v, h.Knows freed v → h'.Knows (freed ++ [r]) v := by
  have hget := fun {q w} => get_free (q := q) (w := w) hf
  have hknows : ∀ v, h.Knows freed v → h'.Knows (freed ++ [r]) v := by
    intro v hv q hq
    by_cases hqr : q = r
    · exact .inr (by simp [hqr])
    · rcases hv q hq with ⟨w, hw⟩ | hmem
      · exact .inl ⟨w, hget.2 ⟨hqr, hw⟩⟩
      · exact .inr (List.mem_append_left _ hmem)
  exact ⟨⟨hs.wellFormed.free hf, fun {q w} hq => hknows w (hs.knows (hget.1 hq).2)⟩, hknows⟩

/-! ## Moving values into the heap -/

mutual

/-- Moving a value into the heap does nothing but take entries. -/
theorem intern_monotone {R : Heap → Heap → Prop} (hR : Monotone R) :
    (h : Heap) → (v : Value) → R h (h.intern v).1
  | h, .string s => by
    rw [intern]
    exact hR.alloc h (.string s)
  | h, .array es => by
    rw [intern]
    exact hR.trans (internAll_monotone hR h es) (hR.alloc _ _)
  | h, .int .. | h, .float _ | h, .double _ | h, .byte _ | h, .bool _ | h, .char _ | h, .void
  | h, .null | h, .function _ | h, .stackRef _ | h, .heapRef _ => hR.refl h

/-- Moving values into a heap is a change that any monotone relation takes in. -/
theorem internAll_monotone {R : Heap → Heap → Prop} (hR : Monotone R) :
    (h : Heap) → (vs : List Value) → R h (h.internAll vs).1
  | h, [] => hR.refl h
  | h, v :: vs => by
    rw [internAll]
    exact hR.trans (intern_monotone hR h v) (internAll_monotone hR _ vs)

end

/-- Moving a value into a heap leaves no fewer entries. -/
theorem grows_intern (h : Heap) (v : Value) : h.Grows (h.intern v).1 :=
  intern_monotone monotone_grows h v

/-- Moving values into a heap leaves no fewer entries. -/
theorem grows_internAll (h : Heap) (vs : List Value) : h.Grows (h.internAll vs).1 :=
  internAll_monotone monotone_grows h vs

mutual

/-- **A known value is moved into the heap** by taking entries, and is known afterwards. -/
theorem Sound.intern : (h : Heap) → (v : Value) → h.Sound freed → h.Knows freed v →
    (h.intern v).1.entries.size < 2 ^ 32 →
    Extends freed h (h.intern v).1 ∧ (h.intern v).1.Knows freed (h.intern v).2
  | h, .string s, hs, hv, hsize => by
    rw [Heap.intern] at hsize ⊢
    obtain ⟨hext, hr⟩ := hs.alloc hv hsize
    exact ⟨hext, .ofRef (.inl hr)⟩
  | h, .array es, hs, hv, hsize => by
    rw [Heap.intern] at hsize ⊢
    have hle := (grows_alloc (h.internAll es).1 (.array (h.internAll es).2)).size_le
    obtain ⟨hall, hknown⟩ :=
      Sound.internAll h es hs (fun e he => hv.element he) (Nat.lt_of_le_of_lt hle hsize)
    obtain ⟨hext, hr⟩ := hall.sound.alloc (.ofElements hknown) hsize
    exact ⟨hall.trans hext, .ofRef (.inl hr)⟩
  | h, .int .., hs, hv, _ | h, .float _, hs, hv, _ | h, .double _, hs, hv, _ | h, .byte _, hs, hv, _
  | h, .bool _, hs, hv, _ | h, .char _, hs, hv, _ | h, .void, hs, hv, _ | h, .null, hs, hv, _
  | h, .function _, hs, hv, _ | h, .stackRef _, hs, hv, _ | h, .heapRef _, hs, hv, _ =>
    ⟨.refl hs, hv⟩

/-- `Sound.intern` for the elements of an array. -/
theorem Sound.internAll : (h : Heap) → (vs : List Value) → h.Sound freed →
    (∀ v ∈ vs, h.Knows freed v) → (h.internAll vs).1.entries.size < 2 ^ 32 →
    Extends freed h (h.internAll vs).1 ∧ ∀ v ∈ (h.internAll vs).2, (h.internAll vs).1.Knows freed v
  | h, [], hs, _, _ => ⟨.refl hs, fun _ hv => nomatch hv⟩
  | h, v :: vs, hs, hvs, hsize => by
    rw [Heap.internAll] at hsize ⊢
    have hle := (grows_internAll (h.intern v).1 vs).size_le
    obtain ⟨hone, hknown⟩ :=
      Sound.intern h v hs (hvs v List.mem_cons_self) (Nat.lt_of_le_of_lt hle hsize)
    obtain ⟨hall, hknowns⟩ := Sound.internAll (h.intern v).1 vs hone.sound
      (fun w hw => hone.knows (hvs w (List.mem_cons_of_mem v hw))) hsize
    refine ⟨hone.trans hall, fun w hw => ?_⟩
    rcases List.mem_cons.1 hw with rfl | hw
    · exact hall.knows hknown
    · exact hknowns w hw

end

end Heap

end RegisterMachine
