import RegisterMachine.Proofs.Memory.Copying

/-!
# Generations

Taking and writing entries leaves the generation of every entry as it is (`Heap.Gains`); an entry
gets its next generation when it dies, freed by itself or in a reclaim (`Heap.Turns`). As long as
the count does not start over (`Heap.Ages`), a reference that was once handed out (`Heap.Issued`)
stays apart from all that are handed out later: a new reference was never issued before
(`Heap.not_issued_alloc`).
-/

namespace RegisterMachine.Heap

variable {h h₁ h₂ h₃ h' : Heap} {r : Ref} {v : Value} {i : Nat}

/-! ## How entries turn over -/

/-- What becomes of an entry that does not die: it keeps its generation and stays in use, and a new
one is of the first generation. -/
inductive Stays : Option HeapEntry → Option HeapEntry → Prop
  | absent : Stays none none
  | new {e : HeapEntry} : e.gen = 0 → Stays none (some e)
  | kept {e e' : HeapEntry} : e'.gen = e.gen → (e.live = true → e'.live = true) →
      Stays (some e) (some e')

/-- An entry in use dies and gets the next generation. -/
inductive Dies : Option HeapEntry → Option HeapEntry → Prop
  | mk {e e' : HeapEntry} : e.live = true → e'.live = false → e'.gen = e.gen + 1 →
      Dies (some e) (some e')

/-- An entry that is not touched stays. -/
theorem Stays.refl (e : Option HeapEntry) : Stays e e := by
  cases e with
  | none => exact .absent
  | some e => exact .kept rfl id

/-- An entry that stays twice stays. -/
theorem Stays.trans {e₁ e₂ e₃ : Option HeapEntry} (h₁₂ : Stays e₁ e₂) (h₂₃ : Stays e₂ e₃) :
    Stays e₁ e₃ := by
  cases h₁₂ with
  | absent => exact h₂₃
  | new hgen =>
    cases h₂₃ with
    | kept hgen' _ => exact .new (hgen'.trans hgen)
  | kept hgen hlive =>
    cases h₂₃ with
    | kept hgen' hlive' => exact .kept (hgen'.trans hgen) fun hl => hlive' (hlive hl)

/-- No entry dies. -/
def Gains (h h' : Heap) : Prop := ∀ i : Nat, Stays h.entries[i]? h'.entries[i]?

/-- Every entry stays or dies. -/
def Turns (h h' : Heap) : Prop :=
  ∀ i : Nat, Stays h.entries[i]? h'.entries[i]? ∨ Dies h.entries[i]? h'.entries[i]?

/-- If no entry dies, every entry stays or dies. -/
theorem Gains.turns (hg : h.Gains h') : h.Turns h' := fun i => .inl (hg i)

/-- If nothing is done, every entry stays. -/
theorem Turns.refl (h : Heap) : h.Turns h := fun _ => .inl (.refl _)

/-- There are no fewer entries when every entry stays or dies. -/
theorem Turns.size_le (ht : h.Turns h') : h.entries.size ≤ h'.entries.size := by
  by_contra hlt
  have hlt := Nat.not_le.1 hlt
  have hnone : h'.entries[h'.entries.size]? = none := Array.getElem?_eq_none (Nat.le_refl _)
  have hturn := ht h'.entries.size
  rw [hnone, Array.getElem?_eq_getElem hlt] at hturn
  rcases hturn with hturn | hturn <;> cases hturn

/-- No entry dies when one is allocated. -/
theorem gains_alloc (h : Heap) (v : Value) : h.Gains (h.alloc v).1 := by
  intro j
  rw [alloc]
  split
  · next i rest _ =>
    dsimp only
    rw [Array.getElem?_setIfInBounds]
    split
    · next hij =>
      subst hij
      split
      · next hlt =>
        rw [Array.getElem?_eq_getElem hlt]
        exact .kept (by simp) fun _ => rfl
      · next hge =>
        rw [Array.getElem?_eq_none (Nat.not_lt.1 hge)]
        exact .absent
    · exact .refl _
  · dsimp only
    rw [Array.getElem?_push]
    split
    · next hj =>
      rw [Array.getElem?_eq_none (Nat.le_of_eq hj.symm)]
      exact .new rfl
    · exact .refl _

/-- No entry dies when one is written. -/
theorem gains_set (hs : h.set r v = .ok h') : h.Gains h' := by
  obtain ⟨⟨w, hr⟩, rfl⟩ := set_eq_ok.1 hs
  rw [get_eq_ok] at hr
  obtain ⟨hlt, _⟩ := Array.getElem?_eq_some_iff.1 hr
  intro j
  dsimp only
  rw [Array.getElem?_setIfInBounds]
  split
  · next hij =>
    rw [← hij, hr]
    exact .kept rfl id
  · exact .refl _

/-- That no entry dies is a monotone relation. -/
theorem monotone_gains : Monotone Gains :=
  ⟨fun _ _ => .refl _, fun h₁₂ h₂₃ i => (h₁₂ i).trans (h₂₃ i), gains_alloc, gains_set⟩

/-- Freeing an entry changes no other. -/
theorem dies_free (hf : h.free r = .ok h') :
    Dies h.entries[r.index.toNat]? h'.entries[r.index.toNat]? ∧
      ∀ i, i ≠ r.index.toNat → h'.entries[i]? = h.entries[i]? := by
  obtain ⟨⟨w, hr⟩, rfl⟩ := free_eq_ok.1 hf
  rw [get_eq_ok] at hr
  obtain ⟨hlt, _⟩ := Array.getElem?_eq_some_iff.1 hr
  refine ⟨?_, fun i hi => ?_⟩
  · dsimp only
    rw [Array.getElem?_setIfInBounds_self_of_lt hlt, hr]
    exact .mk rfl rfl rfl
  · dsimp only
    exact Array.getElem?_setIfInBounds_ne hi.symm

/-- The entry that is freed dies, and all others stay. -/
theorem turns_free (hf : h.free r = .ok h') : h.Turns h' := by
  obtain ⟨hdies, hothers⟩ := dies_free hf
  intro i
  by_cases hi : i = r.index.toNat
  · exact .inr (hi ▸ hdies)
  · rw [hothers i hi]
    exact .inl (.refl _)

/-- A reclaim frees every entry at most once. -/
theorem turns_reclaim (h : Heap) (roots : List Value) : h.Turns (h.reclaim roots).1 := by
  intro i
  rw [getElem?_reclaim]
  cases h.entries[i]? with
  | none => exact .inl .absent
  | some e =>
    rw [Option.map_some, swept]
    split
    · next hdead => exact .inr (.mk (Bool.and_eq_true_iff.1 hdead).1 rfl rfl)
    · exact .inl (.refl _)

/-! ## References that were handed out -/

/-- No generation is lower than before, and an entry of the same generation stays in use. -/
def Ages (h h' : Heap) : Prop :=
  ∀ (i : Nat) (e : HeapEntry), h.entries[i]? = some e → ∃ e', h'.entries[i]? = some e' ∧
    (e.gen.toNat < e'.gen.toNat ∨ e.gen = e'.gen ∧ (e.live = true → e'.live = true))

/-- If no entry dies, no generation gets lower. -/
theorem Gains.ages (hg : h.Gains h') : h.Ages h' := by
  intro i e he
  have hstays := hg i
  rw [he] at hstays
  generalize h'.entries[i]? = o at hstays
  cases hstays with
  | kept hgen hlive => exact ⟨_, rfl, .inr ⟨hgen.symm, hlive⟩⟩

/-- Whether an entry is in use before and no longer after. -/
def freesAt (h h' : Heap) (i : Nat) : Bool :=
  h.entries[i]?.any (·.live) && !h'.entries[i]?.any (·.live)

/-- **A generation counts how often its entry was freed**, and does not start over as long as the
count is below 2^32. -/
theorem Turns.ages {count : Nat → Nat} (ht : h.Turns h')
    (hcount : ∀ (i : Nat) (e : HeapEntry), h.entries[i]? = some e → e.gen.toNat ≤ count i)
    (hlt : ∀ i, count i + (h.freesAt h' i).toNat < 2 ^ 32) :
    h.Ages h' ∧ ∀ (i : Nat) (e : HeapEntry), h'.entries[i]? = some e →
      e.gen.toNat ≤ count i + (h.freesAt h' i).toNat := by
  have hentry : ∀ i : Nat, (∀ e, h.entries[i]? = some e → ∃ e', h'.entries[i]? = some e' ∧
        (e.gen.toNat < e'.gen.toNat ∨ e.gen = e'.gen ∧ (e.live = true → e'.live = true))) ∧
      ∀ e', h'.entries[i]? = some e' → e'.gen.toNat ≤ count i + (h.freesAt h' i).toNat := by
    intro i
    have hone := hcount i
    have hlt := hlt i
    have hfrees : h.freesAt h' i = (h.entries[i]?.any (·.live) && !h'.entries[i]?.any (·.live)) :=
      rfl
    have hturn := ht i
    generalize h.freesAt h' i = frees at hlt hfrees ⊢
    generalize h.entries[i]? = o at hone hfrees hturn ⊢
    generalize h'.entries[i]? = o' at hfrees hturn ⊢
    rcases hturn with hstays | hdies
    · cases hstays with
      | absent => exact ⟨fun _ he => (nomatch he), fun _ he => nomatch he⟩
      | new hgen =>
        refine ⟨fun _ he => (nomatch he), fun e' he => ?_⟩
        cases he
        rw [hgen]
        exact Nat.zero_le _
      | @kept e e' hgen hlive =>
        refine ⟨fun e₀ he => ?_, fun e₀' he => ?_⟩
        · cases he
          exact ⟨e', rfl, .inr ⟨hgen.symm, hlive⟩⟩
        · cases he
          rw [hgen]
          exact Nat.le_add_right_of_le (hone e rfl)
    · cases hdies with
      | @mk e e' hlive hdead hgen =>
        have hcounted : frees.toNat = 1 := by
          rw [hfrees, Option.any_some, Option.any_some, hlive, hdead]
          rfl
        have hle := hone e rfl
        have hnext : e'.gen.toNat = e.gen.toNat + 1 := by
          rw [hgen, UInt32.toNat_add, UInt32.toNat_one]
          exact Nat.mod_eq_of_lt (by omega)
        refine ⟨fun e₀ he => ?_, fun e₀' he => ?_⟩
        · cases he
          exact ⟨e', rfl, .inl (by omega)⟩
        · cases he
          omega
  exact ⟨fun i e he => (hentry i).1 e he, fun i e he => (hentry i).2 e he⟩

/-- The reference was handed out: its entry is of a later generation, or of its own and in use. -/
def Issued (h : Heap) (r : Ref) : Prop :=
  ∃ e, h.entries[r.index.toNat]? = some e ∧
    (r.gen.toNat < e.gen.toNat ∨ r.gen = e.gen ∧ e.live = true)

/-- A reference that resolves was handed out. -/
theorem Resolves.issued (hr : h.Resolves r) : h.Issued r := by
  obtain ⟨v, hv⟩ := hr
  exact ⟨_, get_eq_ok.1 hv, .inr ⟨rfl, rfl⟩⟩

/-- A reference that was handed out still was when the generations got no lower. -/
theorem Issued.ages (hr : h.Issued r) (ha : h.Ages h') : h'.Issued r := by
  obtain ⟨e, he, hor⟩ := hr
  obtain ⟨e', he', hor'⟩ := ha _ e he
  refine ⟨e', he', ?_⟩
  rcases hor with hlt | ⟨hgen, hlive⟩
  · rcases hor' with hlt' | ⟨hgen', _⟩
    · exact .inl (Nat.lt_trans hlt hlt')
    · exact .inl (hgen' ▸ hlt)
  · rcases hor' with hlt' | ⟨hgen', hlive'⟩
    · exact .inl (hgen ▸ hlt')
    · exact .inr ⟨hgen.trans hgen', hlive' hlive⟩

/-- **A new reference was never handed out before.** -/
theorem not_issued_alloc (hw : h.WellFormed) (hsize : (h.alloc v).1.entries.size < 2 ^ 32) :
    ¬ h.Issued (h.alloc v).2 := by
  obtain ⟨i, gen, href, hi, hlive, hentries, _⟩ := hw.alloc_cases v hsize
  rintro ⟨e, he, hor⟩
  rw [href] at he hor
  dsimp only at he hor
  rw [hi] at he
  have hstays := gains_alloc h v i
  rw [hentries, if_pos rfl, he] at hstays
  cases hstays with
  | kept hgen _ =>
    dsimp only at hgen
    rcases hor with hlt | ⟨_, hl⟩
    · rw [hgen] at hlt
      exact Nat.lt_irrefl _ hlt
    · rw [hlive e he] at hl
      cases hl

/-- A reference that was handed out and does not resolve is stale. -/
theorem Issued.get_error {e : MemoryError} (hr : h.Issued r) (hget : h.get r = .error e) :
    e = .stale r := by
  obtain ⟨entry, he, _⟩ := hr
  rw [get, he] at hget
  dsimp only at hget
  split at hget
  · cases hget
  · cases hget
    rfl

end RegisterMachine.Heap
