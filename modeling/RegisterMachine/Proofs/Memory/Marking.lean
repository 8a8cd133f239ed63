import Mathlib.Data.List.Basic
import RegisterMachine.Proofs.Memory.References

/-!
# Reclaiming

Reclaiming marks what can be reached from the roots and frees the rest. Marking works off a list of
references in rounds; all the time, the references in marked entries are covered by a mark or are
still on the list (`Heap.Closed`), and every round that leaves references marks an entry, so there
are enough rounds (`Heap.closed_mark`). The sweep frees exactly the entries without a mark
(`Heap.get_reclaim`). Hence a sound heap that knows the roots stays sound and knows them afterwards
(`Heap.Sound.reclaim`), and reclaiming once more from the same roots frees nothing
(`Heap.reclaim_reclaim`).
-/

namespace RegisterMachine.Heap

variable {h : Heap} {marked : Array Bool} {refs : List Ref} {r : Ref}

/-! ## Marking -/

/-- The entry at an index has a mark. -/
def Marked (marked : Array Bool) (i : Nat) : Prop := marked.getD i false = true

/-- If the reference resolves, its entry has a mark. -/
def Covered (h : Heap) (marked : Array Bool) (r : Ref) : Prop :=
  h.Resolves r → Marked marked r.index.toNat

/-- The references in marked entries are covered or on the list. -/
def Closed (h : Heap) (marked : Array Bool) (refs : List Ref) : Prop :=
  ∀ r v q, h.get r = .ok v → Marked marked r.index.toNat → v.Mentions q →
    h.Covered marked q ∨ q ∈ refs

/-- No mark is taken back, and there are fewer entries without one, unless nothing changes. -/
structure Advances (s s' : Array Bool × List Ref) : Prop where
  size : s'.1.size = s.1.size
  marks : ∀ i, Marked s.1 i → Marked s'.1 i
  fewer : s' = s ∨ s'.1.count false < s.1.count false

/-- The marking has gone on when nothing happened. -/
theorem Advances.refl (s : Array Bool × List Ref) : Advances s s := ⟨rfl, fun _ => id, .inl rfl⟩

/-- The marking that goes on twice goes on. -/
theorem Advances.trans {s₁ s₂ s₃ : Array Bool × List Ref} (h₁₂ : Advances s₁ s₂)
    (h₂₃ : Advances s₂ s₃) : Advances s₁ s₃ := by
  refine ⟨h₂₃.size.trans h₁₂.size, fun i hi => h₂₃.marks i (h₁₂.marks i hi), ?_⟩
  rcases h₁₂.fewer with rfl | hlt
  · exact h₂₃.fewer
  · rcases h₂₃.fewer with rfl | hlt'
    · exact .inr hlt
    · exact .inr (Nat.lt_trans hlt' hlt)

/-- What has a mark keeps it while the marking goes on. -/
theorem Advances.covered {s s' : Array Bool × List Ref} (ha : Advances s s')
    (hr : h.Covered s.1 r) : h.Covered s'.1 r := fun hres => ha.marks _ (hr hres)

/-- Where references were found, an entry was marked. -/
theorem Advances.count_lt {s' : Array Bool × List Ref} (ha : Advances (marked, []) s')
    (hfound : ¬ s'.2.isEmpty = true) : s'.1.count false < marked.count false := by
  rcases ha.fewer with rfl | hlt
  · exact absurd rfl hfound
  · exact hlt

/-- There are no marks to start with. -/
theorem not_marked_replicate (n i : Nat) : ¬ Marked (Array.replicate n false) i := by
  simp only [Marked, Array.getD_eq_getD_getElem?, Array.getElem?_replicate]
  split <;> simp

/-- Setting a mark marks one entry. -/
theorem marked_set {i j : Nat} (hi : i < marked.size) :
    Marked (marked.setIfInBounds i true) j ↔ j = i ∨ Marked marked j := by
  simp only [Marked, Array.getD_eq_getD_getElem?, Array.getElem?_setIfInBounds]
  split
  · next he => simp [he]
  · next he => simp [Ne.symm he]

/-- Marking a new entry leaves fewer without a mark. -/
theorem count_set_lt {i : Nat} (hi : i < marked.size) (hm : ¬ Marked marked i) :
    (marked.setIfInBounds i true).count false < marked.count false := by
  have hfalse : marked[i] = false := by
    simpa [Marked, hi] using hm
  have hpos : 0 < marked.count false := Array.count_pos_iff.2 (hfalse ▸ Array.getElem_mem hi)
  rw [Array.setIfInBounds_def, dif_pos hi, Array.count_set hi, hfalse]
  change marked.count false - 1 + 0 < marked.count false
  omega

/-- Working off a reference covers it and takes no mark back. -/
theorem advances_markOne (s : Array Bool × List Ref) (hsize : s.1.size = h.entries.size) (r : Ref) :
    Advances s (h.markOne s r) ∧ h.Covered (h.markOne s r).1 r := by
  obtain ⟨marked, found⟩ := s
  rw [markOne]
  cases hr : h.get r with
  | error e =>
    refine ⟨.refl _, ?_⟩
    rintro ⟨v, hv⟩
    rw [hr] at hv
    cases hv
  | ok v =>
    dsimp only
    split
    · next hm => exact ⟨.refl _, fun _ => hm⟩
    · next hm =>
      have hi : r.index.toNat < marked.size := by
        rw [hsize]
        exact (Array.getElem?_eq_some_iff.1 (get_eq_ok.1 hr)).1
      exact ⟨⟨by simp, fun i hi' => (marked_set hi).2 (.inr hi'), .inr (count_set_lt hi hm)⟩,
        fun _ => (marked_set hi).2 (.inl rfl)⟩

/-- A round covers the references of its list. -/
theorem advances_round (refs : List Ref) (s : Array Bool × List Ref)
    (hsize : s.1.size = h.entries.size) :
    Advances s (refs.foldl h.markOne s) ∧
      ∀ r ∈ refs, h.Covered (refs.foldl h.markOne s).1 r := by
  induction refs generalizing s with
  | nil => exact ⟨.refl s, fun _ hr => absurd hr List.not_mem_nil⟩
  | cons r refs ih =>
    obtain ⟨hone, hcov⟩ := advances_markOne s hsize r
    obtain ⟨hrest, hcovs⟩ := ih (h.markOne s r) (hone.size.trans hsize)
    rw [List.foldl_cons]
    refine ⟨hone.trans hrest, fun q hq => ?_⟩
    rcases List.mem_cons.1 hq with rfl | hq
    · exact hrest.covered hcov
    · exact hcovs q hq

/-- Marking takes no mark back. -/
theorem marked_mark (rounds : Nat) (refs : List Ref) (hsize : marked.size = h.entries.size)
    {i : Nat} (hi : Marked marked i) : Marked (h.mark rounds marked refs) i := by
  induction rounds generalizing marked refs with
  | zero => exact hi
  | succ rounds ih =>
    obtain ⟨hadv, _⟩ := advances_round refs (marked, []) hsize
    rw [mark]
    dsimp only
    split
    · exact hadv.marks i hi
    · exact ih _ (hadv.size.trans hsize) (hadv.marks i hi)

/-- **One reference is worked off**: what is found in its entry is put on the list. -/
theorem closed_markOne (found : List Ref) (hsize : marked.size = h.entries.size)
    (hc : h.Closed marked (r :: refs ++ found)) :
    h.Closed (h.markOne (marked, found) r).1 (refs ++ (h.markOne (marked, found) r).2) := by
  obtain ⟨hadv, hcov⟩ := advances_markOne (marked, found) hsize r
  -- What was covered or on the list before still is, apart from the reference itself.
  have hkept : ∀ q, h.Covered marked q ∨ q ∈ r :: refs ++ found →
      h.Covered (h.markOne (marked, found) r).1 q ∨ q ∈ refs ++ found := by
    rintro q (hq | hq)
    · exact .inl (hadv.covered hq)
    · rcases List.mem_cons.1 hq with rfl | hq
      · exact .inl hcov
      · exact .inr hq
  intro r' v' q hr' hm' hq
  rw [markOne] at hkept hm' ⊢
  cases hr : h.get r with
  | error e =>
    rw [hr] at hkept hm'
    exact hkept q (hc r' v' q hr' hm' hq)
  | ok v =>
    rw [hr] at hkept hm'
    dsimp only at hkept hm' ⊢
    split at hm'
    · next hm =>
      simp only [hm, if_true] at hkept ⊢
      exact hkept q (hc r' v' q hr' hm' hq)
    · next hm =>
      simp only [hm] at hkept ⊢
      have hi : r.index.toNat < marked.size := by
        rw [hsize]
        exact (Array.getElem?_eq_some_iff.1 (get_eq_ok.1 hr)).1
      have hfound : ∀ {p}, v.Mentions p ∨ p ∈ found → p ∈ refs ++ v.refsOnto found :=
        fun hp => List.mem_append_right _ ((mem_refsOnto _ v found).2 hp)
      rcases (marked_set hi).1 hm' with he | hm'
      · obtain rfl := eq_of_index_eq hr' hr he
        rw [hr] at hr'
        cases hr'
        exact .inr (hfound (.inl hq))
      · refine (hkept q (hc r' v' q hr' hm' hq)).imp id fun hmem => ?_
        rcases List.mem_append.1 hmem with hmem | hmem
        · exact List.mem_append_left _ hmem
        · exact hfound (.inr hmem)

/-- **A round works off the whole list.** -/
theorem closed_round (refs : List Ref) (s : Array Bool × List Ref)
    (hsize : s.1.size = h.entries.size) (hc : h.Closed s.1 (refs ++ s.2)) :
    h.Closed (refs.foldl h.markOne s).1 (refs.foldl h.markOne s).2 := by
  induction refs generalizing s with
  | nil => exact hc
  | cons r refs ih =>
    obtain ⟨hone, _⟩ := advances_markOne s hsize r
    exact ih (h.markOne s r) (hone.size.trans hsize) (closed_markOne s.2 hsize hc)

/-- **Marking ends with every reference covered**: those on the list and those in marked entries. -/
theorem closed_mark (rounds : Nat) (refs : List Ref) (hsize : marked.size = h.entries.size)
    (hrounds : marked.count false < rounds) (hc : h.Closed marked refs) :
    h.Closed (h.mark rounds marked refs) [] ∧
      ∀ r ∈ refs, h.Covered (h.mark rounds marked refs) r := by
  induction rounds generalizing marked refs with
  | zero => cases hrounds
  | succ rounds ih =>
    obtain ⟨hadv, hcov⟩ := advances_round refs (marked, []) hsize
    have hclosed := closed_round refs (marked, []) hsize (by simpa using hc)
    rw [mark]
    dsimp only
    split
    · next hempty =>
      rw [List.isEmpty_iff.1 hempty] at hclosed
      exact ⟨hclosed, hcov⟩
    · next hmore =>
      have hlt := hadv.count_lt hmore
      have hsize' := hadv.size.trans hsize
      obtain ⟨hclosed', _⟩ := ih _ hsize' (by omega) hclosed
      exact ⟨hclosed', fun r hr hres => marked_mark _ _ hsize' (hcov r hr hres)⟩

/-- What the roots and marked entries refer to is marked. -/
theorem closed_reachable (h : Heap) (roots : List Value) :
    h.Closed (h.reachable roots) [] ∧
      ∀ v ∈ roots, ∀ r, v.Mentions r → h.Covered (h.reachable roots) r := by
  have hcount : (Array.replicate h.entries.size false).count false < h.entries.size + 1 := by simp
  obtain ⟨hclosed, hcov⟩ := closed_mark (h := h) (h.entries.size + 1) (Value.refsAllOnto roots [])
    (by simp) hcount (fun _ _ _ _ hm => absurd hm (not_marked_replicate _ _))
  exact ⟨hclosed, fun v hv r hr => hcov r ((mem_refsAllOnto r roots []).2 (.inl ⟨v, hv, hr⟩))⟩

/-- The references that can be reached in the heap from given values. -/
inductive Reaches (h : Heap) (roots : List Value) : Ref → Prop
  | root {v : Value} {r : Ref} : v ∈ roots → v.Mentions r → Reaches h roots r
  | entry {q r : Ref} {v : Value} : Reaches h roots q → h.get q = .ok v → v.Mentions r →
      Reaches h roots r

/-- What is reached is marked, if it is there. -/
theorem Reaches.covered {roots : List Value} (hr : h.Reaches roots r) :
    h.Covered (h.reachable roots) r := by
  obtain ⟨hclosed, hroots⟩ := closed_reachable h roots
  induction hr with
  | root hv hr => exact hroots _ hv _ hr
  | entry _ hget hr ih =>
    rcases hclosed _ _ _ hget (ih ⟨_, hget⟩) hr with hcov | hmem
    · exact hcov
    · cases hmem

/-- What can be reached stays within reach when entries are kept and the roots are. -/
theorem Reaches.lift {h' : Heap} {roots roots' : List Value}
    (hkeeps : ∀ {r v}, h.get r = .ok v → h'.get r = .ok v)
    (hroots : ∀ v ∈ roots, ∀ r, v.Mentions r → h'.Reaches roots' r) (hr : h.Reaches roots r) :
    h'.Reaches roots' r := by
  induction hr with
  | root hv hr => exact hroots _ hv _ hr
  | entry _ hget hr ih => exact .entry ih (hkeeps hget) hr

/-! ## What reclaiming keeps -/

/-- **Reclaiming frees exactly the entries without a mark.** -/
theorem get_reclaim {roots : List Value} {v : Value} :
    (h.reclaim roots).1.get r = .ok v ↔
      h.get r = .ok v ∧ Marked (h.reachable roots) r.index.toNat := by
  rw [get_eq_ok, getElem?_reclaim, get_eq_ok]
  cases h.entries[r.index.toNat]? with
  | none => simp
  | some e =>
    simp only [Option.map_some, Option.some.injEq, swept, Marked]
    split
    · next hdead =>
      simp only [Bool.and_eq_true, Bool.not_eq_true'] at hdead
      simp [hdead.2]
    · next hkept =>
      refine ⟨fun he => ⟨he, ?_⟩, fun he => he.1⟩
      simpa [he] using hkept

/-- **Reclaiming frees nothing that can be reached**: a sound heap stays sound, and what it knew of
the roots it still knows. -/
theorem Sound.reclaim {freed : List Ref} {roots : List Value} (hs : h.Sound freed)
    (hroots : ∀ v ∈ roots, h.Knows freed v) :
    (h.reclaim roots).1.Sound freed ∧ ∀ v ∈ roots, (h.reclaim roots).1.Knows freed v := by
  obtain ⟨hclosed, hcov⟩ := closed_reachable h roots
  have hkept : ∀ q, h.Covered (h.reachable roots) q → h.Resolves q →
      (h.reclaim roots).1.Resolves q := by
    rintro q hq ⟨w, hw⟩
    exact ⟨w, get_reclaim.2 ⟨hw, hq ⟨w, hw⟩⟩⟩
  refine ⟨⟨hs.wellFormed.reclaim roots, fun {r v} hr q hq => ?_⟩, fun v hv r hr => ?_⟩
  · obtain ⟨hr, hm⟩ := get_reclaim.1 hr
    have hqcov : h.Covered (h.reachable roots) q := by
      rcases hclosed r v q hr hm hq with hq | hq
      · exact hq
      · cases hq
    exact (hs.knows hr q hq).imp (hkept q hqcov) id
  · exact (hroots v hv r hr).imp (hkept r (hcov v hv r hr)) id

/-! ## Reclaiming again -/

/-- Marking looks at nothing but what the reference resolves to. -/
theorem markOne_congr {h' : Heap} (hr : ∀ v, h'.get r = .ok v ↔ h.get r = .ok v)
    (s : Array Bool × List Ref) : h'.markOne s r = h.markOne s r := by
  rw [markOne, markOne]
  cases hget : h.get r with
  | ok v => rw [(hr v).2 hget]
  | error e =>
    cases hget' : h'.get r with
    | ok v =>
      rw [(hr v).1 hget'] at hget
      cases hget
    | error e' => rfl

/-- An arena in which the marked entries are left and no others is marked in the same way. -/
theorem mark_congr {h' : Heap} (rounds : Nat) (refs : List Ref)
    (hsize : marked.size = h.entries.size)
    (hkept : ∀ {r v}, h.get r = .ok v → Marked (h.mark rounds marked refs) r.index.toNat →
      h'.get r = .ok v)
    (hback : ∀ {r v}, h'.get r = .ok v → h.get r = .ok v) :
    h'.mark rounds marked refs = h.mark rounds marked refs := by
  induction rounds generalizing marked refs with
  | zero => rfl
  | succ rounds ih =>
    obtain ⟨hadv, hcov⟩ := advances_round refs (marked, []) hsize
    have hsize' := hadv.size.trans hsize
    -- What a round covers has its mark in the end.
    have hround : ∀ r ∈ refs, ∀ v, h.get r = .ok v → h'.get r = .ok v := by
      intro r hr v hget
      refine hkept hget ?_
      have hm := hcov r hr ⟨v, hget⟩
      rw [mark]
      dsimp only
      split
      · exact hm
      · exact marked_mark _ _ hsize' hm
    have hfold : refs.foldl h'.markOne (marked, []) = refs.foldl h.markOne (marked, []) :=
      List.foldl_ext _ _ _ fun s r hr =>
        markOne_congr (fun v => ⟨fun hv => hback hv, hround r hr v⟩) s
    rw [mark, mark, hfold]
    rw [mark] at hkept
    dsimp only at hkept ⊢
    split
    · rfl
    · next hmore =>
      rw [if_neg hmore] at hkept
      exact ih _ hsize' hkept

/-- Reclaiming leaves the same entries within reach. -/
theorem reachable_reclaim (h : Heap) (roots : List Value) :
    (h.reclaim roots).1.reachable roots = h.reachable roots := by
  rw [reachable, size_reclaim]
  exact mark_congr _ _ (by simp) (fun hr hm => get_reclaim.2 ⟨hr, hm⟩) fun hr =>
    (get_reclaim.1 hr).1

/-- **Reclaiming again frees nothing more.** -/
theorem reclaim_reclaim (h : Heap) (roots : List Value) :
    (h.reclaim roots).1.reclaim roots = ((h.reclaim roots).1, 0) := by
  have hmarked : ∀ (i : Nat) (e : HeapEntry), (h.reclaim roots).1.entries[i]? = some e →
      e.live = true → Marked (h.reachable roots) i := by
    intro i e he hlive
    rw [getElem?_reclaim, Option.map_eq_some_iff] at he
    obtain ⟨e₀, _, rfl⟩ := he
    rw [swept] at hlive
    split at hlive
    · cases hlive
    · next hkept => simpa [hlive, Marked] using hkept
  rw [reclaim, reachable_reclaim, size_reclaim]
  generalize (h.reclaim roots).1 = h' at hmarked
  induction List.range h.entries.size with
  | nil => rfl
  | cons i is ih =>
    have hone : sweepOne (h.reachable roots) (h', 0) i = (h', 0) := by
      rw [sweepOne]
      split
      · next e he =>
        rw [if_neg]
        intro hdead
        obtain ⟨hlive, hm⟩ := Bool.and_eq_true_iff.1 hdead
        simp [show (h.reachable roots).getD i false = true from hmarked i e he hlive] at hm
      · rfl
    rw [List.foldl_cons, hone, ih]

end RegisterMachine.Heap
