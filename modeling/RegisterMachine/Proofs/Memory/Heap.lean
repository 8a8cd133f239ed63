import Mathlib.Algebra.Group.Int.Defs
import Mathlib.Algebra.Group.Nat.Defs
import RegisterMachine.Engine.Heap

/-!
# The arena

What the operations on the arena do to the references that resolve. An arena is well formed when its
free list names each dead entry at most once (`Heap.WellFormed`); then a new entry takes the place
of no live one, and every operation has one lemma that says which references resolve after it, and
to what (`Heap.get_alloc`, `Heap.get_set`, `Heap.get_free`). `Heap.Grows` compares how full two
arenas are; an arena from which an entry was taken is never the same as before
(`Heap.Grows.ne_of_alloc`). Reclaiming kills the entries that are not marked
(`Heap.getElem?_reclaim`), and keeps what every single kill keeps (`Heap.reclaim_induction`).
`Heap.Keeps` says that the live entries of one arena stand unchanged in another.
-/

namespace RegisterMachine.Heap

variable {h h' : Heap} {r q : Ref} {v w : Value}

/-- A reference resolves when the entry is live and of its generation. -/
theorem get_eq_ok : h.get r = .ok v ↔ h.entries[r.index.toNat]? = some ⟨r.gen, true, v⟩ := by
  rw [get]
  cases h.entries[r.index.toNat]? with
  | none => simp
  | some e =>
    obtain ⟨gen, live, value⟩ := e
    dsimp only
    split
    · next hlive =>
      obtain ⟨rfl, hgen⟩ := Bool.and_eq_true_iff.1 hlive
      simp [beq_iff_eq.1 hgen]
    · next hlive =>
      simp only [reduceCtorEq, false_iff, Option.some.injEq, HeapEntry.mk.injEq, not_and]
      rintro rfl rfl
      simp at hlive

/-- A reference that resolves can be written, and nothing else changes than its entry. -/
theorem set_eq_ok : h.set r v = .ok h' ↔ (∃ w, h.get r = .ok w) ∧
    h' = { h with entries := h.entries.setIfInBounds r.index.toNat ⟨r.gen, true, v⟩ } := by
  rw [set]
  cases h.get r with
  | error e => simp
  | ok w => simp [eq_comm]

/-- What resolves can be written. -/
theorem exists_set_eq_ok (hr : h.get r = .ok w) (v : Value) : ∃ h', h.set r v = .ok h' :=
  ⟨_, set_eq_ok.2 ⟨⟨w, hr⟩, rfl⟩⟩

/-- Writing takes no entry and frees none. -/
theorem fixed_set (hs : h.set r v = .ok h') :
    h'.entries.size = h.entries.size ∧ h'.dead = h.dead := by
  obtain ⟨_, rfl⟩ := set_eq_ok.1 hs
  exact ⟨Array.size_setIfInBounds, rfl⟩

/-- A reference that resolves can be freed: its entry dies with a new generation. -/
theorem free_eq_ok : h.free r = .ok h' ↔ (∃ w, h.get r = .ok w) ∧
    h' =
      { entries := h.entries.setIfInBounds r.index.toNat ⟨r.gen + 1, false, .void⟩
        dead := r.index.toNat :: h.dead } := by
  rw [free]
  cases h.get r with
  | error e => simp
  | ok w => simp [eq_comm]

/-- Of the references to one entry only one resolves. -/
theorem eq_of_index_eq (hr : h.get r = .ok v) (hq : h.get q = .ok w)
    (hi : r.index.toNat = q.index.toNat) : r = q := by
  rw [get_eq_ok] at hr hq
  rw [hi, hq] at hr
  obtain ⟨index, gen⟩ := r
  obtain ⟨index', gen'⟩ := q
  cases hr
  obtain rfl : index = index' := UInt32.toNat_inj.1 hi
  rfl

/-! ## How full an arena is -/

/-- There are as many entries at least, and as many free ones at most. -/
structure Grows (h h' : Heap) : Prop where
  size_le : h.entries.size ≤ h'.entries.size
  dead_le : h'.dead.length ≤ h.dead.length

/-- An arena has no fewer entries than itself. -/
theorem Grows.refl (h : Heap) : h.Grows h := ⟨Nat.le_refl _, Nat.le_refl _⟩

/-- An arena has no fewer entries after two changes if neither took any. -/
theorem Grows.trans {h₁ h₂ h₃ : Heap} (h₁₂ : h₁.Grows h₂) (h₂₃ : h₂.Grows h₃) : h₁.Grows h₃ :=
  ⟨Nat.le_trans h₁₂.size_le h₂₃.size_le, Nat.le_trans h₂₃.dead_le h₁₂.dead_le⟩

/-- Allocating leaves no fewer entries and frees none. -/
theorem grows_alloc (h : Heap) (v : Value) : h.Grows (h.alloc v).1 := by
  rw [alloc]
  split
  · next i rest hdead => exact ⟨by simp, by simp [hdead]⟩
  · next hdead => exact ⟨by simp, by simp [hdead]⟩

/-- Writing leaves as many entries and frees none. -/
theorem grows_set (hs : h.set r v = .ok h') : h.Grows h' := by
  obtain ⟨_, rfl⟩ := set_eq_ok.1 hs
  exact ⟨by simp, Nat.le_refl _⟩

/-- A relation between arenas that goes on holding while entries are taken and written. -/
structure Monotone (R : Heap → Heap → Prop) : Prop where
  refl : ∀ h, R h h
  trans : ∀ {h₁ h₂ h₃}, R h₁ h₂ → R h₂ h₃ → R h₁ h₃
  alloc : ∀ h v, R h (h.alloc v).1
  set : ∀ {h r v h'}, h.set r v = .ok h' → R h h'

/-- Growing is a monotone relation. -/
theorem monotone_grows : Monotone Grows := ⟨.refl, .trans, grows_alloc, grows_set⟩

/-- Once an entry is taken and none is given back, the arena is not what it was. -/
theorem Grows.ne_of_alloc (hg : (h.alloc v).1.Grows h') : h' ≠ h := by
  rintro rfl
  obtain ⟨hsize, hdead⟩ := hg
  unfold alloc at hsize hdead
  cases hd : h'.dead with
  | nil =>
    simp only [hd, Array.size_push] at hsize
    omega
  | cons i rest =>
    simp only [hd, List.length_cons] at hdead
    omega

/-! ## Well-formed arenas -/

/-- The free list names dead entries, each at most once. -/
structure WellFormed (h : Heap) : Prop where
  nodup : h.dead.Nodup
  dead : ∀ i ∈ h.dead, ∃ e, h.entries[i]? = some e ∧ e.live = false

/-- An empty arena is well formed. -/
theorem WellFormed.empty : WellFormed {} := ⟨List.nodup_nil, fun _ hi => nomatch hi⟩

/-- A reference that resolves does not lead to a free entry. -/
theorem WellFormed.index_notMem_dead (hw : h.WellFormed) (hr : h.get r = .ok v) :
    r.index.toNat ∉ h.dead := by
  intro hi
  obtain ⟨e, he, hlive⟩ := hw.dead _ hi
  rw [get_eq_ok, he] at hr
  cases hr
  cases hlive

/-- A new value gets an entry that is not in use. -/
theorem WellFormed.alloc_entry (hw : h.WellFormed) (v : Value) :
    ∃ i gen, (h.alloc v).2 = ⟨UInt32.ofNat i, gen⟩ ∧ i < (h.alloc v).1.entries.size ∧
      (∀ e, h.entries[i]? = some e → e.live = false) ∧
      (∀ n : Nat, (h.alloc v).1.entries[n]? = if n = i then some ⟨gen, true, v⟩
        else h.entries[n]?) ∧
      (h.alloc v).1.dead.Nodup ∧ i ∉ (h.alloc v).1.dead ∧ ∀ n ∈ (h.alloc v).1.dead, n ∈ h.dead := by
  have hnodup := hw.nodup
  unfold alloc
  cases hd : h.dead with
  | nil =>
    refine ⟨h.entries.size, 0, rfl, ?_, ?_, ?_, ?_, ?_, ?_⟩
    · simp
    · intro e he
      simp at he
    · intro n
      simp only [Array.getElem?_push]
    all_goals simp
  | cons i rest =>
    obtain ⟨e, he, hlive⟩ := hw.dead i (by simp [hd])
    obtain ⟨hlt, _⟩ := Array.getElem?_eq_some_iff.1 he
    rw [hd, List.nodup_cons] at hnodup
    refine ⟨i, (h.entries.getD i default).gen, rfl, ?_, ?_, ?_, hnodup.2, hnodup.1, ?_⟩
    · simpa using hlt
    · intro e' he'
      rw [he] at he'
      cases he'
      exact hlive
    · intro n
      simp only [Array.getElem?_setIfInBounds, eq_comm]
      split
      · simp
      · rfl
    · intro n hn
      exact List.mem_cons_of_mem i hn

/-- As long as indices have room in a reference, a new one leads to the entry that was taken. -/
theorem WellFormed.alloc_cases (hw : h.WellFormed) (v : Value)
    (hsize : (h.alloc v).1.entries.size < 2 ^ 32) :
    ∃ i gen, (h.alloc v).2 = ⟨UInt32.ofNat i, gen⟩ ∧ (UInt32.ofNat i).toNat = i ∧
      (∀ e, h.entries[i]? = some e → e.live = false) ∧
      (∀ n : Nat, (h.alloc v).1.entries[n]? = if n = i then some ⟨gen, true, v⟩
        else h.entries[n]?) ∧
      (h.alloc v).1.dead.Nodup ∧ i ∉ (h.alloc v).1.dead ∧ ∀ n ∈ (h.alloc v).1.dead, n ∈ h.dead := by
  obtain ⟨i, gen, href, hi, hrest⟩ := hw.alloc_entry v
  refine ⟨i, gen, href, ?_, hrest⟩
  rw [UInt32.toNat_ofNat']
  omega

/-- A new entry keeps the free list in order. -/
theorem WellFormed.alloc (hw : h.WellFormed) (v : Value) : (h.alloc v).1.WellFormed := by
  obtain ⟨i, gen, _, _, _, hentries, hnodup, hi, hdead⟩ := hw.alloc_entry v
  refine ⟨hnodup, fun n hn => ?_⟩
  have hne : n ≠ i := fun he => hi (he ▸ hn)
  rw [hentries, if_neg hne]
  exact hw.dead n (hdead n hn)

/-- **A new reference resolves to the value given for it**, and the others as before. -/
theorem get_alloc (hw : h.WellFormed) (hsize : (h.alloc v).1.entries.size < 2 ^ 32) :
    (h.alloc v).1.get r = .ok w ↔ (r = (h.alloc v).2 ∧ w = v) ∨ h.get r = .ok w := by
  obtain ⟨i, gen, href, hi, hlive, hentries, _⟩ := hw.alloc_cases v hsize
  obtain ⟨index, rgen⟩ := r
  rw [get_eq_ok, get_eq_ok, hentries, href, Ref.mk.injEq]
  dsimp only
  split
  · next he =>
    obtain rfl : index = UInt32.ofNat i := UInt32.toNat_inj.1 (he.trans hi.symm)
    constructor
    · intro hok
      cases hok
      exact .inl ⟨⟨rfl, rfl⟩, rfl⟩
    · rintro (⟨⟨_, rfl⟩, rfl⟩ | hok)
      · rfl
      · rw [he] at hok
        cases hlive _ hok
  · next he =>
    constructor
    · exact .inr
    · rintro (⟨⟨rfl, _⟩, _⟩ | hok)
      · exact absurd hi he
      · exact hok

/-- Writing an entry keeps the free list in order. -/
theorem WellFormed.set (hw : h.WellFormed) (hs : h.set r v = .ok h') : h'.WellFormed := by
  obtain ⟨⟨w, hr⟩, rfl⟩ := set_eq_ok.1 hs
  refine ⟨hw.nodup, fun n hn => ?_⟩
  have hne : r.index.toNat ≠ n := fun he => hw.index_notMem_dead hr (he ▸ hn)
  dsimp only
  rw [Array.getElem?_setIfInBounds_ne hne]
  exact hw.dead n hn

/-- **A reference that is written resolves to what was written**, and the others as before. -/
theorem get_set (hs : h.set r v = .ok h') :
    h'.get q = .ok w ↔ (q = r ∧ w = v) ∨ (q ≠ r ∧ h.get q = .ok w) := by
  obtain ⟨⟨c, hr⟩, rfl⟩ := set_eq_ok.1 hs
  have hrget := get_eq_ok.1 hr
  obtain ⟨hlt, _⟩ := Array.getElem?_eq_some_iff.1 hrget
  rw [get_eq_ok]
  dsimp only
  rw [Array.getElem?_setIfInBounds]
  split
  · next he =>
    constructor
    · intro hok
      obtain ⟨index, gen⟩ := q
      cases hok
      obtain ⟨rindex, rgen⟩ := r
      obtain rfl : rindex = index := UInt32.toNat_inj.1 he
      exact .inl ⟨rfl, rfl⟩
    · rintro (⟨rfl, rfl⟩ | ⟨hne, hok⟩)
      · rfl
      · exact absurd (eq_of_index_eq hr hok he).symm hne
  · next he =>
    have hne : q ≠ r := fun hqr => he (hqr ▸ rfl)
    simp [hne, get_eq_ok]

/-- Killing a live entry keeps the free list in order. -/
theorem WellFormed.kill (hw : h.WellFormed) {i : Nat} {e : HeapEntry} (he : h.entries[i]? = some e)
    (hlive : e.live = true) (gen : UInt32) :
    WellFormed ⟨h.entries.setIfInBounds i ⟨gen, false, .void⟩, i :: h.dead⟩ := by
  obtain ⟨hlt, _⟩ := Array.getElem?_eq_some_iff.1 he
  have hi : i ∉ h.dead := by
    intro hi
    obtain ⟨e', he', hdead⟩ := hw.dead i hi
    rw [he] at he'
    cases he'
    rw [hlive] at hdead
    cases hdead
  refine ⟨List.nodup_cons.2 ⟨hi, hw.nodup⟩, fun n hn => ?_⟩
  dsimp only
  rw [Array.getElem?_setIfInBounds]
  split
  · exact ⟨_, rfl, rfl⟩
  · next hne =>
    rcases List.mem_cons.1 hn with rfl | hn
    · exact absurd rfl hne
    · exact hw.dead n hn

/-- Freeing an entry keeps the free list in order. -/
theorem WellFormed.free (hw : h.WellFormed) (hf : h.free r = .ok h') : h'.WellFormed := by
  obtain ⟨⟨w, hr⟩, rfl⟩ := free_eq_ok.1 hf
  exact hw.kill (get_eq_ok.1 hr) rfl _

/-- **A reference that is freed no longer resolves**, and the others do as before. -/
theorem get_free (hf : h.free r = .ok h') : h'.get q = .ok w ↔ q ≠ r ∧ h.get q = .ok w := by
  obtain ⟨⟨c, hr⟩, rfl⟩ := free_eq_ok.1 hf
  have hrget := get_eq_ok.1 hr
  obtain ⟨hlt, _⟩ := Array.getElem?_eq_some_iff.1 hrget
  rw [get_eq_ok]
  dsimp only
  rw [Array.getElem?_setIfInBounds]
  split
  · next he =>
    constructor
    · intro hok
      simp at hok
    · rintro ⟨hne, hok⟩
      exact absurd (eq_of_index_eq hr hok he).symm hne
  · next he =>
    have hne : q ≠ r := fun hqr => he (hqr ▸ rfl)
    simp [hne, get_eq_ok]

/-- Taking and writing entries keeps the free list in order, however full the arena is. -/
theorem monotone_wellFormed : Monotone fun h h' => h.WellFormed → h'.WellFormed where
  refl _ hw := hw
  trans h₁₂ h₂₃ hw := h₂₃ (h₁₂ hw)
  alloc _ v hw := hw.alloc v
  set hs hw := hw.set hs

/-! ## Sweeping -/

/-- What the sweep leaves of an entry. -/
def swept (marked : Array Bool) (i : Nat) (e : HeapEntry) : HeapEntry :=
  if e.live && !marked.getD i false then ⟨e.gen + 1, false, .void⟩ else e

/-- Sweeping one entry changes no other one. -/
theorem getElem?_sweepOne (marked : Array Bool) (h : Heap) (n i j : Nat) :
    (sweepOne marked (h, n) i).1.entries[j]? =
      if j = i then h.entries[j]?.map (swept marked j) else h.entries[j]? := by
  rw [sweepOne]
  split
  · next e he =>
    obtain ⟨hlt, _⟩ := Array.getElem?_eq_some_iff.1 he
    by_cases hj : j = i
    · subst hj
      rw [if_pos rfl, he, Option.map_some, swept]
      split
      · exact Array.getElem?_setIfInBounds_self_of_lt hlt
      · exact he
    · rw [if_neg hj]
      split
      · exact Array.getElem?_setIfInBounds_ne (Ne.symm hj)
      · rfl
  · next he =>
    split
    · next hj => rw [hj, he]; rfl
    · rfl

/-- **The sweep kills the entries without a mark** and leaves the others alone. -/
theorem getElem?_reclaim (h : Heap) (roots : List Value) (j : Nat) :
    (h.reclaim roots).1.entries[j]? = h.entries[j]?.map (swept (h.reachable roots) j) := by
  have hsweep : ∀ (marked : Array Bool) (is : List Nat), is.Nodup → ∀ (h : Heap) (n : Nat),
      (is.foldl (sweepOne marked) (h, n)).1.entries[j]? =
        if j ∈ is then h.entries[j]?.map (swept marked j) else h.entries[j]? := by
    intro marked is hnodup
    induction is with
    | nil => exact fun h n => rfl
    | cons i is ih =>
      intro h n
      obtain ⟨hi, hnodup⟩ := List.nodup_cons.1 hnodup
      rw [List.foldl_cons, ih hnodup (sweepOne marked (h, n) i).1 (sweepOne marked (h, n) i).2,
        getElem?_sweepOne]
      by_cases hj : j = i
      · subst hj
        simp [hi]
      · simp [hj]
  rw [reclaim, hsweep _ _ List.nodup_range]
  split
  · rfl
  · next hj =>
    rw [Array.getElem?_eq_none (by simpa using hj)]
    rfl

/-- What is kept whenever an entry dies is kept by reclaiming. -/
theorem reclaim_induction {P : Heap → Prop}
    (kill : ∀ {h : Heap} {i : Nat} {e : HeapEntry}, P h → h.entries[i]? = some e → e.live = true →
      P ⟨h.entries.setIfInBounds i ⟨e.gen + 1, false, .void⟩, i :: h.dead⟩)
    (hp : P h) (roots : List Value) : P (h.reclaim roots).1 := by
  have hsweep : ∀ (is : List Nat) (acc : Heap × Nat), P acc.1 →
      P (is.foldl (sweepOne (h.reachable roots)) acc).1 := by
    intro is
    induction is with
    | nil => exact fun _ hp => hp
    | cons i is ih =>
      intro acc hacc
      rw [List.foldl_cons]
      refine ih _ ?_
      unfold sweepOne
      dsimp only
      split
      · next e he =>
        split
        · next hdead => exact kill hacc he (Bool.and_eq_true_iff.1 hdead).1
        · exact hacc
      · exact hacc
  exact hsweep _ _ hp

/-- The sweep keeps the free list in order, however full the arena is. -/
theorem WellFormed.reclaim (hw : h.WellFormed) (roots : List Value) :
    (h.reclaim roots).1.WellFormed :=
  reclaim_induction (fun hw he hlive => hw.kill he hlive _) hw roots

/-- Reclaiming leaves dead entries in place. -/
theorem size_reclaim (h : Heap) (roots : List Value) :
    (h.reclaim roots).1.entries.size = h.entries.size :=
  reclaim_induction (P := fun h' => h'.entries.size = h.entries.size)
    (fun hsize _ _ => (Array.size_setIfInBounds ..).trans hsize) rfl roots

/-! ## Entries that are kept -/

/-- The live entries are all there, with their generations and values. -/
def Keeps (h h' : Heap) : Prop :=
  ∀ (n : Nat) (e : HeapEntry), h.entries[n]? = some e → e.live = true → h'.entries[n]? = some e

/-- Nothing is lost by doing nothing. -/
theorem Keeps.refl (h : Heap) : h.Keeps h := fun _ _ he _ => he

/-- Nothing is lost by two changes if neither loses anything. -/
theorem Keeps.trans {h₁ h₂ h₃ : Heap} (h₁₂ : h₁.Keeps h₂) (h₂₃ : h₂.Keeps h₃) : h₁.Keeps h₃ :=
  fun n e he hlive => h₂₃ n e (h₁₂ n e he hlive) hlive

/-- A new entry takes the place of no live one. -/
theorem WellFormed.keeps_alloc (hw : h.WellFormed) (v : Value) : h.Keeps (h.alloc v).1 := by
  obtain ⟨i, gen, _, _, hdead, hentries, _⟩ := hw.alloc_entry v
  intro n e he hlive
  rw [hentries, if_neg, he]
  rintro rfl
  rw [hdead e he] at hlive
  cases hlive

/-- Writing an entry that was not in use keeps those that were. -/
theorem Keeps.set {store : Heap} (hk : store.Keeps h) (hs : h.set r v = .ok h')
    (hr : ∀ e, store.entries[r.index.toNat]? = some e → e.live = false) : store.Keeps h' := by
  obtain ⟨_, rfl⟩ := set_eq_ok.1 hs
  intro n e he hlive
  have hne : r.index.toNat ≠ n := by
    rintro rfl
    rw [hr e he] at hlive
    cases hlive
  dsimp only
  rw [Array.getElem?_setIfInBounds_ne hne]
  exact hk n e he hlive

/-! ## The view of an arena -/

/-- What is shown of an arena are its live entries, each with its index. -/
theorem view_eq_map_filter (h : Heap) : h.view =
    (h.entries.toList.zipIdx.filter (·.1.live)).map fun e =>
      ⟨⟨UInt32.ofNat e.2, e.1.gen⟩, e.1.value⟩ := by
  rw [view]
  induction h.entries.toList.zipIdx with
  | nil => rfl
  | cons e es ih =>
    obtain ⟨⟨gen, live, value⟩, n⟩ := e
    cases live with
    | false => simpa using ih
    | true => simpa using ih

end RegisterMachine.Heap
