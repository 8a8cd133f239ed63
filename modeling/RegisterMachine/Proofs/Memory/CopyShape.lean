import RegisterMachine.Proofs.Memory.Separation

/-!
# The shape of a copy

Copying follows the references that a value leads to (`Heap.Leads`), and what it gives has the shape
of what it follows (`Heap.Copy`): every entry that the value leads to has one entry of its own,
which was not in use before, and the content of that entry is the content of the original with every
reference exchanged for what it was copied to (`Value.ContentCopiedTo`). A copy fails exactly if one
of the references on the way leads nowhere when it is done (`Heap.WellFormed.deepCopy_fails_iff`);
so it succeeds for what lies in a closed region of the heap (`Heap.Region.deepCopy`).
-/

namespace RegisterMachine

variable {origin h h' : Heap} {region : Ref → Prop} {root : Value} {pending : List Ref}
  {st : CopyState} {fuel : Nat} {src dst r q : Ref} {v w c c' : Value} {copied copied' : Copied}

/-- The copy of a value: a reference is exchanged for what it was copied to, and anything else stays
as it is. -/
inductive Value.CopiedTo (copied : Copied) : Value → Value → Prop
  | ref {src dst : Ref} : (src, dst) ∈ copied → CopiedTo copied (.heapRef src) (.heapRef dst)
  | same {v : Value} : (∀ r, v ≠ .heapRef r) → CopiedTo copied v v

/-- The copy of what an entry holds: the elements of an array are copied one by one. -/
inductive Value.ContentCopiedTo (copied : Copied) : Value → Value → Prop
  | array {es es' : List Value} : List.Forall₂ (Value.CopiedTo copied) es es' →
      ContentCopiedTo copied (.array es) (.array es')
  | same {v : Value} : (∀ es, v ≠ .array es) → ContentCopiedTo copied v v

/-- A value is copied in the same way wherever its reference is copied to the same. -/
theorem Value.CopiedTo.congr (hv : v.CopiedTo copied w)
    (hsub : ∀ src dst, v = .heapRef src → (src, dst) ∈ copied → (src, dst) ∈ copied') :
    v.CopiedTo copied' w := by
  cases hv with
  | ref hmem => exact .ref (hsub _ _ rfl hmem)
  | same hne => exact .same hne

/-- A copy stays one when more references are copied. -/
theorem Value.CopiedTo.mono (hsub : copied ⊆ copied') (hv : v.CopiedTo copied w) :
    v.CopiedTo copied' w :=
  hv.congr fun _ _ _ hmem => hsub hmem

/-- The copy of a content depends only on what its own references were copied to. -/
theorem Value.ContentCopiedTo.congr (hv : v.ContentCopiedTo copied w)
    (hsub : ∀ es src dst, v = .array es → .heapRef src ∈ es → (src, dst) ∈ copied →
      (src, dst) ∈ copied') : v.ContentCopiedTo copied' w := by
  cases hv with
  | array hes =>
    refine .array (forall₂_imp_of_mem hes fun e he e' hcopied => hcopied.congr ?_)
    rintro src dst rfl
    exact hsub _ _ _ rfl he
  | same hne => exact .same hne

/-- The copy of a content stays one when more references are copied. -/
theorem Value.ContentCopiedTo.mono (hsub : copied ⊆ copied') (hv : v.ContentCopiedTo copied w) :
    v.ContentCopiedTo copied' w :=
  hv.congr fun _ _ _ _ _ hmem => hsub hmem

/-- The references in the content of a copied entry were copied. -/
theorem Value.ContentCopiedTo.source {es : List Value}
    (hc : (Value.array es).ContentCopiedTo copied c') (hr : .heapRef r ∈ es) :
    r ∈ copied.map (·.1) := by
  cases hc with
  | array hes =>
    obtain ⟨_, _, hcopied⟩ := exists_of_mem_forall₂ hes hr
    cases hcopied with
    | ref hmem => exact List.mem_map.2 ⟨_, hmem, rfl⟩
    | same hne => exact absurd rfl (hne r)
  | same hne => exact absurd rfl (hne es)

/-- The references in the content of a copy are what references were copied to. -/
theorem Value.ContentCopiedTo.target {es : List Value} (hc : c.ContentCopiedTo copied (.array es))
    (hr : .heapRef r ∈ es) : ∃ p ∈ copied, p.2 = r := by
  cases hc with
  | array hes =>
    obtain ⟨_, _, hcopied⟩ := exists_of_mem_forall₂ hes.flip hr
    cases hcopied with
    | ref hmem => exact ⟨_, hmem, rfl⟩
    | same hne => exact absurd rfl (hne r)
  | same hne => exact absurd rfl (hne es)

namespace Heap

/-- The references that copying a value follows: the value itself, and the elements of the arrays
that they lead to. -/
inductive Leads (h : Heap) (v : Value) : Ref → Prop
  | self {r : Ref} : v = .heapRef r → Leads h v r
  | element {q r : Ref} {es : List Value} : Leads h v q → h.get q = .ok (.array es) →
      .heapRef r ∈ es → Leads h v r

/-- The reference leads to an entry that was not in use in the heap of before. -/
def Fresh (origin h : Heap) (r : Ref) : Prop := ¬ origin.Resolves r ∧ h.Resolves r

/-- A fresh reference stays fresh while it resolves. -/
theorem Fresh.mono (hkeeps : h.Resolves r → h'.Resolves r) (hr : origin.Fresh h r) :
    origin.Fresh h' r :=
  ⟨hr.1, hkeeps hr.2⟩

/-- No entry in use has the place of a fresh one. -/
theorem Fresh.dead (hk : origin.Keeps h) (hr : origin.Fresh h r) :
    ∀ e, origin.entries[r.index.toNat]? = some e → e.live = false := by
  intro e he
  by_contra hlive
  have hlive : e.live = true := by simpa using hlive
  obtain ⟨hold, c, hc⟩ := hr
  have hkept := hk _ e he hlive
  rw [get_eq_ok.1 hc] at hkept
  cases hkept
  exact hold ⟨c, get_eq_ok.2 he⟩

/-- **What a copy gives**: the references that the value leads to are copied, each to an entry of
its own that was not in use, with the same content but for the references in it. The copy leads to
no other entries than such. -/
structure Copy (origin h : Heap) (v w : Value) (copied : Copied) : Prop where
  value : v.CopiedTo copied w
  sources : (copied.map (·.1)).Nodup
  targets : (copied.map (·.2)).Nodup
  reached : ∀ r, r ∈ copied.map (·.1) ↔ origin.Leads v r
  resolves : ∀ p ∈ copied, h.Resolves p.1
  fresh : ∀ p ∈ copied, origin.Fresh h p.2
  content : ∀ p ∈ copied, ∀ c, origin.get p.1 = .ok c →
    ∃ c', h.get p.2 = .ok c' ∧ c.ContentCopiedTo copied c'
  leads : ∀ {r}, h.Leads w r → origin.Fresh h r

/-- The references of a region resolve, and what they lead to refers to the region only. -/
def Region (h : Heap) (region : Ref → Prop) : Prop :=
  ∀ r, region r → ∃ c, h.get r = .ok c ∧ ∀ q, c.Mentions q → region q

/-- What lies in a region leads nowhere else. -/
theorem Region.leads (hregion : h.Region region) (hv : ∀ q, v.Mentions q → region q)
    (hr : h.Leads v r) : region r := by
  induction hr with
  | self he => exact hv _ (he ▸ .self _)
  | element _ hget hmem ih =>
    obtain ⟨c, hc, hmentions⟩ := hregion _ ih
    rw [hget] at hc
    cases hc
    exact hmentions _ (.element hmem (.self _))

end Heap

/-! ## A copy under way -/

/-- A copy of what stands in the heap `origin` is under way: what was there is still there, every
reference is copied to one fresh entry, which holds the copied content unless it is pending, and
fresh entries refer to fresh entries only. -/
structure CopyState.Tracks (origin : Heap) (pending : List Ref) (st : CopyState) : Prop where
  wellFormed : st.heap.WellFormed
  keeps : ∀ {r v}, origin.get r = .ok v → st.heap.get r = .ok v
  sources : (st.copied.map (·.1)).Nodup
  targets : (st.copied.map (·.2)).Nodup
  resolves : ∀ p ∈ st.copied, st.heap.Resolves p.1
  fresh : ∀ p ∈ st.copied, origin.Fresh st.heap p.2
  closed : ∀ {r es q}, ¬ origin.Resolves r → st.heap.get r = .ok (.array es) → .heapRef q ∈ es →
    origin.Fresh st.heap q
  done : ∀ p ∈ st.copied, p.2 ∉ pending → ∀ c, origin.get p.1 = .ok c →
    ∃ c', st.heap.get p.2 = .ok c' ∧ c.ContentCopiedTo st.copied c'

/-- The value is to be copied: a reference in it can be followed from the root or leads to a fresh
entry, which a forged reference can do. -/
def CopyState.Follows (origin : Heap) (root : Value) (st : CopyState) (v : Value) : Prop :=
  ∀ r, v = .heapRef r → origin.Leads root r ∨ origin.Fresh st.heap r

namespace CopyState

/-- A value stays one to be copied while the entries are kept. -/
theorem Follows.mono {st' : CopyState} (hkeeps : st.heap.Keeps st'.heap)
    (hv : st.Follows origin root v) : st'.Follows origin root v :=
  fun r hr => (hv r hr).imp_right <| .mono fun ⟨w, hw⟩ =>
    ⟨w, Heap.get_eq_ok.2 (hkeeps _ _ (Heap.get_eq_ok.1 hw) rfl)⟩

namespace Tracks

/-- Two references are not copied to one entry. -/
theorem source_eq (hst : st.Tracks origin pending) {p : Ref × Ref} (hp : p ∈ st.copied)
    (hsrc : (src, p.2) ∈ st.copied) : p.1 = src :=
  congrArg Prod.fst (List.inj_on_of_nodup_map hst.targets hp hsrc rfl)

/-- The elements of an array that is to be copied are to be copied too. -/
theorem follows_element {es : List Value} (hst : st.Tracks origin pending)
    (hsrc : st.Follows origin root (.heapRef src)) (hget : st.heap.get src = .ok (.array es)) :
    ∀ e ∈ es, st.Follows origin root e := by
  rintro e he q rfl
  by_cases hold : origin.Resolves src
  · obtain ⟨c, hc⟩ := hold
    have hsame := hst.keeps hc
    rw [hget] at hsame
    cases hsame
    exact .inl (((hsrc src rfl).resolve_right fun hfresh => hfresh.1 ⟨_, hc⟩).element hc he)
  · exact .inr (hst.closed hold hget he)

/-- Taking an entry for the copy of a reference; its content is pending. -/
theorem take (hst : st.Tracks origin pending) (hget : st.heap.get src = .ok c)
    (hl : st.copied.lookup src = none) (hsize : (st.take src).heap.entries.size < 2 ^ 32) :
    (st.take src).Tracks origin ((st.heap.alloc .void).2 :: pending) := by
  have halloc := fun {r w} => Heap.get_alloc (r := r) (w := w) (v := .void) hst.wellFormed hsize
  have hkeeps : ∀ {r}, st.heap.Resolves r → (st.take src).heap.Resolves r := by
    rintro r ⟨w, hw⟩
    exact ⟨w, halloc.2 (.inr hw)⟩
  have hnew := Heap.not_resolves_alloc (v := .void) hst.wellFormed hsize
  refine ⟨hst.wellFormed.alloc _, fun hr => halloc.2 (.inr (hst.keeps hr)), ?_, ?_, fun p hp => ?_,
    fun p hp => ?_, fun {r es q} hold hr hq => ?_, fun p hp hpending c hc => ?_⟩
  · rw [CopyState.take, List.map_cons, List.nodup_cons]
    refine ⟨fun hmem => ?_, hst.sources⟩
    obtain ⟨p, hp, he⟩ := List.mem_map.1 hmem
    have := List.lookup_eq_none_iff.1 hl p hp
    simp [he] at this
  · rw [CopyState.take, List.map_cons, List.nodup_cons]
    refine ⟨fun hmem => ?_, hst.targets⟩
    obtain ⟨p, hp, he⟩ := List.mem_map.1 hmem
    exact hnew (he ▸ (hst.fresh p hp).2)
  · rcases List.mem_cons.1 hp with rfl | hp
    · exact hkeeps ⟨c, hget⟩
    · exact hkeeps (hst.resolves p hp)
  · rcases List.mem_cons.1 hp with rfl | hp
    · refine ⟨?_, _, halloc.2 (.inl ⟨rfl, rfl⟩)⟩
      rintro ⟨w, hw⟩
      exact hnew ⟨w, hst.keeps hw⟩
    · exact (hst.fresh p hp).mono hkeeps
  · rcases halloc.1 hr with ⟨_, he⟩ | hr
    · cases he
    · exact (hst.closed hold hr hq).mono hkeeps
  · rcases List.mem_cons.1 hp with rfl | hp
    · exact absurd List.mem_cons_self hpending
    · obtain ⟨c', hc', hcopied⟩ :=
        hst.done p hp (fun hmem => hpending (List.mem_cons_of_mem _ hmem)) c hc
      exact ⟨c', halloc.2 (.inr hc'), hcopied.mono (List.subset_cons_self ..)⟩

/-- Putting the copied content into the entry that was taken for it. -/
theorem finish (hst : st.Tracks origin (dst :: pending)) (hmem : (src, dst) ∈ st.copied)
    (hc : ∀ d, origin.get src = .ok d → d = c) (hcopied : c.ContentCopiedTo st.copied c') :
    ∃ h, copyValue.finish st dst c' = ({ st with heap := h }, .ok (.heapRef dst)) ∧
      CopyState.Tracks origin pending { st with heap := h } := by
  obtain ⟨hout, hdst⟩ := hst.fresh _ hmem
  obtain ⟨h, hset⟩ : ∃ h, st.heap.set dst c' = .ok h := ⟨_, Heap.set_eq_ok.2 ⟨hdst, rfl⟩⟩
  have hget := fun {q w} => Heap.get_set (q := q) (w := w) hset
  have hkeeps : ∀ {r}, st.heap.Resolves r → h.Resolves r := by
    rintro r ⟨w, hw⟩
    by_cases he : r = dst
    · exact ⟨c', hget.2 (.inl ⟨he, rfl⟩)⟩
    · exact ⟨w, hget.2 (.inr ⟨he, hw⟩)⟩
  refine ⟨h, by rw [copyValue.finish, hset], hst.wellFormed.set hset, fun {r v} hr => ?_,
    hst.sources, hst.targets, fun p hp => hkeeps (hst.resolves p hp), fun p hp =>
      (hst.fresh p hp).mono hkeeps,
    fun {r es q} hold hr hq => ?_, fun p hp hpending d hd => ?_⟩
  · refine hget.2 (.inr ⟨?_, hst.keeps hr⟩)
    rintro rfl
    exact hout ⟨v, hr⟩
  · rcases hget.1 hr with ⟨_, rfl⟩ | ⟨_, hr⟩
    · obtain ⟨p, hp, rfl⟩ := hcopied.target hq
      exact (hst.fresh p hp).mono hkeeps
    · exact (hst.closed hold hr hq).mono hkeeps
  · by_cases he : p.2 = dst
    · rw [hst.source_eq hp (he ▸ hmem)] at hd
      exact ⟨c', hget.2 (.inl ⟨he, rfl⟩), hc d hd ▸ hcopied⟩
    · have hnot : p.2 ∉ dst :: pending := by
        rw [List.mem_cons]
        exact fun hor => hor.elim he hpending
      obtain ⟨d', hd', hcopied'⟩ := hst.done p hp hnot d hd
      exact ⟨d', hget.2 (.inr ⟨he, hd'⟩), hcopied'⟩

end Tracks

/-- What copying comes to: it goes on and gives a copy, or a reference on the way leads nowhere. -/
inductive Outcome {α : Type} (origin : Heap) (root : Value) (pending : List Ref) (st : CopyState)
    (copy : Copied → α → Prop) : CopyState × Except MemoryError α → Prop
  | done {st' : CopyState} {a : α} : st'.Tracks origin pending → st.copied <:+ st'.copied →
      copy st'.copied a → Outcome origin root pending st copy (st', .ok a)
  | stuck {st' : CopyState} {r : Ref} {e : MemoryError} : origin.Leads root r →
      st'.heap.get r = .error e → Outcome origin root pending st copy (st', .error e)

/-- What copying comes to is also what it comes to from before the last entries were taken. -/
theorem Outcome.of_suffix {α : Type} {copy : Copied → α → Prop} {st' : CopyState}
    {res : CopyState × Except MemoryError α} (hsuffix : st.copied <:+ st'.copied)
    (hout : st'.Outcome origin root pending copy res) :
    st.Outcome origin root pending copy res := by
  cases hout with
  | done htracks hsuffix' hcopy => exact .done htracks (hsuffix.trans hsuffix') hcopy
  | stuck hr hget => exact .stuck hr hget

end CopyState

/-- Copying a list comes to copies of all its elements, or to a reference that leads nowhere. -/
theorem copyAll_outcome {vs : List Value}
    (hcopy : ∀ (st : CopyState) v, st.Tracks origin pending → st.Follows origin root v →
      (copyValue fuel st v).1.heap.entries.size < 2 ^ 32 → 2 ^ 32 ≤ fuel + st.copied.length →
      st.Outcome origin root pending (fun m w => v.CopiedTo m w) (copyValue fuel st v))
    (hst : st.Tracks origin pending) (hvs : ∀ v ∈ vs, st.Follows origin root v)
    (hsize : (copyAll (copyValue fuel) st vs).1.heap.entries.size < 2 ^ 32)
    (hfuel : 2 ^ 32 ≤ fuel + st.copied.length) :
    st.Outcome origin root pending (fun m ws => List.Forall₂ (Value.CopiedTo m) vs ws)
      (copyAll (copyValue fuel) st vs) := by
  induction vs generalizing st with
  | nil => exact .done hst List.suffix_rfl .nil
  | cons v vs ih =>
    obtain ⟨hv, hvs⟩ := List.forall_mem_cons.1 hvs
    have hle := Nat.lt_of_le_of_lt (size_copyAll_head fuel st v vs) hsize
    have hkeeps := keeps_copyValue fuel st v hst.wellFormed hle
    have hone := hcopy st v hst hv hle hfuel
    rw [copyAll_cons] at hsize ⊢
    generalize copyValue fuel st v = res at hkeeps hone hsize ⊢
    cases hone with
    | stuck hr hget => exact .stuck hr hget
    | @done st' w htracks hsuffix hcopied =>
      have hlength := hsuffix.length_le
      have hall := ih htracks (fun x hx => (hvs x hx).mono hkeeps) hsize (by omega)
      dsimp only at hall ⊢
      generalize copyAll (copyValue fuel) st' vs = res at hall ⊢
      cases hall with
      | stuck hr hget => exact .stuck hr hget
      | done htracks' hsuffix' hcopied' =>
        exact .done htracks' (hsuffix.trans hsuffix')
          (.cons (hcopied.mono hsuffix'.subset) hcopied')

/-- Copying what an entry holds into the entry that was taken for it. -/
theorem copyContent_outcome {n : Nat}
    (hcopy : ∀ (st : CopyState) v, st.Tracks origin (dst :: pending) → st.Follows origin root v →
      (copyValue n st v).1.heap.entries.size < 2 ^ 32 → 2 ^ 32 ≤ n + st.copied.length →
      st.Outcome origin root (dst :: pending) (fun m w => v.CopiedTo m w) (copyValue n st v))
    (hst : st.Tracks origin (dst :: pending)) (hmem : (src, dst) ∈ st.copied)
    (hc : ∀ d, origin.get src = .ok d → d = c)
    (helements : ∀ es, c = .array es → ∀ e ∈ es, st.Follows origin root e)
    (hsize : (copyContent n st dst c).1.heap.entries.size < 2 ^ 32)
    (hfuel : 2 ^ 32 ≤ n + st.copied.length) :
    st.Outcome origin root pending (fun m w => (Value.heapRef src).CopiedTo m w)
      (copyContent n st dst c) := by
  by_cases harray : ∃ es, c = .array es
  · obtain ⟨es, rfl⟩ := harray
    have hall := copyAll_outcome hcopy hst (helements es rfl)
      (Nat.lt_of_le_of_lt (size_copyContent_array n st dst es) hsize) hfuel
    unfold copyContent
    dsimp only
    generalize copyAll (copyValue n) st es = res at hall ⊢
    cases hall with
    | stuck hr hget => exact .stuck hr hget
    | done htracks hsuffix hcopied =>
      obtain ⟨h, hfinish, hdone⟩ := htracks.finish (hsuffix.subset hmem) hc (.array hcopied)
      dsimp only
      rw [hfinish]
      exact .done hdone hsuffix (.ref (hsuffix.subset hmem))
  · have hne : ∀ es, c ≠ .array es := fun es he => harray ⟨es, he⟩
    obtain ⟨h, hfinish, hdone⟩ := hst.finish hmem hc (.same hne)
    rw [copyContent_of_ne hne, hfinish]
    exact .done hdone List.suffix_rfl (.ref hmem)

/-- **Copying a value that is to be copied** goes on tracking and gives a copy, unless a reference
on the way leads nowhere. -/
theorem copyValue_outcome (fuel : Nat) (pending : List Ref) (st : CopyState) (v : Value)
    (hst : st.Tracks origin pending) (hv : st.Follows origin root v)
    (hsize : (copyValue fuel st v).1.heap.entries.size < 2 ^ 32)
    (hfuel : 2 ^ 32 ≤ fuel + st.copied.length) :
    st.Outcome origin root pending (fun m w => v.CopiedTo m w) (copyValue fuel st v) := by
  induction fuel using Nat.strongRecOn generalizing pending st v with
  | ind fuel ih =>
    by_cases href : ∃ src, v = .heapRef src
    · obtain ⟨src, rfl⟩ := href
      obtain ⟨dst, hl, he⟩ | ⟨hl, ⟨e, hget, he⟩ | ⟨_, rfl, _, he⟩ | ⟨n, c, rfl, hget, he⟩⟩ :=
        copyValue_cases fuel st src
      · obtain ⟨l₁, l₂, hcopied, _⟩ := List.lookup_eq_some_iff.1 hl
        rw [he]
        exact .done hst List.suffix_rfl (.ref (by simp [hcopied]))
      · -- A fresh entry is in use, so the reference was followed from the root.
        have hleads := (hv src rfl).resolve_right <| by
          rintro ⟨_, c, hc⟩
          rw [hget] at hc
          cases hc
        rw [he]
        exact .stuck hleads hget
      · -- Every entry is copied once, so the fuel is not used up.
        have := CopyState.length_copied_le hst.resolves hst.sources
        rw [he] at hsize
        dsimp only at hsize
        omega
      · rw [he] at hsize ⊢
        have hgrows := grows_copyContent (grows_copyValue n) (st.take src) (st.heap.alloc .void).2 c
        have hkeeps : st.heap.Keeps (st.take src).heap := hst.wellFormed.keeps_alloc .void
        have hc : ∀ d, origin.get src = .ok d → d = c := fun d hd =>
          Except.ok.inj ((hst.keeps hd).symm.trans hget)
        have helements : ∀ es, c = .array es → ∀ e ∈ es, (st.take src).Follows origin root e := by
          rintro es rfl e he
          exact (hst.follows_element hv hget e he).mono hkeeps
        have hcontent := copyContent_outcome (ih n (Nat.lt_succ_self n) _)
          (hst.take hget hl (Nat.lt_of_le_of_lt hgrows.size_le hsize)) List.mem_cons_self
            hc helements
          hsize (by rw [CopyState.take, List.length_cons]; omega)
        exact hcontent.of_suffix (List.suffix_cons ..)
    · have hne : ∀ r, v ≠ .heapRef r := fun r hr => href ⟨r, hr⟩
      rw [copyValue_of_ne hne]
      exact .done hst List.suffix_rfl (.same hne)

/-! ## Deep copies -/

/-- When a copy is done, all references that can be followed were copied. -/
theorem CopyState.Tracks.leads (hst : st.Tracks origin []) (hv : v.CopiedTo st.copied w)
    (hr : origin.Leads v r) : r ∈ st.copied.map (·.1) := by
  induction hr with
  | self he =>
    subst he
    cases hv with
    | ref hmem => exact List.mem_map.2 ⟨_, hmem, rfl⟩
    | same hne => exact absurd rfl (hne _)
  | element _ hget hmem ih =>
    obtain ⟨p, hp, rfl⟩ := List.mem_map.1 ih
    obtain ⟨c', _, hcopied⟩ := hst.done p hp List.not_mem_nil _ hget
    exact hcopied.source hmem

/-- A copy that is done leads to fresh entries only. -/
theorem CopyState.Tracks.fresh_of_leads (hst : st.Tracks origin []) (hv : v.CopiedTo st.copied w)
    (hr : st.heap.Leads w r) : origin.Fresh st.heap r := by
  induction hr with
  | self he =>
    subst he
    cases hv with
    | ref hmem => exact hst.fresh _ hmem
    | same hne => exact absurd rfl (hne _)
  | element _ hget hmem ih => exact hst.closed ih.1 hget hmem

open Classical in
/-- A copy that is done is a copy of what the value leads to. -/
theorem CopyState.Tracks.copy (hst : st.Tracks origin []) (hv : v.CopiedTo st.copied w) :
    ∃ copied, origin.Copy st.heap v w copied := by
  have hmem : ∀ {r dst}, origin.Leads v r → (r, dst) ∈ st.copied →
      (r, dst) ∈ st.copied.filter fun p => origin.Leads v p.1 :=
    fun hr hp => List.mem_filter.2 ⟨hp, by simpa using hr⟩
  have hsub : ∀ {p}, p ∈ st.copied.filter (fun p => origin.Leads v p.1) →
      p ∈ st.copied ∧ origin.Leads v p.1 := fun hp => by simpa using List.mem_filter.1 hp
  refine ⟨st.copied.filter fun p => origin.Leads v p.1, ?_⟩
  constructor
  case value => exact hv.congr fun src dst he hp => hmem (.self he) hp
  case sources => exact hst.sources.sublist (List.filter_sublist.map _)
  case targets => exact hst.targets.sublist (List.filter_sublist.map _)
  case reached =>
    refine fun r => ⟨fun hr => ?_, fun hr => ?_⟩
    · obtain ⟨p, hp, rfl⟩ := List.mem_map.1 hr
      exact (hsub hp).2
    · obtain ⟨p, hp, rfl⟩ := List.mem_map.1 (hst.leads hv hr)
      exact List.mem_map.2 ⟨p, hmem hr hp, rfl⟩
  case resolves => exact fun p hp => hst.resolves p (hsub hp).1
  case fresh => exact fun p hp => hst.fresh p (hsub hp).1
  case content =>
    intro p hp c hc
    obtain ⟨hp, hleads⟩ := hsub hp
    obtain ⟨c', hc', hcopied⟩ := hst.done p hp List.not_mem_nil c hc
    refine ⟨c', hc', hcopied.congr fun es src dst he hsrc hp => hmem ?_ hp⟩
    subst he
    exact hleads.element hc hsrc
  case leads => exact hst.fresh_of_leads hv

namespace Heap

/-- **A deep copy has the shape of the original**, or it fails because a reference on the way leads
nowhere when it is done. -/
theorem WellFormed.deepCopy_cases (hw : h.WellFormed) (v : Value)
    (hsize : (h.deepCopy v).1.entries.size < 2 ^ 32) :
    (∃ w copied, (h.deepCopy v).2 = .ok w ∧ h.Copy (h.deepCopy v).1 v w copied) ∨
      ∃ r e, (h.deepCopy v).2 = .error e ∧ h.Leads v r ∧ (h.deepCopy v).1.get r = .error e := by
  have hst : CopyState.Tracks h [] ⟨h, []⟩ :=
    ⟨hw, id, List.nodup_nil, List.nodup_nil, (fun _ hp => nomatch hp), (fun _ hp => nomatch hp),
      fun hold hr => absurd ⟨_, hr⟩ hold, fun _ hp => nomatch hp⟩
  have hfollows : CopyState.Follows h v ⟨h, []⟩ v := fun r he => .inl (.self he)
  have hout := copyValue_outcome maxEntries [] ⟨h, []⟩ v hst hfollows hsize (Nat.le_add_right _ _)
  unfold deepCopy
  generalize copyValue maxEntries ⟨h, []⟩ v = res at hout ⊢
  cases hout with
  | done htracks _ hcopied =>
    obtain ⟨copied, hcopy⟩ := htracks.copy hcopied
    exact .inl ⟨_, copied, rfl, hcopy⟩
  | stuck hr hget => exact .inr ⟨_, _, rfl, hr, hget⟩

/-- **A deep copy fails exactly if a reference on the way leads nowhere when it is done.** -/
theorem WellFormed.deepCopy_fails_iff (hw : h.WellFormed) (v : Value)
    (hsize : (h.deepCopy v).1.entries.size < 2 ^ 32) :
    (∃ e, (h.deepCopy v).2 = .error e) ↔ ∃ r, h.Leads v r ∧ ¬ (h.deepCopy v).1.Resolves r := by
  rcases hw.deepCopy_cases v hsize with ⟨w, copied, hok, hcopy⟩ | ⟨r, e, herror, hr, hget⟩
  · refine ⟨fun ⟨e, he⟩ => ?_, fun ⟨r, hr, hno⟩ => ?_⟩
    · rw [hok] at he
      cases he
    · obtain ⟨p, hp, rfl⟩ := List.mem_map.1 ((hcopy.reached r).2 hr)
      exact absurd (hcopy.resolves p hp) hno
  · refine ⟨fun _ => ⟨r, hr, ?_⟩, fun _ => ⟨e, herror⟩⟩
    rintro ⟨c, hc⟩
    rw [hget] at hc
    cases hc

/-- **A deep copy of what lies in a closed region succeeds and has the shape of the original**: the
copied references lead one to one to entries that were not in use, with the copied content. -/
theorem Region.deepCopy (hregion : h.Region region) (hw : h.WellFormed)
    (hv : ∀ q, v.Mentions q → region q) (hsize : (h.deepCopy v).1.entries.size < 2 ^ 32) :
    ∃ w copied, (h.deepCopy v).2 = .ok w ∧ v.CopiedTo copied w ∧ (copied.map (·.2)).Nodup ∧
      ∀ p ∈ copied, ¬ h.Resolves p.2 ∧ ∃ c c', h.get p.1 = .ok c ∧
        (h.deepCopy v).1.get p.2 = .ok c' ∧ c.ContentCopiedTo copied c' := by
  rcases hw.deepCopy_cases v hsize with ⟨w, copied, hok, hcopy⟩ | ⟨r, e, _, hr, hget⟩
  · refine ⟨w, copied, hok, hcopy.value, hcopy.targets, fun p hp => ⟨(hcopy.fresh p hp).1, ?_⟩⟩
    have hleads := (hcopy.reached p.1).1 (List.mem_map.2 ⟨p, hp, rfl⟩)
    obtain ⟨c, hc, _⟩ := hregion p.1 (hregion.leads hv hleads)
    obtain ⟨c', hc', hcopied⟩ := hcopy.content p hp c hc
    exact ⟨c, c', hc, hc', hcopied⟩
  · obtain ⟨c, hc, _⟩ := hregion r (hregion.leads hv hr)
    have hkept := hw.keeps_deepCopy v hsize _ _ (get_eq_ok.1 hc) rfl
    rw [get_eq_ok.2 hkept] at hget
    cases hget

end Heap

end RegisterMachine
