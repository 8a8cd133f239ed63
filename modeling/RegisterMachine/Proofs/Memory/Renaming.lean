import Mathlib.Order.Basic
import RegisterMachine.Proofs.Fallible
import RegisterMachine.Proofs.Memory.Generations
import RegisterMachine.Proofs.Memory.Marking

/-!
# Heaps up to renaming

Two heaps are the same up to a renaming of references (`Heap.Renamed`) when the renaming is one to
one between references that were handed out, and related references either both lead to content that
is the same up to renaming or both lead nowhere. Every operation done on both heaps leads to heaps
that are the same up to a renaming again: the new references of `Heap.alloc` are related to each
other, which works because neither was handed out before, and a deep copy takes entries in the same
order on both sides (`Heap.Renamed.deepCopy`). Reclaiming only one of the heaps keeps them the same
up to the renaming of what can be reached (`Heap.Renamed.reclaim`).
-/

namespace RegisterMachine

/-- A relation between the references into one heap and those into another. -/
abbrev Renaming := Ref → Ref → Prop

/-- The renaming with one more pair. -/
def Renaming.extend (K : Renaming) (r q : Ref) : Renaming :=
  fun r' q' => K r' q' ∨ r' = r ∧ q' = q

/-- A renaming that is extended says what it said before. -/
theorem Renaming.le_extend (K : Renaming) (r q : Ref) : K ≤ K.extend r q := fun _ _ h => .inl h

/-- The values are related references, or the same value without references. -/
inductive Value.Renamed (K : Renaming) : Value → Value → Prop
  | ref {r q : Ref} : K r q → Renamed K (.heapRef r) (.heapRef q)
  | same {v : Value} : (∀ r, ¬ v.Mentions r) → Renamed K v v

/-- The contents of entries are arrays with related elements, or the same value without
references. -/
inductive Value.ContentRenamed (K : Renaming) : Value → Value → Prop
  | array {es es' : List Value} : List.Forall₂ (Value.Renamed K) es es' →
      ContentRenamed K (.array es) (.array es')
  | same {v : Value} : (∀ es, v ≠ .array es) → (∀ r, ¬ v.Mentions r) → ContentRenamed K v v

variable {K K' : Renaming} {h₁ h₂ h₁' h₂' : Heap} {r q : Ref} {v w v' w' c d : Value}

namespace Value

/-- Values stay the same up to a renaming that says more. -/
theorem Renamed.mono (hK : K ≤ K') (hv : v.Renamed K w) : v.Renamed K' w := by
  cases hv with
  | ref hr => exact .ref (hK _ _ hr)
  | same hnone => exact .same hnone

/-- Contents stay the same up to a renaming that says more. -/
theorem ContentRenamed.mono (hK : K ≤ K') (hv : v.ContentRenamed K w) : v.ContentRenamed K' w := by
  cases hv with
  | array hes => exact .array (hes.imp fun _ _ => .mono hK)
  | same hne hnone => exact .same hne hnone

/-- Values may be renamed back. -/
theorem Renamed.swap (hv : v.Renamed K w) : w.Renamed (fun r q => K q r) v := by
  cases hv with
  | ref hr => exact .ref hr
  | same hnone => exact .same hnone

/-- Contents may be renamed back. -/
theorem ContentRenamed.swap (hv : v.ContentRenamed K w) :
    w.ContentRenamed (fun r q => K q r) v := by
  cases hv with
  | array hes => exact .array (List.Forall₂.flip (hes.imp fun _ _ => .swap))
  | same hne hnone => exact .same hne hnone

/-- A value is still renamed when the renaming is confined to references with a property that all of
the value's have. -/
theorem Renamed.confine {P : Ref → Prop} (hv : v.Renamed K w) (hP : ∀ r, v.Mentions r → P r) :
    v.Renamed (fun r q => K r q ∧ P r) w := by
  cases hv with
  | ref hr => exact .ref ⟨hr, hP _ (.self _)⟩
  | same hnone => exact .same hnone

/-- A renaming of a content may be confined to the references that it mentions. -/
theorem ContentRenamed.confine {P : Ref → Prop} (hv : v.ContentRenamed K w)
    (hP : ∀ r, v.Mentions r → P r) : v.ContentRenamed (fun r q => K r q ∧ P r) w := by
  cases hv with
  | same hne hnone => exact .same hne hnone
  | array hes =>
    exact .array (forall₂_imp_of_mem hes fun e he _ hee => hee.confine fun r hr =>
      hP r (.element he hr))

/-- Contents that are the same up to a renaming are of the same kind. -/
theorem ContentRenamed.kind_eq (hv : v.ContentRenamed K w) : w.kind = v.kind := by
  cases hv <;> rfl

/-- What a value is when it is no reference. -/
theorem Renamed.content (hv : v.Renamed K w) (hne : ∀ r, v ≠ .heapRef r) :
    v.ContentRenamed K w := by
  cases hv with
  | ref hr => exact absurd rfl (hne _)
  | same hnone =>
    cases v with
    | array es =>
      exact .array (List.forall₂_same.2 fun e he => .same fun r hr => hnone r (.element he hr))
    | _ => exact .same (fun es he => nomatch he) hnone

end Value

/-! ## Two heaps -/

/-- The heaps are the same up to renaming. -/
structure Heap.Renamed (K : Renaming) (h₁ h₂ : Heap) : Prop where
  wellFormed₁ : h₁.WellFormed
  wellFormed₂ : h₂.WellFormed
  issued₁ : ∀ {r q}, K r q → h₁.Issued r
  issued₂ : ∀ {r q}, K r q → h₂.Issued q
  functional : ∀ {r q q'}, K r q → K r q' → q = q'
  injective : ∀ {r r' q}, K r q → K r' q → r = r'
  entries : ∀ {r q}, K r q →
    (∃ c d, h₁.get r = .ok c ∧ h₂.get q = .ok d ∧ c.ContentRenamed K d) ∨
      ¬ h₁.Resolves r ∧ ¬ h₂.Resolves q

/-- Errors of memory with the same reason. -/
def MemoryError.Alike (e e' : MemoryError) : Prop := e'.reason = e.reason

namespace Heap.Renamed

/-- Heaps may be renamed back. -/
theorem swap (hm : Heap.Renamed K h₁ h₂) : Heap.Renamed (fun r q => K q r) h₂ h₁ := by
  refine ⟨hm.wellFormed₂, hm.wellFormed₁, hm.issued₂, hm.issued₁, hm.injective, hm.functional,
    fun hr => ?_⟩
  rcases hm.entries hr with ⟨c, d, hc, hd, hcd⟩ | ⟨hr, hq⟩
  · exact .inl ⟨d, c, hd, hc, hcd.swap⟩
  · exact .inr ⟨hq, hr⟩

/-- **Reading related references** gives related content, or fails for the same reason. -/
theorem get (hm : Heap.Renamed K h₁ h₂) (hr : K r q) :
    Agree MemoryError.Alike (Value.ContentRenamed K) (h₁.get r) (h₂.get q) := by
  rcases hm.entries hr with ⟨c, d, hc, hd, hcd⟩ | ⟨hno₁, hno₂⟩
  · rw [hc, hd]
    exact .ok hcd
  · cases he₁ : h₁.get r with
    | ok c => exact absurd ⟨c, he₁⟩ hno₁
    | error e₁ =>
      cases he₂ : h₂.get q with
      | ok d => exact absurd ⟨d, he₂⟩ hno₂
      | error e₂ =>
        rw [(hm.issued₁ hr).get_error he₁, (hm.issued₂ hr).get_error he₂]
        exact .error rfl

/-- Equal values are renamed to equal values. -/
theorem value_eq_iff (hm : Heap.Renamed K h₁ h₂) (hv : v.Renamed K w) (hv' : v'.Renamed K w') :
    v = v' ↔ w = w' := by
  cases hv with
  | ref hr =>
    cases hv' with
    | ref hr' =>
      simp only [Value.heapRef.injEq]
      constructor
      · rintro rfl
        exact hm.functional hr hr'
      · rintro rfl
        exact hm.injective hr hr'
    | same hnone =>
      constructor
      · rintro rfl
        exact absurd (.self _) (hnone _)
      · rintro rfl
        exact absurd (.self _) (hnone _)
  | same hnone =>
    cases hv' with
    | ref hr' =>
      constructor
      · rintro rfl
        exact absurd (.self _) (hnone _)
      · rintro rfl
        exact absurd (.self _) (hnone _)
    | same _ => exact Iff.rfl

/-- Equal contents are renamed to equal contents. -/
theorem content_eq_iff (hm : Heap.Renamed K h₁ h₂) (hv : v.ContentRenamed K w)
    (hv' : v'.ContentRenamed K w') : v = v' ↔ w = w' := by
  cases hv with
  | same hne _ =>
    cases hv' with
    | same _ _ => exact Iff.rfl
    | array _ => exact ⟨fun he => absurd he (hne _), fun he => absurd he (hne _)⟩
  | @array es es' hes =>
    cases hv' with
    | same hne _ => exact ⟨fun he => absurd he.symm (hne _), fun he => absurd he.symm (hne _)⟩
    | @array fs fs' hfs =>
      simp only [Value.array.injEq]
      induction hes generalizing fs fs' with
      | nil =>
        cases hfs with
        | nil => exact Iff.rfl
        | cons _ _ => simp
      | cons he _ ih =>
        cases hfs with
        | nil => simp
        | cons hf hfs => rw [List.cons.injEq, List.cons.injEq, hm.value_eq_iff he hf, ih hfs]

/-- Nothing but the entries matters for what related references lead to, as long as they stay handed
out. -/
theorem change (hm : Heap.Renamed K h₁ h₂) (hw₁ : h₁'.WellFormed) (hw₂ : h₂'.WellFormed)
    (ha₁ : h₁.Ages h₁') (ha₂ : h₂.Ages h₂')
    (hentries : ∀ {r q}, K r q →
      (∃ c d, h₁'.get r = .ok c ∧ h₂'.get q = .ok d ∧ c.ContentRenamed K d) ∨
        ¬ h₁'.Resolves r ∧ ¬ h₂'.Resolves q) : Heap.Renamed K h₁' h₂' :=
  ⟨hw₁, hw₂, fun hr => (hm.issued₁ hr).ages ha₁, fun hr => (hm.issued₂ hr).ages ha₂, hm.functional,
    hm.injective, hentries⟩

/-- **Taking an entry on both sides** relates the new references. -/
theorem alloc (hm : Heap.Renamed K h₁ h₂) (hcd : c.ContentRenamed K d)
    (hs₁ : (h₁.alloc c).1.entries.size < 2 ^ 32) (hs₂ : (h₂.alloc d).1.entries.size < 2 ^ 32) :
    Heap.Renamed (K.extend (h₁.alloc c).2 (h₂.alloc d).2) (h₁.alloc c).1 (h₂.alloc d).1 := by
  have hle := K.le_extend (h₁.alloc c).2 (h₂.alloc d).2
  have hget₁ := fun {r w} => Heap.get_alloc (r := r) (w := w) hm.wellFormed₁ hs₁
  have hget₂ := fun {r w} => Heap.get_alloc (r := r) (w := w) hm.wellFormed₂ hs₂
  have hnew₁ : ∀ {q}, ¬ K (h₁.alloc c).2 q := fun hr =>
    not_issued_alloc hm.wellFormed₁ hs₁ (hm.issued₁ hr)
  have hnew₂ : ∀ {r}, ¬ K r (h₂.alloc d).2 := fun hr =>
    not_issued_alloc hm.wellFormed₂ hs₂ (hm.issued₂ hr)
  refine ⟨hm.wellFormed₁.alloc _, hm.wellFormed₂.alloc _, ?_, ?_, ?_, ?_, ?_⟩
  · rintro r q (hr | ⟨rfl, rfl⟩)
    · exact (hm.issued₁ hr).ages (gains_alloc h₁ c).ages
    · exact Resolves.issued ⟨c, hget₁.2 (.inl ⟨rfl, rfl⟩)⟩
  · rintro r q (hr | ⟨rfl, rfl⟩)
    · exact (hm.issued₂ hr).ages (gains_alloc h₂ d).ages
    · exact Resolves.issued ⟨d, hget₂.2 (.inl ⟨rfl, rfl⟩)⟩
  · rintro r q q' (hr | ⟨rfl, rfl⟩) (hr' | ⟨hr', rfl⟩)
    · exact hm.functional hr hr'
    · exact absurd (hr' ▸ hr) hnew₁
    · exact absurd hr' hnew₁
    · rfl
  · rintro r r' q (hr | ⟨rfl, rfl⟩) (hr' | ⟨rfl, hr'⟩)
    · exact hm.injective hr hr'
    · exact absurd (hr' ▸ hr) hnew₂
    · exact absurd hr' hnew₂
    · rfl
  · rintro r q (hr | ⟨rfl, rfl⟩)
    · rcases hm.entries hr with ⟨c', d', hc', hd', hcd'⟩ | ⟨hno₁, hno₂⟩
      · exact .inl ⟨c', d', hget₁.2 (.inr hc'), hget₂.2 (.inr hd'), hcd'.mono hle⟩
      · refine .inr ⟨fun ⟨w, hw⟩ => ?_, fun ⟨w, hw⟩ => ?_⟩
        · rcases hget₁.1 hw with ⟨rfl, _⟩ | hw
          · exact hnew₁ hr
          · exact hno₁ ⟨w, hw⟩
        · rcases hget₂.1 hw with ⟨rfl, _⟩ | hw
          · exact hnew₂ hr
          · exact hno₂ ⟨w, hw⟩
    · exact .inl ⟨c, d, hget₁.2 (.inl ⟨rfl, rfl⟩), hget₂.2 (.inl ⟨rfl, rfl⟩), hcd.mono hle⟩

/-- Writing and freeing fail as reading does. -/
theorem refused (hm : Heap.Renamed K h₁ h₂) (hr : K r q) (hno₁ : ¬ h₁.Resolves r)
    (hno₂ : ¬ h₂.Resolves q) :
    ∃ e e', MemoryError.Alike e e' ∧ h₁.get r = .error e ∧ h₂.get q = .error e' := by
  have hget := hm.get hr
  cases he₁ : h₁.get r with
  | ok c => exact absurd ⟨c, he₁⟩ hno₁
  | error e =>
    cases he₂ : h₂.get q with
    | ok d => exact absurd ⟨d, he₂⟩ hno₂
    | error e' =>
      rw [he₁, he₂] at hget
      cases hget with
      | error he => exact ⟨e, e', he, rfl, rfl⟩

/-- **Writing related entries** on both sides. -/
theorem set (hm : Heap.Renamed K h₁ h₂) (hr : K r q) (hcd : c.ContentRenamed K d) :
    Agree MemoryError.Alike (Heap.Renamed K) (h₁.set r c) (h₂.set q d) := by
  rcases hm.entries hr with ⟨c₀, d₀, hc₀, hd₀, _⟩ | ⟨hno₁, hno₂⟩
  · obtain ⟨h₁', he₁⟩ : ∃ h, h₁.set r c = .ok h := ⟨_, set_eq_ok.2 ⟨⟨c₀, hc₀⟩, rfl⟩⟩
    obtain ⟨h₂', he₂⟩ : ∃ h, h₂.set q d = .ok h := ⟨_, set_eq_ok.2 ⟨⟨d₀, hd₀⟩, rfl⟩⟩
    have hget₁ := fun {q w} => Heap.get_set (q := q) (w := w) he₁
    have hget₂ := fun {q w} => Heap.get_set (q := q) (w := w) he₂
    rw [he₁, he₂]
    refine .ok (hm.change (hm.wellFormed₁.set he₁) (hm.wellFormed₂.set he₂) (gains_set he₁).ages
      (gains_set he₂).ages fun {r' q'} hr' => ?_)
    by_cases hr₁ : r' = r
    · subst hr₁
      obtain rfl := hm.functional hr hr'
      exact .inl ⟨c, d, hget₁.2 (.inl ⟨rfl, rfl⟩), hget₂.2 (.inl ⟨rfl, rfl⟩), hcd⟩
    · have hq₁ : q' ≠ q := fun he => hr₁ (hm.injective (he ▸ hr') hr)
      rcases hm.entries hr' with ⟨c', d', hc', hd', hcd'⟩ | ⟨hno₁, hno₂⟩
      · exact .inl ⟨c', d', hget₁.2 (.inr ⟨hr₁, hc'⟩), hget₂.2 (.inr ⟨hq₁, hd'⟩), hcd'⟩
      · refine .inr ⟨fun ⟨w, hw⟩ => ?_, fun ⟨w, hw⟩ => ?_⟩
        · exact hno₁ ⟨w, ((hget₁.1 hw).resolve_left fun ⟨he, _⟩ => hr₁ he).2⟩
        · exact hno₂ ⟨w, ((hget₂.1 hw).resolve_left fun ⟨he, _⟩ => hq₁ he).2⟩
  · obtain ⟨e, e', he, he₁, he₂⟩ := hm.refused hr hno₁ hno₂
    rw [Heap.set, Heap.set, he₁, he₂]
    exact .error he

/-- **Freeing related entries** on both sides, as long as no generation starts over. -/
theorem free (hm : Heap.Renamed K h₁ h₂) (hr : K r q) :
    Agree MemoryError.Alike (fun h h' => h₁.Ages h → h₂.Ages h' → Heap.Renamed K h h') (h₁.free r)
      (h₂.free q) := by
  rcases hm.entries hr with ⟨c₀, d₀, hc₀, hd₀, _⟩ | ⟨hno₁, hno₂⟩
  · obtain ⟨h₁', he₁⟩ : ∃ h, h₁.free r = .ok h := ⟨_, free_eq_ok.2 ⟨⟨c₀, hc₀⟩, rfl⟩⟩
    obtain ⟨h₂', he₂⟩ : ∃ h, h₂.free q = .ok h := ⟨_, free_eq_ok.2 ⟨⟨d₀, hd₀⟩, rfl⟩⟩
    have hget₁ := fun {q w} => Heap.get_free (q := q) (w := w) he₁
    have hget₂ := fun {q w} => Heap.get_free (q := q) (w := w) he₂
    rw [he₁, he₂]
    refine .ok fun hages₁ hages₂ => hm.change (hm.wellFormed₁.free he₁) (hm.wellFormed₂.free he₂)
      hages₁ hages₂ fun {r' q'} hr' => ?_
    by_cases hr₁ : r' = r
    · subst hr₁
      obtain rfl := hm.functional hr hr'
      exact .inr ⟨fun ⟨_, hw⟩ => (hget₁.1 hw).1 rfl, fun ⟨_, hw⟩ => (hget₂.1 hw).1 rfl⟩
    · have hq₁ : q' ≠ q := fun he => hr₁ (hm.injective (he ▸ hr') hr)
      rcases hm.entries hr' with ⟨c', d', hc', hd', hcd'⟩ | ⟨hno₁, hno₂⟩
      · exact .inl ⟨c', d', hget₁.2 ⟨hr₁, hc'⟩, hget₂.2 ⟨hq₁, hd'⟩, hcd'⟩
      · exact .inr ⟨fun ⟨w, hw⟩ => hno₁ ⟨w, (hget₁.1 hw).2⟩,
          fun ⟨w, hw⟩ => hno₂ ⟨w, (hget₂.1 hw).2⟩⟩
  · obtain ⟨e, e', he, he₁, he₂⟩ := hm.refused hr hno₁ hno₂
    rw [Heap.free, Heap.free, he₁, he₂]
    exact .error he

/-- **Reclaiming one of the heaps** keeps them the same up to the renaming of what can be
reached. -/
theorem reclaim (hm : Heap.Renamed K h₁ h₂) (roots : List Value)
    (hages : h₁.Ages (h₁.reclaim roots).1) :
    Heap.Renamed (fun r q => K r q ∧ h₁.Reaches roots r) (h₁.reclaim roots).1 h₂ := by
  refine ⟨hm.wellFormed₁.reclaim roots, hm.wellFormed₂, fun hr => (hm.issued₁ hr.1).ages hages,
    fun hr => hm.issued₂ hr.1, fun hr hr' => hm.functional hr.1 hr'.1, fun hr hr' =>
      hm.injective hr.1 hr'.1, ?_⟩
  rintro r q ⟨hr, hreach⟩
  rcases hm.entries hr with ⟨c, d, hc, hd, hcd⟩ | ⟨hno₁, hno₂⟩
  · refine .inl ⟨c, d, get_reclaim.2 ⟨hc, hreach.covered ⟨c, hc⟩⟩, hd, hcd.confine fun p hp => ?_⟩
    exact .entry hreach hc hp
  · exact .inr ⟨fun ⟨w, hw⟩ => hno₁ ⟨w, (get_reclaim.1 hw).1⟩, hno₂⟩

end Heap.Renamed

/-! ## Copying on both sides -/

/-- The heaps are the same up to renaming, and so is what was copied. -/
structure CopyState.Renamed (K : Renaming) (st₁ st₂ : CopyState) : Prop where
  heap : Heap.Renamed K st₁.heap st₂.heap
  copied : List.Forall₂ (fun p q => K p.1 q.1 ∧ K p.2 q.2) st₁.copied st₂.copied

/-- Copies on both sides that agree, up to a renaming that says more than the one before. -/
def CopyState.Agrees {α : Type} (K : Renaming) (R : Renaming → α → α → Prop)
    (res₁ res₂ : CopyState × Except MemoryError α) : Prop :=
  ∃ K', K ≤ K' ∧ CopyState.Renamed K' res₁.1 res₂.1 ∧ Agree MemoryError.Alike (R K') res₁.2 res₂.2

variable {st₁ st₂ : CopyState} {fuel : Nat}

/-- What a reference was copied to is found on both sides or on neither. -/
theorem CopyState.Renamed.lookup (hst : CopyState.Renamed K st₁ st₂) (hr : K r q) :
    Option.Rel K (st₁.copied.lookup r) (st₂.copied.lookup q) := by
  obtain ⟨hheap, hcopied⟩ := hst
  generalize st₁.copied = l₁ at hcopied
  generalize st₂.copied = l₂ at hcopied
  induction hcopied with
  | nil => exact .none
  | @cons p₁ p₂ l₁ l₂ hp _ ih =>
    obtain ⟨src₁, dst₁⟩ := p₁
    obtain ⟨src₂, dst₂⟩ := p₂
    rw [List.lookup_cons, List.lookup_cons]
    by_cases he : r = src₁
    · subst he
      obtain rfl := hheap.functional hr hp.1
      simpa using Option.Rel.some hp.2
    · have he' : q ≠ src₂ := fun hq => he (hheap.injective (hq ▸ hr) hp.1)
      simpa [he, he', beq_false_of_ne he, beq_false_of_ne he'] using ih

/-- Writing finished copies that agree does the same on both sides. -/
theorem CopyState.Renamed.finish (hst : CopyState.Renamed K st₁ st₂) (hr : K r q)
    (hcd : c.ContentRenamed K d) :
    CopyState.Agrees K (fun K => Value.Renamed K) (copyValue.finish st₁ r c)
      (copyValue.finish st₂ q d) := by
  have hset := hst.heap.set hr hcd
  rw [copyValue.finish, copyValue.finish]
  generalize st₁.heap.set r c = x at hset
  generalize st₂.heap.set q d = y at hset
  cases hset with
  | ok hheap => exact ⟨K, le_rfl, ⟨hheap, hst.copied⟩, .ok (.ref hr)⟩
  | error he => exact ⟨K, le_rfl, hst, .error he⟩

/-- Copying lists does the same on both sides if copying their elements does. -/
theorem CopyState.Renamed.copyAll {vs ws : List Value}
    (hcopy : ∀ K (st₁ st₂ : CopyState) v w, CopyState.Renamed K st₁ st₂ → v.Renamed K w →
      (copyValue fuel st₁ v).1.heap.entries.size < 2 ^ 32 →
      (copyValue fuel st₂ w).1.heap.entries.size < 2 ^ 32 →
      CopyState.Agrees K (fun K => Value.Renamed K) (copyValue fuel st₁ v) (copyValue fuel st₂ w))
    (hst : CopyState.Renamed K st₁ st₂) (hvs : List.Forall₂ (Value.Renamed K) vs ws)
    (hs₁ : (copyAll (copyValue fuel) st₁ vs).1.heap.entries.size < 2 ^ 32)
    (hs₂ : (copyAll (copyValue fuel) st₂ ws).1.heap.entries.size < 2 ^ 32) :
    CopyState.Agrees K (fun K => List.Forall₂ (Value.Renamed K)) (copyAll (copyValue fuel) st₁ vs)
      (copyAll (copyValue fuel) st₂ ws) := by
  induction vs generalizing K st₁ st₂ ws with
  | nil =>
    cases hvs
    exact ⟨K, le_rfl, hst, .ok .nil⟩
  | cons v vs ih =>
    cases hvs with
    | @cons _ w _ ws hv hvs =>
      obtain ⟨K₁, hle₁, hst', hvw⟩ := hcopy K st₁ st₂ v w hst hv
        (Nat.lt_of_le_of_lt (size_copyAll_head fuel st₁ v vs) hs₁)
        (Nat.lt_of_le_of_lt (size_copyAll_head fuel st₂ w ws) hs₂)
      rw [copyAll_cons] at hs₁ hs₂ ⊢
      rw [copyAll_cons]
      generalize copyValue fuel st₁ v = res₁ at hst' hvw hs₁ ⊢
      generalize copyValue fuel st₂ w = res₂ at hst' hvw hs₂ ⊢
      obtain ⟨st₁', x⟩ := res₁
      obtain ⟨st₂', y⟩ := res₂
      cases hvw with
      | error he => exact ⟨K₁, hle₁, hst', .error he⟩
      | ok hvw =>
        obtain ⟨K₂, hle₂, hst'', hall⟩ := ih hst' (hvs.imp fun _ _ => .mono hle₁) hs₁ hs₂
        exact ⟨K₂, hle₁.trans hle₂, hst'', hall.map fun _ _ hall => .cons (hvw.mono hle₂) hall⟩

/-- Copying related contents into entries that are taken for them. -/
theorem CopyState.Renamed.copyContent
    (hcopy : ∀ K (st₁ st₂ : CopyState) v w, CopyState.Renamed K st₁ st₂ → v.Renamed K w →
      (copyValue fuel st₁ v).1.heap.entries.size < 2 ^ 32 →
      (copyValue fuel st₂ w).1.heap.entries.size < 2 ^ 32 →
      CopyState.Agrees K (fun K => Value.Renamed K) (copyValue fuel st₁ v) (copyValue fuel st₂ w))
    (hst : CopyState.Renamed K st₁ st₂) (hr : K r q) (hcd : c.ContentRenamed K d)
    (hs₁ : (copyContent fuel (st₁.take r) (st₁.heap.alloc .void).2 c).1.heap.entries.size < 2 ^ 32)
    (hs₂ : (copyContent fuel (st₂.take q) (st₂.heap.alloc .void).2 d).1.heap.entries.size <
      2 ^ 32) :
    CopyState.Agrees K (fun K => Value.Renamed K)
      (copyContent fuel (st₁.take r) (st₁.heap.alloc .void).2 c)
      (copyContent fuel (st₂.take q) (st₂.heap.alloc .void).2 d) := by
  have hgrows₁ := grows_copyContent (grows_copyValue fuel) (st₁.take r) (st₁.heap.alloc .void).2 c
  have hgrows₂ := grows_copyContent (grows_copyValue fuel) (st₂.take q) (st₂.heap.alloc .void).2 d
  have hvoid : Value.void.ContentRenamed K .void :=
    .same (fun _ he => nomatch he) fun _ hr => nomatch hr
  have halloc := hst.heap.alloc hvoid (Nat.lt_of_le_of_lt hgrows₁.size_le hs₁)
    (Nat.lt_of_le_of_lt hgrows₂.size_le hs₂)
  generalize hK₁ : K.extend (st₁.heap.alloc .void).2 (st₂.heap.alloc .void).2 = K₁ at halloc
  have hle : K ≤ K₁ := hK₁ ▸ K.le_extend _ _
  have hdst : K₁ (st₁.heap.alloc .void).2 (st₂.heap.alloc .void).2 := hK₁ ▸ .inr ⟨rfl, rfl⟩
  have htake : CopyState.Renamed K₁ (st₁.take r) (st₂.take q) :=
    ⟨halloc, .cons ⟨hle _ _ hr, hdst⟩ (hst.copied.imp fun _ _ hp => ⟨hle _ _ hp.1, hle _ _ hp.2⟩)⟩
  have hfinish : ∀ {K₂ st₁' st₂'} {c' d' : Value}, K₁ ≤ K₂ → CopyState.Renamed K₂ st₁' st₂' →
      c'.ContentRenamed K₂ d' → CopyState.Agrees K (fun K => Value.Renamed K)
        (copyValue.finish st₁' (st₁.heap.alloc .void).2 c')
        (copyValue.finish st₂' (st₂.heap.alloc .void).2 d') := by
    intro K₂ st₁' st₂' c' d' hle₂ hst' hcd'
    obtain ⟨K₃, hle₃, hrest⟩ := hst'.finish (hle₂ _ _ hdst) hcd'
    exact ⟨K₃, hle.trans (hle₂.trans hle₃), hrest⟩
  cases hcd with
  | @array es es' hes =>
    obtain ⟨K₂, hle₂, hst', hall⟩ := CopyState.Renamed.copyAll hcopy htake
      (hes.imp fun _ _ => .mono hle)
      (Nat.lt_of_le_of_lt (size_copyContent_array fuel (st₁.take r) _ es) hs₁)
      (Nat.lt_of_le_of_lt (size_copyContent_array fuel (st₂.take q) _ es') hs₂)
    unfold RegisterMachine.copyContent
    dsimp only
    generalize RegisterMachine.copyAll (copyValue fuel) (st₁.take r) es = res₁ at hst' hall ⊢
    generalize RegisterMachine.copyAll (copyValue fuel) (st₂.take q) es' = res₂ at hst' hall ⊢
    obtain ⟨st₁', x⟩ := res₁
    obtain ⟨st₂', y⟩ := res₂
    cases hall with
    | error he => exact ⟨K₂, hle.trans hle₂, hst', .error he⟩
    | ok hall => exact hfinish hle₂ hst' (.array hall)
  | same hne hnone =>
    have hplain : ∀ st dst, RegisterMachine.copyContent fuel st dst c =
        copyValue.finish st dst c := by
      intro st dst
      cases c with
      | array es => exact absurd rfl (hne es)
      | _ => rfl
    rw [hplain, hplain]
    exact hfinish le_rfl htake (.same hne hnone)

/-- **Copying related values** takes the same way on both sides. -/
theorem CopyState.Renamed.copyValue (fuel : Nat) (K : Renaming) (st₁ st₂ : CopyState) (v w : Value)
    (hst : CopyState.Renamed K st₁ st₂) (hv : v.Renamed K w)
    (hs₁ : (copyValue fuel st₁ v).1.heap.entries.size < 2 ^ 32)
    (hs₂ : (copyValue fuel st₂ w).1.heap.entries.size < 2 ^ 32) :
    CopyState.Agrees K (fun K => Value.Renamed K) (copyValue fuel st₁ v)
      (copyValue fuel st₂ w) := by
  induction fuel using Nat.strongRecOn generalizing K st₁ st₂ v w with
  | ind fuel ih =>
    cases hv with
    | @same v hnone =>
      have hne : ∀ r, v ≠ .heapRef r := by
        rintro r rfl
        exact hnone r (.self r)
      rw [copyValue_of_ne hne, copyValue_of_ne hne]
      exact ⟨K, le_rfl, hst, .ok (.same hnone)⟩
    | @ref src₁ src₂ hsrc =>
      have hlookup := hst.lookup hsrc
      cases hl₁ : st₁.copied.lookup src₁ with
      | some dst₁ =>
        cases hl₂ : st₂.copied.lookup src₂ with
        | none => rw [hl₁, hl₂] at hlookup; cases hlookup
        | some dst₂ =>
          rw [hl₁, hl₂] at hlookup
          rw [copyValue_known hl₁, copyValue_known hl₂]
          cases hlookup with
          | some hdst => exact ⟨K, le_rfl, hst, .ok (.ref hdst)⟩
      | none =>
        cases hl₂ : st₂.copied.lookup src₂ with
        | some dst₂ => rw [hl₁, hl₂] at hlookup; cases hlookup
        | none =>
          have hget := hst.heap.get hsrc
          generalize hg₁ : st₁.heap.get src₁ = x at hget
          generalize hg₂ : st₂.heap.get src₂ = y at hget
          cases hget with
          | error he =>
            rw [copyValue_stale hl₁ hg₁, copyValue_stale hl₂ hg₂]
            exact ⟨K, le_rfl, hst, .error he⟩
          | @ok c d hcd =>
            cases fuel with
            | zero =>
              rw [copyValue_zero hl₁ hg₁, copyValue_zero hl₂ hg₂]
              exact ⟨K, le_rfl, hst, .error rfl⟩
            | succ n =>
              rw [copyValue_succ hl₁ hg₁] at hs₁ ⊢
              rw [copyValue_succ hl₂ hg₂] at hs₂ ⊢
              exact hst.copyContent (ih n (Nat.lt_succ_self n)) hsrc hcd hs₁ hs₂

/-- **A deep copy of related values** leads to the same on both sides, up to renaming. -/
theorem Heap.Renamed.deepCopy (hm : Heap.Renamed K h₁ h₂) (hv : v.Renamed K w)
    (hs₁ : (h₁.deepCopy v).1.entries.size < 2 ^ 32)
    (hs₂ : (h₂.deepCopy w).1.entries.size < 2 ^ 32) :
    ∃ K', K ≤ K' ∧ Heap.Renamed K' (h₁.deepCopy v).1 (h₂.deepCopy w).1 ∧
      Agree MemoryError.Alike (Value.Renamed K') (h₁.deepCopy v).2 (h₂.deepCopy w).2 := by
  obtain ⟨K', hle, hst, hagree⟩ :=
    CopyState.Renamed.copyValue Heap.maxEntries K ⟨h₁, []⟩ ⟨h₂, []⟩ v w
    ⟨hm, .nil⟩ hv hs₁ hs₂
  exact ⟨K', hle, hst.heap, hagree⟩

end RegisterMachine
