import RegisterMachine.Proofs.Memory.CopyShape

/-!
# Literals in the heap

`Heap.Shows` says that a value stands for a literal, with the literal's strings and arrays behind
references. Moving a literal into the heap leads to such a value, in entries that were not in use
(`Heap.shows_intern`), and copying leads from one such value to another (`Heap.Shows.copied`). The
entries that a literal takes are flat, and all of them can be reached from the value that stands for
it (`Heap.Interned`).
-/

namespace RegisterMachine

variable {h h₁ h₂ h' : Heap} {own own' : Ref → Prop}

mutual

/-- A value stands for a literal: strings and arrays are behind references, which have a given
property, and everything else is there itself. -/
def Heap.Shows (h : Heap) (own : Ref → Prop) : Value → Value → Prop
  | .string s, w => ∃ r, w = .heapRef r ∧ own r ∧ h.get r = .ok (.string s)
  | .array ls, w =>
    ∃ r es, w = .heapRef r ∧ own r ∧ h.get r = .ok (.array es) ∧ h.ShowsAll own ls es
  | l, w => w = l

/-- `Heap.Shows` for the elements of an array, one by one. -/
def Heap.ShowsAll (h : Heap) (own : Ref → Prop) : List Value → List Value → Prop
  | [], ws => ws = []
  | l :: ls, ws => ∃ w ws', ws = w :: ws' ∧ h.Shows own l w ∧ h.ShowsAll own ls ws'

end

mutual

/-- A value goes on standing for a literal when the entries are kept. -/
theorem Heap.Shows.mono (hkeeps : ∀ {r v}, h.get r = .ok v → h'.get r = .ok v)
    (hown : ∀ r, own r → own' r) : (l w : Value) → h.Shows own l w → h'.Shows own' l w
  | .string s, w, hw => by
    rw [Heap.Shows] at hw ⊢
    obtain ⟨r, rfl, hr, hget⟩ := hw
    exact ⟨r, rfl, hown r hr, hkeeps hget⟩
  | .array ls, w, hw => by
    rw [Heap.Shows] at hw ⊢
    obtain ⟨r, es, rfl, hr, hget, hes⟩ := hw
    exact ⟨r, es, rfl, hown r hr, hkeeps hget, Heap.ShowsAll.mono hkeeps hown ls es hes⟩
  | .int .., _, hw | .float _, _, hw | .double _, _, hw | .byte _, _, hw | .bool _, _, hw
  | .char _, _, hw | .void, _, hw | .null, _, hw | .function _, _, hw | .stackRef _, _, hw
  | .heapRef _, _, hw => by
    simpa only [Heap.Shows] using hw

/-- What the elements show is still shown when the entries are kept and more references count as
own. -/
theorem Heap.ShowsAll.mono (hkeeps : ∀ {r v}, h.get r = .ok v → h'.get r = .ok v)
    (hown : ∀ r, own r → own' r) :
    (ls ws : List Value) → h.ShowsAll own ls ws → h'.ShowsAll own' ls ws
  | [], ws, hws => by
    simpa only [Heap.ShowsAll] using hws
  | l :: ls, ws, hws => by
    rw [Heap.ShowsAll] at hws ⊢
    obtain ⟨w, ws', rfl, hw, hws'⟩ := hws
    exact ⟨w, ws', rfl, Heap.Shows.mono hkeeps hown l w hw,
      Heap.ShowsAll.mono hkeeps hown ls ws' hws'⟩

end

mutual

/-- **A copy of what stands for a literal stands for it too.** -/
theorem Heap.Shows.copied {copied : Copied} (hcopied : ∀ p ∈ copied, own' p.2 ∧ ∃ c c',
      h.get p.1 = .ok c ∧ h'.get p.2 = .ok c' ∧ c.ContentCopiedTo copied c') :
    (l v w : Value) → (∀ r, ¬ l.Mentions r) → h.Shows own l v → v.CopiedTo copied w →
      h'.Shows own' l w
  | .string s, v, w, _, hv, hw => by
    rw [Heap.Shows] at hv ⊢
    obtain ⟨r, rfl, _, hget⟩ := hv
    cases hw with
    | same hne => exact absurd rfl (hne r)
    | @ref _ d hmem =>
      obtain ⟨hown, c, c', hc, hc', hcontent⟩ := hcopied _ hmem
      rw [hget] at hc
      cases hc
      cases hcontent
      exact ⟨d, rfl, hown, hc'⟩
  | .array ls, v, w, hl, hv, hw => by
    rw [Heap.Shows] at hv ⊢
    obtain ⟨r, es, rfl, _, hget, hes⟩ := hv
    cases hw with
    | same hne => exact absurd rfl (hne r)
    | @ref _ d hmem =>
      obtain ⟨hown, c, c', hc, hc', hcontent⟩ := hcopied _ hmem
      rw [hget] at hc
      cases hc
      cases hcontent with
      | same hne => exact absurd rfl (hne es)
      | @array _ es' hes' =>
        have hls : ∀ l ∈ ls, ∀ r, ¬ l.Mentions r := fun l hmem r hr => hl r (.element hmem hr)
        exact ⟨d, es', rfl, hown, hc', Heap.ShowsAll.copied hcopied ls es es' hls hes hes'⟩
  | .int .., _, _, _, hv, hw | .float _, _, _, _, hv, hw | .double _, _, _, _, hv, hw
  | .byte _, _, _, _, hv, hw | .bool _, _, _, _, hv, hw | .char _, _, _, _, hv, hw
  | .void, _, _, _, hv, hw | .null, _, _, _, hv, hw | .function _, _, _, _, hv, hw
  | .stackRef _, _, _, _, hv, hw => by
    simp only [Heap.Shows] at hv ⊢
    subst hv
    cases hw
    rfl
  | .heapRef r, _, _, hl, _, _ => absurd (.self r) (hl r)

/-- What the elements show is shown by their copies. -/
theorem Heap.ShowsAll.copied {copied : Copied} (hcopied : ∀ p ∈ copied, own' p.2 ∧ ∃ c c',
      h.get p.1 = .ok c ∧ h'.get p.2 = .ok c' ∧ c.ContentCopiedTo copied c') :
    (ls vs ws : List Value) → (∀ l ∈ ls, ∀ r, ¬ l.Mentions r) → h.ShowsAll own ls vs →
      List.Forall₂ (Value.CopiedTo copied) vs ws → h'.ShowsAll own' ls ws
  | [], vs, ws, _, hvs, hws => by
    rw [Heap.ShowsAll] at hvs ⊢
    subst hvs
    cases hws
    rfl
  | l :: ls, vs, ws, hls, hvs, hws => by
    rw [Heap.ShowsAll] at hvs ⊢
    obtain ⟨v, vs', rfl, hv, hvs'⟩ := hvs
    cases hws with
    | @cons _ w _ ws' hw hws' =>
      exact ⟨w, ws', rfl, Heap.Shows.copied hcopied l v w (hls l List.mem_cons_self) hv hw,
        Heap.ShowsAll.copied hcopied ls vs' ws' (fun x hx => hls x (List.mem_cons_of_mem l hx))
          hvs' hws'⟩

end

mutual

/-- **Moving a literal into the heap** leads to a value that stands for it, in new entries. -/
theorem Heap.shows_intern : (h : Heap) → (l : Value) → h.WellFormed → (∀ r, ¬ l.Mentions r) →
    (h.intern l).1.entries.size < 2 ^ 32 →
    (h.intern l).1.Shows (fun r => ¬ h.Resolves r) l (h.intern l).2
  | h, .string s, hw, _, hsize => by
    rw [Heap.intern] at hsize ⊢
    rw [Heap.Shows]
    exact ⟨_, rfl, Heap.not_resolves_alloc hw hsize, (Heap.get_alloc hw hsize).2 (.inl ⟨rfl, rfl⟩)⟩
  | h, .array ls, hw, hl, hsize => by
    rw [Heap.intern] at hsize ⊢
    have hls : ∀ l ∈ ls, ∀ r, ¬ l.Mentions r := fun l hmem r hr => hl r (.element hmem hr)
    have hle := (Heap.grows_alloc (h.internAll ls).1 (.array (h.internAll ls).2)).size_le
    have hlt := Nat.lt_of_le_of_lt hle hsize
    have hall := Heap.shows_internAll h ls hw hls hlt
    have hapart := (Heap.Apart.internAll h ls (.refl hw) (fun l hmem => .ofNone (hls l hmem)) hlt).1
    have hget := fun {r w} => Heap.get_alloc (r := r) (w := w) hapart.wellFormed hsize
    rw [Heap.Shows]
    refine ⟨_, _, rfl, fun hr => ?_, hget.2 (.inl ⟨rfl, rfl⟩), ?_⟩
    · exact Heap.not_resolves_alloc hapart.wellFormed hsize (hapart.resolves hr)
    · exact Heap.ShowsAll.mono (fun hr => hget.2 (.inr hr)) (fun _ => id) _ _ hall
  | h, .int .., _, _, _ | h, .float _, _, _, _ | h, .double _, _, _, _ | h, .byte _, _, _, _
  | h, .bool _, _, _, _ | h, .char _, _, _, _ | h, .void, _, _, _ | h, .null, _, _, _
  | h, .function _, _, _, _ | h, .stackRef _, _, _, _ | h, .heapRef _, _, _, _ => by
    simp only [Heap.intern, Heap.Shows]

/-- Values that were moved into a heap are shown by what came out. -/
theorem Heap.shows_internAll : (h : Heap) → (ls : List Value) → h.WellFormed →
    (∀ l ∈ ls, ∀ r, ¬ l.Mentions r) → (h.internAll ls).1.entries.size < 2 ^ 32 →
    (h.internAll ls).1.ShowsAll (fun r => ¬ h.Resolves r) ls (h.internAll ls).2
  | h, [], _, _, _ => by simp only [Heap.internAll, Heap.ShowsAll]
  | h, l :: ls, hw, hls, hsize => by
    rw [Heap.internAll] at hsize ⊢
    have hle := (Heap.grows_internAll (h.intern l).1 ls).size_le
    have hlt := Nat.lt_of_le_of_lt hle hsize
    have hl := hls l List.mem_cons_self
    have hls' : ∀ x ∈ ls, ∀ r, ¬ x.Mentions r := fun x hx => hls x (List.mem_cons_of_mem l hx)
    have hone := Heap.shows_intern h l hw hl hlt
    have hapart := (Heap.Apart.intern h l (.refl hw) (.ofNone hl) hlt).1
    have hrest := Heap.shows_internAll (h.intern l).1 ls hapart.wellFormed hls' hsize
    have hapart' := (Heap.Apart.internAll (h.intern l).1 ls (.refl hapart.wellFormed)
      (fun x hx => .ofNone (hls' x hx)) hsize).1
    rw [Heap.ShowsAll]
    refine ⟨_, _, rfl, Heap.Shows.mono (fun hr => hapart'.keeps hr) (fun _ => id) _ _ hone, ?_⟩
    exact Heap.ShowsAll.mono (fun hr => hr) (fun r hr hres => hr (hapart.resolves hres)) _ _ hrest

end

/-! ## The entries of literals -/

/-- The values `ws` were moved into the heap: what was there is kept, references stand alone in
them, and each new entry is flat and can be reached from them. -/
structure Heap.Interned (h : Heap) (ws : List Value) (h' : Heap) : Prop where
  apart : h.Apart h'
  atoms : ∀ w ∈ ws, (∃ r, w = .heapRef r) ∨ ∀ r, ¬ w.Mentions r
  entries : ∀ {r c}, h'.get r = .ok c → h.get r = .ok c ∨ c.IsFlat ∧ h'.Reaches ws r

/-- Values that refer to nothing need no entries. -/
theorem Heap.Interned.refl (hw : h.WellFormed) {ws : List Value}
    (hws : ∀ w ∈ ws, ∀ r, ¬ w.Mentions r) : h.Interned ws h :=
  ⟨.refl hw, fun w hmem => .inr (hws w hmem), fun hr => .inl hr⟩

/-- Moving in values after others is moving in all of them. -/
theorem Heap.Interned.trans {ws ws' : List Value} (h₁₂ : h.Interned ws h₁)
    (h₂₃ : h₁.Interned ws' h₂) : h.Interned (ws ++ ws') h₂ := by
  refine ⟨h₁₂.apart.trans h₂₃.apart, fun w hw => ?_, fun {r c} hr => ?_⟩
  · exact (List.mem_append.1 hw).elim (h₁₂.atoms w) (h₂₃.atoms w)
  · rcases h₂₃.entries hr with hr | ⟨hflat, hreach⟩
    · refine (h₁₂.entries hr).imp id fun ⟨hflat, hreach⟩ => ⟨hflat, ?_⟩
      exact hreach.lift (fun hq => h₂₃.apart.keeps hq) fun w hw q hq =>
        .root (List.mem_append_left ws' hw) hq
    · exact .inr ⟨hflat, hreach.lift id fun w hw q hq => .root (List.mem_append_right ws hw) hq⟩

/-- Taking an entry for a flat value whose references lead to what was moved into the heap. -/
theorem Heap.Interned.alloc {ws : List Value} {c : Value} (hi : h.Interned ws h₁) (hflat : c.IsFlat)
    (hws : ∀ w ∈ ws, ∀ r, w.Mentions r → c.Mentions r) (hc : c.Avoids h)
    (hsize : (h₁.alloc c).1.entries.size < 2 ^ 32) :
    h.Interned [.heapRef (h₁.alloc c).2] (h₁.alloc c).1 := by
  have hget := fun {r w} => Heap.get_alloc (r := r) (w := w) hi.apart.wellFormed hsize
  have hnew : (h₁.alloc c).1.Reaches [.heapRef (h₁.alloc c).2] (h₁.alloc c).2 :=
    .root List.mem_cons_self (.self _)
  refine ⟨(hi.apart.alloc hc hsize).1, fun w hw => .inl ⟨_, List.mem_singleton.1 hw⟩, fun hr => ?_⟩
  rcases hget.1 hr with ⟨rfl, rfl⟩ | hr
  · exact .inr ⟨hflat, hnew⟩
  · refine (hi.entries hr).imp id fun ⟨hflat, hreach⟩ => ⟨hflat, ?_⟩
    exact hreach.lift (fun hq => hget.2 (.inr hq)) fun w hw q hq =>
      .entry hnew (hget.2 (.inl ⟨rfl, rfl⟩)) (hws w hw q hq)

mutual

/-- **Moving a literal into the heap** takes flat entries that can be reached from the result. -/
theorem Heap.interned_intern : (h : Heap) → (l : Value) → h.WellFormed → (∀ r, ¬ l.Mentions r) →
    (h.intern l).1.entries.size < 2 ^ 32 → h.Interned [(h.intern l).2] (h.intern l).1
  | h, .string s, hw, hl, hsize => by
    rw [Heap.intern] at hsize ⊢
    have hnil : h.Interned [] h := .refl hw fun _ hmem => nomatch hmem
    exact hnil.alloc (.string s)
      (fun _ hmem => nomatch hmem) (.ofNone hl) hsize
  | h, .array ls, hw, hl, hsize => by
    rw [Heap.intern] at hsize ⊢
    have hls : ∀ l ∈ ls, ∀ r, ¬ l.Mentions r := fun l hmem r hr => hl r (.element hmem hr)
    have hle := (Heap.grows_alloc (h.internAll ls).1 (.array (h.internAll ls).2)).size_le
    have hlt := Nat.lt_of_le_of_lt hle hsize
    have hall := Heap.interned_internAll h ls hw hls hlt
    have havoids :=
      (Heap.Apart.internAll h ls (.refl hw) (fun l hmem => .ofNone (hls l hmem)) hlt).2
    exact hall.alloc (.array hall.atoms) (fun w hmem r hr => .element hmem hr) (.ofElements havoids)
      hsize
  | h, .int .., hw, hl, _ | h, .float _, hw, hl, _ | h, .double _, hw, hl, _ | h, .byte _, hw, hl, _
  | h, .bool _, hw, hl, _ | h, .char _, hw, hl, _ | h, .void, hw, hl, _ | h, .null, hw, hl, _
  | h, .function _, hw, hl, _ | h, .stackRef _, hw, hl, _ | h, .heapRef _, hw, hl, _ =>
    .refl hw fun w hmem r => List.mem_singleton.1 hmem ▸ hl r

/-- `Heap.interned_intern` for the elements of an array. -/
theorem Heap.interned_internAll : (h : Heap) → (ls : List Value) → h.WellFormed →
    (∀ l ∈ ls, ∀ r, ¬ l.Mentions r) → (h.internAll ls).1.entries.size < 2 ^ 32 →
    h.Interned (h.internAll ls).2 (h.internAll ls).1
  | h, [], hw, _, _ => .refl hw fun _ hmem => nomatch hmem
  | h, l :: ls, hw, hls, hsize => by
    rw [Heap.internAll] at hsize ⊢
    have hle := (Heap.grows_internAll (h.intern l).1 ls).size_le
    have hone :=
      Heap.interned_intern h l hw (hls l List.mem_cons_self) (Nat.lt_of_le_of_lt hle hsize)
    exact hone.trans (Heap.interned_internAll (h.intern l).1 ls hone.apart.wellFormed
      (fun x hx => hls x (List.mem_cons_of_mem l hx)) hsize)

end

end RegisterMachine
