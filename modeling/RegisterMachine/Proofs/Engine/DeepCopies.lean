import RegisterMachine.Proofs.Engine.NormalForm
import RegisterMachine.Proofs.Memory.CopyShape
import RegisterMachine.Proofs.Memory.Histories

/-!
# Deep copies in a running thread

A deep copy in a thread has the shape of the original in entries of its own, and whatever is done to
the one leaves the entries of the other as they are (`Thread.deepCopy_isomorphic`). What it follows
is all that the value reaches, because values do not nest (`Heap.Flat.leads_iff`). It fails exactly
if a reference on the way leads nowhere, as long as the references in arrays were handed out before
(`Heap.WellFormed.deepCopy_fails_iff_stale`): a forged one can lead into an entry that is taken for
the copy, and is then copied too.
-/

namespace RegisterMachine

namespace Heap

variable {h h' : Heap} {r : Ref} {v w : Value}

/-! ## What a copy follows -/

/-- **A copy follows everything that a value reaches** in a heap whose values do not nest. -/
theorem Flat.leads_iff (hf : h.Flat) (hv : v.isCell = true) : h.Leads v r ↔ h.Reaches [v] r := by
  constructor
  · intro hr
    induction hr with
    | self he => exact .root (List.mem_singleton_self v) (he ▸ .self _)
    | element _ hget hmem ih => exact .entry ih hget (.element hmem (.self _))
  · intro hr
    have hcell : ∀ {x : Value} {q : Ref}, x.isCell = true → x.Mentions q → x = .heapRef q := by
      intro x q hx hq
      cases hq with
      | self => rfl
      | element => cases hx
    induction hr with
    | root hmem hq =>
      obtain rfl := List.mem_singleton.1 hmem
      exact .self (hcell hv hq)
    | @entry q r c _ hget hq ih =>
      have hc := hf.get hget
      cases hq with
      | self => cases hc
      | element hmem hq => exact ih.element hget (hcell (hf.element hget hmem) hq ▸ hmem)

/-- **A copy fails exactly if a reference on the way leads nowhere**, when those in arrays were
handed out. -/
theorem WellFormed.deepCopy_fails_iff_stale (hw : h.WellFormed)
    (hsize : (h.deepCopy v).1.entries.size < 2 ^ 32)
    (hissued : ∀ r, h.Leads v r → v = .heapRef r ∨ h.Issued r) :
    (∃ e, (h.deepCopy v).2 = .error e) ↔ ∃ r, h.Leads v r ∧ ¬ h.Resolves r := by
  have hkeeps := hw.keeps_deepCopy v hsize
  rw [hw.deepCopy_fails_iff v hsize]
  refine exists_congr fun r => and_congr_right fun hr =>
    not_congr ⟨fun hnew => ?_, fun ⟨c, hc⟩ => ?_⟩
  · rcases hissued r hr with rfl | hissued
    · -- A reference to nothing is not copied at all.
      by_contra hno
      rw [(deepCopy_eq_self h (.heapRef r)).2] at hnew
      · exact hno hnew
      · rintro q c he hc
        cases he
        exact hno ⟨c, hc⟩
    · obtain ⟨c, hc⟩ := hnew
      exact ⟨c, hissued.get hkeeps (deepCopy_monotone monotone_gains h v) hc⟩
  · exact ⟨c, get_eq_ok.2 (hkeeps _ _ (get_eq_ok.1 hc) rfl)⟩

end Heap

namespace Thread

variable {t : Thread} {v : Value} {freed : List Ref}

/-- The references that a copy finds in arrays were handed out. -/
theorem Authentic.issued {r : Ref} (ha : t.Authentic freed) (hr : t.heap.Leads v r) :
    v = .heapRef r ∨ t.heap.Issued r := by
  cases hr with
  | self he => exact .inl he
  | element _ hget hmem =>
    exact .inr (ha.of_knows (ha.sound.heap.knows hget) r (.element hmem (.self r)))

/-- **A deep copy is an isomorphism onto entries of its own.** In every state that steps and
reclaims of a program lead to, and for every value, with natives that do nothing to the heap but
store new strings and as long as there are fewer than 2^32 entries when it is done: it fails exactly
if a reference that the value leads to leads nowhere when it is done, with the error of that
reference; when it was so before, if the references in the arrays on the way were handed out, as
they are in a program that mentions none. Otherwise the references that the value leads to
correspond one to one to references to entries that were not in use, with the same content but for
the references in it. Entries in use stay as they are, and no later operation that is given
references to other entries changes the original or the copy. -/
theorem deepCopy_isomorphic {id : Bytes} {p : Program} {opts : Options}
    (ht : start id p opts = .ok t) (hn : opts.natives.AddsStrings) (as : List Action) {h h' : Heap}
    {res : Except MemoryError Value} (hh : (t.after as).heap = h) (hcopy : h.deepCopy v = (h', res))
    (hsize : h'.entries.size < 2 ^ 32) : (v.isCell = true → ∀ r, h.Leads v r ↔ h.Reaches [v] r) ∧
      ((∃ e, res = .error e) ↔ ∃ r, h.Leads v r ∧ ¬ h'.Resolves r) ∧
      (∀ e, res = .error e → ∃ r, h.Leads v r ∧ h'.get r = .error e) ∧
      ((∀ r, h.Leads v r → v = .heapRef r ∨ h.Issued r) →
        ((∃ e, res = .error e) ↔ ∃ r, h.Leads v r ∧ ¬ h.Resolves r)) ∧
      (opts.natives.Honest →
        (∀ i ∈ p.instructions, ∀ v r, i.operand = .immediate v → ¬ v.Mentions r) →
        (∀ i, t.freeCount i as < 2 ^ 32) → ∀ r, h.Leads v r → v = .heapRef r ∨ h.Issued r) ∧
      (∀ w, res = .ok w → (∃ copied, h.Copy h' v w copied) ∧
        ∀ ops : List Heap.Operation, (∀ op ∈ ops, op.Within (¬ h'.Leads w ·)) →
          ∀ r c, h'.Leads w r → h'.get r = .ok c → (h'.history ops).get r = .ok c) ∧
      (∀ r, h.Fresh h' r → ∀ e, h.entries[r.index.toNat]? = some e → e.live = false) ∧
      h.Keeps h' ∧
      ∀ ops : List Heap.Operation, (∀ op ∈ ops, op.Within (¬ h.Resolves ·)) →
        ∀ r c, h.get r = .ok c → (h'.history ops).get r = .ok c := by
  subst hh
  have hres : res = ((t.after as).heap.deepCopy v).2 := by rw [hcopy]
  have hheap : h' = ((t.after as).heap.deepCopy v).1 := by rw [hcopy]
  obtain ⟨_, hnatives, _⟩ := start_eq_ok ht
  have hadds : t.AddsStrings := fun _ _ _ => hnatives ▸ hn
  have hw := hadds.wellFormed_after (wellFormed_start ht) as
  have hw' : h'.WellFormed := hheap ▸ Heap.deepCopy_monotone Heap.monotone_wellFormed _ v hw
  have hkeeps : (t.after as).heap.Keeps h' := hheap ▸ hw.keeps_deepCopy v (hheap ▸ hsize)
  have hcases := hw.deepCopy_cases v (hheap ▸ hsize)
  have hfails := hw.deepCopy_fails_iff v (hheap ▸ hsize)
  have hstale := hw.deepCopy_fails_iff_stale (v := v) (hheap ▸ hsize)
  rw [← hres, ← hheap] at hcases
  rw [← hres, ← hheap] at hfails
  rw [← hres] at hstale
  refine ⟨fun hv r => ((flat_start ht hn).after as).heap.leads_iff hv, hfails, ?_, hstale, ?_, ?_,
    fun r hr => hr.dead hkeeps, hkeeps, ?_⟩
  · rintro e rfl
    rcases hcases with ⟨w, copied, hok, _⟩ | ⟨r, e', he, hr, hget⟩
    · cases hok
    · cases he
      exact ⟨r, hr, hget⟩
  · intro hhonest hrefs hfrees r hr
    have hgrows := Heap.deepCopy_monotone Heap.monotone_grows (t.after as).heap v
    obtain ⟨hstart, hspared⟩ := authentic_start ht hrefs hhonest
      (Nat.lt_of_le_of_lt (hheap ▸ hgrows.size_le) hsize) hfrees
    obtain ⟨_, hauthentic⟩ := hstart.after hspared
    exact hauthentic.issued hr
  · rintro w rfl
    rcases hcases with ⟨w', copied, hok, hcopied⟩ | ⟨r, e', he, _⟩
    · cases hok
      refine ⟨⟨copied, hcopied⟩, fun ops hops r c hr hc => ?_⟩
      refine Heap.get_history hw' (fun op hop => (hops op hop).imp_right ?_) hc
      rintro ⟨q, hq, hno⟩
      exact ⟨q, hq, fun he => hno (he ▸ hr)⟩
    · cases he
  · intro ops hops r c hc
    have hc' : h'.get r = .ok c := Heap.get_eq_ok.2 (hkeeps _ _ (Heap.get_eq_ok.1 hc) rfl)
    refine Heap.get_history hw' (fun op hop => (hops op hop).imp_right ?_) hc'
    rintro ⟨q, hq, hno⟩
    exact ⟨q, hq, fun he => hno (he ▸ ⟨c, hc⟩)⟩

/-- A main function that puts an array into itself, twice. -/
def cyclicSample : Program where
  arch := .b64
  mainExists := true
  entry := ⟨0, 7, 1⟩
  instructions :=
    #[⟨.function, .immediate (.int64 1)⟩, ⟨.store .a, .immediate (.int64 7)⟩,
      ⟨.newArray, .implicit⟩, ⟨.store .a, .absolute 0⟩, ⟨.push, .absolute 0⟩, ⟨.push, .absolute 0⟩,
      ⟨.ret, .implicit⟩]
  offsets := #[]
  natives := []

/-- The copy of the array is an array that holds itself twice, and the references that are followed
lead somewhere. -/
theorem deepCopy_isomorphic_cyclicSample :
    ∃ t, start [] cyclicSample { natives := .std } = .ok t ∧
      let h := (t.after (List.replicate 4 .step)).heap
      let h' := (h.deepCopy (.heapRef ⟨0, 0⟩)).1
      (∃ copied, h.Copy h' (.heapRef ⟨0, 0⟩) (.heapRef ⟨1, 0⟩) copied) ∧
        h'.get ⟨1, 0⟩ = .ok (.array [.heapRef ⟨1, 0⟩, .heapRef ⟨1, 0⟩]) ∧
        ∀ r, h.Leads (.heapRef ⟨0, 0⟩) r → h.Resolves r := by
  have hrefs : ∀ i ∈ cyclicSample.instructions, ∀ v r,
      i.operand = .immediate v → ¬ v.Mentions r :=
    Program.not_mentions (by decide)
  have hn : NativeRegistry.std.Honest := NativeRegistry.Standard.honest fun _ hfn => hfn
  have ht : start [] cyclicSample { natives := .std } = .ok _ := rfl
  obtain ⟨_, _, _, hstale, hissued, hok, _⟩ := deepCopy_isomorphic (v := .heapRef ⟨0, 0⟩) ht
    hn.addsStrings (List.replicate 4 .step) rfl rfl (by decide +kernel)
  refine ⟨_, ht, (hok (.heapRef ⟨1, 0⟩) (by rfl)).1, by rfl, fun r hr => ?_⟩
  by_contra hno
  have hissued := hissued hn hrefs fun i =>
    Nat.lt_of_le_of_lt (freeCount_le_length _ i _) (by decide +kernel)
  obtain ⟨e, he⟩ := (hstale hissued).2 ⟨r, hr, hno⟩
  cases he

end Thread

end RegisterMachine
