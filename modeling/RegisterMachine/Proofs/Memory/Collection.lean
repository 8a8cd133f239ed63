import RegisterMachine.Proofs.Memory.Histories

/-!
# What a reclaim frees

Marking goes no further than the references lead (`Heap.founded_mark`): together with the converse,
which keeps what is within reach, an entry has a mark exactly if it can be reached
(`Heap.marked_reachable_iff`). It stops by itself, for more rounds than there are entries change
nothing (`Heap.mark_eq_of_lt`). The sweep puts the entries without a mark on the free list
(`Heap.dead_reclaim`) and counts them (`Heap.count_reclaim`). So a reclaim frees the live entries
that cannot be reached and touches nothing else: `Heap.reclaim_exact`.
-/

namespace RegisterMachine.Heap

variable {h : Heap} {roots : List Value} {marked : Array Bool} {refs : List Ref} {r : Ref}

/-! ## Marking only what is reached -/

/-- Marked entries and references on the list are within reach of the roots. -/
structure Founded (h : Heap) (roots : List Value) (s : Array Bool × List Ref) : Prop where
  marks : ∀ r, h.Resolves r → Marked s.1 r.index.toNat → h.Reaches roots r
  found : ∀ r ∈ s.2, h.Reaches roots r

/-- Working off a reference within reach. -/
theorem Founded.markOne {s : Array Bool × List Ref} (hs : h.Founded roots s)
    (hsize : s.1.size = h.entries.size) (hr : h.Reaches roots r) :
    h.Founded roots (h.markOne s r) := by
  obtain ⟨marked, found⟩ := s
  rw [Heap.markOne]
  cases hget : h.get r with
  | error e => exact hs
  | ok v =>
    dsimp only
    split
    · exact hs
    · have hi : r.index.toNat < marked.size := by
        rw [hsize]
        exact (Array.getElem?_eq_some_iff.1 (get_eq_ok.1 hget)).1
      refine ⟨fun q hq hm => ?_, fun q hq => ?_⟩
      · rcases (marked_set hi).1 hm with he | hm
        · obtain ⟨w, hw⟩ := hq
          rw [eq_of_index_eq hw hget he]
          exact hr
        · exact hs.marks q hq hm
      · rcases (mem_refsOnto q v found).1 hq with hq | hq
        · exact .entry hr hget hq
        · exact hs.found q hq

/-- Working off a list of references within reach. -/
theorem Founded.round {s : Array Bool × List Ref} (hs : h.Founded roots s)
    (hsize : s.1.size = h.entries.size) (hrefs : ∀ r ∈ refs, h.Reaches roots r) :
    h.Founded roots (refs.foldl h.markOne s) := by
  induction refs generalizing s with
  | nil => exact hs
  | cons r refs ih =>
    obtain ⟨hr, hrefs⟩ := List.forall_mem_cons.1 hrefs
    obtain ⟨hadv, _⟩ := advances_markOne s hsize r
    exact ih (hs.markOne hsize hr) (hadv.size.trans hsize) hrefs

/-- **Marking goes no further than the references lead.** -/
theorem founded_mark (rounds : Nat) (hsize : marked.size = h.entries.size)
    (hs : h.Founded roots (marked, refs)) : h.Founded roots (h.mark rounds marked refs, []) := by
  induction rounds generalizing marked refs with
  | zero => exact ⟨hs.marks, List.forall_mem_nil _⟩
  | succ rounds ih =>
    obtain ⟨hadv, _⟩ := advances_round refs (marked, []) hsize
    have hround : h.Founded roots (refs.foldl h.markOne (marked, [])) :=
      Founded.round ⟨hs.marks, List.forall_mem_nil _⟩ hsize hs.found
    rw [mark]
    dsimp only
    split
    · exact ⟨hround.marks, List.forall_mem_nil _⟩
    · exact ih (hadv.size.trans hsize) hround

/-- **The entry of a valid reference has a mark exactly if it can be reached.** -/
theorem marked_reachable_iff (hr : h.Resolves r) :
    Marked (h.reachable roots) r.index.toNat ↔ h.Reaches roots r := by
  refine ⟨fun hm => ?_, fun hreach => hreach.covered hr⟩
  have hstart : h.Founded roots (Array.replicate h.entries.size false,
      Value.refsAllOnto roots []) := by
    refine ⟨fun _ _ hm => absurd hm (not_marked_replicate _ _), fun q hq => ?_⟩
    obtain ⟨v, hv, hmentions⟩ | hq := (mem_refsAllOnto q roots []).1 hq
    · exact .root hv hmentions
    · cases hq
  exact (founded_mark (h.entries.size + 1) (by simp) hstart).marks r hr hm

/-- **Marking stops by itself**: any two limits that are larger than the number of entries without a
mark come to the same. -/
theorem mark_eq_of_lt {rounds rounds' : Nat} (hsize : marked.size = h.entries.size)
    (hlt : marked.count false < rounds) (hlt' : marked.count false < rounds') :
    h.mark rounds marked refs = h.mark rounds' marked refs := by
  induction rounds generalizing marked refs rounds' with
  | zero => cases hlt
  | succ rounds ih =>
    obtain ⟨rounds', rfl⟩ := Nat.exists_eq_add_of_lt (Nat.zero_lt_of_lt hlt')
    obtain ⟨hadv, _⟩ := advances_round refs (marked, []) hsize
    rw [Nat.zero_add] at hlt' ⊢
    rw [mark, mark]
    dsimp only
    split
    · rfl
    · next hmore =>
      have hfewer := hadv.count_lt hmore
      exact ih (hadv.size.trans hsize) (by omega) (by omega)

/-! ## The free list after the sweep -/

/-- The live entries without a mark, in index order. -/
def unmarked (h : Heap) (marked : Array Bool) (is : List Nat) : List Nat :=
  is.filter fun i => h.liveAt i && !marked.getD i false

/-- The sweep puts the live entries without a mark on the free list and counts them. -/
theorem sweep_eq (marked : Array Bool) (h : Heap) (n : Nat) {is : List Nat} (hnodup : is.Nodup) :
    (is.foldl (sweepOne marked) (h, n)).1.dead = (h.unmarked marked is).reverse ++ h.dead ∧
      (is.foldl (sweepOne marked) (h, n)).2 = n + (h.unmarked marked is).length := by
  induction is generalizing h n with
  | nil => exact ⟨rfl, rfl⟩
  | cons i is ih =>
    obtain ⟨hi, hnodup⟩ := List.nodup_cons.1 hnodup
    -- Sweeping one entry leaves the others to be swept.
    have hrest : (sweepOne marked (h, n) i).1.unmarked marked is = h.unmarked marked is := by
      refine List.filter_congr fun j hj => ?_
      have hne : j ≠ i := fun he => hi (he ▸ hj)
      rw [liveAt, liveAt, getElem?_sweepOne, if_neg hne]
    have hone : (sweepOne marked (h, n) i).1.dead = (h.unmarked marked [i]).reverse ++ h.dead ∧
        (sweepOne marked (h, n) i).2 = n + (h.unmarked marked [i]).length := by
      rw [unmarked, List.filter_cons, liveAt, sweepOne]
      cases h.entries[i]? with
      | none => exact ⟨rfl, rfl⟩
      | some e =>
        rw [Option.any_some]
        dsimp only
        split <;> exact ⟨rfl, rfl⟩
    have hsplit : h.unmarked marked (i :: is) = h.unmarked marked [i] ++ h.unmarked marked is :=
      List.filter_append [i] is
    obtain ⟨hdead, hcount⟩ := ih (sweepOne marked (h, n) i).1 (sweepOne marked (h, n) i).2 hnodup
    rw [List.foldl_cons]
    refine ⟨?_, ?_⟩
    · rw [hdead, hrest, hone.1, hsplit, List.reverse_append, List.append_assoc]
    · rw [hcount, hrest, hone.2, hsplit, List.length_append, Nat.add_assoc]

/-- The live entries that the roots do not lead to. -/
def unreached (h : Heap) (roots : List Value) : List Nat :=
  h.unmarked (h.reachable roots) (List.range h.entries.size)

/-- **A reclaim puts the entries that it frees on the free list.** -/
theorem dead_reclaim (h : Heap) (roots : List Value) :
    (h.reclaim roots).1.dead = (h.unreached roots).reverse ++ h.dead :=
  (sweep_eq _ h 0 List.nodup_range).1

/-- **A reclaim counts the entries that it frees.** -/
theorem count_reclaim (h : Heap) (roots : List Value) :
    (h.reclaim roots).2 = (h.unreached roots).length :=
  (sweep_eq _ h 0 List.nodup_range).2.trans (Nat.zero_add _)

/-! ## Reclaiming is exact -/

/-- The reference to the entry at an index in a generation. -/
def refTo (i : Nat) (e : HeapEntry) : Ref := ⟨UInt32.ofNat i, e.gen⟩

/-- As long as indices have room in a reference, it leads to its entry. -/
theorem get_refTo {i : Nat} {e : HeapEntry} (hsize : h.entries.size < 2 ^ 32)
    (he : h.entries[i]? = some e) (hlive : e.live = true) :
    (refTo i e).index.toNat = i ∧ h.get (refTo i e) = .ok e.value := by
  have hi : (refTo i e).index.toNat = i := by
    obtain ⟨hlt, _⟩ := Array.getElem?_eq_some_iff.1 he
    rw [refTo, UInt32.toNat_ofNat']
    exact Nat.mod_eq_of_lt (Nat.lt_trans hlt hsize)
  obtain ⟨gen, live, value⟩ := e
  obtain rfl : live = true := hlive
  refine ⟨hi, get_eq_ok.2 ?_⟩
  rw [hi]
  exact he

/-- What is left of an arena after a reclaim that says how many entries it freed: the live entries
within reach of the roots are as they were, the other live entries are dead with their next
generation and stand on the free list, and nothing else has changed. -/
structure Reclaims (h : Heap) (roots : List Value) (h' : Heap) (count : Nat) : Prop where
  size : h'.entries.size = h.entries.size
  live_iff : ∀ i, h'.liveAt i = true ↔
    ∃ e, h.entries[i]? = some e ∧ e.live = true ∧ h.Reaches roots (refTo i e)
  survivor : ∀ (i : Nat) (e : HeapEntry), h.entries[i]? = some e → e.live = true →
    h.Reaches roots (refTo i e) → h'.entries[i]? = some e
  casualty : ∀ (i : Nat) (e : HeapEntry), h.entries[i]? = some e → e.live = true →
    ¬ h.Reaches roots (refTo i e) → h'.entries[i]? = some ⟨e.gen + 1, false, .void⟩
  dead : ∀ (i : Nat) (e : HeapEntry), h.entries[i]? = some e → e.live = false →
    h'.entries[i]? = some e
  freed : ∃ died : List Nat, died.Nodup ∧ h'.dead = died ++ h.dead ∧ count = died.length ∧
    ∀ i, i ∈ died ↔ ∃ e, h.entries[i]? = some e ∧ e.live = true ∧ ¬ h.Reaches roots (refTo i e)

/-- What a reclaim leaves of a live entry. -/
theorem getElem?_reclaim_live (roots : List Value) (hsize : h.entries.size < 2 ^ 32) {i : Nat}
    {e : HeapEntry} (he : h.entries[i]? = some e) (hlive : e.live = true) :
    ((h.reachable roots).getD i false = true ↔ h.Reaches roots (refTo i e)) ∧
      (h.reclaim roots).1.entries[i]? = some
        (if (h.reachable roots).getD i false = true then e else ⟨e.gen + 1, false, .void⟩) := by
  obtain ⟨hi, hget⟩ := get_refTo hsize he hlive
  have hmarked : Marked (h.reachable roots) (refTo i e).index.toNat ↔ h.Reaches roots (refTo i e) :=
    marked_reachable_iff ⟨_, hget⟩
  rw [hi, Marked] at hmarked
  refine ⟨hmarked, ?_⟩
  rw [getElem?_reclaim, he, Option.map_some, swept, hlive, Bool.true_and]
  cases (h.reachable roots).getD i false <;> rfl

/-- A reclaim leaves dead entries alone. -/
theorem getElem?_reclaim_dead {i : Nat} {e : HeapEntry} (he : h.entries[i]? = some e)
    (hdead : e.live = false) : (h.reclaim roots).1.entries[i]? = some e := by
  rw [getElem?_reclaim, he, Option.map_some, swept, hdead, Bool.false_and]
  rfl

/-- **An entry is live after a reclaim exactly if it was live and can be reached.** -/
theorem liveAt_reclaim (hsize : h.entries.size < 2 ^ 32) {i : Nat} :
    (h.reclaim roots).1.liveAt i = true ↔
      ∃ e, h.entries[i]? = some e ∧ e.live = true ∧ h.Reaches roots (refTo i e) := by
  rw [liveAt]
  constructor
  · intro hafter
    cases he : h.entries[i]? with
    | none =>
      rw [getElem?_reclaim, he] at hafter
      cases hafter
    | some e =>
      cases hlive : e.live with
      | false =>
        rw [getElem?_reclaim_dead he hlive, Option.any_some, hlive] at hafter
        cases hafter
      | true =>
        obtain ⟨hmarked, hentry⟩ := getElem?_reclaim_live roots hsize he hlive
        refine ⟨e, rfl, hlive, hmarked.1 ?_⟩
        by_contra hno
        rw [hentry, if_neg hno] at hafter
        cases hafter
  · rintro ⟨e, he, hlive, hreach⟩
    obtain ⟨hmarked, hentry⟩ := getElem?_reclaim_live roots hsize he hlive
    rw [hentry, if_pos (hmarked.2 hreach), Option.any_some, hlive]

/-- **The entries that are freed are the live ones that cannot be reached.** -/
theorem mem_unreached (hsize : h.entries.size < 2 ^ 32) {i : Nat} :
    i ∈ h.unreached roots ↔
      ∃ e, h.entries[i]? = some e ∧ e.live = true ∧ ¬ h.Reaches roots (refTo i e) := by
  rw [unreached, unmarked, List.mem_filter, List.mem_range, liveAt, Bool.and_eq_true,
    Bool.not_eq_true', Option.any_eq_true]
  constructor
  · rintro ⟨_, ⟨e, he, hlive⟩, hunmarked⟩
    refine ⟨e, he, hlive, fun hreach => ?_⟩
    rw [(getElem?_reclaim_live roots hsize he hlive).1.2 hreach] at hunmarked
    cases hunmarked
  · rintro ⟨e, he, hlive, hno⟩
    refine ⟨(Array.getElem?_eq_some_iff.1 he).1, ⟨e, he, hlive⟩,
      Bool.eq_false_iff.2 fun hm => hno ?_⟩
    exact (getElem?_reclaim_live roots hsize he hlive).1.1 hm

/-- **Reclaiming is exactly reachability.** In every arena with fewer than 2^32 entries, whatever
refers to what in it, a reclaim frees the live entries that the roots do not lead to and leaves all
else as it was. Reclaiming again frees nothing, and marking ends by itself, however many rounds it
is given. -/
theorem reclaim_exact (h : Heap) (roots : List Value) (hsize : h.entries.size < 2 ^ 32) :
    h.Reclaims roots (h.reclaim roots).1 (h.reclaim roots).2 ∧
      (h.reclaim roots).1.reclaim roots = ((h.reclaim roots).1, 0) ∧
      ∀ rounds, h.entries.size < rounds →
        h.mark rounds (Array.replicate h.entries.size false) (Value.refsAllOnto roots []) =
          h.reachable roots := by
  refine ⟨⟨size_reclaim h roots, fun i => liveAt_reclaim hsize, ?_, ?_, ?_, ?_⟩,
    reclaim_reclaim h roots, ?_⟩
  · intro i e he hlive hreach
    obtain ⟨hmarked, hentry⟩ := getElem?_reclaim_live roots hsize he hlive
    rw [hentry, if_pos (hmarked.2 hreach)]
  · intro i e he hlive hno
    obtain ⟨hmarked, hentry⟩ := getElem?_reclaim_live roots hsize he hlive
    rw [hentry, if_neg fun hm => hno (hmarked.1 hm)]
  · exact fun i e => getElem?_reclaim_dead
  · refine ⟨_, ?_, dead_reclaim h roots, ?_, fun i => List.mem_reverse.trans (mem_unreached hsize)⟩
    · exact List.nodup_reverse.2 (List.nodup_range.filter _)
    · rw [count_reclaim, List.length_reverse]
  · intro rounds hrounds
    have hcount : (Array.replicate h.entries.size false).count false = h.entries.size := by simp
    exact mark_eq_of_lt (by simp) (by omega) (by omega)

/-- Two entries refer to each other within reach, one of them from an array inside its array, and
two do so out of reach; the first also refers to an index that does not exist. -/
def cycleSample : List Operation :=
  [.alloc (.array [.heapRef ⟨1, 0⟩, .heapRef ⟨9, 0⟩]), .alloc (.array [.array [.heapRef ⟨0, 0⟩]]),
    .alloc (.array [.heapRef ⟨3, 0⟩]), .alloc (.array [.heapRef ⟨2, 0⟩]), .alloc (.string [97]),
    .free ⟨4, 0⟩]

/-- What a reclaim leaves of it when the first entry is within reach. -/
def collectedSample : Heap where
  entries := #[⟨0, true, .array [.heapRef ⟨1, 0⟩, .heapRef ⟨9, 0⟩]⟩,
    ⟨0, true, .array [.array [.heapRef ⟨0, 0⟩]]⟩, ⟨1, false, .void⟩, ⟨1, false, .void⟩,
    ⟨1, false, .void⟩]
  dead := [3, 2, 4]

/-- From a root that holds the first entry and a stale reference, the two entries out of reach are
freed, the last one first, and both that are within reach are kept. -/
theorem reclaim_exact_cycleSample : (history {} cycleSample).entries.size < 2 ^ 32 ∧
    (history {} cycleSample).Reclaims [.array [.heapRef ⟨4, 0⟩, .heapRef ⟨0, 0⟩]] collectedSample
      2 := by
  have hsize : (history {} cycleSample).entries.size < 2 ^ 32 := by decide +kernel
  have hrun : (history {} cycleSample).reclaim [.array [.heapRef ⟨4, 0⟩, .heapRef ⟨0, 0⟩]] =
      (collectedSample, 2) := by decide +kernel
  obtain ⟨hexact, _⟩ :=
    reclaim_exact (history {} cycleSample) [.array [.heapRef ⟨4, 0⟩, .heapRef ⟨0, 0⟩]] hsize
  rw [hrun] at hexact
  exact ⟨hsize, hexact⟩

end RegisterMachine.Heap
