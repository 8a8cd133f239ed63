import RegisterMachine.Proofs.Engine.Effect
import RegisterMachine.Proofs.Memory.Generations
import RegisterMachine.Proofs.Memory.Marking

/-!
# Histories of an arena

What is done to an arena is a list of operations (`Heap.Operation`), of which one that fails leaves
it as it was (`Heap.perform`). Along a history the free list stays exact: it names the dead entries
and no others (`Heap.Exact`). The generation of an entry moves on by one whenever it is freed
(`Heap.frees`), so it tells the number of frees up to multiples of 2^32 (`Heap.gen_history`), and a
reference that was handed out is accepted exactly when its entry is in use and the number of frees
since then is such a multiple (`Heap.resolves_history_iff`). Otherwise every operation refuses it as
stale.
-/

namespace RegisterMachine.Heap

variable {h h' : Heap} {r q : Ref} {v : Value} {i : Nat}

/-! ## Operations -/

/-- An operation on an arena. -/
inductive Operation where
  | alloc (v : Value)
  | get (r : Ref)
  | set (r : Ref) (v : Value)
  | update (r : Ref) (change : Value → Except Fault Value)
  | free (r : Ref)
  | reclaim (roots : List Value)

/-- The reference that an operation is given. -/
def Operation.ref? : Operation → Option Ref
  | get r | set r _ | update r _ | free r => some r
  | alloc _ | reclaim _ => none

/-- The arena after an operation; one that fails leaves it as it was. -/
def perform (h : Heap) : Operation → Heap
  | .alloc v => (h.alloc v).1
  | .get _ => h
  | .set r v => (h.set r v).toOption.getD h
  | .update r change => (Thread.updateHeap h r change).toOption.getD h
  | .free r => (h.free r).toOption.getD h
  | .reclaim roots => (h.reclaim roots).1

/-- The arena after some operations, the first one first. -/
def history (h : Heap) (ops : List Operation) : Heap := ops.foldl perform h

@[simp] theorem history_nil (h : Heap) : h.history [] = h := rfl

@[simp] theorem history_cons (h : Heap) (op : Operation) (ops : List Operation) :
    h.history (op :: ops) = (h.perform op).history ops := rfl

/-- Operations in a row are performed one after the other. -/
theorem history_append (h : Heap) (ops ops' : List Operation) :
    h.history (ops ++ ops') = (h.history ops).history ops' := List.foldl_append

/-- **An operation takes an entry, writes one, frees one, reclaims, or changes nothing.** -/
theorem perform_cases (h : Heap) (op : Operation) :
    h.perform op = h ∨ (∃ v, h.perform op = (h.alloc v).1) ∨
      (∃ r v, h.set r v = .ok (h.perform op)) ∨ (∃ r, h.free r = .ok (h.perform op)) ∨ ∃ roots,
        h.perform op = (h.reclaim roots).1 := by
  cases op with
  | alloc v => exact .inr (.inl ⟨v, rfl⟩)
  | get r => exact .inl rfl
  | set r v =>
    cases hs : h.set r v with
    | error e => exact .inl (by rw [perform, hs]; rfl)
    | ok h' => exact .inr (.inr (.inl ⟨r, v, by rw [perform, hs]; rfl⟩))
  | update r change =>
    cases hu : Thread.updateHeap h r change with
    | error e => exact .inl (by rw [perform, hu]; rfl)
    | ok h' =>
      obtain ⟨c, c', _, _, hs⟩ := Thread.updateHeap_eq_ok hu
      exact .inr (.inr (.inl ⟨r, c', by rw [perform, hu]; exact hs⟩))
  | free r =>
    cases hf : h.free r with
    | error e => exact .inl (by rw [perform, hf]; rfl)
    | ok h' => exact .inr (.inr (.inr (.inl ⟨r, by rw [perform, hf]; rfl⟩)))
  | reclaim roots => exact .inr (.inr (.inr (.inr ⟨roots, rfl⟩)))

/-- An operation turns every entry over at most once. -/
theorem turns_perform (h : Heap) (op : Operation) : h.Turns (h.perform op) := by
  rcases h.perform_cases op with he | ⟨v, he⟩ | ⟨r, v, hs⟩ | ⟨r, hf⟩ | ⟨roots, he⟩
  · rw [he]
    exact .refl h
  · rw [he]
    exact (gains_alloc h v).turns
  · exact (gains_set hs).turns
  · exact turns_free hf
  · rw [he]
    exact turns_reclaim h roots

/-- There are no fewer entries after some operations. -/
theorem size_le_history (h : Heap) (ops : List Operation) :
    h.entries.size ≤ (h.history ops).entries.size := by
  induction ops generalizing h with
  | nil => exact Nat.le_refl _
  | cons op ops ih => exact Nat.le_trans (turns_perform h op).size_le (ih _)

/-- An operation keeps a heap well formed. -/
theorem WellFormed.perform (hw : h.WellFormed) (op : Operation) : (h.perform op).WellFormed := by
  rcases h.perform_cases op with he | ⟨v, he⟩ | ⟨r, v, hs⟩ | ⟨r, hf⟩ | ⟨roots, he⟩
  · rw [he]
    exact hw
  · rw [he]
    exact hw.alloc v
  · exact hw.set hs
  · exact hw.free hf
  · rw [he]
    exact hw.reclaim roots

/-! ## Operations on other entries -/

/-- The operation takes an entry, or is given a reference with the property. -/
def Operation.Within (refs : Ref → Prop) (op : Operation) : Prop :=
  (∃ v, op = .alloc v) ∨ ∃ r, op.ref? = some r ∧ refs r

/-- **An operation that is given another reference** leaves an entry in use as it is. -/
theorem get_perform (hw : h.WellFormed) {op : Operation} (hop : op.Within (· ≠ q))
    (hq : h.get q = .ok v) : (h.perform op).get q = .ok v := by
  have hset : ∀ {r x h'}, r ≠ q → h.set r x = .ok h' → h'.get q = .ok v :=
    fun hne hs => (get_set hs).2 (.inr ⟨Ne.symm hne, hq⟩)
  obtain ⟨x, rfl⟩ | ⟨r, hr, hne⟩ := hop
  · exact get_eq_ok.2 (hw.keeps_alloc x _ _ (get_eq_ok.1 hq) rfl)
  · cases op with
    | alloc | reclaim => cases hr
    | get => exact hq
    | set r x =>
      cases hr
      cases hs : h.set r x with
      | error e => rwa [perform, hs]
      | ok h' =>
        rw [perform, hs]
        exact hset hne hs
    | update r change =>
      cases hr
      cases hu : Thread.updateHeap h r change with
      | error e => rwa [perform, hu]
      | ok h' =>
        obtain ⟨c, c', _, _, hs⟩ := Thread.updateHeap_eq_ok hu
        rw [perform, hu]
        exact hset hne hs
    | free r =>
      cases hr
      cases hf : h.free r with
      | error e => rwa [perform, hf]
      | ok h' =>
        rw [perform, hf]
        exact (get_free hf).2 ⟨Ne.symm hne, hq⟩

/-- **A history that is given other references** leaves an entry in use as it is. -/
theorem get_history (hw : h.WellFormed) {ops : List Operation}
    (hops : ∀ op ∈ ops, op.Within (· ≠ q)) (hq : h.get q = .ok v) :
    (h.history ops).get q = .ok v := by
  induction ops generalizing h with
  | nil => exact hq
  | cons op ops ih =>
    obtain ⟨hop, hops⟩ := List.forall_mem_cons.1 hops
    exact ih (hw.perform op) hops (get_perform hw hop hq)

/-! ## The free list -/

/-- The free list names the dead entries, each once, and no others. -/
structure Exact (h : Heap) : Prop where
  wellFormed : h.WellFormed
  listed : ∀ (i : Nat) (e : HeapEntry), h.entries[i]? = some e → e.live = false → i ∈ h.dead

/-- The free list of an empty heap is exact. -/
theorem Exact.empty : Exact {} := ⟨.empty, fun i e he => by simp at he⟩

/-- Allocating keeps the free list exact. -/
theorem Exact.alloc (hx : h.Exact) (v : Value) : (h.alloc v).1.Exact := by
  refine ⟨hx.wellFormed.alloc v, fun j e he hdead => ?_⟩
  have hlisted := hx.listed j
  unfold Heap.alloc at he ⊢
  cases hd : h.dead with
  | nil =>
    rw [hd] at he hlisted
    dsimp only at he
    rw [Array.getElem?_push] at he
    split at he
    · cases he
      cases hdead
    · cases hlisted e he hdead
  | cons i rest =>
    rw [hd] at he hlisted
    dsimp only at he ⊢
    rw [Array.getElem?_setIfInBounds] at he
    split at he
    · split at he
      · cases he
        cases hdead
      · cases he
    · next hne => exact (List.mem_cons.1 (hlisted e he hdead)).resolve_left (Ne.symm hne)

/-- Writing keeps the free list exact. -/
theorem Exact.set (hx : h.Exact) (hs : h.set r v = .ok h') : h'.Exact := by
  refine ⟨hx.wellFormed.set hs, fun j e he hdead => ?_⟩
  obtain ⟨_, rfl⟩ := set_eq_ok.1 hs
  dsimp only at he ⊢
  rw [Array.getElem?_setIfInBounds] at he
  split at he
  · split at he
    · cases he
      cases hdead
    · cases he
  · exact hx.listed j e he hdead

/-- An entry that is killed is put on the free list. -/
theorem Exact.kill (hx : h.Exact) {e : HeapEntry} (he : h.entries[i]? = some e)
    (hlive : e.live = true) (gen : UInt32) :
    Exact ⟨h.entries.setIfInBounds i ⟨gen, false, .void⟩, i :: h.dead⟩ := by
  refine ⟨hx.wellFormed.kill he hlive gen, fun j e' he' hdead => ?_⟩
  dsimp only at he' ⊢
  rw [Array.getElem?_setIfInBounds] at he'
  split at he'
  · next hij => exact hij ▸ List.mem_cons_self
  · exact List.mem_cons_of_mem i (hx.listed j e' he' hdead)

/-- Freeing keeps the free list exact. -/
theorem Exact.free (hx : h.Exact) (hf : h.free r = .ok h') : h'.Exact := by
  obtain ⟨⟨w, hr⟩, rfl⟩ := free_eq_ok.1 hf
  exact hx.kill (get_eq_ok.1 hr) rfl _

/-- A reclaim keeps the free list exact. -/
theorem Exact.reclaim (hx : h.Exact) (roots : List Value) : (h.reclaim roots).1.Exact :=
  reclaim_induction (fun hx he hlive => hx.kill he hlive _) hx roots

/-- Every operation keeps the free list exact. -/
theorem Exact.perform (hx : h.Exact) (op : Operation) : (h.perform op).Exact := by
  rcases h.perform_cases op with he | ⟨v, he⟩ | ⟨r, v, hs⟩ | ⟨r, hf⟩ | ⟨roots, he⟩
  · rw [he]
    exact hx
  · rw [he]
    exact hx.alloc v
  · exact hx.set hs
  · exact hx.free hf
  · rw [he]
    exact hx.reclaim roots

/-- **Whatever is done, the free list stays exact.** -/
theorem Exact.history (hx : h.Exact) (ops : List Operation) : (h.history ops).Exact := by
  induction ops generalizing h with
  | nil => exact hx
  | cons op ops ih => exact ih (hx.perform op)

/-- The free list names an index exactly if its entry is dead. -/
theorem Exact.mem_dead (hx : h.Exact) :
    i ∈ h.dead ↔ ∃ e, h.entries[i]? = some e ∧ e.live = false :=
  ⟨hx.wellFormed.dead i, fun ⟨e, he, hdead⟩ => hx.listed i e he hdead⟩

/-- Counting the places of a list where something holds counts the elements of which it does. -/
theorem countP_range_getElem? {α : Type} (p : α → Bool) (xs : List α) :
    (List.range xs.length).countP (fun i => xs[i]?.any p) = xs.countP p := by
  induction xs with
  | nil => rfl
  | cons x xs ih =>
    rw [List.length_cons, List.range_succ_eq_map, List.countP_cons, List.countP_map,
      List.countP_cons, ← ih]
    rfl

/-- The entries that are not on the free list are the live ones. -/
theorem Exact.live_eq (hx : h.Exact) : h.live = h.entries.countP (·.live) := by
  have hperm : h.dead.Perm ((List.range h.entries.size).filter fun i =>
      h.entries[i]?.any (!·.live)) := by
    refine (List.perm_ext_iff_of_nodup hx.wellFormed.nodup (List.nodup_range.filter _)).2 ?_
    intro i
    rw [hx.mem_dead, List.mem_filter, List.mem_range, Option.any_eq_true]
    simp only [Bool.not_eq_true']
    refine ⟨fun ⟨e, he, hdead⟩ => ⟨?_, e, he, hdead⟩, fun hi => hi.2⟩
    exact (Array.getElem?_eq_some_iff.1 he).1
  have hdead : h.dead.length = h.entries.toList.countP (!·.live) := by
    rw [hperm.length_eq, ← List.countP_eq_length_filter,
      ← countP_range_getElem? (fun e : HeapEntry => !e.live) h.entries.toList]
    simp only [Array.length_toList, Array.getElem?_toList]
  have hall :=
    List.length_eq_countP_add_countP (fun e : HeapEntry => e.live) (l := h.entries.toList)
  simp only [Bool.not_eq_true, Bool.decide_eq_false, Array.length_toList] at hall
  rw [live, hdead, hall, ← Array.countP_toList]
  exact Nat.add_sub_cancel _ _

/-! ## Generations -/

/-- Whether there is an entry in use at an index. -/
def liveAt (h : Heap) (i : Nat) : Bool := h.entries[i]?.any (·.live)

/-- How often an entry is freed in the course of some operations, by itself or in a reclaim. -/
def frees (h : Heap) (i : Nat) : List Operation → Nat
  | [] => 0
  | op :: ops => (h.freesAt (h.perform op) i).toNat + (h.perform op).frees i ops

/-- An entry is freed in a row of operations as often as in their parts. -/
theorem frees_append (h : Heap) (i : Nat) (ops ops' : List Operation) :
    h.frees i (ops ++ ops') = h.frees i ops + (h.history ops).frees i ops' := by
  induction ops generalizing h with
  | nil => exact (Nat.zero_add _).symm
  | cons op ops ih => rw [List.cons_append, frees, frees, ih, history_cons, Nat.add_assoc]

/-- An entry that turns over gets its next generation when it dies, and only then. -/
theorem Turns.gen_eq (ht : h.Turns h') {e : HeapEntry} (he : h.entries[i]? = some e) :
    ∃ e', h'.entries[i]? = some e' ∧ e'.gen = e.gen + UInt32.ofNat (h.freesAt h' i).toNat := by
  have hfrees : h.freesAt h' i = (h.entries[i]?.any (·.live) && !h'.entries[i]?.any (·.live)) := rfl
  have hturn := ht i
  rw [he] at hturn hfrees
  generalize h.freesAt h' i = frees at hfrees ⊢
  generalize h'.entries[i]? = o' at hturn hfrees ⊢
  rcases hturn with hstays | hdies
  · cases hstays with
    | @kept _ e' hgen hlive =>
      have hnone : frees = false := by
        rw [hfrees, Option.any_some, Option.any_some]
        cases hl : e.live with
        | false => rfl
        | true =>
          rw [hlive hl]
          rfl
      refine ⟨e', rfl, ?_⟩
      rw [hnone, hgen]
      exact (UInt32.add_zero _).symm
  · cases hdies with
    | @mk _ e' hlive hdead hgen =>
      refine ⟨e', rfl, ?_⟩
      rw [hfrees, Option.any_some, Option.any_some, hlive, hdead]
      exact hgen

/-- **The generation of an entry tells how often it was freed**, up to multiples of 2^32. -/
theorem gen_history (ops : List Operation) {e : HeapEntry} (he : h.entries[i]? = some e) :
    ∃ e', (h.history ops).entries[i]? = some e' ∧
      e'.gen = e.gen + UInt32.ofNat (h.frees i ops) := by
  induction ops generalizing h e with
  | nil => exact ⟨e, he, (UInt32.add_zero _).symm⟩
  | cons op ops ih =>
    obtain ⟨e₁, he₁, hgen₁⟩ := (turns_perform h op).gen_eq he
    obtain ⟨e₂, he₂, hgen₂⟩ := ih he₁
    refine ⟨e₂, he₂, ?_⟩
    rw [hgen₂, hgen₁, frees, UInt32.ofNat_add, UInt32.add_assoc]

/-- The word of a number is zero exactly if the number is a multiple of 2^32. -/
theorem ofNat_eq_zero_iff (n : Nat) : UInt32.ofNat n = 0 ↔ 2 ^ 32 ∣ n := by
  rw [← UInt32.toNat_inj, UInt32.toNat_ofNat', UInt32.toNat_zero]
  exact (Nat.dvd_iff_mod_eq_zero ..).symm

/-- **A reference that resolved once resolves exactly when its entry is in use again and was freed a
multiple of 2^32 times since.** -/
theorem resolves_history_iff (hr : h.Resolves r) (ops : List Operation) :
    (h.history ops).Resolves r ↔
      (h.history ops).liveAt r.index.toNat = true ∧ 2 ^ 32 ∣ h.frees r.index.toNat ops := by
  obtain ⟨v, hv⟩ := hr
  obtain ⟨e, he, hgen⟩ := gen_history ops (get_eq_ok.1 hv)
  rw [← ofNat_eq_zero_iff, liveAt, he, Option.any_some]
  constructor
  · rintro ⟨w, hw⟩
    rw [get_eq_ok, he] at hw
    cases hw
    exact ⟨rfl, UInt32.add_eq_left.1 hgen.symm⟩
  · rintro ⟨hlive, hzero⟩
    rw [hzero, UInt32.add_zero] at hgen
    obtain ⟨gen, live, value⟩ := e
    obtain rfl : gen = r.gen := hgen
    obtain rfl : live = true := hlive
    exact ⟨value, get_eq_ok.2 he⟩

/-! ## References -/

/-- The operations on a reference find an entry; an update then comes to what is made of its
value. -/
structure Accepts (h : Heap) (r : Ref) : Prop where
  get : ∃ v, h.get r = .ok v ∧ ∀ change,
    Thread.updateHeap h r change = (change v).bind fun c => (h.set r c).mapError .memory
  set : ∀ v, ∃ h', h.set r v = .ok h'
  free : ∃ h', h.free r = .ok h'

/-- The operations on a reference fail because it is stale, and leave the arena as it was. -/
structure Refuses (h : Heap) (r : Ref) : Prop where
  get : h.get r = .error (.stale r)
  set : ∀ v, h.set r v = .error (.stale r)
  update : ∀ change, Thread.updateHeap h r change = .error (.memory (.stale r))
  free : h.free r = .error (.stale r)
  unchanged : ∀ op : Operation, op.ref? = some r → h.perform op = h

/-- The operations on a reference find an entry exactly if it resolves. -/
theorem accepts_iff : h.Accepts r ↔ h.Resolves r := by
  refine ⟨fun ⟨⟨v, hv, _⟩, _, _⟩ => ⟨v, hv⟩,
    fun ⟨v, hv⟩ => ⟨⟨v, hv, fun change => ?_⟩, fun w => ?_, ?_⟩⟩
  · rw [Thread.updateHeap, hv]
    rfl
  · exact ⟨_, set_eq_ok.2 ⟨⟨v, hv⟩, rfl⟩⟩
  · exact ⟨_, free_eq_ok.2 ⟨⟨v, hv⟩, rfl⟩⟩

/-- What is stale for reading is so for every operation. -/
theorem refuses_of_get (hr : h.get r = .error (.stale r)) : h.Refuses r := by
  have hset : ∀ v, h.set r v = .error (.stale r) := fun v => by rw [Heap.set, hr]
  have hupdate : ∀ change, Thread.updateHeap h r change = .error (.memory (.stale r)) :=
    fun change => by
    rw [Thread.updateHeap, hr]
    rfl
  have hfree : h.free r = .error (.stale r) := by rw [Heap.free, hr]
  refine ⟨hr, hset, hupdate, hfree, fun op hop => ?_⟩
  cases op with
  | alloc | reclaim => cases hop
  | get => rfl
  | set q v =>
    cases hop
    rw [perform, hset]
    rfl
  | update q change =>
    cases hop
    rw [perform, hupdate]
    rfl
  | free q =>
    cases hop
    rw [perform, hfree]
    rfl

/-- A reference that resolved once is accepted or refused as stale ever after. -/
theorem accepts_or_refuses (hr : h.Resolves r) (ops : List Operation) :
    (h.history ops).Accepts r ∨ (h.history ops).Refuses r := by
  cases hget : (h.history ops).get r with
  | ok v => exact .inl (accepts_iff.2 ⟨v, hget⟩)
  | error e =>
    obtain ⟨v, hv⟩ := hr
    obtain ⟨e', he', _⟩ := gen_history ops (get_eq_ok.1 hv)
    refine .inr (refuses_of_get (hget.trans ?_))
    rw [Heap.get, he'] at hget
    dsimp only at hget
    split at hget
    · cases hget
    · cases hget
      rfl

/-- A new value takes the place of no live one. -/
theorem Exact.liveAt_alloc (hx : h.Exact) (hsize : h.entries.size < 2 ^ 32) (v : Value) :
    h.liveAt (h.alloc v).2.index.toNat = false := by
  obtain ⟨i, gen, href, hi, hdead, _⟩ := hx.wellFormed.alloc_entry v
  have hle : (h.alloc v).1.entries.size ≤ h.entries.size + 1 := by
    unfold Heap.alloc
    split <;> simp
  have hindex : (h.alloc v).2.index.toNat = i := by
    rw [href, UInt32.toNat_ofNat']
    exact Nat.mod_eq_of_lt (by omega)
  rw [hindex, liveAt, Option.any_eq_false]
  intro e he
  simp [hdead e he]

/-- An entry that was in use and no longer is was freed. -/
theorem frees_pos (ops : List Operation) (hlive : h.liveAt i = true)
    (hdead : (h.history ops).liveAt i = false) : 0 < h.frees i ops := by
  induction ops generalizing h with
  | nil =>
    rw [history_nil, hlive] at hdead
    cases hdead
  | cons op ops ih =>
    rw [frees]
    cases hmid : (h.perform op).liveAt i with
    | true => exact Nat.add_pos_right _ (ih hmid hdead)
    | false =>
      have hfreed : h.freesAt (h.perform op) i = (h.liveAt i && !(h.perform op).liveAt i) := rfl
      rw [hfreed, hlive, hmid]
      exact Nat.add_pos_left Nat.one_pos _

/-- The entry of a reference that resolves is in use. -/
theorem Resolves.liveAt (hr : h.Resolves r) : h.liveAt r.index.toNat = true := by
  obtain ⟨v, hv⟩ := hr
  rw [Heap.liveAt, get_eq_ok.1 hv, Option.any_some]

/-- **A freed reference is refused until its entry has been freed 2^32 times**, its own time
counted. -/
theorem refuses_of_freed {op : Operation} (hr : h.Resolves r) (hfreed : ¬ (h.perform op).Resolves r)
    (ops : List Operation) (hlt : h.frees r.index.toNat (op :: ops) < 2 ^ 32) :
    (h.history (op :: ops)).Refuses r := by
  refine (accepts_or_refuses hr (op :: ops)).resolve_left fun haccepts => hfreed ?_
  obtain ⟨_, hdvd⟩ := (resolves_history_iff hr _).1 (accepts_iff.1 haccepts)
  have hzero := Nat.eq_zero_of_dvd_of_lt hdvd hlt
  rw [frees, Nat.add_eq_zero_iff] at hzero
  -- nothing was freed by the operation, so the entry is still in use
  refine (resolves_history_iff hr [op]).2 ⟨?_, ?_⟩
  · by_contra hdead
    have hpos := frees_pos [op] hr.liveAt (Bool.eq_false_iff.2 hdead)
    rw [frees, hzero.1] at hpos
    exact Nat.lt_irrefl 0 hpos
  · rw [frees, hzero.1]
    exact Nat.dvd_zero _

/-- **A reference is not handed out again until its entry has been freed 2^32 times.** -/
theorem alloc_ne_of_resolves (hx : h.Exact) (hr : h.Resolves r) (ops : List Operation) (w : Value)
    (hsize : ((h.history ops).alloc w).1.entries.size < 2 ^ 32)
    (hlt : h.frees r.index.toNat ops < 2 ^ 32) : r ≠ ((h.history ops).alloc w).2 := by
  rintro rfl
  generalize hq : ((h.history ops).alloc w).2 = r at hr hlt
  have hx' := hx.history ops
  have hdead : (h.history ops).liveAt r.index.toNat = false :=
    hq ▸ hx'.liveAt_alloc (Nat.lt_of_le_of_lt (gains_alloc _ w).turns.size_le hsize) w
  have hagain : (h.history (ops ++ [.alloc w])).Resolves r := by
    rw [history_append, ← hq]
    exact ⟨w, (get_alloc hx'.wellFormed hsize).2 (.inl ⟨rfl, rfl⟩)⟩
  obtain ⟨_, hdvd⟩ := (resolves_history_iff hr _).1 hagain
  have hlast : (h.history ops).frees r.index.toNat [.alloc w] = 0 := by
    have hfreed : (h.history ops).freesAt ((h.history ops).perform (.alloc w)) r.index.toNat =
        ((h.history ops).liveAt r.index.toNat && !((h.history ops).perform (.alloc w)).liveAt _) :=
      rfl
    rw [frees, hfreed, hdead]
    rfl
  rw [frees_append, hlast, Nat.add_zero] at hdvd
  have hpos := frees_pos ops hr.liveAt hdead
  exact Nat.not_le_of_lt hlt (Nat.le_of_dvd hpos hdvd)

/-- **Generations are checked exactly.** In every history of a new arena that keeps fewer than 2^32
entries, the free list names the dead entries, each once, and no others, so that the live ones are
counted right and a new value never gets the place of a live one. A reference that was handed out is
accepted when its entry is in use and was freed a multiple of 2^32 times since, and refused as stale
otherwise. So a freed reference is refused as long as its entry was freed fewer than 2^32 times from
then on, and no reference is handed out twice before that. -/
theorem generation_check_exact (ops : List Operation)
    (hsize : (history {} ops).entries.size < 2 ^ 32) :
    ((history {} ops).dead.Nodup ∧
      (∀ i, i ∈ (history {} ops).dead ↔
        ∃ e, (history {} ops).entries[i]? = some e ∧ e.live = false) ∧
      (history {} ops).live = (history {} ops).entries.countP (·.live) ∧
      ∀ v, (history {} ops).liveAt ((history {} ops).alloc v).2.index.toNat = false) ∧
    (∀ pre v post, ops = pre ++ .alloc v :: post → ∀ r, r = ((history {} pre).alloc v).2 →
      ((history {} ops).Accepts r ↔ (history {} ops).liveAt r.index.toNat = true ∧
        2 ^ 32 ∣ (history {} (pre ++ [.alloc v])).frees r.index.toNat post) ∧
      (¬ (history {} ops).Accepts r → (history {} ops).Refuses r)) ∧
    (∀ pre op post, ops = pre ++ op :: post → ∀ r, (history {} pre).Resolves r →
      ¬ ((history {} pre).perform op).Resolves r →
      (history {} pre).frees r.index.toNat (op :: post) < 2 ^ 32 → (history {} ops).Refuses r) ∧
    ∀ pre v mid w post, ops = pre ++ .alloc v :: (mid ++ .alloc w :: post) →
      (history {} (pre ++ [.alloc v])).frees ((history {} pre).alloc v).2.index.toNat mid < 2 ^ 32 →
      ((history {} pre).alloc v).2 ≠ ((history {} (pre ++ .alloc v :: mid)).alloc w).2 := by
  have hx := Exact.empty.history ops
  -- a reference resolves right after it was handed out
  have hissued : ∀ pre v post, ops = pre ++ .alloc v :: post →
      (history {} (pre ++ [.alloc v])).Resolves ((history {} pre).alloc v).2 := by
    rintro pre v post rfl
    rw [history_append]
    refine ⟨v, (get_alloc (Exact.empty.history pre).wellFormed ?_).2 (.inl ⟨rfl, rfl⟩)⟩
    rw [history_append, history_cons] at hsize
    exact Nat.lt_of_le_of_lt (size_le_history _ post) hsize
  refine ⟨⟨hx.wellFormed.nodup, fun i => hx.mem_dead, hx.live_eq, hx.liveAt_alloc hsize⟩,
    ?_, ?_, ?_⟩
  · rintro pre v post rfl r rfl
    have hr := hissued pre v post rfl
    have hsplit : history {} (pre ++ .alloc v :: post) =
        (history {} (pre ++ [.alloc v])).history post := by
      rw [← history_append, List.append_assoc, List.singleton_append]
    rw [hsplit]
    exact ⟨accepts_iff.trans (resolves_history_iff hr post),
      (accepts_or_refuses hr post).resolve_left⟩
  · rintro pre op post rfl r hr hfreed hlt
    rw [history_append]
    exact refuses_of_freed hr hfreed post hlt
  · rintro pre v mid w post rfl hlt
    have hr := hissued pre v (mid ++ .alloc w :: post) rfl
    have hsplit : history {} (pre ++ .alloc v :: mid) =
        (history {} (pre ++ [.alloc v])).history mid := by
      rw [← history_append, List.append_assoc, List.singleton_append]
    rw [hsplit]
    refine alloc_ne_of_resolves (Exact.empty.history _) hr mid w ?_ hlt
    have hall : history {} (pre ++ .alloc v :: (mid ++ .alloc w :: post)) =
        (((history {} (pre ++ .alloc v :: mid)).alloc w).1).history post := by
      rw [← List.cons_append, ← List.append_assoc, history_append, history_cons]
      rfl
    rw [hall, hsplit] at hsize
    exact Nat.lt_of_le_of_lt (size_le_history _ post) hsize

/-- The first reference of this history is freed in the middle, and its entry is taken again. -/
def reuseSample : List Operation :=
  [.alloc (.string [97]), .alloc (.array []), .free ⟨0, 0⟩, .alloc (.array []),
    .reclaim [.heapRef ⟨0, 1⟩]]

/-- At the end of `reuseSample` the reference that was freed is refused and the one that took its
place is accepted. -/
theorem generation_check_exact_reuseSample :
    (history {} reuseSample).entries.size < 2 ^ 32 ∧ (history {} reuseSample).Refuses ⟨0, 0⟩ ∧
      (history {} reuseSample).Accepts ⟨0, 1⟩ ∧ (history {} reuseSample).live = 1 := by
  have hsize : (history {} reuseSample).entries.size < 2 ^ 32 := by decide +kernel
  obtain ⟨_, hissued, hfreed, _⟩ := generation_check_exact reuseSample hsize
  have hfirst : (history {} [.alloc (.string [97]), .alloc (.array [])]).Resolves ⟨0, 0⟩ :=
    ⟨.string [97], by decide +kernel⟩
  refine ⟨hsize, ?_, ?_, by decide +kernel⟩
  · refine hfreed [.alloc (.string [97]), .alloc (.array [])] (.free ⟨0, 0⟩) _ rfl ⟨0,
      0⟩ hfirst ?_ ?_
    · rintro ⟨w, hw⟩
      cases hw
    · decide +kernel
  · refine (hissued [.alloc (.string [97]), .alloc (.array []), .free ⟨0, 0⟩] (.array [])
      _ rfl ⟨0, 1⟩ (by decide +kernel)).1.2 ⟨by decide +kernel, by decide +kernel⟩

end RegisterMachine.Heap
