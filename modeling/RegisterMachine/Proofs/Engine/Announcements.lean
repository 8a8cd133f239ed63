import RegisterMachine.Proofs.Engine.ProfilerTally

/-!
# Announcements of hot functions

A call is recorded by operations that others can pass between (`Profiler.perform`).
`Profiler.Announces` is what every operation keeps of the announcements
(`Profiler.Announces.perform`): a hot function has exactly one, made or still to be made, and every
count that is announced, or may yet be, has reached the threshold.
-/

namespace RegisterMachine

/-- The operations that have yet to announce a function. -/
def ProfilerOp.heralds (hash : UInt64) : ProfilerOp → Bool
  | .announce h _ => h == hash
  | _ => false

/-- The function that an operation is about. -/
def ProfilerOp.hash? : ProfilerOp → Option UInt64
  | .count _ => none
  | .lookUp hash | .increment hash | .mark hash _ | .announce hash _ => some hash

/-- How many operations a call takes at most from an operation on. -/
def ProfilerOp.turns : ProfilerOp → Nat
  | .lookUp _ => 4
  | .increment _ => 3
  | .mark .. => 2
  | .announce .. | .count _ => 1

@[simp] theorem ProfilerOp.heralds_announce (h h' : UInt64) (n : Nat) :
    (announce h' n).heralds h = (h' == h) := rfl

/-- An operation that announces nothing does not announce a function. -/
theorem ProfilerOp.heralds_of_quiet {op : ProfilerOp} (h : op.announces = false) (hash : UInt64) :
    op.heralds hash = false := by
  cases op with
  | announce => cases h
  | _ => rfl

/-- What an operation announces is the function that it is about. -/
theorem ProfilerOp.heralds_eq {op : ProfilerOp} {hash : UInt64} (h : op.hash? = some hash)
    (hash' : UInt64) : op.heralds hash' = (op.announces && hash == hash') := by
  cases op with
  | count => cases h
  | lookUp | increment | mark => rfl
  | announce => cases h; rfl

namespace Profiler

variable {p₀ p q : Profiler} {es : List ProfilerEvent} {op next : ProfilerOp}
  {ops ops' : List ProfilerOp}

/-- What has to follow an operation goes on with the same call and brings it closer to its end. -/
theorem perform_next (h : (p.perform op).2 = some next) :
    op.announces = false ∧ next.hash? = op.hash? ∧ next.turns < op.turns := by
  cases op with
  | count | announce => cases h
  | lookUp hash => cases h; exact ⟨rfl, rfl, Nat.lt_succ_self _⟩
  | increment hash =>
    simp only [perform, Option.ite_none_right_eq_some, Option.some.injEq] at h
    obtain ⟨_, rfl⟩ := h
    exact ⟨rfl, rfl, Nat.lt_succ_self _⟩
  | mark hash n =>
    cases hb : p.isHot hash with
    | true => rw [perform_mark_of_hot hb] at h; cases h
    | false =>
      rw [perform_mark_of_cold hb] at h
      cases h
      exact ⟨rfl, rfl, Nat.lt_succ_self _⟩

/-- Only an announcement counts a hot function. -/
theorem hotCount_perform (p : Profiler) (op : ProfilerOp) :
    (p.perform op).1.hotCount = p.hotCount + op.announces.toNat := by
  cases op with
  | count | increment | announce => rfl
  | lookUp => simp only [perform]; split <;> rfl
  | mark => simp only [perform]; split <;> rfl

/-- A recorded call counts a hot function if it made its function hot. -/
theorem hotCount_recordCall (p : Profiler) (hash : UInt64) :
    (p.recordCall hash).1.hotCount = p.hotCount + (p.recordCall hash).2.toNat := by
  unfold recordCall
  dsimp only
  split <;> rfl

/-- Only an announcement adds to what has been announced. -/
theorem count_announced_perform (p : Profiler) (op : ProfilerOp) (hash : UInt64) :
    ((p.perform op).1.announced.map (·.hash)).count hash =
      (p.announced.map (·.hash)).count hash + if op.heralds hash then 1 else 0 := by
  cases op with
  | count | increment => rfl
  | lookUp => simp only [perform]; split <;> rfl
  | mark => simp only [perform]; split <;> rfl
  | announce => exact List.count_cons

/-! ## Announcements -/

/-- A count that a function has had and that makes it hot. -/
structure Reached (p : Profiler) (hash : UInt64) (n : Nat) : Prop where
  threshold : p.threshold ≤ n
  calls : n ≤ p.calls hash

/-- How the announcements of a profiler stand when the operations `ops` are still to be carried
out. -/
structure Announces (ops : List ProfilerOp) (p : Profiler) : Prop where
  /-- A hot function has one announcement, made or to be made, and others have none. -/
  once : ∀ hash, (p.announced.map (·.hash)).count hash + ops.countP (·.heralds hash) =
    if p.isHot hash then 1 else 0
  marks : ∀ hash n, .mark hash n ∈ ops → p.Reached hash n
  announces : ∀ hash n, .announce hash n ∈ ops → p.Reached hash n
  announced : ∀ f ∈ p.announced, f.hot = true ∧ p.Reached f.hash f.count

/-- A function that has been called often enough stays so while its calls do not become fewer. -/
theorem Reached.mono {hash : UInt64} {n : Nat} (h : p.Reached hash n)
    (hthreshold : q.threshold = p.threshold) (hcalls : p.calls hash ≤ q.calls hash) :
    q.Reached hash n :=
  ⟨hthreshold ▸ h.threshold, Nat.le_trans h.calls hcalls⟩

namespace Announces

/-- The order of the operations does not matter. -/
theorem perm (h : p.Announces ops) (hops : ops.Perm ops') : p.Announces ops' := by
  refine ⟨fun hash => ?_, fun hash n hmem => ?_, fun hash n hmem => ?_, h.announced⟩
  · rw [← hops.countP_eq]; exact h.once hash
  · exact h.marks hash n (hops.mem_iff.2 hmem)
  · exact h.announces hash n (hops.mem_iff.2 hmem)

/-- Operations that announce nothing can be dropped. -/
theorem tail (h : p.Announces (op :: ops)) (hquiet : op.announces = false) : p.Announces ops := by
  refine ⟨fun hash => ?_, fun hash n hmem => ?_, fun hash n hmem => ?_, h.announced⟩
  · have honce := h.once hash
    rwa [List.countP_cons_of_neg (by simp [ProfilerOp.heralds_of_quiet hquiet])] at honce
  · exact h.marks hash n (List.mem_cons_of_mem _ hmem)
  · exact h.announces hash n (List.mem_cons_of_mem _ hmem)

/-- Operations that announce nothing can be added, if what they make hot has reached the
threshold. -/
theorem cons (h : p.Announces ops) (hquiet : op.announces = false)
    (hmark : ∀ hash n, op = .mark hash n → p.Reached hash n) : p.Announces (op :: ops) := by
  refine ⟨fun hash => ?_, fun hash n hmem => ?_, fun hash n hmem => ?_, h.announced⟩
  · rw [List.countP_cons_of_neg (by simp [ProfilerOp.heralds_of_quiet hquiet])]
    exact h.once hash
  · rcases List.mem_cons.1 hmem with heq | hold
    · exact hmark hash n heq.symm
    · exact h.marks hash n hold
  · rcases List.mem_cons.1 hmem with rfl | hold
    · cases hquiet
    · exact h.announces hash n hold

/-- The announcements stay as they are while functions are called and none becomes hot. -/
theorem called (h : p.Announces ops) (hthreshold : q.threshold = p.threshold)
    (hannounced : q.announced = p.announced) (hcalls : ∀ hash, p.calls hash ≤ q.calls hash)
    (hhot : ∀ hash, q.isHot hash = p.isHot hash) : q.Announces ops := by
  refine ⟨fun hash => ?_, fun hash n hmem => ?_, fun hash n hmem => ?_, fun f hf => ?_⟩
  · rw [hannounced, hhot]
    exact h.once hash
  · exact (h.marks hash n hmem).mono hthreshold (hcalls hash)
  · exact (h.announces hash n hmem).mono hthreshold (hcalls hash)
  · rw [hannounced] at hf
    obtain ⟨hot, hreached⟩ := h.announced f hf
    exact ⟨hot, hreached.mono hthreshold (hcalls f.hash)⟩

/-- Nothing is announced of a new profiler whose calls have yet to be looked up. -/
theorem start (threshold : Nat) (hashes : List UInt64) :
    ({ threshold } : Profiler).Announces (hashes.map .lookUp) := by
  induction hashes with
  | nil =>
    refine ⟨fun hash => rfl, fun hash n hmem => ?_, fun hash n hmem => ?_, fun f hf => ?_⟩
    · cases hmem
    · cases hmem
    · cases hf
  | cons hash hashes ih =>
    refine ih.cons rfl fun h' n heq => ?_
    cases heq

/-- Counting an instruction. -/
theorem performCount {n : Nat} (h : p.Announces (.count n :: ops)) :
    (p.recordInstruction n).Announces ops :=
  (h.tail rfl).called rfl rfl (fun _ => Nat.le_refl _) fun _ => rfl

/-- Looking a function up. -/
theorem performLookUp {hash : UInt64} (h : p.Announces (.lookUp hash :: ops)) (hkeyed : p.Keyed) :
    (p.perform (.lookUp hash)).1.Announces (.increment hash :: ops) := by
  obtain ⟨_, _, hcalls, hhot, _, hthreshold, _, _⟩ := hkeyed.lookUp hash
  have hannounced : (p.perform (.lookUp hash)).1.announced = p.announced := by
    simp only [Profiler.perform]
    split <;> rfl
  have hrest := (h.tail rfl).called hthreshold hannounced
    (fun h' => Nat.le_of_eq (hcalls h').symm) hhot
  refine hrest.cons rfl fun h' n heq => ?_
  cases heq

/-- Counting a call: when the function is to be made hot, its count has reached the threshold. -/
theorem performIncrement {hash : UInt64} (h : p.Announces (.increment hash :: ops))
    (hkeyed : p.Keyed) (hknown : (p.function? hash).isSome = true) :
    (p.perform (.increment hash)).1.Announces
      ((p.perform (.increment hash)).2.toList ++ ops) := by
  obtain ⟨_, _, hcalls, hhot, _, hthreshold, _, _⟩ := hkeyed.increment hknown
  have hrest := (h.tail rfl).called hthreshold rfl (fun h' => hcalls h' ▸ Nat.le_add_right ..) hhot
  have hnext : (p.perform (.increment hash)).2 =
      if (p.perform (.increment hash)).1.threshold ≤ (p.perform (.increment hash)).1.calls hash
      then some (.mark hash ((p.perform (.increment hash)).1.calls hash)) else none := rfl
  rw [hnext]
  split
  · next hreach =>
    refine hrest.cons rfl fun h' n heq => ?_
    cases heq
    exact ⟨hreach, Nat.le_refl _⟩
  · exact hrest

/-- Making a function hot, unless it has become hot meanwhile. -/
theorem performMark {hash : UInt64} {n : Nat} (h : p.Announces (.mark hash n :: ops))
    (hkeyed : p.Keyed) (hknown : (p.function? hash).isSome = true) :
    (p.perform (.mark hash n)).1.Announces ((p.perform (.mark hash n)).2.toList ++ ops) := by
  cases hb : p.isHot hash with
  | true =>
    rw [perform_mark_of_hot hb]
    exact h.tail rfl
  | false =>
    rw [perform_mark_of_cold hb]
    obtain ⟨_, _, hcalls, hhot, _, hthreshold, _, _⟩ := hkeyed.mark hknown hb
    have hgrow : ∀ {h' k}, p.Reached h' k →
        (p.change hash fun f => { f with hot := true }).Reached h' k :=
      fun hreached => hreached.mono hthreshold (Nat.le_of_eq (hcalls _).symm)
    refine ⟨fun h' => ?_, fun h' k hmem => ?_, fun h' k hmem => ?_, fun f hf => ?_⟩
    · have honce := (h.tail rfl).once h'
      rw [Option.toList_some, List.singleton_append, List.countP_cons, ProfilerOp.heralds_announce,
        announced_change]
      by_cases heq : h' = hash
      · -- The function was cold, so nobody has announced it nor is about to.
        subst heq
        rw [hb, if_neg Bool.false_ne_true] at honce
        rw [if_pos (beq_self_eq_true h'), if_pos ((hhot h').2 (.inr rfl)), ← Nat.add_assoc, honce]
      · have hsame : (p.change hash fun f => { f with hot := true }).isHot h' = p.isHot h' :=
          Bool.eq_iff_iff.2 ((hhot h').trans (or_iff_left heq))
        rw [if_neg (by simpa using Ne.symm heq), hsame, ← honce, Nat.add_zero]
    · have hold : .mark h' k ∈ ops := by simpa using hmem
      exact hgrow (h.marks h' k (List.mem_cons_of_mem _ hold))
    · rcases List.mem_cons.1 hmem with heq | hold
      · cases heq
        exact hgrow (h.marks hash n (List.mem_cons_self ..))
      · exact hgrow (h.announces h' k (List.mem_cons_of_mem _ hold))
    · obtain ⟨hot, hreached⟩ := h.announced f hf
      exact ⟨hot, hgrow hreached⟩

/-- Announcing a hot function. -/
theorem performAnnounce {hash : UInt64} {n : Nat} (h : p.Announces (.announce hash n :: ops)) :
    (p.perform (.announce hash n)).1.Announces ops := by
  have hgrow : ∀ {h' k}, p.Reached h' k → (p.perform (.announce hash n)).1.Reached h' k :=
    fun hreached => hreached.mono rfl (Nat.le_refl _)
  refine ⟨fun h' => ?_, fun h' k hmem => ?_, fun h' k hmem => ?_, fun f hf => ?_⟩
  · have honce := h.once h'
    rw [List.countP_cons] at honce
    rw [count_announced_perform]
    show _ = if p.isHot h' then 1 else 0
    omega
  · exact hgrow (h.marks h' k (List.mem_cons_of_mem _ hmem))
  · exact hgrow (h.announces h' k (List.mem_cons_of_mem _ hmem))
  · rcases List.mem_cons.1 hf with rfl | hf
    · exact ⟨rfl, hgrow (h.announces hash n (List.mem_cons_self ..))⟩
    · obtain ⟨hot, hreached⟩ := h.announced f hf
      exact ⟨hot, hgrow hreached⟩

/-- **Carrying an operation out keeps the announcements in order.** -/
theorem perform (h : p.Announces (op :: ops)) (ht : p₀.Tally es (op :: ops) p) :
    (p.perform op).1.Announces ((p.perform op).2.toList ++ ops) := by
  cases op with
  | count n => exact h.performCount
  | lookUp hash => exact h.performLookUp ht.keyed
  | increment hash => exact h.performIncrement ht.keyed ht.known_of_increment
  | mark hash n =>
    have hcalled := (ht.marks hash n (List.mem_cons_self ..)).2
    exact h.performMark ht.keyed (isSome_of_calls_pos (Nat.zero_lt_of_lt hcalled))
  | announce hash n => exact h.performAnnounce

end Announces

end Profiler

end RegisterMachine
