import Mathlib.Data.List.Count
import Mathlib.Data.List.Dedup
import Mathlib.Data.List.Perm.Subperm
import RegisterMachine.Engine.Recorders
import RegisterMachine.Proofs.Engine.Announcements
import RegisterMachine.Proofs.Engine.Batches

/-!
# Functions become hot once

Calls that are recorded side by side (`Recorders`) pass one another between any two operations. None
of them waits for another one (`Recorders.turnsLeft_run`), and one that is not interrupted does what
`Profiler.recordCall` does (`Recorders.run_uninterrupted`). `Recorders.Sound` is what every turn
keeps: the tally of the calls, the announcements, and that the calls which answered that they made
their function hot are those that announced it. From it follow what holds at any time
(`Recorders.Orderly`) and what has become of all calls when they have returned
(`Recorders.Outcome`).
-/

namespace RegisterMachine

/-! ## Turns -/

namespace Recorder

/-- The operation that a recorder carries out next. -/
def todo (r : Recorder) : List ProfilerOp :=
  match r.stage with
  | .pending op => [op]
  | .returned _ => []

/-- How many turns a recorder takes at most until it returns. -/
def turnsLeft (r : Recorder) : Nat :=
  match r.stage with
  | .pending op => op.turns
  | .returned _ => 0

/-- Behind an operation, what a recorder carries out next is what the operation asks for. -/
theorem todo_after (hash : UInt64) (op : ProfilerOp) (next : Option ProfilerOp) :
    (⟨hash, .after op next⟩ : Recorder).todo = next.toList := by
  cases next <;> rfl

/-- A recorder that has answered has nothing left to carry out. -/
theorem todo_of_answer? {r : Recorder} (h : r.answer?.isSome = true) : r.todo = [] := by
  obtain ⟨hash, stage⟩ := r
  cases stage with
  | pending op => cases h
  | returned b => rfl

/-- A recorder without turns left has answered. -/
theorem answer?_of_turnsLeft {r : Recorder} (h : r.turnsLeft = 0) : r.answer?.isSome = true := by
  obtain ⟨hash, stage⟩ := r
  cases stage with
  | pending op => cases op <;> cases h
  | returned b => rfl

/-- A turn brings a recorder closer to its return. -/
theorem turnsLeft_move (r : Recorder) (p : Profiler) :
    (r.move p).1.turnsLeft ≤ r.turnsLeft - 1 := by
  obtain ⟨hash, stage⟩ := r
  cases stage with
  | returned b => exact Nat.zero_le _
  | pending op =>
    show (⟨hash, .after op (p.perform op).2⟩ : Recorder).turnsLeft ≤ op.turns - 1
    cases hnext : (p.perform op).2 with
    | none => exact Nat.zero_le _
    | some next => exact Nat.le_sub_one_of_lt (Profiler.perform_next hnext).2.2

/-- A call answers that it made its function hot right after it has announced it. -/
theorem after_eq_returned_true {p : Profiler} {op : ProfilerOp} {hash hash' : UInt64}
    (hown : op.hash? = some hash) :
    (⟨hash, .after op (p.perform op).2⟩ : Recorder) = ⟨hash', .returned true⟩ ↔
      op.heralds hash' = true := by
  rw [ProfilerOp.heralds_eq hown, Bool.and_eq_true, beq_iff_eq, Recorder.mk.injEq, and_comm]
  cases hnext : (p.perform op).2 with
  | none => simp [RecorderStage.after]
  | some next => simp [RecorderStage.after, (Profiler.perform_next hnext).1]

end Recorder

namespace Recorders

variable {rs : Recorders} {threshold : Nat} {hashes : List UInt64} {n : Nat}

/-- The operations that all recorders carry out next. -/
def todo (rs : Recorders) : List ProfilerOp := rs.recorders.flatMap (·.todo)

/-- A recorder with an operation left carries it out in its turn. -/
theorem move_pending {hash : UInt64} {op : ProfilerOp}
    (hn : rs.recorders[n]? = some ⟨hash, .pending op⟩) :
    rs.move n = ⟨rs.recorders.set n ⟨hash, .after op (rs.profiler.perform op).2⟩,
      (rs.profiler.perform op).1⟩ := by
  rw [Recorders.move, hn]
  rfl

/-- A recorder that has returned does nothing in its turn. -/
theorem move_returned {hash : UInt64} {b : Bool}
    (hn : rs.recorders[n]? = some ⟨hash, .returned b⟩) : rs.move n = rs := by
  obtain ⟨hlt, hget⟩ := List.getElem?_eq_some_iff.1 hn
  rw [Recorders.move, hn]
  show (⟨rs.recorders.set n ⟨hash, .returned b⟩, rs.profiler⟩ : Recorders) = rs
  rw [← hget, List.set_getElem_self]

/-- A turn changes nothing, or one recorder carries out its operation. -/
theorem move_cases (rs : Recorders) (n : Nat) :
    rs.move n = rs ∨ ∃ hash op, rs.recorders[n]? = some ⟨hash, .pending op⟩ ∧
      rs.move n = ⟨rs.recorders.set n ⟨hash, .after op (rs.profiler.perform op).2⟩,
        (rs.profiler.perform op).1⟩ := by
  cases hn : rs.recorders[n]? with
  | none => exact .inl (by rw [Recorders.move, hn])
  | some r =>
    obtain ⟨hash, stage⟩ := r
    cases stage with
    | pending op => exact .inr ⟨hash, op, rfl, move_pending hn⟩
    | returned b => exact .inl (move_returned hn)

/-- Turns are taken one after the other. -/
theorem run_append (rs : Recorders) (schedule schedule' : List Nat) :
    rs.run (schedule ++ schedule') = (rs.run schedule).run schedule' := List.foldl_append

/-- Turns neither add nor remove recorders. -/
theorem length_run (rs : Recorders) (schedule : List Nat) :
    (rs.run schedule).recorders.length = rs.recorders.length := by
  induction schedule generalizing rs with
  | nil => rfl
  | cons n schedule ih =>
    refine (ih (rs.move n)).trans ?_
    rcases rs.move_cases n with heq | ⟨hash, op, _, heq⟩
    · rw [heq]
    · rw [heq]; exact List.length_set

/-- The recorder that takes a turn comes closer to its return, and the others stay where they
are. -/
theorem turnsLeft_move {r : Recorder} (hn : rs.recorders[n]? = some r) (m : Nat) :
    ∃ r', (rs.move m).recorders[n]? = some r' ∧
      r'.turnsLeft ≤ r.turnsLeft - if m = n then 1 else 0 := by
  unfold Recorders.move
  cases hm : rs.recorders[m]? with
  | none =>
    have hne : m ≠ n := fun heq => by rw [heq, hn] at hm; cases hm
    exact ⟨r, hn, Nat.le_of_eq (by rw [if_neg hne, Nat.sub_zero])⟩
  | some u =>
    by_cases heq : m = n
    · subst heq
      obtain rfl : r = u := Option.some.inj (hn.symm.trans hm)
      obtain ⟨hlt, _⟩ := List.getElem?_eq_some_iff.1 hn
      refine ⟨(r.move rs.profiler).1, List.getElem?_set_self hlt, ?_⟩
      rw [if_pos rfl]
      exact r.turnsLeft_move rs.profiler
    · refine ⟨r, ?_, Nat.le_of_eq (by rw [if_neg heq, Nat.sub_zero])⟩
      exact (List.getElem?_set_ne heq).trans hn

/-- **No recorder waits for another one:** whatever turns the others take, its own turns bring it to
its return. -/
theorem turnsLeft_run {r : Recorder} (hn : rs.recorders[n]? = some r) (schedule : List Nat) :
    ∃ r', (rs.run schedule).recorders[n]? = some r' ∧
      r'.turnsLeft ≤ r.turnsLeft - schedule.count n := by
  induction schedule generalizing rs r with
  | nil => exact ⟨r, hn, Nat.le_refl _⟩
  | cons m schedule ih =>
    obtain ⟨r₁, hn₁, hle₁⟩ := turnsLeft_move hn m
    obtain ⟨r₂, hn₂, hle₂⟩ := ih hn₁
    refine ⟨r₂, hn₂, ?_⟩
    rw [List.count_cons]
    simp only [beq_iff_eq]
    omega

/-! ## A call without others in between -/

/-- The turns of a recorder that has returned change nothing. -/
theorem run_returned {hash : UInt64} {b : Bool}
    (hn : rs.recorders[n]? = some ⟨hash, .returned b⟩) (k : Nat) :
    rs.run (List.replicate k n) = rs := by
  induction k with
  | zero => rfl
  | succ k ih =>
    rw [List.replicate_succ]
    show (rs.move n).run (List.replicate k n) = rs
    rw [move_returned hn, ih]

/-- The operations of a call without a break are turns of its recorder, and the recorder answers
that the call made its function hot if one more function is counted as hot. -/
theorem exists_run_of_performs {p q : Profiler} {ops : List ProfilerOp} (h : p.Performs ops q)
    {hash : UInt64} {op : ProfilerOp} (hops : ops = [op]) (hp : rs.profiler = p)
    (hn : rs.recorders[n]? = some ⟨hash, .pending op⟩) : ∃ k b, k ≤ op.turns ∧
      rs.run (List.replicate k n) = ⟨rs.recorders.set n ⟨hash, .returned b⟩, q⟩ ∧
      q.hotCount = p.hotCount + b.toNat := by
  induction h generalizing op rs with
  | nil => cases hops
  | @cons p q op ops hperforms ih =>
    obtain ⟨rfl, rfl⟩ := List.cons.inj hops
    have hhot := p.hotCount_perform op
    have hmove := move_pending hn
    rw [hp] at hmove
    cases hnext : (p.perform op).2 with
    | none =>
      rw [hnext] at hperforms hmove
      cases hperforms
      refine ⟨1, op.announces, ?_, hmove, hhot⟩
      cases op <;> exact Nat.succ_le_succ (Nat.zero_le _)
    | some next =>
      obtain ⟨hquiet, _, hlt⟩ := Profiler.perform_next hnext
      rw [hnext] at hmove
      rw [hquiet] at hhot
      have hlist : (p.perform op).2.toList ++ [] = [next] := by rw [hnext]; rfl
      have hn₁ : (rs.move n).recorders[n]? = some ⟨hash, .pending next⟩ := by
        rw [hmove]
        exact List.getElem?_set_self (List.getElem?_eq_some_iff.1 hn).1
      obtain ⟨k, b, hk, hrun, hcount⟩ := ih hlist (by rw [hmove]) hn₁
      refine ⟨k + 1, b, by omega, ?_, hcount.trans (by rw [hhot]; rfl)⟩
      rw [List.replicate_succ]
      refine hrun.trans ?_
      rw [hmove, List.set_set]

/-- **A call that is recorded without others in between** changes the profiler as `recordCall` does,
and answers what `recordCall` does. -/
theorem run_uninterrupted {hash : UInt64} (h : rs.profiler.Keyed)
    (hn : rs.recorders[n]? = some (.start hash)) :
    rs.run (List.replicate 4 n) =
      ⟨rs.recorders.set n ⟨hash, .returned (rs.profiler.recordCall hash).2⟩,
        (rs.profiler.recordCall hash).1⟩ := by
  have hperforms := Profiler.performs_record h (.call hash)
  obtain ⟨k, b, hk, hrun, hcount⟩ := exists_run_of_performs hperforms rfl rfl hn
  have hanswer : b = (rs.profiler.recordCall hash).2 := by
    have htoNat := Nat.add_left_cancel (hcount.symm.trans (rs.profiler.hotCount_recordCall hash))
    cases b <;> cases hb : (rs.profiler.recordCall hash).2 <;> simp [hb] at htoNat ⊢
  have hreturned : (rs.run (List.replicate k n)).recorders[n]? = some ⟨hash, .returned b⟩ := by
    rw [hrun]
    exact List.getElem?_set_self (List.getElem?_eq_some_iff.1 hn).1
  obtain ⟨m, hm⟩ := Nat.exists_eq_add_of_le hk
  rw [show (4 : Nat) = k + m from hm, ← List.replicate_append_replicate, run_append,
    run_returned hreturned, hrun, hanswer]
  rfl

/-! ## What turns keep -/

/-- How calls of `hashes` stand that are recorded on a new profiler. -/
structure Sound (threshold : Nat) (hashes : List UInt64) (rs : Recorders) : Prop where
  calls : rs.recorders.map (·.hash) = hashes
  own : ∀ r ∈ rs.recorders, ∀ op ∈ r.todo, op.hash? = some r.hash
  tally : ({ threshold } : Profiler).Tally (hashes.map .call) rs.todo rs.profiler
  announces : rs.profiler.Announces rs.todo
  /-- The calls that answered that they made their function hot are those that announced it. -/
  answers : ∀ hash, rs.recorders.count ⟨hash, .returned true⟩ =
    (rs.profiler.announced.map (·.hash)).count hash

/-- The recorders are sound before their first turn. -/
theorem Sound.start (threshold : Nat) (hashes : List UInt64) :
    (start { threshold } hashes).Sound threshold hashes := by
  have htodo : (Recorders.start { threshold } hashes).todo = hashes.map .lookUp := by
    show (hashes.map Recorder.start).flatMap (·.todo) = _
    rw [List.flatMap_map, List.map_eq_flatMap]
    rfl
  refine ⟨?_, fun r hr op hop => ?_, ?_, ?_, fun hash => ?_⟩
  · show (hashes.map Recorder.start).map (·.hash) = hashes
    rw [List.map_map]
    exact List.map_id hashes
  · obtain ⟨hash, _, rfl⟩ := List.mem_map.1 hr
    obtain rfl := List.mem_singleton.1 hop
    rfl
  · have hnew : ({ threshold } : Profiler).Keyed := List.nodup_nil
    have htally := (Profiler.Tally.start hnew).beginAll (hashes.map .call)
    rw [htodo]
    rw [List.append_nil, List.append_nil, List.map_map] at htally
    exact htally
  · rw [htodo]
    exact .start threshold hashes
  · refine List.count_eq_zero.2 fun hmem => ?_
    obtain ⟨_, _, heq⟩ := List.mem_map.1 hmem
    cases heq

/-- **Every turn keeps the calls in order.** -/
theorem Sound.move (h : rs.Sound threshold hashes) (n : Nat) :
    (rs.move n).Sound threshold hashes := by
  rcases rs.move_cases n with heq | ⟨hash, op, hn, heq⟩
  · rw [heq]; exact h
  rw [heq]
  have hown : op.hash? = some hash :=
    h.own ⟨hash, .pending op⟩ (List.mem_of_getElem? hn) op (List.mem_singleton_self op)
  obtain ⟨rest, hrest, hset⟩ := flatMap_set_perm hn Recorder.todo
  have htally := h.tally.perm (.refl _) hrest
  have hafter := hset ⟨hash, .after op (rs.profiler.perform op).2⟩
  rw [Recorder.todo_after] at hafter
  refine ⟨?_, fun r hr op' hop' => ?_, ?_, ?_, fun hash' => ?_⟩
  · have hsame : ∀ stage, (rs.recorders.set n ⟨hash, stage⟩).map (·.hash) =
        rs.recorders.map (·.hash) := fun stage => map_set_of_eq hn rfl
    exact (hsame _).trans h.calls
  · rcases List.mem_or_eq_of_mem_set hr with hold | rfl
    · exact h.own r hold op' hop'
    · rw [Recorder.todo_after, Option.mem_toList] at hop'
      exact (Profiler.perform_next hop').2.1.trans hown
  · exact htally.perform.perm (.refl _) hafter.symm
  · exact ((h.announces.perm hrest).perform htally).perm hafter.symm
  · obtain ⟨hlt, hget⟩ := List.getElem?_eq_some_iff.1 hn
    have hold : (rs.recorders[n] == ⟨hash', .returned true⟩) = false := by
      rw [hget, beq_eq_false_iff_ne]
      intro heq
      cases heq
    have hnew : ((⟨hash, .after op (rs.profiler.perform op).2⟩ : Recorder) ==
        ⟨hash', .returned true⟩) = op.heralds hash' :=
      Bool.eq_iff_iff.2 (beq_iff_eq.trans (Recorder.after_eq_returned_true hown))
    show (rs.recorders.set n _).count _ = _
    rw [Profiler.count_announced_perform, ← h.answers hash', List.count_set hlt, hold, hnew]
    rfl

/-- Every schedule keeps the calls in order. -/
theorem Sound.run (h : rs.Sound threshold hashes) (schedule : List Nat) :
    (rs.run schedule).Sound threshold hashes := by
  induction schedule generalizing rs with
  | nil => exact h
  | cons n schedule ih => exact ih (h.move n)

/-! ## What has been counted -/

/-- A hash is called as often as it stands among the hashes. -/
theorem count_call (hashes : List UInt64) (hash : UInt64) :
    (hashes.map ProfilerEvent.call).count (.call hash) = hashes.count hash :=
  List.count_map_of_injective _ _ (fun _ _ h => ProfilerEvent.call.inj h) _

/-- The calls that have been counted, and those that have yet to be, are all calls. -/
theorem Sound.calls_add (h : rs.Sound threshold hashes) (hash : UInt64) :
    rs.profiler.calls hash + rs.todo.countP (·.awaits hash) = hashes.count hash := by
  have hcalls := h.tally.calls hash
  rw [count_call, show ({ threshold } : Profiler).calls hash = 0 from rfl, Nat.zero_add] at hcalls
  exact hcalls

/-- A function is known once one of its calls has looked it up. -/
theorem Sound.known_iff (h : rs.Sound threshold hashes) (hash : UInt64) :
    (rs.profiler.function? hash).isSome = true ↔
      rs.todo.count (.lookUp hash) < hashes.count hash := by
  have hknown := h.tally.known hash
  rw [count_call] at hknown
  exact hknown.trans (or_iff_right Bool.false_ne_true)

/-- Only functions that are called become known. -/
theorem Sound.mem_of_known (h : rs.Sound threshold hashes) {hash : UInt64}
    (hknown : (rs.profiler.function? hash).isSome = true) : hash ∈ hashes :=
  List.count_pos_iff.1 (Nat.zero_lt_of_lt ((h.known_iff hash).1 hknown))

/-- There are no more profiles than calls. -/
theorem Sound.length_functions_le (h : rs.Sound threshold hashes) :
    rs.profiler.functions.length ≤ hashes.length := by
  have hsub : rs.profiler.functions.map (·.hash) ⊆ hashes := by
    intro hash hmem
    obtain ⟨f, hf, rfl⟩ := List.mem_map.1 hmem
    exact h.mem_of_known (by rw [h.tally.keyed.function?_of_mem hf]; rfl)
  have hle := (List.Nodup.subperm h.tally.keyed hsub).length_le
  rwa [List.length_map] at hle

/-- The functions that are marked hot have been counted, or will be when they are announced. -/
theorem Sound.hotCount_add (h : rs.Sound threshold hashes) :
    rs.profiler.hotCount + rs.todo.countP (·.announces) = rs.profiler.marked := by
  have hcount := h.tally.hotCount
  rw [show ({ threshold } : Profiler).marked = 0 from rfl, Nat.zero_add] at hcount
  exact hcount

/-- How calls of `hashes` stand at any time. -/
structure Orderly (threshold : Nat) (hashes : List UInt64) (rs : Recorders) : Prop where
  calls : rs.recorders.map (·.hash) = hashes
  /-- No function is announced twice. -/
  once : (rs.profiler.announced.map (·.hash)).Nodup
  /-- A function is announced as hot, with a count that has reached the threshold and no more calls
  than there are. -/
  announced : ∀ f ∈ rs.profiler.announced,
    f.hot = true ∧ threshold ≤ f.count ∧ f.count ≤ hashes.count f.hash
  /-- No counter runs over. -/
  counts : (∀ f ∈ rs.profiler.functions, f.count < 2 ^ 64) ∧ rs.profiler.hotCount < 2 ^ 64

/-- Whatever is sound is in order. -/
theorem Sound.orderly (h : rs.Sound threshold hashes) (hfew : hashes.length < 2 ^ 64) :
    rs.Orderly threshold hashes := by
  have hle : ∀ hash, rs.profiler.calls hash ≤ hashes.count hash := fun hash =>
    h.calls_add hash ▸ Nat.le_add_right ..
  refine ⟨h.calls, ?_, fun f hf => ?_, fun f hf => ?_, ?_⟩
  · refine List.nodup_iff_count_le_one.2 fun hash => ?_
    have honce := h.announces.once hash
    split at honce <;> omega
  · obtain ⟨hot, hthreshold, hcalls⟩ := h.announces.announced f hf
    rw [h.tally.threshold] at hthreshold
    exact ⟨hot, hthreshold, Nat.le_trans hcalls (hle f.hash)⟩
  · have hcalls : rs.profiler.calls f.hash = f.count := by
      rw [Profiler.calls, h.tally.keyed.function?_of_mem hf]
      rfl
    have hlen : hashes.count f.hash ≤ hashes.length := List.count_le_length
    have := hle f.hash
    omega
  · have hmarked : rs.profiler.marked ≤ rs.profiler.functions.length := List.countP_le_length
    have hlen := h.length_functions_le
    have hcount := h.hotCount_add
    omega

/-! ## What has become of all calls -/

/-- How calls of `hashes` have turned out: a function is hot when it was called at least once and as
often as the threshold says. -/
structure Outcome (threshold : Nat) (hashes : List UInt64) (rs : Recorders) : Prop where
  /-- Each function was counted as often as it was called. -/
  function? : ∀ hash, rs.profiler.function? hash =
    if hash ∈ hashes then some ⟨hash, hashes.count hash, max 1 threshold ≤ hashes.count hash⟩
    else none
  /-- The hot functions were announced. -/
  announced : ∀ hash, hash ∈ rs.profiler.announced.map (·.hash) ↔
    max 1 threshold ≤ hashes.count hash
  /-- One call of a hot function answered that it made it hot, and no other call did. -/
  answers : ∀ hash, rs.recorders.count ⟨hash, .returned true⟩ =
    if max 1 threshold ≤ hashes.count hash then 1 else 0
  /-- The hot functions were counted. -/
  hotCount : rs.profiler.stats.hot = hashes.dedup.countP (max 1 threshold ≤ hashes.count ·)

/-- Nothing is left to carry out at the end. -/
theorem Finished.todo (h : rs.Finished) : rs.todo = [] :=
  List.flatMap_eq_nil_iff.2 fun r hr => Recorder.todo_of_answer? (h r hr)

/-- At the end, the calls of a function are those that were made. -/
theorem Sound.finished_calls (h : rs.Sound threshold hashes) (hend : rs.Finished) (hash : UInt64) :
    rs.profiler.calls hash = hashes.count hash := by
  have hcalls := h.calls_add hash
  rwa [hend.todo, List.countP_nil, Nat.add_zero] at hcalls

/-- At the end, the functions that were called are known, and no others. -/
theorem Sound.finished_known_iff (h : rs.Sound threshold hashes) (hend : rs.Finished)
    (hash : UInt64) : (rs.profiler.function? hash).isSome = true ↔ hash ∈ hashes := by
  rw [h.known_iff, hend.todo, List.count_nil, List.count_pos_iff]

/-- When all calls have returned, the hot functions are those that were called often enough. -/
theorem Sound.finished_isHot_iff (h : rs.Sound threshold hashes) (hend : rs.Finished)
    (hash : UInt64) : rs.profiler.isHot hash = true ↔ max 1 threshold ≤ hashes.count hash := by
  have htally := h.tally
  rw [hend.todo] at htally
  rw [htally.isHot_iff, h.finished_calls hend, Nat.max_le, and_comm]
  exact or_iff_right Bool.false_ne_true

/-- The functions that have a profile at the end are those that were called. -/
theorem Sound.finished_hashes_perm (h : rs.Sound threshold hashes) (hend : rs.Finished) :
    (rs.profiler.functions.map (·.hash)).Perm hashes.dedup := by
  refine (List.perm_ext_iff_of_nodup h.tally.keyed hashes.nodup_dedup).2 fun hash => ?_
  rw [List.mem_dedup, ← h.finished_known_iff hend]
  constructor
  · intro hmem
    obtain ⟨f, hf, rfl⟩ := List.mem_map.1 hmem
    rw [h.tally.keyed.function?_of_mem hf]
    rfl
  · intro hknown
    obtain ⟨f, hf⟩ := Option.isSome_iff_exists.1 hknown
    exact List.mem_map.2 ⟨f, (Profiler.function?_eq_some h.tally.keyed).1 hf⟩

/-- At the end, as many functions are marked as were called often enough. -/
theorem Sound.finished_marked (h : rs.Sound threshold hashes) (hend : rs.Finished) :
    rs.profiler.marked = hashes.dedup.countP (max 1 threshold ≤ hashes.count ·) := by
  rw [← (h.finished_hashes_perm hend).countP_eq, List.countP_map]
  refine List.countP_congr fun f hf => ?_
  have hhot : rs.profiler.isHot f.hash = f.hot := by
    rw [Profiler.isHot_eq, h.tally.keyed.function?_of_mem hf]
    rfl
  rw [← hhot, h.finished_isHot_iff hend]
  simp

/-- **At the end, the outcome is what the calls make it.** -/
theorem Sound.outcome (h : rs.Sound threshold hashes) (hend : rs.Finished) :
    rs.Outcome threshold hashes := by
  have honce : ∀ hash, (rs.profiler.announced.map (·.hash)).count hash =
      if max 1 threshold ≤ hashes.count hash then 1 else 0 := by
    intro hash
    have hcount := h.announces.once hash
    rw [hend.todo, List.countP_nil, Nat.add_zero] at hcount
    simpa only [h.finished_isHot_iff hend] using hcount
  refine ⟨fun hash => ?_, fun hash => ?_, fun hash => ?_, ?_⟩
  · split
    · next hmem =>
      have hknown := (h.finished_known_iff hend hash).2 hmem
      have hhot : rs.profiler.isHot hash = decide (max 1 threshold ≤ hashes.count hash) :=
        Bool.eq_iff_iff.2 ((h.finished_isHot_iff hend hash).trans decide_eq_true_iff.symm)
      rw [h.tally.keyed.function?_eq hknown, h.finished_calls hend, hhot]
    · next hmem =>
      have hunknown := mt (h.finished_known_iff hend hash).1 hmem
      simpa using hunknown
  · rw [← List.count_pos_iff, honce]
    split <;> simp_all
  · rw [h.answers, honce]
  · have hcount := h.hotCount_add
    rw [hend.todo, List.countP_nil, Nat.add_zero, h.finished_marked hend] at hcount
    exact hcount

/-- A schedule that gives every recorder four turns brings all calls to their returns. -/
theorem finished_of_turns (p : Profiler) (hashes : List UInt64) {schedule : List Nat}
    (hturns : ∀ n < hashes.length, 4 ≤ schedule.count n) :
    ((start p hashes).run schedule).Finished := by
  intro r hr
  obtain ⟨n, hn⟩ := List.mem_iff_getElem?.1 hr
  have hlt : n < hashes.length := by
    have hlt := (List.getElem?_eq_some_iff.1 hn).1
    rw [length_run] at hlt
    simpa [start] using hlt
  have hstart : (start p hashes).recorders[n]? = some (.start hashes[n]) := by
    simp [start, hlt]
  obtain ⟨r', hn', hleft⟩ := turnsLeft_run hstart schedule
  obtain rfl : r' = r := Option.some.inj (hn'.symm.trans hn)
  have hfour : (Recorder.start hashes[n]).turnsLeft = 4 := rfl
  have := hturns n hlt
  exact Recorder.answer?_of_turnsLeft (by omega)

/-- **A function becomes hot once.** Calls are recorded side by side on a new profiler, and their
operations come in any order. At any time no function has been announced twice, nor one with a count
below the threshold. Every call returns after at most four operations of its own. When all have
returned, each function was counted as often as it was called; it was announced, and one of its
calls answered that it made it hot, if and only if that is at least once and as often as the
threshold says; and the count of hot functions is the number of those functions. -/
theorem hot_exactly_once (threshold : Nat) (hashes : List UInt64) (hfew : hashes.length < 2 ^ 64)
    (schedule : List Nat) :
    let rs := (start { threshold } hashes).run schedule
    rs.Orderly threshold hashes ∧
    ((∀ n < hashes.length, 4 ≤ schedule.count n) → rs.Finished) ∧
    (rs.Finished → rs.Outcome threshold hashes) := by
  have hsound := (Sound.start threshold hashes).run schedule
  exact ⟨hsound.orderly hfew, finished_of_turns _ hashes, hsound.outcome⟩

/-- The first two calls of the function 7 and the last one pass one another: the last one overtakes
the second one, finds the function cold and announces it with the count that it took, which is above
the threshold. -/
theorem hot_exactly_once_overtaken :
    let hashes : List UInt64 := [7, 7, 9, 7]
    let rs := (start { threshold := 2 } hashes).run [0, 1, 3, 0, 1, 3, 3, 1, 2, 3, 2]
    hashes.length < 2 ^ 64 ∧ rs.Finished ∧ rs.Orderly 2 hashes ∧ rs.Outcome 2 hashes ∧
      rs.profiler.announced = [⟨7, 3, true⟩] := by
  have hend : ((start { threshold := 2 } [7, 7, 9, 7]).run
      [0, 1, 3, 0, 1, 3, 3, 1, 2, 3, 2]).Finished := by decide
  obtain ⟨horderly, _, houtcome⟩ :=
    hot_exactly_once 2 [7, 7, 9, 7] (by decide) [0, 1, 3, 0, 1, 3, 3, 1, 2, 3, 2]
  exact ⟨by decide, hend, horderly, houtcome hend, by decide⟩

end Recorders

end RegisterMachine
