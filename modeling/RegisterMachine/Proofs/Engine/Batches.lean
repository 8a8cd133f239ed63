import RegisterMachine.Proofs.Engine.CallReturn
import RegisterMachine.Proofs.Engine.ProfilerTally

/-!
# Batches side by side and in sequence

The threads of a batch can take turns in any order (`Batch.run`) or run one after the other
(`runAll`). `Thread.Finishes` says which thread a run ends with and what it tells the profiler, and
this does not depend on the other threads. `Batch.Sound` is what every turn keeps: each job is on
its way from its first thread (`Job.Underway`), and the profiler is what the jobs have told it so
far, up to the operations that are still to be carried out (`Profiler.Tally`). When all jobs have
ended, the batch is what running the threads one after the other leaves (`Batch.run_eq_runAll`).
-/

namespace RegisterMachine

/-- Events are recorded one after the other. -/
theorem Profiler.recordAll_append (p : Profiler) (es es' : List ProfilerEvent) :
    p.recordAll (es ++ es') = (p.recordAll es).recordAll es' := List.foldl_append

/-- What is counted of a step is what the profiler is told of it. -/
theorem Profiler.observe_eq (p : Profiler) (info : StepInfo) (t : Thread) :
    p.observe info t = p.recordAll (t.events info) := by
  unfold Profiler.observe Thread.events
  split
  · rfl
  · cases info.kind <;> cases t.stack.top? <;> rfl

/-- What is counted before a run is what the profiler is told then. -/
theorem Profiler.begin_eq (p : Profiler) (t : Thread) :
    p.begin t = p.recordAll t.entryEvents := by
  unfold Profiler.begin Thread.entryEvents
  split
  · rfl
  · cases t.stack.top? <;> rfl

namespace Thread

variable {opts : RunOptions} {t u : Thread} {es : List ProfilerEvent}

/-- A run that no trap stops and no budget cancels leaves `u` and tells the profiler `es`. -/
inductive Finishes (opts : RunOptions) : Thread → List ProfilerEvent → Thread → Prop
  | exit {t : Thread} : t.step.2.exit.isSome = true →
      Finishes opts t (t.step.2.events t.step.1) t.step.2.reclaim.1
  | next {t u : Thread} {es : List ProfilerEvent} : t.step.2.exit = none →
      Finishes opts (t.step.2.after (t.step.2.upkeep opts)) es u →
      Finishes opts t (t.step.2.events t.step.1 ++ es) u

/-- A thread that finishes has ended. -/
theorem Finishes.isSome_exit (h : t.Finishes opts es u) : u.exit.isSome = true := by
  induction h with
  | exit hexit => exact hexit
  | next _ _ ih => exact ih

/-- A run with enough of a budget finishes. -/
theorem Finishes.runFrom (h : t.Finishes opts es u) (htrap : opts.stopAtTrap = false) :
    ∃ n, ∀ budget profiler, ∃ e, t.runFrom opts (n + budget) profiler =
      ⟨u, profiler.map (·.recordAll es), budget, .exited e⟩ := by
  induction h with
  | @exit t hexit =>
    refine ⟨1, fun budget profiler => ?_⟩
    obtain ⟨e, he⟩ := Option.isSome_iff_exists.1 hexit
    refine ⟨e, ?_⟩
    rw [Nat.add_comm, runFrom_succ, he]
    simp only [Profiler.observe_eq]
  | @next t u es hexit _ ih =>
    obtain ⟨n, hn⟩ := ih
    refine ⟨n + 1, fun budget profiler => ?_⟩
    obtain ⟨e, he⟩ := hn budget (profiler.map (·.observe t.step.1 t.step.2))
    refine ⟨e, ?_⟩
    rw [Nat.add_right_comm, runFrom_succ, hexit]
    simp only [htrap, Bool.false_eq_true, and_false, if_false, he, Option.map_map]
    congr 2
    funext p
    simp [Profiler.observe_eq, Profiler.recordAll_append]

end Thread

/-! ## Jobs -/

variable {opts : RunOptions} {reclaimEvery : Nat} {t t₀ u : Thread} {es : List ProfilerEvent}

/-- How a job that began with the thread `t₀` stands, when the thread's steps have told the profiler
`es`. What is still to come of the thread is to come of `t₀` after `es`. -/
inductive Job.Underway (opts : RunOptions) (t₀ : Thread) (es : List ProfilerEvent) : Job → Prop
  | ready {t : Thread} {ops : List ProfilerOp} :
      (∀ es' u, t.Finishes opts es' u → t₀.Finishes opts (es ++ es') u) →
      Underway opts t₀ es ⟨t, ops, .ready⟩
  | live {t : Thread} {ops : List ProfilerOp} : t.exit = none →
      (∀ es' u, (t.after (t.upkeep opts)).Finishes opts es' u → t₀.Finishes opts (es ++ es') u) →
      Underway opts t₀ es ⟨t, ops, .stepped⟩
  | exited {t : Thread} {ops : List ProfilerOp} : t.exit.isSome = true →
      t₀.Finishes opts es t.reclaim.1 → Underway opts t₀ es ⟨t, ops, .stepped⟩
  | ended {t : Thread} : t₀.Finishes opts es t → Underway opts t₀ es ⟨t, [], .ended⟩

namespace Job

variable {j : Job}

/-- A job that has not begun is under way with nothing recorded. -/
theorem Underway.start (opts : RunOptions) (t : Thread) : Underway opts t [] (.start t) :=
  .ready fun _ _ h => h

/-- A job that still has operations to carry out has not ended. -/
theorem Underway.perform (h : j.Underway opts t₀ es) (hops : j.todo ≠ []) (ops : List ProfilerOp) :
    Underway opts t₀ es { j with todo := ops } := by
  cases h with
  | ready hnext => exact .ready hnext
  | live hexit hnext => exact .live hexit hnext
  | exited hexit hend => exact .exited hexit hend
  | ended => exact absurd rfl hops

/-- A turn is an operation on the profiler, if there is one to be carried out, or goes on with the
thread. -/
theorem move_cases (reclaimEvery : Nat) (profiler : Option Profiler) (j : Job) :
    (∃ p op ops, profiler = some p ∧ j.todo = op :: ops ∧ j.move reclaimEvery profiler =
        ({ j with todo := (p.perform op).2.toList ++ ops }, some (p.perform op).1)) ∨
      (∀ p, profiler = some p → j.todo = []) ∧
        j.move reclaimEvery profiler = (j.proceed reclaimEvery, profiler) := by
  cases profiler with
  | none => exact .inr ⟨nofun, rfl⟩
  | some p =>
    cases hops : j.todo with
    | nil => exact .inr ⟨fun _ _ => rfl, by simp only [Job.move, hops]⟩
    | cons op ops => exact .inl ⟨p, op, ops, rfl, rfl, by simp only [Job.move, hops]⟩

/-- A job whose thread goes on reclaims its heap when it is time to. -/
theorem proceed_live {ops : List ProfilerOp} (hexit : t.exit = none) :
    Job.proceed reclaimEvery ⟨t, ops, .stepped⟩ =
      ⟨t.after (t.upkeep { reclaimEvery }), [], .ready⟩ := by
  simp only [Job.proceed, hexit, Option.isSome_none, Bool.false_eq_true, if_false, Thread.upkeep]
  split
  · rfl
  · rfl

/-- A job whose thread has ended reclaims its heap a last time. -/
theorem proceed_exited {ops : List ProfilerOp} (hexit : t.exit.isSome = true) :
    Job.proceed reclaimEvery ⟨t, ops, .stepped⟩ = ⟨t.reclaim.1, [], .ended⟩ := if_pos hexit

/-- Going on with the thread tells the profiler what its step does, and nothing otherwise. -/
theorem Underway.proceed (h : j.Underway { reclaimEvery } t₀ es) :
    ∃ es', (j.proceed reclaimEvery).Underway { reclaimEvery } t₀ (es ++ es') ∧
      (j.proceed reclaimEvery).todo = es'.map (·.op) := by
  cases h with
  | @ready t ops hnext =>
    refine ⟨t.step.2.events t.step.1, ?_, rfl⟩
    show Underway _ t₀ _ ⟨t.step.2, _, .stepped⟩
    cases hexit : t.step.2.exit with
    | some e =>
      have hsome : t.step.2.exit.isSome = true := by rw [hexit]; rfl
      exact .exited hsome (hnext _ _ (.exit hsome))
    | none =>
      refine .live hexit fun es' u hu => ?_
      rw [List.append_assoc]
      exact hnext _ _ (.next hexit hu)
  | live hexit hnext =>
    rw [proceed_live hexit]
    exact ⟨[], by rw [List.append_nil]; exact .ready hnext, rfl⟩
  | exited hexit hend =>
    rw [proceed_exited hexit]
    exact ⟨[], by rw [List.append_nil]; exact .ended hend, rfl⟩
  | ended hend => exact ⟨[], by rw [List.append_nil]; exact .ended hend, rfl⟩

end Job

/-! ## Batches -/

/-- A job of a batch with the thread that it began with and what its steps have told the
profiler. -/
structure Track where
  origin : Thread
  told : List ProfilerEvent
  job : Job

/-- All that the profiler was told by a job. -/
def Track.events (k : Track) : List ProfilerEvent := k.origin.entryEvents ++ k.told

/-- A batch whose jobs are on their ways and whose profiler, which was `p₀` at first, has been told
what they did. -/
structure Batch.Sound (reclaimEvery : Nat) (p₀ : Option Profiler) (ks : List Track) (b : Batch) :
    Prop where
  jobs : b.jobs = ks.map (·.job)
  underway : ∀ k ∈ ks, k.job.Underway { reclaimEvery } k.origin k.told
  tally : Option.Rel (fun p₀ p => p₀.Tally (ks.flatMap (·.events)) (ks.flatMap (·.job.todo)) p) p₀
    b.profiler

/-- What a list yields when one element is replaced. -/
theorem flatMap_set_perm {α β : Type} {xs : List α} {n : Nat} {x : α} (hx : xs[n]? = some x) :
    ∀ (f : α → List β), ∃ rest, (xs.flatMap f).Perm (f x ++ rest) ∧
      ∀ y, ((xs.set n y).flatMap f).Perm (f y ++ rest) := by
  intro f
  induction xs generalizing n with
  | nil => simp at hx
  | cons z xs ih =>
    cases n with
    | zero =>
      obtain rfl : z = x := by simpa using hx
      exact ⟨xs.flatMap f, .refl _, fun y => .refl _⟩
    | succ n =>
      obtain ⟨rest, hrest, hset⟩ := ih (n := n) (by simpa using hx)
      refine ⟨f z ++ rest, ?_, fun y => ?_⟩
      · exact (hrest.append_left (f z)).trans (by simpa using List.perm_append_comm_assoc ..)
      · exact ((hset y).append_left (f z)).trans (by simpa using List.perm_append_comm_assoc ..)

/-- A list yields the same when one element is replaced by one that yields the same. -/
theorem map_set_of_eq {α β : Type} {f : α → β} {xs : List α} {n : Nat} {x y : α}
    (hx : xs[n]? = some x) (hy : f y = f x) : (xs.set n y).map f = xs.map f := by
  obtain ⟨hlt, rfl⟩ := List.getElem?_eq_some_iff.1 hx
  rw [List.map_set, hy, ← List.map_set, List.set_getElem_self]

namespace Batch

variable {p₀ : Option Profiler} {ks : List Track} {b : Batch}

/-- A batch is sound before its first turn. -/
theorem Sound.start (reclaimEvery : Nat) (p₀ : Option Profiler) (hkeyed : ∀ p ∈ p₀, p.Keyed)
    (threads : List Thread) :
    Sound reclaimEvery p₀ (threads.map fun t => ⟨t, [], .start t⟩) (.start p₀ threads) := by
  refine ⟨by simp [Batch.start], ?_, ?_⟩
  · intro k hk
    obtain ⟨t, _, rfl⟩ := List.mem_map.1 hk
    exact .start _ t
  · cases p₀ with
    | none => exact .none
    | some p =>
      refine .some ?_
      have htold := (Profiler.Tally.start (hkeyed p rfl)).beginAll (threads.flatMap (·.entryEvents))
      simpa [List.flatMap_map, List.map_flatMap, Track.events, Job.start] using htold

/-- A job takes a turn, and the others stay as they are. -/
theorem Sound.set (h : b.Sound reclaimEvery p₀ ks) {n : Nat} {k : Track} (hn : ks[n]? = some k)
    (k' : Track) (horigin : k'.origin = k.origin)
    (hjob : k'.job.Underway { reclaimEvery } k.origin k'.told) {profiler : Option Profiler}
    (htally : ∀ es ops, (ks.flatMap (·.events)).Perm (k.events ++ es) →
      (ks.flatMap (·.job.todo)).Perm (k.job.todo ++ ops) →
      Option.Rel (fun p₀ p => p₀.Tally (k'.events ++ es) (k'.job.todo ++ ops) p) p₀ profiler) :
    Sound reclaimEvery p₀ (ks.set n k') ⟨b.jobs.set n k'.job, profiler⟩ := by
  obtain ⟨es, hes, hsetes⟩ := flatMap_set_perm hn Track.events
  obtain ⟨ops, hops, hsetops⟩ := flatMap_set_perm hn (·.job.todo)
  refine ⟨by rw [h.jobs, List.map_set], fun l hl => ?_, ?_⟩
  · rcases List.mem_or_eq_of_mem_set hl with hl | rfl
    · exact h.underway l hl
    · rwa [horigin]
  · cases htally es ops hes hops with
    | none => exact .none
    | some ht => exact .some (ht.perm (hsetes k').symm (hsetops k').symm)

/-- **Every turn keeps a batch sound.** -/
theorem Sound.move (h : b.Sound reclaimEvery p₀ ks) (n : Nat) :
    ∃ ks', (b.move reclaimEvery n).Sound reclaimEvery p₀ ks' ∧
      ks'.map (·.origin) = ks.map (·.origin) := by
  cases hn : ks[n]? with
  | none =>
    refine ⟨ks, ?_, rfl⟩
    have hjob : b.jobs[n]? = none := by rw [h.jobs, List.getElem?_map, hn]; rfl
    rwa [Batch.move, hjob]
  | some k =>
    have hjob : b.jobs[n]? = some k.job := by rw [h.jobs, List.getElem?_map, hn]; rfl
    have hk := h.underway k (List.mem_of_getElem? hn)
    have horigins : ∀ k' : Track, k'.origin = k.origin →
        (ks.set n k').map (·.origin) = ks.map (·.origin) := fun _ => map_set_of_eq hn
    have htally := h.tally
    rcases k.job.move_cases reclaimEvery b.profiler with
      ⟨p, op, rest, hp, htodo, hmove⟩ | ⟨htodo, hmove⟩
    · let k' : Track := { k with job := { k.job with todo := (p.perform op).2.toList ++ rest } }
      refine ⟨ks.set n k', ?_, horigins k' rfl⟩
      rw [Batch.move, hjob]
      simp only [hmove]
      refine h.set hn k' rfl (hk.perform (by simp [htodo]) _) fun es ops hes hops => ?_
      rw [hp] at htally
      cases htally with
      | some ht =>
        rw [htodo] at hops
        exact .some (by simpa [k', Track.events] using (ht.perm hes hops).perform)
    · obtain ⟨told, hunderway, hnew⟩ := hk.proceed
      let k' : Track := ⟨k.origin, k.told ++ told, k.job.proceed reclaimEvery⟩
      refine ⟨ks.set n k', ?_, horigins k' rfl⟩
      rw [Batch.move, hjob]
      simp only [hmove]
      refine h.set hn k' rfl hunderway fun es ops hes hops => ?_
      generalize b.profiler = profiler at htally htodo
      cases htally with
      | none => exact .none
      | @some p₀ p ht =>
        rw [htodo p rfl] at hops
        have htold := (ht.perm hes hops).beginAll told
        rw [← hnew] at htold
        refine .some (htold.perm ?_ (.refl _))
        simpa [k', Track.events] using List.perm_append_comm_assoc told k.events es

/-- Every schedule keeps a batch sound. -/
theorem Sound.run (h : b.Sound reclaimEvery p₀ ks) (schedule : List Nat) :
    ∃ ks', (b.run reclaimEvery schedule).Sound reclaimEvery p₀ ks' ∧
      ks'.map (·.origin) = ks.map (·.origin) := by
  induction schedule generalizing b ks with
  | nil => exact ⟨ks, h, rfl⟩
  | cons n schedule ih =>
    obtain ⟨ks₁, h₁, horigin₁⟩ := h.move n
    obtain ⟨ks₂, h₂, horigin₂⟩ := ih h₁
    exact ⟨ks₂, h₂, horigin₂.trans horigin₁⟩

/-- What running threads one after the other leaves. -/
theorem runAll_of_finishes (reclaimEvery : Nat) {ks : List Track}
    (h : ∀ k ∈ ks, k.origin.Finishes { reclaimEvery } k.told k.job.thread) :
    ∃ n, ∀ budget profiler, runAll reclaimEvery (n + budget) profiler (ks.map (·.origin)) =
      ⟨ks.map (·.job.thread), profiler.map (·.recordAll (ks.flatMap (·.events))), budget,
        false⟩ := by
  induction ks with
  | nil =>
    refine ⟨0, fun budget profiler => ?_⟩
    cases profiler <;> simp [runAll, Profiler.recordAll]
  | cons k ks ih =>
    obtain ⟨m, hm⟩ := ih fun k' hk' => h k' (List.mem_cons_of_mem _ hk')
    obtain ⟨n, hn⟩ := (h k (List.mem_cons_self ..)).runFrom rfl
    refine ⟨n + m, fun budget profiler => ?_⟩
    obtain ⟨e, he⟩ := hn (m + budget) (profiler.map (·.begin k.origin))
    have hrun : k.origin.run { reclaimEvery } (n + m + budget) profiler =
        ⟨k.job.thread, profiler.map (·.recordAll k.events), m + budget, .exited e⟩ := by
      rw [Thread.run, Nat.add_assoc, he, Option.map_map]
      congr 2
      funext p
      simp [Profiler.begin_eq, Track.events, Profiler.recordAll_append]
    simp only [List.map_cons, runAll, hrun, hm, Option.map_map, List.flatMap_cons]
    congr 2
    funext p
    simp [Profiler.recordAll_append]

/-- **Parallel and sequential batches agree.** In whatever order the threads of a batch take turns
until they have all ended, with or without a profiler: running them one after the other with a large
enough budget ends them all as well, every thread is left as it is there, with the same exit, and
the profiler has the same counts of instructions and calls, the same hot functions and the same
totals. -/
theorem run_eq_runAll (reclaimEvery : Nat) (profiler : Option Profiler) (threads : List Thread)
    (schedule : List Nat) (hkeyed : ∀ p ∈ profiler, p.Keyed)
    (hend : ((start profiler threads).run reclaimEvery schedule).Finished) :
    ∃ n, ∀ budget, n ≤ budget →
      (runAll reclaimEvery budget profiler threads).canceled = false ∧
      (∀ t ∈ (runAll reclaimEvery budget profiler threads).threads, t.exit.isSome = true) ∧
      ((start profiler threads).run reclaimEvery schedule).jobs.map (·.thread) =
        (runAll reclaimEvery budget profiler threads).threads ∧
      Option.Rel Profiler.Agrees ((start profiler threads).run reclaimEvery schedule).profiler
        (runAll reclaimEvery budget profiler threads).profiler := by
  obtain ⟨ks, hsound, horigins⟩ := (Sound.start reclaimEvery profiler hkeyed threads).run schedule
  have hthreads : threads = ks.map (·.origin) := by
    rw [horigins, List.map_map]
    exact (List.map_id threads).symm
  have hended : ∀ k ∈ ks, k.origin.Finishes { reclaimEvery } k.told k.job.thread ∧
      k.job.todo = [] := by
    intro k hk
    have hstage : k.job.stage = .ended :=
      hend k.job (by rw [hsound.jobs]; exact List.mem_map_of_mem hk)
    have hunderway := hsound.underway k hk
    generalize k.job = j at hstage hunderway
    cases hunderway with
    | ready | live | exited => cases hstage
    | ended h => exact ⟨h, rfl⟩
  have hops : ks.flatMap (·.job.todo) = [] := by
    rw [List.flatMap_eq_nil_iff]
    exact fun k hk => (hended k hk).2
  obtain ⟨n, hn⟩ := runAll_of_finishes reclaimEvery fun k hk => (hended k hk).1
  refine ⟨n, fun budget hbudget => ?_⟩
  obtain ⟨more, rfl⟩ := Nat.exists_eq_add_of_le hbudget
  have hall := hn more profiler
  rw [← hthreads] at hall
  rw [hall]
  refine ⟨rfl, fun t ht => ?_, ?_, ?_⟩
  · obtain ⟨k, hk, rfl⟩ := List.mem_map.1 ht
    exact (hended k hk).1.isSome_exit
  · rw [hsound.jobs, List.map_map]
    rfl
  · have htally := hsound.tally
    rw [hops] at htally
    generalize ((start profiler threads).run reclaimEvery schedule).profiler = p at htally
    cases htally with
    | none => exact .none
    | @some p₀ p ht =>
      exact .some (ht.agrees ((Profiler.Tally.start (hkeyed p₀ rfl)).recordAll _) (by simp))

/-- Two threads of `callSample` take turns; the second of them makes the main function hot. -/
theorem run_eq_runAll_callSample : ∃ t n, Thread.start [] Thread.callSample {} = .ok t ∧
    let b := (start (some { threshold := 2 }) [t, t]).run 0 ((List.range 40).map (· % 2))
    b.Finished ∧ ∀ budget, n ≤ budget →
      (runAll 0 budget (some { threshold := 2 }) [t, t]).canceled = false ∧
      b.jobs.map (·.thread) = (runAll 0 budget (some { threshold := 2 }) [t, t]).threads ∧
      Option.Rel Profiler.Agrees b.profiler
        (runAll 0 budget (some { threshold := 2 }) [t, t]).profiler := by
  have hkeyed : ∀ p ∈ some ({ threshold := 2 } : Profiler), p.Keyed := by
    rintro p ⟨⟩
    exact List.nodup_nil
  obtain ⟨t, ht, hend⟩ : ∃ t, Thread.start [] Thread.callSample {} = .ok t ∧
      ((start (some { threshold := 2 }) [t, t]).run 0 ((List.range 40).map (· % 2))).Finished :=
    ⟨_, rfl, by decide⟩
  obtain ⟨n, hn⟩ := run_eq_runAll 0 (some { threshold := 2 }) [t, t] _ hkeyed hend
  exact ⟨t, n, ht, hend, fun budget hbudget => ⟨(hn budget hbudget).1, (hn budget hbudget).2.2⟩⟩

end Batch

end RegisterMachine
