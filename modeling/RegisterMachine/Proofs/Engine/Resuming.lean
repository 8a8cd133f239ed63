import RegisterMachine.Proofs.Engine.Unobservable
import RegisterMachine.Proofs.Memory.Marking

/-!
# Resumed runs

A run that its budget cancels leaves the thread so that another run can go on. A run with a larger
budget is a run with a smaller one and, if that was canceled, another run of what it left
(`Thread.runFrom_add`); this holds wherever the budget gives out, because a reclaim belongs to the
step before it. After the exit nothing changes any more, since the last reclaim left nothing to free
(`Thread.Settled`). Hence runs that are canceled again and again amount to one run with all their
budgets together (`Thread.run_resumed`).
-/

namespace RegisterMachine.Thread

variable {opts : RunOptions} {profiler : Option Profiler} {t : Thread} {e : Exit} {a b n : Nat}

/-- The thread after several runs, each with its budget. -/
def resumed (opts : RunOptions) (t : Thread) (budgets : List Nat) : Thread :=
  budgets.foldl (fun t budget => (t.run opts budget none).thread) t

/-! ## One run and another -/

/-- A run without a profiler ends without one. -/
theorem runFrom_profiler_none (opts : RunOptions) (n : Nat) (t : Thread) :
    (t.runFrom opts n none).profiler = none := by
  induction n generalizing t with
  | zero => rfl
  | succ n ih =>
    rw [runFrom_succ]
    split
    · rfl
    · split
      · rfl
      · exact ih _

/-- A run stops at a trap only if it is asked to. -/
theorem halt_runFrom_ne_trapped (htrap : opts.stopAtTrap = false) :
    (t.runFrom opts n profiler).halt ≠ .trapped := by
  induction n generalizing profiler t with
  | zero => nofun
  | succ n ih =>
    rw [runFrom_succ]
    split
    · nofun
    · rw [if_neg (by simp [htrap])]
      exact ih

/-- **A larger budget goes on where a smaller one gave out**, and otherwise it is left over. -/
theorem runFrom_add (opts : RunOptions) (a b : Nat) (profiler : Option Profiler) (t : Thread) :
    t.runFrom opts (a + b) profiler =
      if (t.runFrom opts a profiler).halt = .canceled then
        (t.runFrom opts a profiler).thread.runFrom opts b (t.runFrom opts a profiler).profiler
      else
        { t.runFrom opts a profiler with budget := (t.runFrom opts a profiler).budget + b } := by
  induction a generalizing profiler t with
  | zero => rw [Nat.zero_add]; rfl
  | succ a ih =>
    rw [Nat.add_right_comm, runFrom_succ, runFrom_succ]
    cases t.step.2.exit with
    | some e => rfl
    | none =>
      dsimp only
      split
      · rfl
      · exact ih _ _

/-! ## After the exit -/

/-- A thread that has ended and whose heap has been reclaimed since. -/
structure Settled (t : Thread) (e : Exit) : Prop where
  exit : t.exit = some e
  reclaimed : t.reclaim.1 = t

/-- Reclaiming again changes nothing. -/
theorem reclaim_reclaim (t : Thread) : t.reclaim.1.reclaim.1 = t.reclaim.1 :=
  congrArg (fun r => { t.reclaim.1 with heap := r.1 }) (t.heap.reclaim_reclaim t.roots)

/-- A run that comes to an exit settles the thread. -/
theorem settled_runFrom (h : (t.runFrom opts n profiler).halt = .exited e) :
    (t.runFrom opts n profiler).thread.Settled e := by
  induction n generalizing profiler t with
  | zero => cases h
  | succ n ih =>
    rw [runFrom_succ] at h ⊢
    cases hexit : t.step.2.exit with
    | some e' =>
      rw [hexit] at h
      cases h
      exact ⟨hexit, t.step.2.reclaim_reclaim⟩
    | none =>
      rw [hexit] at h
      dsimp only at h ⊢
      split at h
      · cases h
      · next hgo =>
        rw [if_neg hgo]
        exact ih h

/-- Running a settled thread changes nothing, and gives the exit unless there is no budget. -/
theorem Settled.runFrom (h : t.Settled e) (opts : RunOptions) (n : Nat)
    (profiler : Option Profiler) : (t.runFrom opts n profiler).thread = t ∧
      ((t.runFrom opts n profiler).halt = .canceled ∨ (t.runFrom opts n profiler).halt =
        .exited e) := by
  cases n with
  | zero => exact ⟨rfl, .inl rfl⟩
  | succ n =>
    rw [runFrom_succ, step_ended (by rw [h.exit]; rfl), h.exit]
    exact ⟨h.reclaimed, .inr rfl⟩

/-! ## Run after run -/

/-- **Two runs leave what one run does** with both budgets together. -/
theorem run_run_thread (htrap : opts.stopAtTrap = false) (a b : Nat) (t : Thread) :
    ((t.run opts a none).thread.run opts b none).thread = (t.run opts (a + b) none).thread := by
  show ((t.runFrom opts a none).thread.runFrom opts b none).thread =
    (t.runFrom opts (a + b) none).thread
  rw [runFrom_add, runFrom_profiler_none]
  cases hhalt : (t.runFrom opts a none).halt with
  | canceled => rw [if_pos rfl]
  | trapped => exact absurd hhalt (halt_runFrom_ne_trapped htrap)
  | exited e =>
    rw [if_neg nofun]
    exact ((settled_runFrom hhalt).runFrom opts b none).1

/-- Runs that do not stop at traps come, one after the other, to where one run with all their
budgets comes. -/
theorem resumed_eq_run (htrap : opts.stopAtTrap = false) (t : Thread) (budgets : List Nat) :
    t.resumed opts budgets = (t.run opts budgets.sum none).thread := by
  induction budgets generalizing t with
  | nil => rfl
  | cons a budgets ih => exact (ih _).trans (run_run_thread htrap a budgets.sum t)

/-- An exit that two runs come to, one run comes to with any budget that is as large as both. -/
theorem run_of_run_run (htrap : opts.stopAtTrap = false) {u : Thread}
    (hu : u = (t.run opts a none).thread) (hhalt : (u.run opts b none).halt = .exited e)
    (hn : a + b ≤ n) :
    (t.run opts n none).halt = .exited e ∧
      (t.run opts n none).thread = (u.run opts b none).thread := by
  subst hu
  obtain ⟨more, rfl⟩ := Nat.exists_eq_add_of_le hn
  have hboth : (t.run opts (a + b) none).halt = .exited e := by
    show (t.runFrom opts (a + b) none).halt = .exited e
    rw [runFrom_add, runFrom_profiler_none]
    cases hfirst : (t.runFrom opts a none).halt with
    | canceled => exact hhalt
    | trapped => exact absurd hfirst (halt_runFrom_ne_trapped htrap)
    | exited e' =>
      rw [if_neg nofun]
      rcases ((settled_runFrom hfirst).runFrom opts b none).2 with hlast | hlast
      · exact absurd (hlast.symm.trans hhalt) nofun
      · exact hfirst.trans (hlast.symm.trans hhalt)
  rw [run_run_thread htrap]
  -- Once both budgets together lead to the exit, what is added to them is left over.
  show (t.runFrom opts (a + b + more) none).halt = _ ∧
    (t.runFrom opts (a + b + more) none).thread = _
  rw [runFrom_add, if_neg (by rw [show (t.runFrom opts (a + b) none).halt = _ from hboth]; nofun)]
  exact ⟨hboth, rfl⟩

/-- **A canceled run resumes as if it had not been interrupted.** However often the heap is
reclaimed and whatever budgets cancel the runs of a thread, one after the other: they leave the
thread that one run with the sum of the budgets leaves. If the next run comes to an exit, then one
run with any budget that is large enough comes to the same exit, and leaves the same thread. -/
theorem run_resumed (reclaimEvery : Nat) (t : Thread) (budgets : List Nat) :
    t.resumed { reclaimEvery } budgets = (t.run { reclaimEvery } budgets.sum none).thread ∧
      ∀ budget e,
        ((t.resumed { reclaimEvery } budgets).run { reclaimEvery } budget none).halt = .exited e →
        ∀ n, budgets.sum + budget ≤ n → (t.run { reclaimEvery } n none).halt = .exited e ∧
          (t.run { reclaimEvery } n none).thread =
            ((t.resumed { reclaimEvery } budgets).run { reclaimEvery } budget none).thread :=
  ⟨resumed_eq_run rfl t budgets, fun _ _ hhalt _ hn =>
    run_of_run_run rfl (resumed_eq_run rfl t budgets) hhalt hn⟩

/-- `droppedSample` with a reclaim after every second step, canceled after one step, at once, after
three more steps, and then run to its end. -/
theorem run_resumed_droppedSample : ∃ t e, start [] droppedSample {} = .ok t ∧
    (t.resumed ⟨2, false⟩ [1, 0, 3]).steps = 4 ∧
    ((t.resumed ⟨2, false⟩ [1, 0, 3]).run ⟨2, false⟩ 10 none).halt = .exited e ∧
    t.resumed ⟨2, false⟩ [1, 0, 3] = (t.run ⟨2, false⟩ 4 none).thread ∧
    (t.run ⟨2, false⟩ 20 none).halt = .exited e := by
  have ht : start [] droppedSample {} = .ok _ := rfl
  obtain ⟨hsame, hexit⟩ := run_resumed 2 _ [1, 0, 3]
  exact ⟨_, .graceful (.heapRef ⟨0, 1⟩), ht, by decide +kernel, by decide +kernel, hsame,
    (hexit 10 _ (by decide +kernel) 20 (by decide)).1⟩

end RegisterMachine.Thread
