import Mathlib.Data.List.Nodup
import RegisterMachine.Engine.Batch
import RegisterMachine.Proofs.Engine.ProfilerCounts

/-!
# A shared profiler

`Profiler.Tally` says how a profiler is related to what it was before and to the events that it has
been told since, while operations of some of them are still to be carried out. It holds in every
order in which the operations are carried out (`Profiler.Tally.begin`, `Profiler.Tally.perform`),
and when none is left it says what the profiler is (`Profiler.Tally.agrees`).
-/

namespace RegisterMachine

/-- The operations that have yet to count a call of a function. -/
def ProfilerOp.awaits (hash : UInt64) : ProfilerOp → Bool
  | .lookUp h | .increment h => h == hash
  | _ => false

section
variable (h h' : UInt64) (n : Nat)

@[simp] theorem ProfilerOp.awaits_count : (count n).awaits h = false := rfl

@[simp] theorem ProfilerOp.awaits_lookUp : (lookUp h').awaits h = (h' == h) := rfl

@[simp] theorem ProfilerOp.awaits_increment : (increment h').awaits h = (h' == h) := rfl

@[simp] theorem ProfilerOp.awaits_mark : (mark h' n).awaits h = false := rfl

@[simp] theorem ProfilerOp.awaits_announce : (announce h' n).awaits h = false := rfl

@[simp] theorem ProfilerOp.announces_count : (count n).announces = false := rfl

@[simp] theorem ProfilerOp.announces_lookUp : (lookUp h).announces = false := rfl

@[simp] theorem ProfilerOp.announces_increment : (increment h).announces = false := rfl

@[simp] theorem ProfilerOp.announces_mark : (mark h n).announces = false := rfl

@[simp] theorem ProfilerOp.announces_announce : (announce h n).announces = true := rfl

end

namespace Profiler

variable {p₀ p q : Profiler} {hash hash' : UInt64}

/-- A function has one profile. -/
def Keyed (p : Profiler) : Prop := (p.functions.map (·.hash)).Nodup

/-- How many functions are marked hot. -/
def marked (p : Profiler) : Nat := p.functions.countP (·.hot)

@[simp] theorem marked_recordInstruction (p : Profiler) (n : Nat) :
    (p.recordInstruction n).marked = p.marked := rfl

/-- Two profiles of one function are the same. -/
theorem Keyed.eq_of_hash_eq (h : p.Keyed) {f g : FunctionProfile} (hf : f ∈ p.functions)
    (hg : g ∈ p.functions) (heq : f.hash = g.hash) : f = g :=
  List.inj_on_of_nodup_map h hf hg heq

/-- A function is found exactly if its profile is among those that are kept. -/
theorem function?_eq_some (h : p.Keyed) {f : FunctionProfile} :
    p.function? hash = some f ↔ f ∈ p.functions ∧ f.hash = hash := by
  constructor
  · intro hf
    exact ⟨List.mem_of_find?_eq_some hf, by simpa using List.find?_some hf⟩
  · rintro ⟨hf, rfl⟩
    obtain ⟨g, hg⟩ : ∃ g, p.function? f.hash = some g :=
      Option.isSome_iff_exists.1 (List.find?_isSome.2 ⟨f, hf, by simp⟩)
    have hmem : g ∈ p.functions := List.mem_of_find?_eq_some hg
    have hhash : g.hash = f.hash := by simpa using List.find?_some hg
    rw [hg, h.eq_of_hash_eq hmem hf hhash]

/-- A profile is found by its hash. -/
theorem Keyed.function?_of_mem (h : p.Keyed) {f : FunctionProfile} (hf : f ∈ p.functions) :
    p.function? f.hash = some f :=
  (function?_eq_some h).2 ⟨hf, rfl⟩

/-! ## Changing a profile -/

section
variable (p : Profiler) (hash : UInt64) (g : FunctionProfile → FunctionProfile)

@[simp] theorem threshold_change : (p.change hash g).threshold = p.threshold := rfl

@[simp] theorem instructions_change : (p.change hash g).instructions = p.instructions := rfl

@[simp] theorem hotCount_change : (p.change hash g).hotCount = p.hotCount := rfl

@[simp] theorem announced_change : (p.change hash g).announced = p.announced := rfl

end

/-- Changing a function's profile changes nothing for the other functions. -/
theorem function?_change {g : FunctionProfile → FunctionProfile}
    (hg : ∀ f, f.hash = hash → (g f).hash = hash) (hash' : UInt64) :
    (p.change hash g).function? hash' =
      if hash' = hash then (p.function? hash').map g else p.function? hash' :=
  find?_changed hg hash'

/-- Changing a profile leaves one for each function. -/
theorem Keyed.change (h : p.Keyed) {g : FunctionProfile → FunctionProfile}
    (hg : ∀ f, f.hash = hash → (g f).hash = hash) : (p.change hash g).Keyed := by
  have hmap : (p.change hash g).functions.map (·.hash) = p.functions.map (·.hash) := by
    simp only [Profiler.change, List.map_map]
    refine List.map_congr_left fun f _ => ?_
    by_cases hf : f.hash = hash <;> simp [hf, hg]
  rwa [Keyed, hmap]

/-- Changes that do the same to a function's profile do the same to the profiler. -/
theorem change_congr {g g' : FunctionProfile → FunctionProfile}
    (h : ∀ f ∈ p.functions, f.hash = hash → g f = g' f) : p.change hash g = p.change hash g' := by
  have hmap : (p.change hash g).functions = (p.change hash g').functions := by
    refine List.map_congr_left fun f hf => ?_
    by_cases hhash : f.hash = hash
    · simp [hhash, h f hf hhash]
    · simp [hhash]
  show { p with functions := (p.change hash g).functions } = _
  rw [hmap]
  rfl

/-- Two changes of a profile in a row are one change. -/
theorem change_change {g g' : FunctionProfile → FunctionProfile}
    (hg : ∀ f, f.hash = hash → (g f).hash = hash) :
    (p.change hash g).change hash g' = p.change hash fun f => g' (g f) := by
  simp only [Profiler.change, List.map_map]
  congr 1
  refine List.map_congr_left fun f _ => ?_
  by_cases hf : f.hash = hash <;> simp [hf, hg]

/-- Marking a function that is not hot makes one more function hot. -/
theorem Keyed.marked_change (h : p.Keyed) {f : FunctionProfile} (hf : p.function? hash = some f)
    (hhot : f.hot = false) :
    (p.change hash fun f => { f with hot := true }).marked = p.marked + 1 := by
  obtain ⟨hmem, rfl⟩ := (function?_eq_some h).1 hf
  obtain ⟨fs, fs', hfs⟩ := List.append_of_mem hmem
  have hkeys := h
  rw [Keyed, hfs, List.map_append, List.map_cons, List.nodup_append, List.nodup_cons] at hkeys
  obtain ⟨_, ⟨hfs', _⟩, hne⟩ := hkeys
  have hsame : ∀ gs : List FunctionProfile, (∀ g ∈ gs, g.hash ≠ f.hash) →
      gs.map (fun g => if g.hash == f.hash then { g with hot := true } else g) = gs := by
    intro gs hgs
    refine (List.map_congr_left fun g hg => ?_).trans (List.map_id gs)
    simp [hgs g hg]
  have hleft := hsame fs fun g hg => hne _ (List.mem_map_of_mem hg) _ (List.mem_cons_self ..)
  have hright := hsame fs' fun g hg heq => hfs' (heq ▸ List.mem_map_of_mem hg)
  simp only [marked, Profiler.change, hfs, List.map_append, List.map_cons, hleft, hright,
    List.countP_append, List.countP_cons, hhot]
  simp
  omega

/-- A change that leaves the flags alone leaves the number of hot functions alone. -/
theorem marked_change_of_hot {g : FunctionProfile → FunctionProfile} (hg : ∀ f, (g f).hot = f.hot) :
    (p.change hash g).marked = p.marked := by
  simp only [marked, Profiler.change, List.countP_map]
  refine List.countP_congr fun f _ => ?_
  by_cases hf : f.hash = hash <;> simp [hf, hg]

/-! ## Operations carried out without a break -/

/-- Operations are carried out one after the other, each with those that have to follow it. -/
inductive Performs : Profiler → List ProfilerOp → Profiler → Prop
  | nil {p : Profiler} : Performs p [] p
  | cons {p q : Profiler} {op : ProfilerOp} {ops : List ProfilerOp} :
      Performs (p.perform op).1 ((p.perform op).2.toList ++ ops) q → Performs p (op :: ops) q

/-- An operation that none follows is carried out alone. -/
theorem Performs.one {op : ProfilerOp} (h : (p.perform op).2 = none) :
    Performs p [op] (p.perform op).1 :=
  .cons (by rw [h]; exact .nil)

/-- An operation is carried out before the one that follows it. -/
theorem Performs.follow {op next : ProfilerOp} (hnext : (p.perform op).2 = some next)
    (h : Performs (p.perform op).1 [next] q) : Performs p [op] q :=
  .cons (by rw [hnext]; exact h)

/-- Marking a hot function does nothing. -/
theorem perform_mark_of_hot (h : p.isHot hash = true) (n : Nat) :
    p.perform (.mark hash n) = (p, none) := if_pos h

/-- Marking a function that is not hot makes it hot, and has that announced. -/
theorem perform_mark_of_cold (h : p.isHot hash = false) (n : Nat) :
    p.perform (.mark hash n) =
      (p.change hash fun f => { f with hot := true }, some (.announce hash n)) :=
  if_neg (by rw [h]; exact Bool.false_ne_true)

/-- Recording a call of a known function changes its profile. -/
theorem recordCall_known (h : p.Keyed) {f : FunctionProfile} (hf : p.function? hash = some f) :
    (p.recordCall hash).1 =
      let hot := decide (p.threshold ≤ f.count + 1) && !f.hot
      let q := p.change hash fun f => { f with count := f.count + 1, hot := f.hot || hot }
      if hot then
        { q with
          hotCount := p.hotCount + 1
          announced := ⟨hash, f.count + 1, true⟩ :: p.announced }
      else q := by
  obtain ⟨hmem, hhash⟩ := (function?_eq_some h).1 hf
  have hchange : ∀ b, (p.change hash fun g => { g with count := g.count + 1, hot := g.hot || b }) =
      p.change hash fun _ => ⟨hash, f.count + 1, f.hot || b⟩ := by
    intro b
    refine change_congr fun g hg hgh => ?_
    rw [h.eq_of_hash_eq hg hmem (hgh.trans hhash.symm), hhash]
  unfold recordCall
  simp only [hf, Option.getD_some, Option.isSome_some, if_true, hchange]
  cases hhot : decide (p.threshold ≤ f.count + 1) && !f.hot with
  | false => rfl
  | true =>
    have htrue : (f.hot || true) = true := Bool.or_true _
    simp only [if_true, htrue]
    rfl

/-- Counting a call of a known function takes the operations from the increment on. -/
theorem performs_increment (h : p.Keyed) {f : FunctionProfile} (hf : p.function? hash = some f) :
    Performs p [.increment hash] (p.recordCall hash).1 := by
  have hkeep : ∀ g : FunctionProfile, g.hash = hash → { g with count := g.count + 1 }.hash = hash :=
    fun _ hg => hg
  rw [recordCall_known h hf]
  set q := p.change hash fun g => { g with count := g.count + 1 } with hq
  have hknown : q.function? hash = some { f with count := f.count + 1 } := by
    rw [hq, function?_change hkeep, if_pos rfl, hf]
    rfl
  have hcalls : q.calls hash = f.count + 1 := by
    rw [calls, hknown]
    rfl
  have hincrement : p.perform (.increment hash) =
      (q, if p.threshold ≤ f.count + 1 then some (.mark hash (f.count + 1)) else none) := by
    rw [← hcalls]
    rfl
  by_cases hreach : p.threshold ≤ f.count + 1
  · have hnext : (p.perform (.increment hash)).2 = some (.mark hash (f.count + 1)) := by
      rw [hincrement, if_pos hreach]
    refine .follow hnext ?_
    · rw [hincrement]
      cases hhot : f.hot with
      | true =>
        have hmark : q.perform (.mark hash (f.count + 1)) = (q, none) :=
          perform_mark_of_hot (by rw [isHot, hknown]; exact hhot) _
        have hdone := Performs.one (congrArg Prod.snd hmark)
        rw [hmark] at hdone
        simpa [hq, hreach] using hdone
      | false =>
        have hmark : q.perform (.mark hash (f.count + 1)) =
            (q.change hash fun g => { g with hot := true }, some (.announce hash (f.count + 1))) :=
          perform_mark_of_cold (by rw [isHot, hknown]; exact hhot) _
        refine .follow (congrArg Prod.snd hmark) ?_
        have hdone : Performs (q.perform (.mark hash (f.count + 1))).1
            [.announce hash (f.count + 1)] _ := .one rfl
        rw [hmark] at hdone ⊢
        simpa [hq, hreach, change_change hkeep, perform] using hdone
  · have hdone : Performs p [.increment hash] _ := .one (by rw [hincrement, if_neg hreach])
    simpa [hincrement, hq, hreach] using hdone

/-- A profiler with the counter of a function that it does not have yet. -/
def opened (p : Profiler) (hash : UInt64) : Profiler :=
  { p with functions := p.functions ++ [⟨hash, 0, false⟩] }

/-- A function that is not known has no profile. -/
theorem hash_ne_of_unknown (h : p.function? hash = none) {f : FunctionProfile}
    (hf : f ∈ p.functions) : f.hash ≠ hash := by
  have := List.find?_eq_none.1 h f hf
  simpa using this

/-- Opening a counter makes one function known, with no calls. -/
theorem function?_opened (h : p.function? hash = none) (hash' : UInt64) :
    (p.opened hash).function? hash' =
      if hash' = hash then some ⟨hash, 0, false⟩ else p.function? hash' := by
  show (p.functions ++ [(⟨hash, 0, false⟩ : FunctionProfile)]).find? (·.hash == hash') = _
  rw [List.find?_append]
  split
  · next hh =>
    subst hh
    rw [show p.functions.find? (·.hash == hash') = none from h]
    simp
  · next hh =>
    simp [beq_eq_false_iff_ne.2 (Ne.symm hh), function?]

/-- Opening a counter for a function that is not known leaves one profile for each. -/
theorem Keyed.opened (h : p.Keyed) (hnone : p.function? hash = none) : (p.opened hash).Keyed := by
  rw [Keyed, Profiler.opened, List.map_append, List.nodup_append]
  refine ⟨h, by simp, fun a ha b hb => ?_⟩
  obtain ⟨f, hf, rfl⟩ := List.mem_map.1 ha
  obtain rfl : b = hash := by simpa using hb
  exact hash_ne_of_unknown hnone hf

/-- Recording a call makes the counter of an unknown function first. -/
theorem recordCall_opened (h : p.function? hash = none) :
    (p.opened hash).recordCall hash = p.recordCall hash := by
  have hsame : ∀ f : FunctionProfile,
      (p.opened hash).functions.map (fun g => if g.hash == hash then f else g) =
        p.functions ++ [f] := by
    intro f
    have hmap : p.functions.map (fun g => if g.hash == hash then f else g) = p.functions := by
      refine (List.map_congr_left fun g hg => ?_).trans (List.map_id _)
      simp [hash_ne_of_unknown h hg]
    rw [Profiler.opened, List.map_append, hmap]
    simp
  have hfound : (p.opened hash).function? hash = some ⟨hash, 0, false⟩ := by
    rw [function?_opened h, if_pos rfl]
  unfold recordCall
  simp only [hfound, h, Option.getD_some, Option.getD_none, Option.isSome_some, Option.isSome_none,
    if_true, Bool.false_eq_true, if_false, hsame]
  rfl

/-- **Recording a call is what its operations do without a break.** -/
theorem performs_record (h : p.Keyed) (e : ProfilerEvent) : Performs p [e.op] (p.record e) := by
  cases e with
  | instruction n => exact .one rfl
  | call hash =>
    have hnext : (p.perform (.lookUp hash)).2 = some (.increment hash) := rfl
    refine .follow hnext ?_
    cases hf : p.function? hash with
    | some f =>
      have hlookUp : (p.perform (.lookUp hash)).1 = p := if_pos (by rw [hf]; rfl)
      show Performs (p.perform (.lookUp hash)).1 _ _
      rw [hlookUp]
      exact performs_increment h hf
    | none =>
      have hlookUp : (p.perform (.lookUp hash)).1 = p.opened hash := if_neg (by rw [hf]; simp)
      show Performs (p.perform (.lookUp hash)).1 _ (p.recordCall hash).1
      rw [hlookUp, ← recordCall_opened hf]
      exact performs_increment (h.opened hf) ((function?_opened hf hash).trans (if_pos rfl))

/-! ## What operations do to the counts -/

/-- A function that is not known has no calls. -/
theorem calls_eq_zero (h : p.function? hash = none) : p.calls hash = 0 := by
  rw [calls, h]
  rfl

/-- A function that has calls is known. -/
theorem isSome_of_calls_pos (h : 0 < p.calls hash) : (p.function? hash).isSome = true := by
  cases hf : p.function? hash with
  | none => rw [calls_eq_zero hf] at h; cases h
  | some f => rfl

/-- A function is hot exactly if its profile says so. -/
theorem isHot_eq (p : Profiler) (hash : UInt64) :
    p.isHot hash = ((p.function? hash).map (·.hot)).getD false := by
  rw [isHot]
  cases p.function? hash <;> rfl

/-- What looking a function up makes of a profiler. -/
structure LookedUp (p : Profiler) (hash : UInt64) (q : Profiler) : Prop where
  keyed : q.Keyed
  known : ∀ h, (q.function? h).isSome ↔ (p.function? h).isSome ∨ h = hash
  calls : ∀ h, q.calls h = p.calls h
  isHot : ∀ h, q.isHot h = p.isHot h
  marked : q.marked = p.marked
  rest : q.threshold = p.threshold ∧ q.instructions = p.instructions ∧ q.hotCount = p.hotCount

/-- What looking a function up does. -/
theorem Keyed.lookUp (h : p.Keyed) (hash : UInt64) :
    p.LookedUp hash (p.perform (.lookUp hash)).1 := by
  cases hf : p.function? hash with
  | some f =>
    rw [show (p.perform (.lookUp hash)).1 = p from if_pos (by rw [hf]; rfl)]
    refine ⟨h, fun h' => ?_, fun _ => rfl, fun _ => rfl, rfl, rfl, rfl, rfl⟩
    refine ⟨.inl, fun hor => hor.elim id fun heq => ?_⟩
    rw [heq, hf]
    rfl
  | none =>
    rw [show (p.perform (.lookUp hash)).1 = p.opened hash from if_neg (by rw [hf]; simp)]
    have hfun := function?_opened hf
    refine ⟨h.opened hf, fun h' => ?_, fun h' => ?_, fun h' => ?_, ?_, rfl, rfl, rfl⟩
    · rw [hfun]
      split <;> simp_all
    · rw [calls, hfun]
      split
      · next heq => rw [heq, calls_eq_zero hf]; rfl
      · rfl
    · rw [isHot_eq, hfun, isHot_eq]
      split
      · next heq => simp [heq, hf]
      · rfl
    · simp [Profiler.marked, Profiler.opened]

/-- What one more call makes of a profiler. -/
structure Incremented (p : Profiler) (hash : UInt64) (q : Profiler) : Prop where
  keyed : q.Keyed
  known : ∀ h, (q.function? h).isSome = (p.function? h).isSome
  calls : ∀ h, q.calls h = p.calls h + if h = hash then 1 else 0
  isHot : ∀ h, q.isHot h = p.isHot h
  marked : q.marked = p.marked
  rest : q.threshold = p.threshold ∧ q.instructions = p.instructions ∧ q.hotCount = p.hotCount

/-- What counting one more call does. -/
theorem Keyed.increment (h : p.Keyed) (hknown : (p.function? hash).isSome = true) :
    p.Incremented hash (p.perform (.increment hash)).1 := by
  show p.Incremented hash (p.change hash fun f => { f with count := f.count + 1 })
  have hkeep : ∀ f : FunctionProfile, f.hash = hash → { f with count := f.count + 1 }.hash = hash :=
    fun _ hf => hf
  have hfun := function?_change (p := p) hkeep
  refine ⟨h.change hkeep, fun h' => ?_, fun h' => ?_, fun h' => ?_,
    marked_change_of_hot fun _ => rfl, rfl, rfl, rfl⟩
  · rw [hfun]
    split <;> simp
  · rw [calls, hfun, calls]
    split
    · next heq =>
      obtain ⟨f, hf⟩ := Option.isSome_iff_exists.1 hknown
      simp [heq, hf]
    · rfl
  · rw [isHot_eq, hfun, isHot_eq]
    split
    · cases p.function? h' <;> rfl
    · rfl

/-- What making a function hot makes of a profiler. -/
structure Marked (p : Profiler) (hash : UInt64) (q : Profiler) : Prop where
  keyed : q.Keyed
  known : ∀ h, (q.function? h).isSome = (p.function? h).isSome
  calls : ∀ h, q.calls h = p.calls h
  isHot : ∀ h, q.isHot h = true ↔ p.isHot h = true ∨ h = hash
  marked : q.marked = p.marked + 1
  rest : q.threshold = p.threshold ∧ q.instructions = p.instructions ∧ q.hotCount = p.hotCount

/-- What making a function hot does. -/
theorem Keyed.mark (h : p.Keyed) (hknown : (p.function? hash).isSome = true)
    (hcold : p.isHot hash = false) :
    p.Marked hash (p.change hash fun f => { f with hot := true }) := by
  have hkeep : ∀ f : FunctionProfile, f.hash = hash → { f with hot := true }.hash = hash :=
    fun _ hf => hf
  have hfun := function?_change (p := p) hkeep
  obtain ⟨f, hf⟩ := Option.isSome_iff_exists.1 hknown
  refine ⟨h.change hkeep, fun h' => ?_, fun h' => ?_, fun h' => ?_,
    h.marked_change hf (by simpa [isHot_eq, hf] using hcold), rfl, rfl, rfl⟩
  · rw [hfun]
    split <;> simp
  · rw [calls, hfun, calls]
    split
    · cases p.function? h' <;> rfl
    · rfl
  · rw [isHot_eq, hfun, isHot_eq]
    split
    · next heq => simp [heq, hf]
    · next hne => simp [hne]

/-! ## The tally -/

/-- How the profiler `p` comes about from `p₀` by the events `es`, when the operations `ops` are
still to be carried out. -/
structure Tally (p₀ : Profiler) (es : List ProfilerEvent) (ops : List ProfilerOp) (p : Profiler) :
    Prop where
  threshold : p.threshold = p₀.threshold
  keyed : p.Keyed
  size : p.instructions.size = p₀.instructions.size
  instructions : ∀ n < p₀.instructions.size, p.instructions[n]?.getD 0 + ops.count (.count n) =
    p₀.instructions[n]?.getD 0 + es.count (.instruction n)
  calls : ∀ hash, p.calls hash + ops.countP (·.awaits hash) =
    p₀.calls hash + es.count (.call hash)
  calls_le : ∀ hash, p₀.calls hash ≤ p.calls hash
  known : ∀ hash, (p.function? hash).isSome ↔
    (p₀.function? hash).isSome ∨ ops.count (.lookUp hash) < es.count (.call hash)
  stays : ∀ hash, p₀.isHot hash → p.isHot hash
  hot : ∀ hash, p.isHot hash →
    p₀.isHot hash ∨ p₀.threshold ≤ p.calls hash ∧ p₀.calls hash < p.calls hash
  due : ∀ hash, p₀.threshold ≤ p.calls hash → p₀.calls hash < p.calls hash →
    p.isHot hash ∨ ∃ n, .mark hash n ∈ ops
  marks : ∀ hash n, .mark hash n ∈ ops → p₀.threshold ≤ p.calls hash ∧ p₀.calls hash < p.calls hash
  hotCount : p.hotCount + ops.countP (·.announces) + p₀.marked = p₀.hotCount + p.marked

namespace Tally

variable {es es' : List ProfilerEvent} {ops ops' : List ProfilerOp}

/-- Nothing has been recorded to start with. -/
theorem start (h : p.Keyed) : p.Tally [] [] p := by
  constructor <;> simp [h]

/-- The order of the events and of the operations does not matter. -/
theorem perm (h : p₀.Tally es ops p) (hes : es.Perm es') (hops : ops.Perm ops') :
    p₀.Tally es' ops' p := by
  obtain ⟨h1, h2, h3, h4, h5, h6, h7, h8, h9, h10, h11, h12⟩ := h
  refine ⟨h1, h2, h3, fun n hn => ?_, fun hash => ?_, h6, fun hash => ?_, h8, h9,
    fun hash hle hlt => ?_, fun hash n hmem => ?_, ?_⟩
  · rw [← hops.count_eq, ← hes.count_eq]; exact h4 n hn
  · rw [← hops.countP_eq, ← hes.count_eq]; exact h5 hash
  · rw [← hops.count_eq, ← hes.count_eq]; exact h7 hash
  · simpa only [hops.mem_iff] using h10 hash hle hlt
  · exact h11 hash n (hops.mem_iff.2 hmem)
  · rw [← hops.countP_eq]; exact h12

/-- An event brings the operation that it begins with. -/
theorem begin (h : p₀.Tally es ops p) (e : ProfilerEvent) : p₀.Tally (e :: es) (e.op :: ops) p := by
  cases e with
  | instruction n =>
    refine { h with
      instructions :=
        fun m hm => ?_, calls := ?_, known := ?_, due := ?_, marks := ?_, hotCount := ?_ }
    · have := h.instructions m hm
      simp only [ProfilerEvent.op, List.count_cons, beq_iff_eq, ProfilerOp.count.injEq,
        ProfilerEvent.instruction.injEq]
      omega
    · simpa [ProfilerEvent.op] using h.calls
    · simpa [ProfilerEvent.op] using h.known
    · simpa [ProfilerEvent.op] using h.due
    · simpa [ProfilerEvent.op] using h.marks
    · simpa [ProfilerEvent.op] using h.hotCount
  | call hash =>
    refine { h with
      instructions := ?_, calls := fun h' => ?_, known := fun h' => ?_, due := ?_, marks := ?_
      hotCount := ?_ }
    · simpa [ProfilerEvent.op] using h.instructions
    · have := h.calls h'
      simp only [ProfilerEvent.op, List.count_cons, List.countP_cons, ProfilerOp.awaits_lookUp,
        beq_iff_eq, ProfilerEvent.call.injEq]
      omega
    · simpa [ProfilerEvent.op, List.count_cons] using h.known h'
    · simpa [ProfilerEvent.op] using h.due
    · simpa [ProfilerEvent.op] using h.marks
    · simpa [ProfilerEvent.op] using h.hotCount

/-- Beginning events leaves their operations to be carried out. -/
theorem beginAll (h : p₀.Tally es ops p) (es' : List ProfilerEvent) :
    p₀.Tally (es' ++ es) (es'.map (·.op) ++ ops) p := by
  induction es' with
  | nil => exact h
  | cons e es' ih => exact ih.begin e

/-- Counting an instruction. -/
theorem performCount {n : Nat} (h : p₀.Tally es (.count n :: ops) p) :
    p₀.Tally es ops (p.recordInstruction n) := by
  refine { h with size := ?_, instructions := fun m hm => ?_, calls := ?_, known := ?_, due := ?_
                  marks := ?_, hotCount := ?_ }
  · simpa [recordInstruction] using h.size
  · have := h.instructions m hm
    have hlt : m < p.instructions.size := h.size ▸ hm
    simp only [List.count_cons, beq_iff_eq, ProfilerOp.count.injEq, recordInstruction,
      Array.getElem?_modify] at this ⊢
    split
    · next heq =>
      rw [if_pos heq, Array.getElem?_eq_getElem hlt] at this
      simp only [Array.getElem?_eq_getElem hlt, Option.map_some, Option.getD_some] at this ⊢
      omega
    · next hne =>
      rw [if_neg hne] at this
      exact this
  · simpa using h.calls
  · simpa using h.known
  · simpa using h.due
  · simpa using h.marks
  · simpa using h.hotCount

/-- Looking a function up. -/
theorem performLookUp {hash : UInt64} (h : p₀.Tally es (.lookUp hash :: ops) p) :
    p₀.Tally es (.increment hash :: ops) (p.perform (.lookUp hash)).1 := by
  obtain ⟨hkeyed, hknown, hcalls, hhot, hmarked, hthreshold, hinstructions, hcount⟩ :=
    h.keyed.lookUp hash
  refine { threshold := hthreshold.trans h.threshold, keyed := hkeyed, size := ?_
           instructions := fun m hm => ?_, calls := fun h' => ?_, calls_le := fun h' => ?_
           known := fun h' => ?_, stays := fun h' => ?_, hot := fun h' => ?_
           due := fun h' => ?_, marks := fun h' => ?_, hotCount := ?_ }
  · rw [hinstructions]; exact h.size
  · rw [hinstructions]; simpa using h.instructions m hm
  · rw [hcalls]; simpa [List.countP_cons] using h.calls h'
  · rw [hcalls]; exact h.calls_le h'
  · -- A call whose counter has not been looked up is one of the events.
    have hle : (ProfilerOp.lookUp hash :: ops).count (.lookUp h') ≤ es.count (.call h') := by
      have hsub : (ProfilerOp.lookUp hash :: ops).count (.lookUp h') ≤
          (ProfilerOp.lookUp hash :: ops).countP (·.awaits h') :=
        List.countP_mono_left fun op _ hop => by
          rw [show op = .lookUp h' by simpa using hop]
          simp
      have := h.calls h'
      have := h.calls_le h'
      omega
    rw [hknown, h.known h']
    simp only [List.count_cons, beq_iff_eq, ProfilerOp.lookUp.injEq, reduceCtorEq, if_false,
      Nat.add_zero] at hle ⊢
    by_cases heq : h' = hash
    · simp [heq] at hle ⊢
      exact .inr (by omega)
    · simp [heq, Ne.symm heq]
  · rw [hhot]; exact h.stays h'
  · rw [hhot, hcalls]; exact h.hot h'
  · rw [hhot, hcalls]; simpa using h.due h'
  · rw [hcalls]; simpa using h.marks h'
  · rw [hcount, hmarked]; simpa using h.hotCount

/-- An increment that is to be carried out finds its counter. -/
theorem known_of_increment {hash : UInt64} (h : p₀.Tally es (.increment hash :: ops) p) :
    (p.function? hash).isSome = true := by
  by_contra hunknown
  have hnone : p.function? hash = none := by simpa using hunknown
  have hknown := mt (h.known hash).2 hunknown
  rw [not_or] at hknown
  have hzero : p₀.calls hash = 0 := calls_eq_zero (by simpa using hknown.1)
  -- Otherwise every call would still wait to be looked up, and one of them to be counted as well.
  have hlookUps : ops.count (.lookUp hash) ≤ ops.countP (·.awaits hash) :=
    List.countP_mono_left fun op _ hop => by
      rw [show op = .lookUp hash by simpa using hop]
      simp
  have hcalls := h.calls hash
  have hwaiting := hknown.2
  simp only [List.countP_cons, ProfilerOp.awaits_increment, beq_self_eq_true, if_true,
    calls_eq_zero hnone, hzero] at hcalls
  rw [List.count_cons_of_ne (by simp)] at hwaiting
  omega

/-- Counting a call: the function is to be made hot when it has now been called often enough. -/
theorem performIncrement {hash : UInt64} (h : p₀.Tally es (.increment hash :: ops) p) :
    p₀.Tally es ((p.perform (.increment hash)).2.toList ++ ops)
      (p.perform (.increment hash)).1 := by
  obtain ⟨hkeyed, hknown, hcalls, hhot, hmarked, hthreshold, hinstructions, hcount⟩ :=
    h.keyed.increment h.known_of_increment
  have hnext : (p.perform (.increment hash)).2 =
      if p.threshold ≤ p.calls hash + 1 then some (.mark hash (p.calls hash + 1)) else none := by
    have := hcalls hash
    rw [if_pos rfl] at this
    rw [← this, ← hthreshold]
    rfl
  have hsame : ∀ (P : ProfilerOp → Bool), (∀ n, P (.mark hash n) = false) →
      ((p.perform (.increment hash)).2.toList ++ ops).countP P = ops.countP P := by
    intro P hP
    rw [hnext, List.countP_append]
    split <;> simp [hP]
  have hsameCount : ∀ op : ProfilerOp, (∀ n, .mark hash n ≠ op) →
      ((p.perform (.increment hash)).2.toList ++ ops).count op = ops.count op :=
    fun op hop => hsame (· == op) fun n => beq_eq_false_iff_ne.2 (hop n)
  refine { threshold := hthreshold.trans h.threshold, keyed := hkeyed, size := ?_
           instructions := fun m hm => ?_, calls := fun h' => ?_, calls_le := fun h' => ?_
           known := fun h' => ?_, stays := fun h' => ?_, hot := fun h' => ?_
           due := fun h' => ?_, marks := fun h' => ?_, hotCount := ?_ }
  · rw [hinstructions]; exact h.size
  · rw [hinstructions, hsameCount _ (by simp)]
    simpa using h.instructions m hm
  · have := h.calls h'
    rw [hcalls, hsame _ (by simp)]
    simp only [List.countP_cons, ProfilerOp.awaits_increment, beq_iff_eq, @eq_comm _ hash] at this
    omega
  · have := h.calls_le h'
    rw [hcalls]
    omega
  · rw [hknown, hsameCount _ (by simp)]
    simpa using h.known h'
  · rw [hhot]; exact h.stays h'
  · intro hb
    rw [hhot] at hb
    rw [hcalls]
    rcases h.hot h' hb with h0 | ⟨hle, hlt⟩
    · exact .inl h0
    · exact .inr ⟨by omega, by omega⟩
  · intro hle hlt
    rw [hcalls] at hle hlt
    rw [hhot]
    by_cases heq : h' = hash
    · subst heq
      rw [if_pos rfl, ← h.threshold] at hle
      exact .inr ⟨p.calls h' + 1, by rw [hnext, if_pos hle]; simp⟩
    · rw [if_neg heq] at hle hlt
      rcases h.due h' hle hlt with hb | ⟨n, hn⟩
      · exact .inl hb
      · exact .inr ⟨n, List.mem_append_right _ (by simpa using hn)⟩
  · intro n hn
    rw [hcalls]
    have hle := h.calls_le h'
    rcases List.mem_append.1 hn with hnew | hold
    · rw [hnext] at hnew
      split at hnew
      · next hreach =>
        obtain ⟨rfl, rfl⟩ : h' = hash ∧ n = p.calls hash + 1 := by simpa using hnew
        rw [if_pos rfl, ← h.threshold]
        exact ⟨hreach, by omega⟩
      · simp at hnew
    · obtain ⟨h1, h2⟩ := h.marks h' n (List.mem_cons_of_mem _ hold)
      exact ⟨by omega, by omega⟩
  · rw [hcount, hmarked, hsame _ (by simp)]
    simpa using h.hotCount

/-- Making a function hot, unless it has become hot meanwhile. -/
theorem performMark {hash : UInt64} {n : Nat} (h : p₀.Tally es (.mark hash n :: ops) p) :
    p₀.Tally es ((p.perform (.mark hash n)).2.toList ++ ops) (p.perform (.mark hash n)).1 := by
  obtain ⟨hreach, hcalled⟩ := h.marks hash n (List.mem_cons_self ..)
  cases hb : p.isHot hash with
  | true =>
    rw [perform_mark_of_hot hb]
    refine { h with
      instructions := fun m hm => ?_, calls := ?_, known := ?_, due := fun h' hle hlt => ?_
      marks := fun h' k hk => h.marks h' k (List.mem_cons_of_mem _ hk), hotCount := ?_ }
    · simpa using h.instructions m hm
    · simpa using h.calls
    · simpa using h.known
    · rcases h.due h' hle hlt with hh | ⟨k, hk⟩
      · exact .inl hh
      · rcases List.mem_cons.1 hk with heq | hk
        · obtain ⟨rfl, rfl⟩ : h' = hash ∧ k = n := by simpa using heq
          exact .inl hb
        · exact .inr ⟨k, hk⟩
    · simpa using h.hotCount
  | false =>
    obtain ⟨hkeyed, hknown, hcalls, hhot, hmarked, hthreshold, hinstructions, hcount⟩ :=
      h.keyed.mark (isSome_of_calls_pos (Nat.zero_lt_of_lt hcalled)) hb
    rw [perform_mark_of_cold hb]
    refine { threshold := hthreshold.trans h.threshold, keyed := hkeyed, size := ?_
             instructions := fun m hm => ?_, calls := fun h' => ?_, calls_le := fun h' => ?_
             known := fun h' => ?_, stays := fun h' => ?_, hot := fun h' => ?_
             due := fun h' hle hlt => ?_, marks := fun h' k hk => ?_, hotCount := ?_ }
    · rw [hinstructions]; exact h.size
    · rw [hinstructions]; simpa using h.instructions m hm
    · rw [hcalls]; simpa using h.calls h'
    · rw [hcalls]; exact h.calls_le h'
    · rw [hknown]; simpa using h.known h'
    · exact fun h0 => (hhot h').2 (.inl (h.stays h' h0))
    · intro hh
      rw [hcalls]
      rcases (hhot h').1 hh with hh | rfl
      · exact h.hot h' hh
      · exact .inr ⟨hreach, hcalled⟩
    · rw [hcalls] at hle hlt
      rw [hhot]
      rcases h.due h' hle hlt with hh | ⟨k, hk⟩
      · exact .inl (.inl hh)
      · rcases List.mem_cons.1 hk with heq | hk
        · obtain ⟨rfl, rfl⟩ : h' = hash ∧ k = n := by simpa using heq
          exact .inl (.inr rfl)
        · exact .inr ⟨k, List.mem_append_right _ hk⟩
    · rw [hcalls]
      exact h.marks h' k (List.mem_cons_of_mem _ (by simpa using hk))
    · have := h.hotCount
      rw [hcount, hmarked]
      simp only [Option.toList_some, List.cons_append, List.nil_append, List.countP_cons,
        ProfilerOp.announces_announce, ProfilerOp.announces_mark] at this ⊢
      simp at this ⊢
      omega

/-- Counting a hot function. -/
theorem performAnnounce {hash : UInt64} {n : Nat} (h : p₀.Tally es (.announce hash n :: ops) p) :
    p₀.Tally es ops (p.perform (.announce hash n)).1 := by
  have hinstructions := h.instructions
  have hcalls := h.calls
  have hknown := h.known
  have hdue := h.due
  have hmarks := h.marks
  have hcount := h.hotCount
  simp only [List.count_cons, List.countP_cons, ProfilerOp.awaits_announce,
    ProfilerOp.announces_announce, List.mem_cons, beq_iff_eq, reduceCtorEq, false_or, if_true,
    if_false, Nat.add_zero, Bool.false_eq_true] at hinstructions hcalls hknown hdue hmarks hcount
  refine { h with instructions := hinstructions, calls := hcalls, known := hknown, due := hdue
                  marks := hmarks, hotCount := ?_ }
  show p.hotCount + 1 + _ + _ = _ + p.marked
  omega

/-- **Carrying an operation out keeps the tally**, with the operation that has to follow it. -/
theorem perform {op : ProfilerOp} (h : p₀.Tally es (op :: ops) p) :
    p₀.Tally es ((p.perform op).2.toList ++ ops) (p.perform op).1 := by
  cases op with
  | count n => exact h.performCount
  | lookUp hash => exact h.performLookUp
  | increment hash => exact h.performIncrement
  | mark hash n => exact h.performMark
  | announce hash n => exact h.performAnnounce

/-- Operations that are carried out without a break leave the others to be carried out. -/
theorem performs (hops : Performs p ops q) (h : p₀.Tally es (ops ++ ops') p) :
    p₀.Tally es ops' q := by
  induction hops with
  | nil => exact h
  | cons _ ih => exact ih (by simpa using h.perform)

/-- Recording events one by one leaves no operations. -/
theorem recordAll (h : p₀.Tally es [] p) (es' : List ProfilerEvent) :
    p₀.Tally (es'.reverse ++ es) [] (p.recordAll es') := by
  induction es' generalizing es p with
  | nil => exact h
  | cons e es' ih =>
    have hbegin : p₀.Tally (e :: es) ([e.op] ++ []) p := h.begin e
    have hrecord := hbegin.performs (performs_record h.keyed e)
    simpa [Profiler.recordAll] using ih hrecord

end Tally

/-! ## Profilers that say the same -/

/-- Two profilers have the same counts and the same hot functions. -/
structure Agrees (p q : Profiler) : Prop where
  instructions : p.instructions = q.instructions
  function? : ∀ hash, p.function? hash = q.function? hash
  stats : p.stats = q.stats

/-- Profilers with the same profiles have them in some order. -/
theorem Keyed.functions_perm (hp : p.Keyed) (hq : q.Keyed)
    (h : ∀ hash, p.function? hash = q.function? hash) : p.functions.Perm q.functions := by
  refine (List.perm_ext_iff_of_nodup (List.Nodup.of_map _ hp) (List.Nodup.of_map _ hq)).2 ?_
  intro f
  have hmem : ∀ {r : Profiler}, r.Keyed → (f ∈ r.functions ↔ r.function? f.hash = some f) :=
    fun hr => by rw [function?_eq_some hr]; simp
  rw [hmem hp, hmem hq, h]

/-- The profile that is found is that of the function looked for. -/
theorem Keyed.hash_eq (h : p.Keyed) {f : FunctionProfile} (hf : p.function? hash = some f) :
    f.hash = hash :=
  ((function?_eq_some h).1 hf).2

/-- The profile of a known function says how often it was called and whether it is hot. -/
theorem Keyed.function?_eq (h : p.Keyed) (hknown : (p.function? hash).isSome = true) :
    p.function? hash = some ⟨hash, p.calls hash, p.isHot hash⟩ := by
  obtain ⟨f, hf⟩ := Option.isSome_iff_exists.1 hknown
  have hcalls : p.calls hash = f.count := by rw [calls, hf]; rfl
  have hhot : p.isHot hash = f.hot := by rw [isHot_eq, hf]; rfl
  calc p.function? hash = some ⟨f.hash, f.count, f.hot⟩ := hf
    _ = some ⟨hash, p.calls hash, p.isHot hash⟩ := by rw [h.hash_eq hf, hcalls, hhot]

/-- When all is carried out, the hot functions are those that were hot before, and those that were
called since and have reached the threshold. -/
theorem Tally.isHot_iff {es : List ProfilerEvent} (h : p₀.Tally es [] p) :
    p.isHot hash = true ↔
      p₀.isHot hash = true ∨ p₀.threshold ≤ p.calls hash ∧ p₀.calls hash < p.calls hash := by
  refine ⟨h.hot hash, fun hor => hor.elim (h.stays hash) fun ⟨hle, hlt⟩ => ?_⟩
  simpa using h.due hash hle hlt

/-- **What a profiler says after some events depends neither on their order nor on that of the
operations that record them.** -/
theorem Tally.agrees {es es' : List ProfilerEvent} (hp : p₀.Tally es [] p) (hq : p₀.Tally es' [] q)
    (hes : es.Perm es') : p.Agrees q := by
  replace hq := hq.perm hes.symm (.refl _)
  have hinstructions : p.instructions = q.instructions := by
    refine Array.ext (hp.size.trans hq.size.symm) fun n hn hn' => ?_
    have h1 := hp.instructions n (hp.size ▸ hn)
    have h2 := hq.instructions n (hp.size ▸ hn)
    simpa [hn, hn'] using h1.trans h2.symm
  have hcalls : ∀ hash, p.calls hash = q.calls hash := fun hash => by
    simpa using (hp.calls hash).trans (hq.calls hash).symm
  have hisHot : ∀ hash, p.isHot hash = q.isHot hash := fun hash =>
    Bool.eq_iff_iff.2 (by rw [hp.isHot_iff, hq.isHot_iff, hcalls])
  have hknown : ∀ hash, (p.function? hash).isSome = (q.function? hash).isSome := fun hash =>
    Bool.eq_iff_iff.2 (by rw [hp.known, hq.known])
  have hfunctions : ∀ hash, p.function? hash = q.function? hash := by
    intro hash
    cases hsome : (p.function? hash).isSome with
    | false =>
      have hunknown : (q.function? hash).isSome = false := hknown hash ▸ hsome
      rw [Option.isSome_eq_false_iff, Option.isNone_iff_eq_none] at hsome hunknown
      rw [hsome, hunknown]
    | true =>
      rw [hp.keyed.function?_eq hsome, hq.keyed.function?_eq (hknown hash ▸ hsome), hcalls, hisHot]
  have hperm := hp.keyed.functions_perm hq.keyed hfunctions
  refine ⟨hinstructions, hfunctions, ?_⟩
  have hhots : p.hotCount = q.hotCount := by
    have h1 := hp.hotCount
    have h2 := hq.hotCount
    have h3 : p.marked = q.marked := hperm.countP_eq _
    simp only [List.countP_nil] at h1 h2
    omega
  rw [stats, stats, hperm.length_eq, hhots, (hperm.map _).sum_nat, hinstructions]

end Profiler

end RegisterMachine
