import Mathlib.Algebra.Order.BigOperators.Group.List
import Mathlib.Algebra.Order.Group.Nat
import Mathlib.Data.List.Nodup
import RegisterMachine.Proofs.Assembly.Source
import RegisterMachine.Proofs.Engine.Runs

/-!
# Assembled functions can be entered

A line of a source is one of a few kinds (`Assembly.LineKind`), and what the first pass notes of a
line depends on its kind (`Assembly.Outline.Change`). Every line keeps what is known of the
functions (`Assembly.Outline.Laid`): no two have the same name, the header of each stands where the
function starts, and once a function has ended, the label of its end is the one that its own `.end`
wrote. The `.end` that matches a `.fn` is found by counting (`Assembly.bodyOf`), and is the one that
takes the function from the stack of the first pass (`Assembly.Outline.Changes.closes`). So the
header of every function holds the function's hash and end (`Assembly.functions_enterable`), and a
thread of the program finds both there.
-/

namespace RegisterMachine.Assembly

/-! ## Lines -/

/-- What a line is to the first pass. -/
inductive LineKind where
  | function (name : Bytes) (hash : UInt64)
  | stop
  | entry (name : Bytes)
  | instruction
  /-- A label, a native call, or nothing. -/
  | other
  deriving DecidableEq, Inhabited

/-- The kind of a line without comment. -/
def lineKind (text : Bytes) : LineKind :=
  if (labelOf? text).isSome then .other
  else match Text.words text with
    | [] => .other
    | first :: args =>
      if first = utf8 ".fn" then
        match args with
        | [name, hash] =>
          match Number.parseUnsigned .byMark 64 hash with
          | .ok h => .function name (UInt64.ofNat h)
          | .error _ => .other
        | _ => .other
      else if first = utf8 ".end" then .stop
      else if first = utf8 ".entry" then
        match args with
        | [name] => .entry name
        | _ => .other
      else if (Mnemonic.parse? first).isSome then .instruction
      else .other

/-- The kinds of the lines of a source. -/
def lineKinds (src : Bytes) : List LineKind :=
  (Text.lines Text.lineLimit src).lines.map fun l => lineKind (stripComment l)

/-- How many instructions a line stands for. -/
def LineKind.size : LineKind → Nat
  | function _ _ => 2
  | instruction => 1
  | _ => 0

/-- How many instructions lines stand for. -/
def codeLength (ks : List LineKind) : Nat := (ks.map (·.size)).sum

/-- The lines up to the `.end` that ends the function in which the given number of functions has
been started. -/
def bodyOf : Nat → List LineKind → Option (List LineKind)
  | _, [] => none
  | depth, k :: ks =>
    match k, depth with
    | .stop, 0 => some []
    | .stop, depth + 1 => (bodyOf depth ks).map (k :: ·)
    | .function _ _, depth => (bodyOf (depth + 1) ks).map (k :: ·)
    | _, depth => (bodyOf depth ks).map (k :: ·)

/-- The name of the entry after some lines. -/
def entryFrom (name : Bytes) (ks : List LineKind) : Bytes :=
  ks.foldl (fun name k => match k with
    | .entry name => name
    | _ => name) name

/-- The name that the last `.entry` gives. -/
def entryName (ks : List LineKind) : Bytes := entryFrom (utf8 "main") ks

@[simp] theorem codeLength_nil : codeLength [] = 0 := rfl

@[simp] theorem codeLength_cons (k : LineKind) (ks : List LineKind) :
    codeLength (k :: ks) = k.size + codeLength ks := rfl

@[simp] theorem codeLength_append (ks ks' : List LineKind) :
    codeLength (ks ++ ks') = codeLength ks + codeLength ks' := by
  simp [codeLength]

/-- An empty line is nothing. -/
theorem lineKind_nil : lineKind [] = .other := by decide +kernel

/-! ## What a line changes -/

namespace Outline

/-- What a line of some kind makes of the outline when it is accepted. -/
inductive Change (o : Outline) : LineKind → Outline → Prop
  | nothing : Change o .other o
  | label {name : Bytes} : o.labels.index? name = none →
      Change o .other { o with labels := (name, o.count) :: o.labels }
  | native (n : NativeLine) : Change o .other { o with natives := n :: o.natives }
  | entry (name : Bytes) : Change o (.entry name) { o with entry := name }
  | instruction {line : Nat} {m : Mnemonic} {s : Bytes} : Change o .instruction
      { o with items := ⟨line, m, .text s⟩ :: o.items, count := o.count + 1 }
  | function {line : Nat} {name : Bytes} {hash : UInt64} : o.labels.index? name = none →
      Change o (.function name hash)
        { o with
          labels := (name, o.count) :: o.labels
          opened := ⟨name, hash, o.count⟩ :: o.opened
          items := ⟨line, .store .a, .endOf name⟩ :: ⟨line, .function, .hash hash⟩ :: o.items
          count := o.count + 2 }
  | stop {f : OpenFunction} {rest : List OpenFunction} : o.opened = f :: rest →
      Change o .stop
        { o with
          opened := rest
          closed := ⟨f, o.count⟩ :: o.closed
          labels := (endLabel f.name, o.count) :: o.labels }

variable {o o' : Outline} {k : LineKind} {ks : List LineKind}

/-- A label is added exactly if it is new, and then it names the next instruction. -/
theorem addLabel_eq_ok {name : Bytes} (h : o.addLabel name = .ok o') :
    o.labels.index? name = none ∧ o' = { o with labels := (name, o.count) :: o.labels } := by
  unfold addLabel at h
  split at h
  · cases h
  · next hnew =>
    cases h
    exact ⟨Option.not_isSome_iff_eq_none.1 hnew, rfl⟩

/-- **An accepted line changes the outline as its kind says.** -/
theorem change_of_addLine {line : Nat} {text : Bytes} (h : o.addLine line text = .ok o') :
    o.Change (lineKind text) o' := by
  unfold addLine at h
  rw [lineKind]
  split at h
  · next name hlabel =>
    rw [hlabel]
    obtain ⟨hnew, rfl⟩ := addLabel_eq_ok h
    exact .label hnew
  next hlabel =>
  rw [hlabel, if_neg (by simp)]
  cases hwords : Text.words text with
  | nil =>
    rw [hwords] at h
    cases h
    exact .nothing
  | cons first args =>
  rw [hwords] at h
  dsimp only at h ⊢
  by_cases hfn : first = utf8 ".fn"
  · rw [if_pos hfn] at h ⊢
    split at h
    · unfold openFunction at h
      split at h
      · cases h
      split at h
      · cases h
      · next hhash =>
        obtain ⟨o₁, hlabel, rfl⟩ := Except.map_eq_ok.1 h
        obtain ⟨hnew, rfl⟩ := addLabel_eq_ok hlabel
        dsimp only
        rw [hhash]
        exact .function hnew
    · cases h
  rw [if_neg hfn] at h ⊢
  by_cases hend : first = utf8 ".end"
  · rw [if_pos hend] at h ⊢
    unfold closeFunction at h
    split at h
    · cases h
    · next hopened =>
      cases h
      exact .stop hopened
  rw [if_neg hend] at h ⊢
  by_cases hentry : first = utf8 ".entry"
  · rw [if_pos hentry] at h ⊢
    split at h
    · cases h
      exact .entry _
    · cases h
  rw [if_neg hentry] at h ⊢
  by_cases hnative : first = utf8 ".native"
  · rw [if_pos hnative] at h
    rw [hnative, if_neg (by decide +kernel)]
    split at h
    · split at h
      · cases h
      · cases h
        exact .native _
    · cases h
  rw [if_neg hnative] at h
  split at h
  · cases h
  split at h
  · cases h
  · next hparse =>
    cases h
    rw [hparse]
    exact .instruction

/-- What lines of some kinds make of the outline, one after the other. -/
inductive Changes : Outline → List LineKind → Outline → Prop
  | nil {o : Outline} : Changes o [] o
  | cons {o o₁ o' : Outline} {k : LineKind} {ks : List LineKind} :
      Change o k o₁ → Changes o₁ ks o' → Changes o (k :: ks) o'

/-- Reading lines changes the outline as the kinds of these lines say. -/
theorem changes_of_addLines {line : Nat} {ls : List Bytes} (h : o.addLines line ls = .ok o') :
    o.Changes (ls.map fun l => lineKind (stripComment l)) o' := by
  induction ls generalizing o line with
  | nil => cases h; exact .nil
  | cons l ls ih =>
    unfold addLines at h
    dsimp only at h
    split at h
    · next hempty =>
      rw [List.map_cons, List.isEmpty_iff.1 hempty, lineKind_nil]
      exact .cons .nothing (ih h)
    split at h
    · cases h
    · next hline => exact .cons (change_of_addLine hline) (ih h)

/-- The outline of a source is that of its lines, and leaves no function open. -/
theorem ofSource_eq_ok {src : Bytes} (h : ofSource src = .ok o) :
    addLines {} 1 (Text.lines Text.lineLimit src).lines = .ok o ∧ o.opened = [] := by
  unfold ofSource at h
  dsimp only at h
  split at h
  · cases h
  next hlines =>
  split at h
  · cases h
  split at h
  · cases h
  · next hopened =>
    cases h
    exact ⟨hlines, hopened⟩

/-- The outline of a source comes about line by line, and leaves no function open. -/
theorem changes_of_ofSource {src : Bytes} (h : ofSource src = .ok o) :
    Changes {} (lineKinds src) o ∧ o.opened = [] := by
  obtain ⟨hlines, hopened⟩ := ofSource_eq_ok h
  exact ⟨changes_of_addLines hlines, hopened⟩

/-- A change by many lines is one by those before a line, by the line and by those behind it. -/
theorem Changes.split {before after : List LineKind} (h : o.Changes (before ++ k :: after) o') :
    ∃ o₁ o₂, o.Changes before o₁ ∧ o₁.Change k o₂ ∧ o₂.Changes after o' := by
  induction before generalizing o with
  | nil =>
    cases h with
    | cons hone hrest => exact ⟨o, _, .nil, hone, hrest⟩
  | cons _ before ih =>
    cases h with
    | cons hone hrest =>
      obtain ⟨o₁, o₂, hbefore, hchange, hafter⟩ := ih hrest
      exact ⟨o₁, o₂, .cons hone hbefore, hchange, hafter⟩

/-! ## Counting -/

/-- A line adds as many instructions as its kind has. -/
theorem Change.count (h : o.Change k o') : o'.count = o.count + k.size := by
  cases h <;> rfl

/-- Lines add as many instructions as their kinds have together. -/
theorem Changes.count (h : o.Changes ks o') : o'.count = o.count + codeLength ks := by
  induction h with
  | nil => rfl
  | cons hone _ ih => rw [ih, hone.count, codeLength_cons, Nat.add_assoc]

/-- The entry after lines is the last one that a line among them names. -/
theorem Changes.entry (h : o.Changes ks o') : o'.entry = entryFrom o.entry ks := by
  induction h with
  | nil => rfl
  | cons hone _ ih =>
    rw [ih]
    cases hone <;> rfl

/-- Functions that are closed stay closed. -/
theorem Changes.closed_subset (h : o.Changes ks o') : o.closed ⊆ o'.closed := by
  induction h with
  | nil => exact List.Subset.refl _
  | cons hone _ ih =>
    cases hone with
    | stop => exact List.Subset.trans (List.subset_cons_self ..) ih
    | _ => exact ih

/-- **A function ends at the `.end` that matches it**, which is there if no function stays open. -/
theorem Changes.closes (h : o.Changes ks o') {inner rest : List OpenFunction} {f : OpenFunction}
    (hopened : o.opened = inner ++ f :: rest) (hend : o'.opened = []) :
    ∃ body, bodyOf inner.length ks = some body ∧ ⟨f, o.count + codeLength body⟩ ∈ o'.closed := by
  induction h generalizing inner with
  | nil =>
    rw [hend] at hopened
    simp at hopened
  | @cons o o₁ o' k ks hone hrest ih =>
    -- Unless the function ends here, the line belongs to its body.
    have hlater : ∀ inner' : List OpenFunction, o₁.opened = inner' ++ f :: rest →
        bodyOf inner.length (k :: ks) = (bodyOf inner'.length ks).map (k :: ·) →
        ∃ body, bodyOf inner.length (k :: ks) = some body ∧
          ⟨f, o.count + codeLength body⟩ ∈ o'.closed := by
      intro inner' hopened' hbody'
      obtain ⟨body, hbody, hclosed⟩ := ih hopened' hend
      refine ⟨k :: body, by rw [hbody', hbody]; rfl, ?_⟩
      rwa [codeLength_cons, ← Nat.add_assoc, ← hone.count]
    cases hone with
    | nothing | label | native | entry | instruction => exact hlater inner hopened rfl
    | @function line name hash _ =>
      exact hlater (⟨name, hash, o.count⟩ :: inner) (congrArg _ hopened) rfl
    | @stop g rest' hopened' =>
      rw [hopened'] at hopened
      cases inner with
      | nil =>
        obtain ⟨rfl, rfl⟩ := List.cons.inj hopened
        exact ⟨[], rfl, hrest.closed_subset List.mem_cons_self⟩
      | cons g' inner =>
        obtain ⟨rfl, rfl⟩ := List.cons.inj hopened
        exact hlater inner rfl rfl

/-- In lines that leave no function open, a function is closed where the matching `.end` stands. -/
theorem exists_closed {before after : List LineKind} {name : Bytes} {hash : UInt64}
    (h : Changes {} (before ++ .function name hash :: after) o) (hopened : o.opened = []) :
    ∃ body, bodyOf 0 after = some body ∧
      ⟨⟨name, hash, codeLength before⟩, codeLength before + (2 + codeLength body)⟩ ∈ o.closed := by
  obtain ⟨o₁, o₂, hbefore, hchange, hafter⟩ := h.split
  have hcount₁ : o₁.count = codeLength before := by simpa using hbefore.count
  have hcount₂ := hchange.count
  -- The stack of open functions says which `.end` is the function's.
  obtain ⟨body, hbody, hclosed⟩ : ∃ body, bodyOf 0 after = some body ∧
      ⟨⟨name, hash, o₁.count⟩, o₂.count + codeLength body⟩ ∈ o.closed := by
    cases hchange with
    | function => exact @Changes.closes _ _ _ hafter [] _ _ rfl hopened
  rw [hcount₂, hcount₁, show LineKind.size (.function name hash) = 2 from rfl,
    Nat.add_assoc] at hclosed
  exact ⟨body, hbody, hclosed⟩

/-! ## Where functions stand -/

/-- All functions, those that have not ended first. -/
def functions (o : Outline) : List OpenFunction := o.opened ++ o.closed.map (·.toOpenFunction)

/-- The header of the function stands where the function starts. -/
structure HeaderAt (items : List Item) (f : OpenFunction) : Prop where
  hash : ∃ line, items.reverse[f.start]? = some ⟨line, .function, .hash f.hash⟩
  stop : ∃ line, items.reverse[f.start + 1]? = some ⟨line, .store .a, .endOf f.name⟩

/-- The header of a function stays where it is when items are added. -/
theorem HeaderAt.cons {items : List Item} {f : OpenFunction} (h : HeaderAt items f) (i : Item) :
    HeaderAt (i :: items) f := by
  have hkept : ∀ {n : Nat} {j : Item},
      items.reverse[n]? = some j → (i :: items).reverse[n]? = some j := by
    intro n j hj
    obtain ⟨hlt, _⟩ := List.getElem?_eq_some_iff.1 hj
    rwa [List.reverse_cons, List.getElem?_append_left hlt]
  exact ⟨h.hash.imp fun _ => hkept, h.stop.imp fun _ => hkept⟩

/-- What is known of the functions after some lines: their names are different labels, their headers
stand where they start, and the label of an end is where the function ended. -/
structure Laid (o : Outline) : Prop where
  count : o.items.length = o.count
  named : ∀ f ∈ o.functions, o.labels.index? f.name ≠ none
  distinct : (o.functions.map (·.name)).Nodup
  header : ∀ f ∈ o.functions, HeaderAt o.items f ∧ f.start + 2 ≤ o.count
  stop : ∀ x ∈ o.closed, o.labels.index? (endLabel x.name) = some x.stop ∧
    x.start + 2 ≤ x.stop ∧ x.stop ≤ o.count

/-- An outline without lines is laid out. -/
theorem Laid.empty : Laid {} := by
  refine ⟨rfl, ?_, List.nodup_nil, ?_, ?_⟩ <;> exact fun _ h => nomatch h

/-- A closed function is one of the functions of the outline. -/
theorem mem_functions_of_closed {x : Extent} (h : x ∈ o.closed) : x.toOpenFunction ∈ o.functions :=
  List.mem_append_right _ (List.mem_map_of_mem h)

/-- The index of a name is that of the last label added under it. -/
theorem index?_cons {labels : Labels} {name other : Bytes} {n : Nat} :
    Labels.index? ((name, n) :: labels) other = if other = name then some n
      else labels.index? other := by
  rw [Labels.index?, Labels.index?, List.lookup_cons]
  by_cases h : other = name
  · rw [if_pos h, beq_iff_eq.2 h]
  · rw [if_neg h, beq_eq_false_iff_ne.2 h]

/-- A new label leaves the others as they are. -/
theorem index?_cons_of_new {labels : Labels} {name other : Bytes} {n : Nat}
    (hnew : labels.index? name = none) (hother : labels.index? other ≠ none) :
    Labels.index? ((name, n) :: labels) other = labels.index? other := by
  rw [index?_cons, if_neg]
  rintro rfl
  exact hother hnew

/-- Functions of different names have different end labels. -/
theorem endLabel_inj {f g : Bytes} : endLabel f = endLabel g ↔ f = g := List.append_left_inj _

/-- **Every line keeps the functions in order.** -/
theorem Laid.change (hl : o.Laid) (h : o.Change k o') : o'.Laid := by
  cases h with
  | nothing => exact hl
  | native | entry => exact ⟨hl.count, hl.named, hl.distinct, hl.header, hl.stop⟩
  | label hnew =>
    refine ⟨hl.count, fun f hf => ?_, hl.distinct, hl.header, fun x hx => ?_⟩
    · rw [index?_cons_of_new hnew (hl.named f hf)]
      exact hl.named f hf
    · obtain ⟨hlabel, hrange⟩ := hl.stop x hx
      exact ⟨by rw [index?_cons_of_new hnew (by simp [hlabel]), hlabel], hrange⟩
  | instruction =>
    refine ⟨congrArg (· + 1) hl.count, hl.named, hl.distinct, fun f hf => ?_, fun x hx => ?_⟩
    · obtain ⟨hheader, hstart⟩ := hl.header f hf
      exact ⟨hheader.cons _, Nat.le_succ_of_le hstart⟩
    · obtain ⟨hlabel, hstart, hstop⟩ := hl.stop x hx
      exact ⟨hlabel, hstart, Nat.le_succ_of_le hstop⟩
  | @function line name hash hnew =>
    refine ⟨congrArg (· + 2) hl.count, ?_, ?_, ?_, fun x hx => ?_⟩
    · refine List.forall_mem_cons.2 ⟨by rw [index?_cons, if_pos rfl]; simp, fun f hf => ?_⟩
      rw [index?_cons_of_new hnew (hl.named f hf)]
      exact hl.named f hf
    · refine List.nodup_cons.2 ⟨fun hmem => ?_, hl.distinct⟩
      obtain ⟨f, hf, hname⟩ := List.mem_map.1 hmem
      exact hl.named f hf (hname ▸ hnew)
    · refine List.forall_mem_cons.2 ⟨⟨⟨⟨line, ?_⟩, ⟨line, ?_⟩⟩, Nat.le_refl _⟩, fun f hf => ?_⟩
      · simp [← hl.count]
      · simp [← hl.count]
      · obtain ⟨hheader, hstart⟩ := hl.header f hf
        exact ⟨(hheader.cons _).cons _, by dsimp only; omega⟩
    · obtain ⟨hlabel, hstart, hstop⟩ := hl.stop x hx
      exact ⟨by rw [index?_cons_of_new hnew (by simp [hlabel]), hlabel], hstart,
        by dsimp only; omega⟩
  | @stop f rest hopened =>
    have hperm : (functions
        { o with
          opened := rest
          closed := ⟨f, o.count⟩ :: o.closed
          labels := (endLabel f.name, o.count) :: o.labels }).Perm o.functions := by
      rw [functions, functions, hopened]
      exact List.perm_middle
    have hf : f ∈ o.functions := by
      rw [functions, hopened]
      exact List.mem_cons_self
    refine ⟨hl.count, fun g hg => ?_, (hperm.map _).nodup_iff.2 hl.distinct,
      fun g hg => hl.header g (hperm.mem_iff.1 hg), ?_⟩
    · rw [index?_cons]
      split
      · simp
      · exact hl.named g (hperm.mem_iff.1 hg)
    · refine List.forall_mem_cons.2 ⟨⟨by rw [index?_cons, if_pos rfl], (hl.header f hf).2,
        Nat.le_refl _⟩, fun x hx => ?_⟩
      obtain ⟨hlabel, hrange⟩ := hl.stop x hx
      refine ⟨?_, hrange⟩
      -- The end of another function has another label, since the names differ.
      have hne : x.name ≠ f.name := by
        have hdistinct := hl.distinct
        rw [functions, hopened, List.cons_append, List.map_cons, List.nodup_cons] at hdistinct
        intro heq
        refine hdistinct.1 (heq ▸ List.mem_map_of_mem (f := OpenFunction.name) ?_)
        exact List.mem_append_right _ (List.mem_map_of_mem hx)
      rw [index?_cons, if_neg (fun h => hne (endLabel_inj.1 h)), hlabel]

/-- All lines keep the functions in order. -/
theorem Laid.changes (hl : o.Laid) (h : o.Changes ks o') : o'.Laid := by
  induction h with
  | nil => exact hl
  | cons hone _ ih => exact ih (hl.change hone)

/-- The entry point is the function that has the entry's name. -/
theorem Laid.entryPoint?_eq (hl : o.Laid) {x : Extent} (hx : x ∈ o.closed)
    (hname : x.name = o.entry) :
    o.entryPoint? = some ⟨UInt64.ofNat x.start, UInt64.ofNat x.stop, x.hash⟩ := by
  have hfind : o.closed.find? (·.name == o.entry) = some x := by
    have hdistinct : (o.closed.map fun x => x.name).Nodup := by
      have hdistinct := hl.distinct
      rw [functions, List.map_append, List.map_map] at hdistinct
      exact (List.nodup_append.1 hdistinct).2.1
    cases hfind : o.closed.find? (·.name == o.entry) with
    | none => exact absurd (by simpa using hname) (List.find?_eq_none.1 hfind x hx)
    | some y =>
      have hy : y.name = o.entry := by simpa using List.find?_some hfind
      exact congrArg some
        (List.inj_on_of_nodup_map hdistinct (List.mem_of_find?_eq_some hfind) hx
          (hy.trans hname.symm))
  rw [entryPoint?, hfind]
  rfl

end Outline

/-! ## How long assembled code can be -/

/-- A line is as long as the instructions that it stands for are many. -/
theorem size_lineKind_le (text : Bytes) : (lineKind text).size ≤ text.length := by
  unfold lineKind
  split
  · exact Nat.zero_le _
  split
  · exact Nat.zero_le _
  · next first args hwords =>
    have hfirst : first.length ≤ text.length :=
      Text.length_le_of_mem_words (hwords ▸ List.mem_cons_self)
    split
    · next hfn =>
      rw [hfn] at hfirst
      have htwo : 2 ≤ text.length := Nat.le_trans (by decide) hfirst
      split
      · split
        · exact htwo
        · exact Nat.zero_le _
      · exact Nat.zero_le _
    split
    · exact Nat.zero_le _
    split
    · split <;> exact Nat.zero_le _
    split
    · -- a line with a word is not empty
      cases text with
      | nil => exact absurd (hwords.symm.trans (by decide +kernel : Text.words [] = [])) nofun
      | cons => exact Nat.succ_pos _
    · exact Nat.zero_le _

/-- The code is no longer than its source. -/
theorem codeLength_lineKinds_le (src : Bytes) : codeLength (lineKinds src) ≤ src.length := by
  have hline : ∀ part, (lineKind (stripComment (Text.chomp part))).size ≤ part.length := fun part =>
    Nat.le_trans (size_lineKind_le _)
      (Nat.le_trans (length_stripComment_le _) (Text.length_chomp_le part))
  obtain ⟨parts, hparts, hlines⟩ : ∃ parts : List Bytes, parts.Sublist (Bytes.splitOn 10 src) ∧
      (Text.lines Text.lineLimit src).lines = parts.map Text.chomp := by
    refine ⟨_, (List.takeWhile_sublist _).trans ?_, rfl⟩
    split
    · exact List.dropLast_sublist _
    · exact List.Sublist.refl _
  rw [codeLength, lineKinds, hlines, List.map_map, List.map_map]
  calc (parts.map _).sum ≤ (parts.map List.length).sum := List.sum_le_sum fun part _ => hline part
    _ ≤ ((Bytes.splitOn 10 src).map List.length).sum :=
      (hparts.map _).sum_le_sum fun _ _ => Nat.zero_le _
    _ ≤ src.length := Text.sum_length_splitOn_le 10 src

/-! ## The second pass -/

/-- The instruction of a function header. -/
theorem instruction_of_hash {labels : Labels} {line : Nat} {m : Mnemonic} {hash : UInt64}
    {i : Instruction} (h : Item.instruction labels ⟨line, m, .hash hash⟩ = .ok i) :
    i = ⟨m, .immediate (.int .w64 (BitVec.ofNat 64 hash.toNat))⟩ := by
  unfold Item.instruction at h
  dsimp only [Item.operand] at h
  split at h
  · cases h; rfl
  · cases h

/-- The instruction that holds the end of a function. -/
theorem instruction_of_endOf {labels : Labels} {line stop : Nat} {m : Mnemonic} {f : Bytes}
    {i : Instruction} (hstop : labels.index? (endLabel f) = some stop)
    (h : Item.instruction labels ⟨line, m, .endOf f⟩ = .ok i) :
    i = ⟨m, .immediate (.int64 stop)⟩ := by
  unfold Item.instruction at h
  dsimp only [Item.operand] at h
  rw [hstop] at h
  dsimp only at h
  split at h
  · cases h; rfl
  · cases h

/-- **Where the functions of a source are in its program.** -/
theorem header_of_assemble {src : Bytes} {arch : Arch} {p : Program} {before after : List LineKind}
    {name : Bytes} {hash : UInt64} (hp : assemble src arch = .ok p)
    (hfn : lineKinds src = before ++ .function name hash :: after) :
    ∃ body start stop, bodyOf 0 after = some body ∧ start = codeLength before ∧
      stop = codeLength (before ++ .function name hash :: body) ∧
      p.instructions[start]? =
        some ⟨.function, .immediate (.int .w64 (BitVec.ofNat 64 hash.toNat))⟩ ∧
      p.instructions[start + 1]? = some ⟨.store .a, .immediate (.int64 stop)⟩ ∧
      start + 2 ≤ stop ∧ stop ≤ p.length ∧ p.length = codeLength (lineKinds src) ∧
      (name = entryName (lineKinds src) → p.mainExists = true ∧
        p.entry = ⟨UInt64.ofNat start, UInt64.ofNat stop, hash⟩) := by
  obtain ⟨o, is, natives, code, offsets, ho, his, _, _, _, rfl⟩ := assemble_eq_ok hp
  obtain ⟨hchanges, hopened⟩ := Outline.changes_of_ofSource ho
  have hlaid := Outline.Laid.empty.changes hchanges
  obtain ⟨body, hbody, hclosed⟩ := Outline.exists_closed (hfn ▸ hchanges) hopened
  obtain ⟨⟨⟨hashLine, hhash⟩, ⟨stopLine, hstop⟩⟩, _⟩ :=
    hlaid.header _ (Outline.mem_functions_of_closed hclosed)
  obtain ⟨hlabel, hrange, hend⟩ := hlaid.stop _ hclosed
  have hread := forall₂_getElem? (Except.mapM_eq_ok.1 his)
  have hsize : is.length = o.count := by
    rw [← hlaid.count, ← (Except.mapM_eq_ok.1 his).length_eq, List.length_reverse]
  refine ⟨body, codeLength before, codeLength before + (2 + codeLength body), hbody, rfl,
    ?_, ?_, ?_, hrange, ?_, ?_, fun hname => ?_⟩
  · simp [LineKind.size]
  · have hhash' := hread (codeLength before)
    rw [hhash] at hhash'
    generalize hi : is[codeLength before]? = i at hhash'
    cases hhash' with
    | some h => simpa [instruction_of_hash h] using hi
  · have hstop' := hread (codeLength before + 1)
    rw [hstop] at hstop'
    generalize hi : is[codeLength before + 1]? = i at hstop'
    cases hstop' with
    | some h => simpa [instruction_of_endOf hlabel h] using hi
  · simpa [Program.length, hsize] using hend
  · simpa [Program.length, hsize] using hchanges.count
  · have hentry := hlaid.entryPoint?_eq hclosed (hname.trans hchanges.entry.symm)
    rw [hentry]
    exact ⟨rfl, rfl⟩

/-! ## Entering functions -/

/-- What a function header holds is found there. -/
theorem functionAt_of_header {code : Array Instruction} {start stop : Nat} {hash : UInt64}
    (hhash : code[start]? = some ⟨.function, .immediate (.int .w64 (BitVec.ofNat 64 hash.toNat))⟩)
    (hstop : code[start + 1]? = some ⟨.store .a, .immediate (.int64 stop)⟩)
    (hrange : start + 2 ≤ stop) (hend : stop ≤ code.size) (hsize : code.size < 2 ^ 63) :
    functionAt code start = .ok ⟨hash, stop⟩ := by
  have hint : (BitVec.ofInt IntWidth.w64.bits (stop : Int)).toInt = stop := by
    have hlt : stop < 2 ^ 63 := by omega
    rw [show IntWidth.w64.bits = 64 from rfl, BitVec.toInt_ofInt,
      Int.bmod_eq_of_le (by omega) (by omega)]
  have hword : UInt64.ofInt (Value.int .w64 (BitVec.ofNat 64 hash.toNat)).toInt = hash := by
    have hlt := hash.toNat_lt
    have hmod : ((BitVec.ofNat 64 hash.toNat).toInt % 2 ^ 64).toNat = hash.toNat := by
      rw [BitVec.toInt_eq_toNat_cond, BitVec.toNat_ofNat, Nat.mod_eq_of_lt hlt]
      split <;> omega
    exact (congrArg UInt64.ofNat hmod).trans UInt64.ofNat_toNat
  have hfound := functionAt_of_instructions hhash hstop hint hrange hend hsize
  rwa [hword] at hfound

/-- **Assembled functions can be entered.** Wherever a source that is assembled starts a function,
the function is ended again by the `.end` that matches; the code has its header at the index where
the function starts, with its hash and the index where it ends, which is within the program; and
there every thread of the program finds that hash and end, whatever was done to the thread. If the
function has the name that the last `.entry` gives, it is the program's entry point, and a thread
can be started as long as the stack has room for the function, with one frame that spans it. The
length of a source is a 64-bit number with a sign. -/
theorem functions_enterable {src : Bytes} {arch : Arch} {p : Program} {before after : List LineKind}
    {name : Bytes} {hash : UInt64} (hp : assemble src arch = .ok p) (hsrc : src.length < 2 ^ 63)
    (hfn : lineKinds src = before ++ .function name hash :: after) :
    ∃ body start stop, bodyOf 0 after = some body ∧ start = codeLength before ∧
      stop = codeLength (before ++ .function name hash :: body) ∧
      p.instructions[start]? =
        some ⟨.function, .immediate (.int .w64 (BitVec.ofNat 64 hash.toNat))⟩ ∧
      p.instructions[start + 1]? = some ⟨.store .a, .immediate (.int64 stop)⟩ ∧
      start + 2 ≤ stop ∧ stop ≤ p.length ∧
      (∀ id opts t as, Thread.start id p opts = .ok t →
        functionAt (t.after as).code start = .ok ⟨hash, stop⟩) ∧
      (name = entryName (lineKinds src) → p.mainExists = true ∧
        p.entry = ⟨UInt64.ofNat start, UInt64.ofNat stop, hash⟩ ∧
        ∀ id (opts : Thread.Options), stop - start ≤ (Stack.empty opts.maxStack).limit →
          ∃ t, Thread.start id p opts = .ok t ∧ t.stack.frames =
            [{ hash, entry := start, stop, base := 0, window := stop - start,
               pc := start + 2 }]) := by
  obtain ⟨body, start, stop, hbody, hstart, hstop, hheader, hmarker, hrange, hend, hlength,
    hentry⟩ :=
    header_of_assemble hp hfn
  have hsize : p.length < 2 ^ 63 := by
    have := codeLength_lineKinds_le src
    omega
  -- The header holds no literal, so that it stands in the code as it is.
  have hkept : ∀ {n : Nat} {i : Instruction} {w b}, p.instructions[n]? = some i →
      i.operand = .immediate (.int w b) →
      (Thread.internLiterals {} p.instructions.toList).2.1.toArray[n]? = some i := by
    intro n i w b hi hop
    rw [List.getElem?_toArray]
    refine Thread.getElem?_internLiterals (by simpa using hi) fun v hv => ?_
    cases hop.symm.trans hv
    exact ⟨of_decide_eq_true rfl, of_decide_eq_true rfl⟩
  have hfound : functionAt (Thread.internLiterals {} p.instructions.toList).2.1.toArray start =
      .ok ⟨hash, stop⟩ := by
    have hcode : (Thread.internLiterals {} p.instructions.toList).2.1.toArray.size = p.length := by
      simpa [Program.length] using
        (Thread.internLiterals_loaded {} p.instructions.toList).length_eq.symm
    exact functionAt_of_header (hkept hheader rfl) (hkept hmarker rfl) hrange (by omega) (by omega)
  refine ⟨body, start, stop, hbody, hstart, hstop, hheader, hmarker, hrange, hend, ?_,
    fun hname => ?_⟩
  · intro id opts t as ht
    rw [(t.unchanged_after as).1]
    obtain ⟨fn, s, _, _, rfl⟩ := Thread.start_inv ht
    exact hfound
  · obtain ⟨hmain, hpoint⟩ := hentry hname
    have hnat : (UInt64.ofNat start).toNat = start := by
      rw [UInt64.toNat_ofNat']
      omega
    refine ⟨hmain, hpoint, fun id opts hlimit => ?_⟩
    obtain ⟨s, hpush, hframes⟩ : ∃ s, (Stack.empty opts.maxStack).push
        { hash, entry := start, stop, base := 0, window := stop - start, pc := start + 2 } = .ok s ∧
          s.frames =
            [{ hash, entry := start, stop, base := 0, window := stop - start,
               pc := start + 2 }] := by
      rw [Stack.push, if_neg (Nat.not_lt.2 (by simpa using hlimit))]
      exact ⟨_, rfl, rfl⟩
    rw [Thread.start, hmain, hpoint]
    dsimp only
    rw [hnat, hfound]
    dsimp only
    rw [hpush]
    exact ⟨_, rfl, hframes⟩

/-- The entry is a function within another one, before which its end is the name of a label. -/
def innerSample : Bytes :=
  utf8 ".entry f\n.fn main 1\nf.end:\n.fn f 18446744073709551615\nRET\n.end\nRET\n.end\n"

/-- In `innerSample` the inner function is from index 2 to index 5, and a thread with three slots
enters it. -/
theorem functions_enterable_innerSample : ∃ p, assemble innerSample .b64 = .ok p ∧
    p.instructions[3]? = some ⟨.store .a, .immediate (.int64 5)⟩ ∧
    p.entry = ⟨2, 5, 18446744073709551615⟩ ∧
    ∃ t f, Thread.start [] p { maxStack := 3 } = .ok t ∧ t.stack.frames = [f] ∧ f.stop = 5 ∧
      functionAt t.code 2 = .ok ⟨18446744073709551615, 5⟩ := by
  obtain ⟨p, hp⟩ : ∃ p, assemble innerSample .b64 = .ok p := by
    have hsome : (assemble innerSample .b64).toOption.isSome = true := by decide +kernel
    cases hassemble : assemble innerSample .b64 with
    | error e =>
      rw [hassemble] at hsome
      cases hsome
    | ok p => exact ⟨p, rfl⟩
  have hfn : lineKinds innerSample = [.entry (utf8 "f"), .function (utf8 "main") 1, .other] ++
      .function (utf8 "f") 18446744073709551615 :: [.instruction, .stop, .instruction, .stop] := by
    decide +kernel
  obtain ⟨body, start, stop, hbody, rfl, rfl, _, hmarker, _, _, hfound, hentry⟩ :=
    functions_enterable hp (by decide +kernel) hfn
  cases hbody
  obtain ⟨_, hpoint, hstart⟩ := hentry (by decide +kernel)
  obtain ⟨t, ht, hframes⟩ := hstart [] { maxStack := 3 } (by decide)
  exact ⟨p, hp, hmarker, hpoint, t, _, ht, hframes, rfl, hfound [] _ t [] ht⟩

end RegisterMachine.Assembly
