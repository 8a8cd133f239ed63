import Mathlib.Algebra.Group.Int.Defs
import Mathlib.Algebra.Group.Nat.Defs
import Mathlib.Data.List.Forall2

/-!
# Computations that may fail

What a computation built from `bind`, `map` and `mapError` says about its parts when it succeeds or
fails. The engine and the codecs are written with these, so every inversion of theirs starts here.
Lists of results correspond to what they come from element by element (`List.Forall₂`). The errors
that a computation can fail with are those of its parts (`FailsWith`), and two computations that do
the same up to a relation agree (`Agree`), which goes through their parts.
-/

namespace RegisterMachine

variable {ε ε' α β : Type}

/-- A sequence succeeds when both of its parts do. -/
theorem Except.bind_eq_ok {x : Except ε α} {g : α → Except ε β} {b : β} :
    x >>= g = .ok b ↔ ∃ a, x = .ok a ∧ g a = .ok b := by
  cases x with
  | error e => simp [bind, Except.bind]
  | ok a => simp [bind, Except.bind]

/-- A sequence fails in its first part or in its second. -/
theorem Except.bind_eq_error {x : Except ε α} {g : α → Except ε β} {e : ε} :
    x >>= g = .error e ↔ x = .error e ∨ ∃ a, x = .ok a ∧ g a = .error e := by
  cases x with
  | error e => simp [bind, Except.bind]
  | ok a => simp [bind, Except.bind]

/-- A mapped computation succeeds with the image of what it succeeds with. -/
theorem Except.map_eq_ok {x : Except ε α} {g : α → β} {b : β} :
    x.map g = .ok b ↔ ∃ a, x = .ok a ∧ g a = b := by
  cases x <;> simp [Except.map]

/-- Mapping keeps failures as they are. -/
theorem Except.map_eq_error {x : Except ε α} {g : α → β} {e : ε} :
    x.map g = .error e ↔ x = .error e := by
  cases x <;> simp [Except.map]

/-- Mapping after two computations in a row is mapping the second one. -/
theorem Except.map_bind {x : Except ε α} {g : α → Except ε β} {γ : Type} {h : β → γ} :
    (x >>= g).map h = x >>= fun a => (g a).map h := by
  cases x <;> rfl

/-- A computation behind a mapped one gets the image. -/
theorem Except.bind_map {x : Except ε α} {h : α → β} {γ : Type} {g : β → Except ε γ} :
    (x.map h).bind g = x.bind fun a => g (h a) := by
  cases x <;> rfl

/-- What is done to results and what is done to errors do not meet. -/
theorem Except.map_mapError {x : Except ε α} {g : ε → ε'} {h : α → β} :
    (x.mapError g).map h = (x.map h).mapError g := by
  cases x <;> rfl

/-- Changing errors leaves success alone. -/
theorem Except.mapError_eq_ok {x : Except ε α} {g : ε → ε'} {a : α} :
    x.mapError g = .ok a ↔ x = .ok a := by
  cases x <;> simp [Except.mapError]

/-- A failure with a changed error is a failure with the error before the change. -/
theorem Except.mapError_eq_error {x : Except ε α} {g : ε → ε'} {e : ε'} :
    x.mapError g = .error e ↔ ∃ e', x = .error e' ∧ g e' = e := by
  cases x <;> simp [Except.mapError]

/-- Going through a list gives one result for each element, in order. -/
theorem Except.mapM_eq_ok {g : α → Except ε β} : ∀ {as : List α} {bs : List β},
    as.mapM g = .ok bs ↔ List.Forall₂ (fun a b => g a = .ok b) as bs
  | [], bs => by
    rw [List.mapM_nil]
    constructor
    · intro h
      cases h
      exact .nil
    · intro h
      cases h
      rfl
  | a :: as, bs => by
    rw [List.mapM_cons, Except.bind_eq_ok]
    constructor
    · rintro ⟨b, hb, h⟩
      obtain ⟨cs, hcs, h⟩ := Except.bind_eq_ok.1 h
      cases h
      exact .cons hb (Except.mapM_eq_ok.1 hcs)
    · intro h
      cases h with
      | cons hb hcs => exact ⟨_, hb, Except.bind_eq_ok.2 ⟨_, Except.mapM_eq_ok.2 hcs, rfl⟩⟩

/-- Every result comes from an element of the list. -/
theorem Except.exists_of_mem_mapM {g : α → Except ε β} {as : List α} {bs : List β} {b : β}
    (h : as.mapM g = .ok bs) (hb : b ∈ bs) : ∃ a ∈ as, g a = .ok b := by
  replace h := Except.mapM_eq_ok.1 h
  induction h with
  | nil => cases hb
  | @cons a b' as bs hab _ ih =>
    rcases List.mem_cons.1 hb with rfl | hb
    · exact ⟨a, List.mem_cons_self, hab⟩
    · obtain ⟨a', ha', hg⟩ := ih hb
      exact ⟨a', List.mem_cons_of_mem _ ha', hg⟩

/-- Lists that correspond element by element do so at every index. -/
theorem forall₂_getElem? {R : α → β → Prop} {as : List α} {bs : List β} (h : List.Forall₂ R as bs)
    (n : Nat) : Option.Rel R as[n]? bs[n]? := by
  induction h generalizing n with
  | nil => exact .none
  | cons hab _ ih =>
    cases n with
    | zero => exact .some hab
    | succ n => simpa only [List.getElem?_cons_succ] using ih n

/-- Two lists that correspond still do when corresponding elements are put at the same place. -/
theorem forall₂_set {R : α → β → Prop} {as : List α} {bs : List β} (h : List.Forall₂ R as bs)
    {a : α} {b : β} (hab : R a b) (n : Nat) : List.Forall₂ R (as.set n a) (bs.set n b) := by
  induction h generalizing n with
  | nil => exact .nil
  | cons hcd htail ih =>
    cases n with
    | zero => exact .cons hab htail
    | succ n => exact .cons hcd (ih n)

/-- Elements that correspond in one way correspond in any other that follows for members. -/
theorem forall₂_imp_of_mem {R S : α → β → Prop} {as : List α} {bs : List β}
    (h : List.Forall₂ R as bs) (hS : ∀ a ∈ as, ∀ b, R a b → S a b) : List.Forall₂ S as bs := by
  induction h with
  | nil => exact .nil
  | cons hab _ ih =>
    exact .cons (hS _ List.mem_cons_self _ hab) (ih fun a ha => hS a (List.mem_cons_of_mem _ ha))

/-- Every element has one that corresponds to it. -/
theorem exists_of_mem_forall₂ {R : α → β → Prop} {as : List α} {bs : List β} {a : α}
    (h : List.Forall₂ R as bs) (ha : a ∈ as) : ∃ b ∈ bs, R a b := by
  induction h with
  | nil => cases ha
  | cons hab _ ih =>
    rcases List.mem_cons.1 ha with rfl | ha
    · exact ⟨_, List.mem_cons_self, hab⟩
    · obtain ⟨b, hb, hab⟩ := ih ha
      exact ⟨b, List.mem_cons_of_mem _ hb, hab⟩

/-- If every element corresponds to its image alone, the second list is the image of the first. -/
theorem eq_map_of_forall₂ {g : α → β} {as : List α} {bs : List β}
    (h : List.Forall₂ (fun a b => b = g a) as bs) : bs = as.map g := by
  induction h with
  | nil => rfl
  | cons hab _ ih => rw [List.map_cons, hab, ih]

/-! ## How a computation fails -/

/-- The computation fails only with errors of the given kind. -/
def FailsWith (P : ε → Bool) (x : Except ε α) : Prop := ∀ e, x = .error e → P e = true

namespace FailsWith

variable {P : ε → Bool} {Q : ε' → Bool} {x : Except ε α}

/-- A success fails with nothing. -/
theorem ok (a : α) : FailsWith P (.ok a : Except ε α) := fun _ he => nomatch he

/-- An error of the class is a failure of the class. -/
theorem error {e : ε} (he : P e = true) : FailsWith P (.error e : Except ε α) := by
  rintro _ ⟨⟩
  exact he

/-- A class of errors may be widened. -/
theorem mono {P' : ε → Bool} (hx : FailsWith P x) (hP : ∀ e, P e = true → P' e = true) :
    FailsWith P' x :=
  fun e he => hP e (hx e he)

/-- Two computations in a row fail within a class if each of them does. -/
theorem bind {g : α → Except ε β} (hx : FailsWith P x) (hg : ∀ a, x = .ok a → FailsWith P (g a)) :
    FailsWith P (x >>= g) := by
  intro e he
  rcases Except.bind_eq_error.1 he with he | ⟨a, ha, he⟩
  · exact hx e he
  · exact hg a ha e he

/-- Mapping a computation keeps the class of its failures. -/
theorem map {g : α → β} (hx : FailsWith P x) : FailsWith P (x.map g) :=
  fun e he => hx e (Except.map_eq_error.1 he)

/-- Changing the errors of a computation takes their class along. -/
theorem mapError {g : ε → ε'} (hx : FailsWith P x) (hg : ∀ e, P e = true → Q (g e) = true) :
    FailsWith Q (x.mapError g) := by
  intro e he
  obtain ⟨e', he', rfl⟩ := Except.mapError_eq_error.1 he
  exact hg e' (hx e' he')

/-- Going through a list fails only as one of the elements does. -/
theorem mapM {g : α → Except ε β} (hg : ∀ a, FailsWith P (g a)) (as : List α) :
    FailsWith P (as.mapM g) := by
  induction as with
  | nil => exact ok []
  | cons a as ih =>
    rw [List.mapM_cons]
    exact (hg a).bind fun b _ => ih.bind fun bs _ => ok _

end FailsWith

/-! ## Two computations that do the same -/

/-- Two computations agree: both succeed with related results, or both fail with related errors. -/
inductive Agree (E : ε → ε → Prop) (R : α → β → Prop) : Except ε α → Except ε β → Prop
  | ok {a : α} {b : β} : R a b → Agree E R (.ok a) (.ok b)
  | error {e e' : ε} : E e e' → Agree E R (.error e) (.error e')

namespace Agree

variable {E : ε → ε → Prop} {E' : ε' → ε' → Prop} {R : α → β → Prop} {γ δ : Type} {S : γ → δ → Prop}
  {x : Except ε α} {y : Except ε β}

/-- Computations in a row agree if the first ones do and the second ones do on results that agree.
-/
theorem bind {g : α → Except ε γ} {k : β → Except ε δ} (hxy : Agree E R x y)
    (hgk : ∀ a b, R a b → Agree E S (g a) (k b)) : Agree E S (x >>= g) (y >>= k) := by
  cases hxy with
  | ok hab => exact hgk _ _ hab
  | error he => exact .error he

/-- Changing the errors on both sides keeps the agreement if the changes do. -/
theorem mapError {g k : ε → ε'} (hxy : Agree E R x y) (hgk : ∀ e e', E e e' → E' (g e) (k e')) :
    Agree E' R (x.mapError g) (y.mapError k) := by
  cases hxy with
  | ok hab => exact .ok hab
  | error he => exact .error (hgk _ _ he)

/-- Mapping the results on both sides keeps the agreement if the maps do. -/
theorem map {g : α → γ} {k : β → δ} (hxy : Agree E R x y) (hgk : ∀ a b, R a b → S (g a) (k b)) :
    Agree E S (x.map g) (y.map k) := by
  cases hxy with
  | ok hab => exact .ok (hgk _ _ hab)
  | error he => exact .error he

/-- A computation agrees with itself if its errors and its results do. -/
theorem refl {R : α → α → Prop} {x : Except ε α} (hE : ∀ e, E e e) (hR : ∀ a, x = .ok a → R a a) :
    Agree E R x x := by
  cases x with
  | ok a => exact .ok (hR a rfl)
  | error e => exact .error (hE e)

end Agree

end RegisterMachine
