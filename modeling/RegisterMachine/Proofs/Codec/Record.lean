import RegisterMachine.Cbor.Record
import RegisterMachine.Proofs.Fallible
import RegisterMachine.Proofs.Text.WellFormed

/-!
# Reading records back

Numbers, texts and lists are read back from the items that they are written as, and the entries of a
map fill a record one by one: `Cbor.readEntries_cons` is one entry, whose key is the name of a field
that is still open, and `Cbor.readEntries_number` one whose key is the number of such a field. Of
items that were written by nobody in particular, `Cbor.readRecord_induction` says that a record has
what every field keeps.
-/

namespace RegisterMachine

namespace Cbor

/-- A natural number within the bound is read back. -/
theorem readNat_unsigned {max n : Nat} (h : n ≤ max) : readNat max (unsigned n) = .ok n :=
  if_pos h

/-- An integer of 64 bits is read back. -/
theorem readInt_ofInt {i : Int} (hlow : -2 ^ 63 ≤ i) (hhigh : i < 2 ^ 63) :
    readInt (ofInt i) = .ok i := by
  cases i with
  | ofNat n =>
    have hn : n < 2 ^ 63 := by rw [Int.ofNat_eq_natCast] at hhigh; omega
    exact if_pos hn
  | negSucc n =>
    have hn : n < 2 ^ 63 := by omega
    have hvalue : -1 - (n : Int) = .negSucc n := by omega
    change (if n < 2 ^ 63 then Except.ok (-1 - (n : Int)) else .error ShapeError.shape) = _
    rw [if_pos hn, hvalue]

/-- A text in UTF-8 is read back. -/
theorem readText_ofText {s : Bytes} (h : Text.isUtf8 s = true) : readText (ofText s) = .ok s := by
  have hall : [s].all Text.isUtf8 = true := by simp [h]
  have hflat : [s].flatten = s := by simp
  change chunksText [s] = .ok s
  rw [chunksText, if_pos hall, hflat]

/-- Bytes of the right number are read back. -/
theorem readBytes_bytes {b : Bytes} {n : Nat} (h : b.length = n) :
    readBytes n (bytes b) = .ok b := by
  change Except.ok (b.take n ++ List.replicate (n - b.length) 0) = .ok b
  rw [List.take_of_length_le (Nat.le_of_eq h), h, Nat.sub_self, List.replicate_zero,
    List.append_nil]

/-- A list is read back exactly when its elements are. -/
theorem readList_array_iff {α : Type} {item : Reader α} {write : α → Cbor} {as : List α} :
    readList item (array (as.map write)) = .ok as ↔ ∀ a ∈ as, item (write a) = .ok a := by
  change (as.map write).mapM item = .ok as ↔ _
  rw [Except.mapM_eq_ok, List.forall₂_map_left_iff, List.forall₂_same]

/-- A list is read back if its elements are. -/
theorem readList_array {α : Type} {item : Reader α} {write : α → Cbor} {as : List α}
    (h : ∀ a ∈ as, item (write a) = .ok a) : readList item (array (as.map write)) = .ok as :=
  readList_array_iff.2 h

/-- A thing that is there is read back when its item is neither null nor undefined. -/
theorem readOption_eq_ok {α : Type} {item : Reader α} {x : Cbor} {a : α} (hx : x.isNothing = false)
    (h : item x = .ok a) : readOption item x = .ok (some a) := by
  rw [readOption, hx, h]
  rfl

/-- A field that is set to what is read. -/
theorem set_field {σ α : Type} {key : Key} {read : Reader α} {put : α → σ → σ} {x : Cbor} {s : σ}
    {a : α} (h : read x = .ok a) : (field key read put).set x s = .ok (put a s) := by
  change (read x).map (put · s) = .ok (put a s)
  rw [h]
  rfl

/-- The field that a name asks for. -/
theorem findField?_ofText {σ : Type} {fields : List (Field σ)} {f : Field σ} {name : Bytes}
    (hname : ∀ b ∈ name, b.toNat < 0x80) (hf : fields.find? (·.key.text == name) = some f) :
    findField? fields (ofText name) = .ok (some f) := by
  have hall : [name].all Text.isUtf8 = true := by simp [Text.isUtf8_of_ascii hname]
  have hflat : [name].flatten = name := by simp
  rw [ofText, findField?, chunksText, if_pos hall, hflat]
  simp [bind, Except.bind, pure, Except.pure, hf]

/-- The field with a number is found under this number. -/
theorem findField?_unsigned {σ : Type} {fields : List (Field σ)} {f : Field σ} {n : Nat}
    (hf : fields.find? (·.key == .number n) = some f) :
    findField? fields (unsigned n) = .ok (some f) := by
  rw [findField?, hf]

/-- An entry that asks for an open field sets the field and closes it. -/
theorem readEntries_of_findField? {σ : Type} {fields : List (Field σ)} {f : Field σ} {k : Cbor}
    (hf : findField? fields k = .ok (some f)) (x : Cbor) (s : σ) (rest : List (Cbor × Cbor)) :
    readEntries fields s ((k, x) :: rest) =
      (f.set x s).bind fun s' => readEntries (fields.filter (·.key != f.key)) s' rest := by
  rw [readEntries, hf]
  dsimp only
  cases f.set x s with
  | error => rfl
  | ok => rfl

/-- An entry with the name of an open field, which is set. -/
theorem readEntries_cons {σ : Type} {fields : List (Field σ)} {f : Field σ} {name : Bytes}
    {x : Cbor} {s s' : σ} (hname : ∀ b ∈ name, b.toNat < 0x80)
    (hf : fields.find? (·.key.text == name) = some f) (hset : f.set x s = .ok s')
    (rest : List (Cbor × Cbor)) :
    readEntries fields s ((ofText name, x) :: rest) =
      readEntries (fields.filter (·.key != f.key)) s' rest := by
  rw [readEntries_of_findField? (findField?_ofText hname hf), hset]
  rfl

/-- An entry with the number of an open field, which is set. -/
theorem readEntries_number {σ : Type} {fields : List (Field σ)} {f : Field σ} {n : Nat} {x : Cbor}
    {s s' : σ} (hf : fields.find? (·.key == .number n) = some f) (hset : f.set x s = .ok s')
    (rest : List (Cbor × Cbor)) :
    readEntries fields s ((unsigned n, x) :: rest) =
      readEntries (fields.filter (·.key != f.key)) s' rest := by
  rw [readEntries_of_findField? (findField?_unsigned hf), hset]
  rfl

/-- What an entry that is read holds. -/
theorem set_of_readEntries_cons {σ : Type} {fields : List (Field σ)} {f : Field σ} {name : Bytes}
    {x : Cbor} {s r : σ} {rest : List (Cbor × Cbor)} (hname : ∀ b ∈ name, b.toNat < 0x80)
    (hf : fields.find? (·.key.text == name) = some f)
    (h : readEntries fields s ((ofText name, x) :: rest) = .ok r) : ∃ s', f.set x s = .ok s' := by
  rw [readEntries_of_findField? (findField?_ofText hname hf)] at h
  obtain ⟨s', hset, _⟩ := Except.bind_eq_ok.1 h
  exact ⟨s', hset⟩

/-- A text that is read is UTF-8. -/
theorem isUtf8_of_readText {s t : Bytes} (h : readText (ofText s) = .ok t) :
    Text.isUtf8 s = true := by
  change chunksText [s] = .ok t at h
  unfold chunksText at h
  split at h
  · next hall => simpa using hall
  · cases h

/-! ## Whatever is read -/

/-- **A text that is read from any item is UTF-8.** -/
theorem isUtf8_readText {x : Cbor} {s : Bytes} (h : readText x = .ok s) : Text.isUtf8 s = true := by
  obtain ⟨y, _, h⟩ := Except.bind_eq_ok.1 h
  split at h
  · next chunks =>
    unfold chunksText at h
    split at h
    · next hall =>
      cases h
      rw [← List.flatMap_id]
      exact Text.isUtf8_flatMap fun c hc => List.all_eq_true.1 hall c hc
    · cases h
  · split at h
    · cases h
      exact Text.isUtf8_nil
    · cases h

variable {σ : Type} {P : σ → Prop}

/-- The field that is asked for is one of the record's. -/
theorem mem_of_findField? {fields : List (Field σ)} {f : Field σ} {k : Cbor}
    (h : findField? fields k = .ok (some f)) : f ∈ fields := by
  unfold findField? at h
  split at h
  · obtain ⟨key, _, h⟩ := Except.bind_eq_ok.1 h
    have h := Except.ok.inj h
    split at h
    · next hf =>
      cases h
      exact List.mem_of_find?_eq_some hf
    · exact List.mem_of_find?_eq_some h
  · exact List.mem_of_find?_eq_some (Except.ok.inj h)
  · split at h <;> cases h
  · cases h

/-- What every field keeps, a record has that is read. -/
theorem readEntries_induction {fields : List (Field σ)} {s r : σ} {es : List (Cbor × Cbor)}
    (hset : ∀ f ∈ fields, ∀ {x s s'}, f.set x s = .ok s' → P s → P s') (hs : P s)
    (h : readEntries fields s es = .ok r) : P r := by
  induction es generalizing fields s with
  | nil =>
    cases h
    exact hs
  | cons e es ih =>
    rw [readEntries] at h
    split at h
    · cases h
    · exact ih hset hs h
    · next f hf =>
      split at h
      · cases h
      · next s' hs' =>
        refine ih (fun g hg => hset g (List.mem_filter.1 hg).1) ?_ h
        exact hset f (mem_of_findField? hf) hs' hs

/-- What holds of the record to start with and is kept by every field holds of the record that is
read. -/
theorem readRecord_induction {fields : List (Field σ)} {zero r : σ} {x : Cbor}
    (hset : ∀ f ∈ fields, ∀ {x s s'}, f.set x s = .ok s' → P s → P s') (hzero : P zero)
    (h : readRecord fields zero x = .ok r) : P r := by
  obtain ⟨y, _, h⟩ := Except.bind_eq_ok.1 h
  split at h
  · exact readEntries_induction hset hzero h
  · split at h
    · cases h
      exact hzero
    · cases h

/-- Every element of a list that is read was read. -/
theorem exists_of_mem_readList {α : Type} {item : Reader α} {x : Cbor} {as : List α}
    (h : readList item x = .ok as) : ∀ a ∈ as, ∃ y, item y = .ok a := by
  obtain ⟨y, _, h⟩ := Except.bind_eq_ok.1 h
  split at h
  · intro a ha
    obtain ⟨y, _, hy⟩ := Except.exists_of_mem_mapM h ha
    exact ⟨y, hy⟩
  · split at h
    · cases h
      exact fun a ha => nomatch ha
    · cases h

end Cbor

end RegisterMachine
