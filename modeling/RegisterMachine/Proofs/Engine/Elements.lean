import RegisterMachine.Proofs.Engine.Effect
import RegisterMachine.Proofs.Memory.Heap
import RegisterMachine.Proofs.Text.Utf8

/-!
# Elements of arrays and strings

An array and a string are read and written element by element, and both are seen as a list
(`Value.elements?`): a string as its characters, with U+FFFD for every stray byte. Reading an
element reads the list (`Thread.elementAt_eq`), and writing one replaces an element of the list and
keeps the others (`Thread.withElement_of_shown`), although a string is decoded and written anew as a
whole, with characters that take different numbers of bytes.
-/

namespace RegisterMachine

namespace Value

/-- The elements of a container. -/
def elements? : Value → Option (List Value)
  | array es => some es
  | string s => some ((Text.runes s).map fun c => char (UInt32.ofNat c))
  | _ => none

/-- What a container has for an element when a value is written into it. -/
inductive Shown : Value → Value → Value → Prop
  | element (es : List Value) (v : Value) : Shown (array es) v v
  | character (s : Bytes) {c : UInt32} : Text.isScalar c.toNat = true →
      Shown (string s) (char c) (char c)
  | byte (s : Bytes) (b : UInt8) : Shown (string s) (byte b) (char (UInt32.ofNat b.toNat))

/-- The element of a list at an index, which may be negative. -/
def atIndex? {α : Type} (es : List α) (i : Int) : Option α := if i < 0 then none else es[i.toNat]?

section
variable {α β : Type} {es : List α} {i j : Int}

/-- Nothing is at an index exactly if the index is outside of the list. -/
theorem atIndex?_eq_none_iff : atIndex? es i = none ↔ ¬(0 ≤ i ∧ i < es.length) := by
  rw [atIndex?]
  split
  · exact iff_of_true rfl (by omega)
  · rw [List.getElem?_eq_none_iff]
    omega

/-- Mapping the elements keeps their places. -/
theorem atIndex?_map (g : α → β) : atIndex? (es.map g) i = (atIndex? es i).map g := by
  rw [atIndex?, atIndex?]
  split
  · rfl
  · exact List.getElem?_map

/-- The element that was set is read at its index. -/
theorem atIndex?_set_self (hi : 0 ≤ i ∧ i < es.length) (w : α) :
    atIndex? (es.set i.toNat w) i = some w := by
  rw [atIndex?, if_neg (by omega), List.getElem?_set_self (by omega)]

/-- At other indices the elements are as before. -/
theorem atIndex?_set_ne (hi : 0 ≤ i) (hj : j ≠ i) (w : α) :
    atIndex? (es.set i.toNat w) j = atIndex? es j := by
  rw [atIndex?, atIndex?]
  split
  · rfl
  · rw [List.getElem?_set_ne (by omega)]

end

end Value

namespace Thread

open Value (Shown)

variable {h h' : Heap} {r : Ref} {c v w : Value} {es : List Value} {i : Int}

/-- The fault of an index that names no element. -/
def outside (c : Value) (i : Int) (n : Nat) : Fault :=
  match c with
  | .array _ => .arrayIndex i n
  | _ => .stringIndex i n

/-- An index outside of a container is reported as one beyond the heap. -/
theorem reason_outside (c : Value) (i : Int) (n : Nat) :
    (outside c i n).reason = .heapOutOfBounds := by
  unfold outside
  split <;> rfl

/-- The length of a container is the number of its elements. -/
theorem lengthOf?_eq (c : Value) : lengthOf? c = c.elements?.map List.length := by
  cases c with
  | string s => rw [lengthOf?, Value.elements?, Option.map_some, List.length_map]
  | _ => rfl

/-! ## Reading -/

/-- **Reading an element** reads the list of the elements. -/
theorem elementAt_eq (hc : h.get r = .ok c) (hes : c.elements? = some es) (i : Int) :
    elementAt h r i = (Value.atIndex? es i).elim (.error (outside c i es.length)) .ok := by
  rw [elementAt, hc]
  cases c with
  | array es' =>
    cases hes
    cases hat : Value.atIndex? es i with
    | none | some v =>
      rw [Value.atIndex?] at hat
      simp only [Except.mapError, bind, Except.bind, hat]
      rfl
  | string s =>
    cases hes
    rw [Value.atIndex?_map, List.length_map]
    cases hat : Value.atIndex? (Text.runes s) i with
    | none | some x =>
      rw [Value.atIndex?] at hat
      simp only [Except.mapError, bind, Except.bind, hat]
      rfl
  | _ => cases hes

/-! ## Writing -/

/-- No element is set outside of a container. -/
theorem withElement_of_outside (hes : c.elements? = some es) (hi : ¬(0 ≤ i ∧ i < es.length))
    (v : Value) : withElement c i v = .error (outside c i es.length) := by
  cases c with
  | array es' =>
    cases hes
    exact if_pos (by omega)
  | string s =>
    cases hes
    rw [List.length_map] at hi ⊢
    exact if_pos (by omega)
  | _ => cases hes

/-- Writing a character that is a scalar value decodes the string, and decodes to what was
written. -/
theorem elements?_ofRunes (s : Bytes) (i : Nat) {x : Nat} (hx : Text.isScalar x = true) :
    (Value.string (Text.ofRunes ((Text.runes s).set i x))).elements? =
      (Value.string s).elements?.map fun es => es.set i (.char (UInt32.ofNat x)) := by
  have hread : Text.runes (Text.ofRunes ((Text.runes s).set i x)) = (Text.runes s).set i x := by
    refine Text.runes_ofRunes fun y hy => ?_
    rcases List.mem_or_eq_of_mem_set hy with hy | rfl
    · exact Text.isScalar_of_mem_runes hy
    · exact hx
  rw [Value.elements?, Value.elements?, hread, Option.map_some, List.map_set]

/-- **Writing an element** replaces it in the list of the elements. -/
theorem withElement_of_shown (hes : c.elements? = some es) (hi : 0 ≤ i ∧ i < es.length)
    (hw : Shown c v w) : ∃ c', withElement c i v = .ok c' ∧ c'.elements? = some (es.set i.toNat w) ∧
      outside c' = outside c := by
  cases hw with
  | element es' v =>
    cases hes
    exact ⟨_, if_neg (by omega), rfl, rfl⟩
  | @character s x hx =>
    have hwritten := elements?_ofRunes s i.toNat hx
    rw [hes, Option.map_some, UInt32.ofNat_toNat] at hwritten
    cases hes
    rw [List.length_map] at hi
    exact ⟨_, if_neg (by omega), hwritten, rfl⟩
  | byte s b =>
    have hx : Text.isScalar b.toNat = true := by
      have := b.toNat_lt
      simp only [Text.isScalar, Bool.or_eq_true, decide_eq_true_eq]
      omega
    have hwritten := elements?_ofRunes s i.toNat hx
    rw [hes, Option.map_some] at hwritten
    cases hes
    rw [List.length_map] at hi
    exact ⟨_, if_neg (by omega), hwritten, rfl⟩

/-- A string takes characters and bytes only. -/
theorem withElement_string_eq_error {s : Bytes} (hes : (Value.string s).elements? = some es)
    (i : Int) (hv : v.kind ≠ .char ∧ v.kind ≠ .byte) :
    withElement (.string s) i v =
      .error (if 0 ≤ i ∧ i < es.length then .notStorable v.typeName
        else .stringIndex i es.length) := by
  split
  · next hi =>
    cases hes
    rw [List.length_map] at hi
    rw [withElement, if_neg (by omega)]
    · rintro x rfl
      exact hv.1 rfl
    · rintro b rfl
      exact hv.2 rfl
  · next hi => exact withElement_of_outside hes hi v

/-! ## Operands that name elements -/

/-- The operand names an element: the container by a slot of the frame, and the index by another one
or in the operand itself. -/
inductive Names (t : Thread) (f : Frame) : Operand → Ref → Int → Prop
  | index {a k : UInt64} {r : Ref} {i : Int} : t.slotRef f a.toNat = .ok r →
      t.indexIn f k.toNat = .ok i → Names t f (.index a k) r i
  | property {a k : UInt64} {r : Ref} : t.slotRef f a.toNat = .ok r →
      Names t f (.property a k) r k.toInt64.toInt

variable {t : Thread} {f : Frame} {op : Operand}

/-- An operand that names an element reads it. -/
theorem Names.readOperand_eq (hop : t.Names f op r i) :
    t.readOperand f op = elementAt t.heap r i := by
  cases hop with
  | index ha hk =>
    rw [readOperand, ha, hk]
    rfl
  | property ha =>
    rw [readOperand, ha]
    rfl

/-- An operand that names an element writes it; when that fails, the heap is left as it was
given. -/
theorem Names.store_eq (hop : t.Names f op r i) (h : Heap) (v : Value) :
    t.store f op h v =
      ((updateHeap h r (withElement · i v)).map fun heap => { t with heap }).mapError (⟨·, h⟩) := by
  have hslot : ∀ n, slotRef { t with heap := h } f n = t.slotRef f n := fun _ => rfl
  have hindex : ∀ n, indexIn { t with heap := h } f n = t.indexIn f n := fun _ => rfl
  cases hop with
  | index ha hk =>
    rw [store]
    dsimp only
    rw [hslot, hindex, ha, hk]
    rfl
  | property ha =>
    rw [store]
    dsimp only
    rw [hslot, ha]
    rfl

/-! ## The theorem -/

/-- Changing what a live reference leads to makes the new value and writes it. -/
theorem updateHeap_of_get (hc : h.get r = .ok c) (change : Value → Except Fault Value) :
    updateHeap h r change = (change c).bind fun c' => (h.set r c').mapError .memory := by
  rw [updateHeap, hc]
  rfl

/-- What a live reference leads to can be written, so only making the new value can fail. -/
theorem updateHeap_eq_error_iff (hc : h.get r = .ok c) {change : Value → Except Fault Value}
    {fault : Fault} : updateHeap h r change = .error fault ↔ change c = .error fault := by
  rw [updateHeap_of_get hc]
  cases change c with
  | error e => rw [Except.bind, Except.error.injEq, Except.error.injEq]
  | ok c' =>
    obtain ⟨h', hset⟩ := Heap.exists_set_eq_ok hc c'
    rw [Except.bind, hset]
    exact iff_of_false nofun nofun

/-- An index that names an element is never out of bounds. -/
theorem reason_of_withElement (hes : c.elements? = some es) (hi : 0 ≤ i ∧ i < es.length)
    {fault : Fault} (h : withElement c i v = .error fault) : fault.reason = .unexpectedType := by
  cases c with
  | array es' =>
    obtain ⟨c', hok, _⟩ := withElement_of_shown hes hi (.element es' v)
    rw [hok] at h
    cases h
  | string s =>
    cases hes
    rw [List.length_map] at hi
    unfold withElement at h
    dsimp only at h
    rw [if_neg (by omega)] at h
    split at h
    · cases h
    · cases h
    · cases h
      rfl
  | _ => cases hes

/-- **Arrays and strings are accessed as lists of elements.** For a reference to an array, or to a
string of any bytes, let n be its length. An element is read when its index is from 0 to n - 1, and
otherwise reading and writing fail because the index is out of bounds; they fail so for no other
index. Writing any value into an array, or a byte or a character that is a Unicode scalar value into
a string, succeeds at every such index: the length stays, the element reads as what was written (the
corresponding character in a string), and every other element, and every other entry of the heap, as
before. Writing any other value into a string fails. Operands that name elements read and write them
so, and a write that fails leaves the heap as it was. -/
theorem element_access {n : Nat} (hc : h.get r = .ok c) (hn : lengthOf? c = some n) :
    (∀ i : Int, 0 ≤ i ∧ i < n → ∃ v, elementAt h r i = .ok v) ∧
    (∀ i : Int, (∃ fault, elementAt h r i = .error fault ∧ fault.reason = .heapOutOfBounds) ↔
      ¬(0 ≤ i ∧ i < n)) ∧
    (∀ (i : Int) v, (∃ fault, updateHeap h r (withElement · i v) = .error fault ∧
      fault.reason = .heapOutOfBounds) ↔ ¬(0 ≤ i ∧ i < n)) ∧
    (∀ (i : Int) v w, 0 ≤ i ∧ i < n → Shown c v w →
      ∃ h' c', updateHeap h r (withElement · i v) = .ok h' ∧ h'.get r = .ok c' ∧
        lengthOf? c' = some n ∧
        elementAt h' r i = .ok w ∧ (∀ j, j ≠ i → elementAt h' r j = elementAt h r j) ∧
        ∀ q u, q ≠ r → (h'.get q = .ok u ↔ h.get q = .ok u)) ∧
    (∀ (i : Int) v, c.kind = .string → v.kind ≠ .char ∧ v.kind ≠ .byte →
      ∃ fault, updateHeap h r (withElement · i v) = .error fault) ∧
    ∀ (t : Thread) f op (i : Int), t.heap = h → t.Names f op r i →
      t.readOperand f op = elementAt h r i ∧
      (∀ v h', updateHeap h r (withElement · i v) = .ok h' →
        t.store f op h v = .ok { t with heap := h' }) ∧
      ∀ v fault, updateHeap h r (withElement · i v) = .error fault →
        t.store f op h v = .error ⟨fault, h⟩ := by
  obtain ⟨es, hes, rfl⟩ : ∃ es, c.elements? = some es ∧ es.length = n := by
    rw [lengthOf?_eq] at hn
    exact Option.map_eq_some_iff.1 hn
  have hread := elementAt_eq hc hes
  refine ⟨fun i hi => ?_, fun i => ?_, fun i v => ?_, fun i v w hi hw => ?_,
    fun i v hstring hv => ?_, fun t f op i ht hop =>
      ⟨?_, fun v h' hwrite => ?_, fun v fault hwrite => ?_⟩⟩
  · cases hat : Value.atIndex? es i with
    | none => exact absurd hi (Value.atIndex?_eq_none_iff.1 hat)
    | some v => exact ⟨v, by rw [hread, hat]; rfl⟩
  · rw [hread, ← Value.atIndex?_eq_none_iff]
    cases Value.atIndex? es i with
    | none => exact iff_of_true ⟨_, rfl, reason_outside _ _ _⟩ rfl
    | some v => exact iff_of_false (fun ⟨_, h, _⟩ => nomatch h) nofun
  · simp only [updateHeap_eq_error_iff hc]
    refine ⟨fun ⟨fault, hfault, hreason⟩ hi => ?_, fun hi => ?_⟩
    · rw [reason_of_withElement hes hi hfault] at hreason
      cases hreason
    · exact ⟨_, withElement_of_outside hes hi v, reason_outside _ _ _⟩
  · obtain ⟨c', hwrite, hes', houtside⟩ := withElement_of_shown hes hi hw
    obtain ⟨h', hset⟩ := Heap.exists_set_eq_ok hc c'
    have hc' : h'.get r = .ok c' := (Heap.get_set hset).2 (.inl ⟨rfl, rfl⟩)
    have hread' := elementAt_eq hc' hes'
    refine ⟨h', c', ?_, hc', ?_, ?_, fun j hj => ?_, fun q u hq => ?_⟩
    · rw [updateHeap_of_get hc, hwrite]
      exact Except.mapError_eq_ok.2 hset
    · rw [lengthOf?_eq, hes', Option.map_some, List.length_set]
    · rw [hread', Value.atIndex?_set_self hi]
      rfl
    · rw [hread', hread, Value.atIndex?_set_ne hi.1 hj, houtside, List.length_set]
    · rw [Heap.get_set hset]
      simp [hq]
  · obtain ⟨fault, hfault⟩ : ∃ fault, withElement c i v = .error fault := by
      cases c with
      | string s => exact ⟨_, withElement_string_eq_error hes i hv⟩
      | _ => cases hstring
    exact ⟨fault, (updateHeap_eq_error_iff hc).2 hfault⟩
  · rw [hop.readOperand_eq, ht]
  · rw [hop.store_eq, hwrite]
    rfl
  · rw [hop.store_eq, hwrite]
    rfl

/-- A heap with one string, of a stray byte between two letters. -/
def strayHeapSample : Heap := (Heap.alloc {} (.string [0x61, 0xFF, 0x62])).1

/-- The string has three characters. Writing a character of three bytes over the stray byte keeps it
so, and the last one reads as before. -/
theorem element_access_strayHeapSample :
    strayHeapSample.get ⟨0, 0⟩ = .ok (.string [0x61, 0xFF, 0x62]) ∧
    elementAt strayHeapSample ⟨0, 0⟩ 2 = .ok (.char 0x62) ∧
    ∃ h' c', updateHeap strayHeapSample ⟨0, 0⟩ (withElement · 1 (.char 0x20AC)) = .ok h' ∧
      h'.get ⟨0, 0⟩ = .ok c' ∧ lengthOf? c' = some 3 ∧ elementAt h' ⟨0, 0⟩ 1 = .ok (.char 0x20AC) ∧
      elementAt h' ⟨0, 0⟩ 2 = .ok (.char 0x62) := by
  have hc : strayHeapSample.get ⟨0, 0⟩ = .ok (.string [0x61, 0xFF, 0x62]) := rfl
  have hrunes : Text.runes [0x61, 0xFF, 0x62] = [0x61, 0xFFFD, 0x62] := by decide +kernel
  have hlast : elementAt strayHeapSample ⟨0, 0⟩ 2 = .ok (.char 0x62) := by
    rw [elementAt_eq hc rfl, hrunes]
    rfl
  have hlen : lengthOf? (.string [0x61, 0xFF, 0x62]) = some 3 := by rw [lengthOf?, hrunes]; rfl
  obtain ⟨_, _, _, hwrite, _⟩ := element_access hc hlen
  obtain ⟨h', c', hok, hget, hlen, hself, hother, _⟩ :=
    hwrite 1 (.char 0x20AC) _ (by decide) (.character _ rfl)
  exact ⟨hc, hlast, h', c', hok, hget, hlen, hself, by rw [hother 2 (by decide), hlast]⟩

end Thread

end RegisterMachine
