import JsonNav.Proofs.Tree.Grammar
import JsonNav.Tree.Walk

/-! What derived trees are made of.  The items of an array and the values of properties are values
again, an object has properties only, and a tree has no more nodes than its text has bytes. -/

namespace JsonNav

open Text (byteLength)

variable {α σ ν : Type}

namespace Grammar

variable {P : List Char → Nat → α → Prop} {m : Meaning σ ν} {close : Char} {cs : List Char}
  {o : Nat}

/-- The node is a value, wherever it was derived from. -/
def IsValue (m : Meaning σ ν) (n : Node σ ν) : Prop :=
  ∃ cs o, Value m cs o n

theorem Others.forall_mem {as : List α} (h : Others P close cs o as) :
    ∀ a ∈ as, ∃ ds o, P ds o a := by
  induction h with
  | done => simp
  | more _ _ ha _ ih =>
    rintro a (_ | ⟨_, hmem⟩)
    · exact ⟨_, _, ha⟩
    · exact ih a hmem

theorem Contents.forall_mem {as : List α} (h : Contents P close cs o as) :
    ∀ a ∈ as, ∃ ds o, P ds o a := by
  cases h with
  | empty => simp
  | items _ ha has =>
    rintro a (_ | ⟨_, hmem⟩)
    · exact ⟨_, _, ha⟩
    · exact has.forall_mem a hmem

theorem Text.isValue {n : Node σ ν} (h : Text m cs n) : IsValue m n := by
  cases h with
  | mk _ hvalue _ => exact ⟨_, _, hvalue⟩

theorem IsValue.kind_ne {n : Node σ ν} (h : IsValue m n) : n.kind ≠ .property := by
  obtain ⟨cs, o, h⟩ := h
  cases h with
  | string h =>
    cases h with
    | mk => simp [Node.kind]
  | _ => simp [Node.kind]

theorem IsValue.of_array {s : Span} {items : List (Node σ ν)} (h : IsValue m (.array s items)) :
    ∀ n ∈ items, IsValue m n := by
  obtain ⟨cs, o, h⟩ := h
  cases h with
  | string h => exact nomatch h
  | array h => exact h.forall_mem

theorem IsValue.of_object {s : Span} {ps : List (Node σ ν)} (h : IsValue m (.object s ps)) :
    ∀ p ∈ ps, ∃ t k v, p = .property t k (some v) ∧ IsValue m v := by
  obtain ⟨cs, o, h⟩ := h
  cases h with
  | string h => exact nomatch h
  | object h =>
    intro p hp
    obtain ⟨ds, o, hproperty⟩ := h.forall_mem p hp
    cases hproperty with
    | mk _ _ _ hvalue => exact ⟨_, _, _, rfl, _, _, hvalue⟩

/-! ### Sizes -/

theorem Others.sizeAll_le {Q : List Char → Nat → Node σ ν → Prop}
    (hQ : ∀ {cs o n}, Q cs o n → n.size ≤ byteLength cs) {ns : List (Node σ ν)}
    (h : Others Q close cs o ns) : Node.sizeAll ns ≤ byteLength cs := by
  induction h with
  | done => exact Nat.zero_le _
  | more _ _ hn _ ih =>
    have := hQ hn
    simp only [Node.sizeAll, Text.byteLength_append]
    omega

theorem Contents.sizeAll_le {Q : List Char → Nat → Node σ ν → Prop}
    (hQ : ∀ {cs o n}, Q cs o n → n.size ≤ byteLength cs) {ns : List (Node σ ν)}
    (h : Contents Q close cs o ns) : Node.sizeAll ns ≤ byteLength cs := by
  cases h with
  | empty => exact Nat.zero_le _
  | items _ hn hns =>
    have := hQ hn
    have := hns.sizeAll_le hQ
    simp only [Node.sizeAll, Text.byteLength_append]
    omega

theorem Quote.size_eq {n : Node σ ν} (h : Quote m cs o n) : n.size = 1 := by
  cases h with
  | mk => rfl

theorem Property.size_le {Q : List Char → Nat → Node σ ν → Prop}
    (hQ : ∀ {cs o n}, Q cs o n → n.size ≤ byteLength cs) {n : Node σ ν}
    (h : Property m Q cs o n) : n.size ≤ byteLength cs := by
  cases h with
  | mk hkey _ _ hvalue =>
    -- The key pays with its quotes for itself and for the property.
    have hsize := hkey.size_eq
    have hvalue := hQ hvalue
    cases hkey with
    | mk =>
      simp only [Node.size, Text.byteLength_append, Text.byteLength_cons] at hvalue ⊢
      have := '"'.utf8Size_pos
      omega

theorem Value.size_le {n : Node σ ν} (h : Value m cs o n) : n.size ≤ byteLength cs := by
  have hword {ds : List Char} (hds : ds ≠ []) : 1 ≤ byteLength ds := Text.byteLength_pos hds
  refine Value.induct (motive := fun cs _ n => n.size ≤ byteLength cs) ?string ?number ?trueWord
    ?falseWord ?nullWord ?array ?object h
  case string =>
    intro cs o n h
    rw [h.size_eq]
    cases h with
    | mk => exact hword (by simp)
  case number => exact fun {n} _ _ _ => hword n.text_ne_nil
  case trueWord => exact fun {_} => hword (by simp)
  case falseWord => exact fun {_} => hword (by simp)
  case nullWord => exact fun {_} => hword (by simp)
  case array =>
    intro cs o ns h
    have := h.sizeAll_le fun hn => hn.2
    rw [Node.size, Text.byteLength_cons, show '['.utf8Size = 1 from rfl]
    omega
  case object =>
    intro cs o ns h
    have := h.sizeAll_le fun hn => hn.size_le fun hv => hv.2
    rw [Node.size, Text.byteLength_cons, show '{'.utf8Size = 1 from rfl]
    omega

theorem Text.size_le {n : Node σ ν} (h : Text m cs n) : n.size ≤ byteLength cs := by
  cases h with
  | mk _ hvalue _ =>
    have := hvalue.size_le
    simp only [Text.byteLength_append]
    omega

end Grammar

end JsonNav
