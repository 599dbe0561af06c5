import Mathlib.Data.List.Forall2
import JsonNav.Proofs.Data.Parse
import JsonNav.Proofs.Lists
import JsonNav.Proofs.Number.Decimal

/-! The written forms of records and words.  A record is an object in which each field that it has
stands once, in any order and among any other members, or an array of all its fields.  A word is its
decimal digits.  `Flawed` says what is wrong with a tree that is no such record. -/

namespace JsonNav

/-- A literal is known from its text. -/
theorem Numeral.text_injective {n n' : Numeral} (h : n.text = n'.text) : n = n' := by
  have hstops (n : Numeral) : n.Stops [] := by simp [Numeral.Stops]
  have hn := Numeral.scan?_text_append n (hstops n)
  rw [h, Numeral.scan?_text_append n' (hstops n')] at hn
  exact (Prod.mk.inj (Option.some.inj hn)).1.symm

/-- A literal spells a number with digits alone if it is the decimal text of the number. -/
theorem Numeral.nat?_eq_some_iff {n : Numeral} {k : Nat} :
    n.nat? = some k ↔ n.text = (Nat.repr k).toList := by
  have hplain (w : Whole) :
      (⟨false, w, none, none⟩ : Numeral).text = (Nat.repr w.value).toList := by
    rw [Nat.toList_repr, ← w.text_eq_toDigits]
    simp [Numeral.text]
  constructor
  · intro h
    unfold Numeral.nat? at h
    split at h
    next => cases h
    next hdigits =>
      obtain ⟨negative, w, fraction, exponent⟩ := n
      obtain rfl := Option.some.inj h
      simp only [not_or, Bool.not_eq_true, Option.isSome_eq_false_iff, Option.isNone_iff_eq_none]
        at hdigits
      obtain ⟨rfl, rfl, rfl⟩ := hdigits
      exact hplain w
  · intro h
    obtain ⟨w, rfl⟩ := Whole.exists_value_eq k
    rw [Numeral.text_injective (h.trans (hplain w).symm)]
    rfl

namespace Data

variable {x y : Data} {names : List String} {name : String} {members : List (String × Data)}

/-! ### Members -/

/-- The property has the name and the value of a member. -/
def IsMember (p : Data) (m : String × Data) : Prop :=
  ∃ span keySpan, p = .property span (.string keySpan (some m.1)) (some m.2)

/-- What the members of an object have for a field: nothing if none of them has its name, and a
value if just one of them has. -/
inductive Has (name : String) : List (String × Data) → Option Data → Prop
  | missing {members : List (String × Data)} : (∀ m ∈ members, m.1 ≠ name) → Has name members none
  | once {before after : List (String × Data)} {x : Data} : (∀ m ∈ before ++ after, m.1 ≠ name) →
      Has name (before ++ (name, x) :: after) (some x)

/-- The values of the named fields of a record, in the order of the names. -/
inductive Record (names : List String) : Data → List (Option Data) → Prop
  | object {span : Span} {properties : List Data} {members : List (String × Data)}
      {values : List (Option Data)} : List.Forall₂ IsMember properties members →
      List.Forall₂ (fun name => Has name members) names values →
      Record names (.object span properties) values
  | array {span : Span} {items : List Data} : items.length = names.length →
      Record names (.array span items) (items.map some)

theorem member?_eq_some_iff {p : Data} {m : String × Data} : member? p = some m ↔ IsMember p m := by
  constructor
  · intro h
    unfold member? at h
    split at h
    · obtain rfl := Option.some.inj h
      exact ⟨_, _, rfl⟩
    · exact nomatch h
  · rintro ⟨span, keySpan, rfl⟩
    rfl

theorem mapM_member?_eq_some_iff {properties : List Data} :
    properties.mapM member? = some members ↔ List.Forall₂ IsMember properties members := by
  rw [mapM_eq_some_iff]
  simp only [member?_eq_some_iff]

theorem field?_eq_some_iff {v : Option Data} :
    field? members name = some v ↔ Has name members v := by
  constructor
  · intro h
    unfold field? at h
    split at h
    next hfilter =>
      obtain rfl := Option.some.inj h
      exact .missing (by simpa using List.filter_eq_nil_iff.mp hfilter)
    next m hfilter =>
      obtain rfl := Option.some.inj h
      obtain ⟨before, after, rfl, hbefore, hm, hafter⟩ := List.filter_eq_cons_iff.mp hfilter
      obtain ⟨_, x⟩ := m
      obtain rfl : _ = name := by simpa using hm
      refine .once fun m hm => ?_
      rcases List.mem_append.mp hm with hm | hm
      · simpa using hbefore m hm
      · simpa using List.filter_eq_nil_iff.mp hafter m hm
    next => exact nomatch h
  · rintro (hno | hno)
    · have hfilter : members.filter (fun m => m.1 = name) = [] :=
        List.filter_eq_nil_iff.mpr (by simpa using hno)
      rw [field?, hfilter]
    · rw [List.forall_mem_append] at hno
      rw [field?, List.filter_append, List.filter_cons_of_pos (by simp),
        List.filter_eq_nil_iff.mpr (by simpa using hno.1),
        List.filter_eq_nil_iff.mpr (by simpa using hno.2)]
      rfl

/-- The fields that are read are those of a record. -/
theorem fields?_eq_some_iff {values : List (Option Data)} :
    fields? names x = some values ↔ Record names x values := by
  constructor
  · intro h
    unfold fields? at h
    split at h
    next span properties =>
      obtain ⟨members, hmembers, h⟩ := Option.bind_eq_some_iff.mp h
      rw [mapM_eq_some_iff] at h
      simp only [field?_eq_some_iff] at h
      exact .object (mapM_member?_eq_some_iff.mp hmembers) h
    next span items =>
      split at h
      next hlength =>
        obtain rfl := Option.some.inj h
        exact .array hlength
      next => exact nomatch h
    next => exact nomatch h
  · rintro (⟨hmembers, hvalues⟩ | hlength)
    · refine Option.bind_eq_some_iff.mpr ⟨_, mapM_member?_eq_some_iff.mpr hmembers, ?_⟩
      rw [mapM_eq_some_iff]
      simpa only [field?_eq_some_iff] using hvalues
    · exact if_pos hlength

/-! ### Flaws -/

/-- What can be wrong with a record: a field that stands twice, a needed field that is missing, a
value that is wrong for its field, or an array that is too short or too long. -/
inductive Flawed (names needed : List String) (Wrong : String → Data → Prop) : Data → Prop
  | repeated {span : Span} {properties : List Data} {before between after : List (String × Data)}
      {name : String} {y z : Data} :
      List.Forall₂ IsMember properties (before ++ (name, y) :: between ++ (name, z) :: after) →
      name ∈ names → Flawed names needed Wrong (.object span properties)
  | missing {span : Span} {properties : List Data} {members : List (String × Data)}
      {name : String} : List.Forall₂ IsMember properties members → name ∈ needed →
      (∀ m ∈ members, m.1 ≠ name) → Flawed names needed Wrong (.object span properties)
  | member {span : Span} {properties : List Data} {members : List (String × Data)}
      {name : String} {y : Data} : List.Forall₂ IsMember properties members → name ∈ names →
      (name, y) ∈ members → Wrong name y → Flawed names needed Wrong (.object span properties)
  | length {span : Span} {items : List Data} : items.length ≠ names.length →
      Flawed names needed Wrong (.array span items)
  | item {span : Span} {items : List Data} {name : String} {y : Data} :
      (name, y) ∈ names.zip items → Wrong name y → Flawed names needed Wrong (.array span items)

theorem members_unique {properties : List Data} {members' : List (String × Data)}
    (h : List.Forall₂ IsMember properties members)
    (h' : List.Forall₂ IsMember properties members') : members = members' := by
  have hmap := mapM_member?_eq_some_iff.mpr h
  rw [mapM_member?_eq_some_iff.mpr h'] at hmap
  exact (Option.some.inj hmap).symm

namespace Has

variable {v : Option Data}

theorem eq_none (h : Has name members v) (hno : ∀ m ∈ members, m.1 ≠ name) : v = none := by
  cases h with
  | missing => rfl
  | @once _ _ x _ => exact absurd rfl (hno (name, x) (by simp))

theorem eq_some (h : Has name members v) (hy : (name, y) ∈ members) : v = some y := by
  cases h with
  | missing hno => exact absurd rfl (hno _ hy)
  | @once before after x hno =>
    rw [List.forall_mem_append] at hno
    rcases List.mem_append.mp hy with hy | hy
    · exact absurd rfl (hno.1 _ hy)
    · rcases List.mem_cons.mp hy with heq | hy
      · rw [(Prod.mk.inj heq).2]
      · exact absurd rfl (hno.2 _ hy)

/-- A field that an object has stands in it once. -/
theorem length_filter_le (h : Has name members v) :
    (members.filter fun m => m.1 = name).length ≤ 1 := by
  have hfield := field?_eq_some_iff.mpr h
  unfold field? at hfield
  split at hfield
  next hfilter => simp [hfilter]
  next hfilter => simp [hfilter]
  next => exact nomatch hfield

end Has

/-- If a flawed tree is a record at all, then a value of it is missing or wrong. -/
theorem Flawed.exists_of_record {needed : List String} {Wrong : String → Data → Prop}
    {values : List (Option Data)} (h : Flawed names needed Wrong x) (hsub : needed ⊆ names)
    (hrecord : Record names x values) :
    ∃ name v, (name, v) ∈ names.zip values ∧
      (name ∈ needed ∧ v = none ∨ ∃ y, v = some y ∧ Wrong name y) := by
  cases hrecord with
  | object hmembers hvalues =>
    cases h with
    | repeated hmembers' hname =>
      obtain rfl := members_unique hmembers hmembers'
      obtain ⟨v, -, hhas⟩ := exists_mem_zip hvalues hname
      have hle := hhas.length_filter_le
      simp at hle
      omega
    | missing hmembers' hname hno =>
      obtain rfl := members_unique hmembers hmembers'
      obtain ⟨v, hmem, hhas⟩ := exists_mem_zip hvalues (hsub hname)
      exact ⟨_, v, hmem, .inl ⟨hname, hhas.eq_none hno⟩⟩
    | member hmembers' hname hy hwrong =>
      obtain rfl := members_unique hmembers hmembers'
      obtain ⟨v, hmem, hhas⟩ := exists_mem_zip hvalues hname
      exact ⟨_, v, hmem, .inr ⟨_, hhas.eq_some hy, hwrong⟩⟩
  | array hlength =>
    cases h with
    | length hne => exact absurd hlength hne
    | item hmem hwrong =>
      refine ⟨_, some _, ?_, .inr ⟨_, rfl, hwrong⟩⟩
      rw [List.zip_map_right]
      exact List.mem_map.mpr ⟨_, hmem, rfl⟩

/-- If a flawed tree is a record of two fields of which the second has a value, then the first is
missing, or one of the two values is wrong. -/
theorem Flawed.of_pair {a b : String} {needed : List String} {Wrong : String → Data → Prop}
    {v : Option Data} (h : Flawed [a, b] needed Wrong x) (hsub : needed ⊆ [a, b])
    (hrecord : Record [a, b] x [v, some y]) :
    a ∈ needed ∧ v = none ∨ (∃ z, v = some z ∧ Wrong a z) ∨ Wrong b y := by
  obtain ⟨name, w, hmem, hbad⟩ := h.exists_of_record hsub hrecord
  simp only [List.zip_cons_cons, List.zip_nil_right, List.mem_cons, List.not_mem_nil, or_false,
    Prod.mk.injEq] at hmem
  rcases hmem with ⟨rfl, rfl⟩ | ⟨rfl, rfl⟩
  · exact hbad.imp_right .inl
  · rcases hbad with ⟨-, hnone⟩ | ⟨z, hz, hwrong⟩
    · exact nomatch hnone
    · obtain rfl := Option.some.inj hz
      exact .inr (.inr hwrong)

/-! ### Words -/

/-- The word is written as its decimal digits. -/
def IsWord (w : UInt32) (x : Data) : Prop :=
  ∃ span n, x = .number span n ∧ n.text = (Nat.repr w.toNat).toList

/-- A number that is no 32-bit word, or is not written with digits alone. -/
def IsUnfit (x : Data) : Prop :=
  ∃ span n, x = .number span n ∧
    (n.negative = true ∨ n.fraction.isSome ∨ n.exponent.isSome ∨ 2 ^ 32 ≤ n.whole.value)

theorem word?_eq_some_iff {w : UInt32} : word? x = some w ↔ IsWord w x := by
  constructor
  · intro h
    unfold word? at h
    split at h
    next span n =>
      obtain ⟨k, hk, h⟩ := Option.bind_eq_some_iff.mp h
      split at h
      next hlt =>
        obtain rfl := Option.some.inj h
        refine ⟨span, n, rfl, ?_⟩
        rw [Nat.toUInt32, UInt32.toNat_ofNat_of_lt' hlt]
        exact Numeral.nat?_eq_some_iff.mp hk
      next => exact nomatch h
    next => exact nomatch h
  · rintro ⟨span, n, rfl, htext⟩
    refine Option.bind_eq_some_iff.mpr ⟨w.toNat, Numeral.nat?_eq_some_iff.mpr htext, ?_⟩
    rw [if_pos w.toNat_lt]
    simp

theorem IsUnfit.not_isWord (h : IsUnfit x) (w : UInt32) : ¬IsWord w x := by
  obtain ⟨span, n, rfl, h⟩ := h
  rintro ⟨_, _, heq, htext⟩
  obtain ⟨-, rfl⟩ := Node.number.inj heq
  have hnat := Numeral.nat?_eq_some_iff.mpr htext
  unfold Numeral.nat? at hnat
  split at hnat
  next => exact nomatch hnat
  next hdigits =>
    simp only [not_or, Bool.not_eq_true] at hdigits
    have hvalue := Option.some.inj hnat
    have hlt := w.toNat_lt
    simp only [hdigits] at h
    simp at h
    omega

end Data

end JsonNav
