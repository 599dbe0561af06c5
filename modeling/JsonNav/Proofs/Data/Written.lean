import JsonNav.Proofs.Data.Record

/-! The texts of objects as data.  What `objectText` writes is derived by the grammar wherever it
stands in a text, as an object that has the written members in their order. -/

namespace JsonNav

open Text (byteLength)

namespace Data

/-- Wherever the text stands, it is a value that is as `F` says. -/
def Writes (cs : List Char) (F : Data → Prop) : Prop :=
  ∀ o, ∃ x, Grammar.Value meaning cs o x ∧ F x

theorem flatten_intersperse (cs : List Char) (css : List (List Char)) :
    ((cs :: css).intersperse [',']).flatten = cs ++ css.flatMap (',' :: ·) := by
  induction css generalizing cs with
  | nil => simp
  | cons ds css ih =>
    simp only [List.intersperse_cons_cons, List.flatten_cons, ih, List.flatMap_cons,
      List.cons_append, List.nil_append]

theorem quote_derived (s : String) (o : Nat) :
    Grammar.Quote meaning (Text.Quoted.quote s) o
      (.string ⟨o, byteLength (Text.Quoted.quote s)⟩ (some s)) := by
  have hspells := Text.Quoted.spells_encode s.toList
  have hmeaning : meaning.string (Text.Quoted.encode s.toList) (some s) := by
    refine ⟨hspells.escaped, fun t => ?_⟩
    rw [← Text.Quoted.decode?_eq_some_iff, Text.Quoted.decode?_of_spells hspells, Option.some.injEq,
      Option.some.injEq, String.toList_inj]
  exact .mk hmeaning

theorem writes_quote (s : String) :
    Writes (Text.Quoted.quote s) fun x => ∃ span, x = .string span (some s) :=
  fun o => ⟨_, .string (quote_derived s o), _, rfl⟩

theorem writes_word (w : UInt32) : Writes (Nat.repr w.toNat).toList (IsWord w) := by
  obtain ⟨digits, hdigits⟩ := Whole.exists_value_eq w.toNat
  have htext : (⟨false, digits, none, none⟩ : Numeral).text = (Nat.repr w.toNat).toList :=
    Numeral.nat?_eq_some_iff.mp (congrArg some hdigits)
  intro o
  rw [← htext]
  exact ⟨_, .number rfl, _, _, rfl, htext⟩

theorem exists_property {cs : List Char} {F : Data → Prop} (name : String) (h : Writes cs F)
    (o : Nat) :
    ∃ p x, Grammar.Property meaning (Grammar.Value meaning)
        (Text.Quoted.quote name ++ ':' :: cs) o p ∧
      IsMember p (name, x) ∧ F x := by
  obtain ⟨x, hx, hF⟩ := h (o + byteLength (Text.Quoted.quote name ++ [] ++ ':' :: []))
  have hproperty := Grammar.Property.mk (quote_derived name o) Grammar.blanks_nil
    Grammar.blanks_nil hx
  rw [List.append_nil, List.append_assoc, List.singleton_append] at hproperty
  exact ⟨_, x, hproperty, ⟨_, _, rfl⟩, hF⟩

theorem exists_others {members : List (String × List Char)} {shapes : List (Data → Prop)}
    (h : List.Forall₂ (fun m F => Writes m.2 F) members shapes) (o : Nat) :
    ∃ properties values, Grammar.Others (Grammar.Property meaning (Grammar.Value meaning)) '}'
        ((members.map fun m => Text.Quoted.quote m.1 ++ ':' :: m.2).flatMap (',' :: ·) ++ ['}']) o
        properties ∧
      List.Forall₂ IsMember properties ((members.map Prod.fst).zip values) ∧
      List.Forall₂ (fun F x => F x) shapes values := by
  induction h generalizing o with
  | nil => exact ⟨[], [], .done Grammar.blanks_nil, .nil, .nil⟩
  | @cons m F members shapes hm _ ih =>
    obtain ⟨p, x, hp, hmember, hF⟩ := exists_property m.1 hm (o + byteLength ([] ++ ',' :: []))
    obtain ⟨properties, values, hothers, hmembers, hvalues⟩ := ih
      (o + byteLength ([] ++ ',' :: [] ++ (Text.Quoted.quote m.1 ++ ':' :: m.2)))
    refine ⟨p :: properties, x :: values, ?_, .cons hmember hmembers, .cons hF hvalues⟩
    have hmore := Grammar.Others.more Grammar.blanks_nil Grammar.blanks_nil hp hothers
    simpa using hmore

/-- The text of an object is an object of its members. -/
theorem writes_objectText {members : List (String × List Char)} {shapes : List (Data → Prop)}
    (h : List.Forall₂ (fun m F => Writes m.2 F) members shapes) :
    Writes (objectText members) fun x => ∃ span properties values, x = .object span properties ∧
      List.Forall₂ IsMember properties ((members.map Prod.fst).zip values) ∧
      List.Forall₂ (fun F x => F x) shapes values := by
  intro o
  cases h with
  | nil => exact ⟨_, .object (.empty Grammar.blanks_nil), _, [], [], rfl, .nil, .nil⟩
  | @cons m F members shapes hm h =>
    obtain ⟨p, x, hp, hmember, hF⟩ := exists_property m.1 hm (o + 1 + byteLength [])
    obtain ⟨properties, values, hothers, hmembers, hvalues⟩ := exists_others h
      (o + 1 + byteLength ([] ++ (Text.Quoted.quote m.1 ++ ':' :: m.2)))
    have hcontents := Grammar.Contents.items Grammar.blanks_nil hp hothers
    have htext : objectText (m :: members) = '{' :: ([] ++ (Text.Quoted.quote m.1 ++ ':' :: m.2) ++
        ((members.map fun m => Text.Quoted.quote m.1 ++ ':' :: m.2).flatMap (',' :: ·) ++
          ['}'])) := by
      simp only [objectText, List.map_cons, flatten_intersperse, List.cons_append,
        List.append_assoc, List.nil_append]
    rw [htext]
    exact ⟨_, .object hcontents, _, p :: properties, x :: values, rfl, .cons hmember hmembers,
      .cons hF hvalues⟩

/-- The values of fields are those that the members of an object have for them. -/
theorem Record.of_members {names : List String} {span : Span} {properties : List Data}
    {members : List (String × Data)} {values : List (Option Data)}
    (hmembers : List.Forall₂ IsMember properties members)
    (hvalues : names.mapM (field? members) = some values) :
    Record names (.object span properties) values := by
  rw [mapM_eq_some_iff] at hvalues
  exact .object hmembers (by simpa only [field?_eq_some_iff] using hvalues)

/-- The text of an object with two members is a record of two fields. -/
theorem writes_pair {a b : String} (hne : a ≠ b) {cs ds : List Char} {F G : Data → Prop}
    (hF : Writes cs F) (hG : Writes ds G) :
    Writes (objectText [(a, cs), (b, ds)]) fun x =>
      ∃ y z, Record [a, b] x [some y, some z] ∧ F y ∧ G z := by
  have h : List.Forall₂ (fun m F => Writes m.2 F) [(a, cs), (b, ds)] [F, G] :=
    .cons hF (.cons hG .nil)
  intro o
  obtain ⟨x, hx, span, properties, values, rfl, hmembers, hvalues⟩ := writes_objectText h o
  rcases hvalues with _ | ⟨hy, _ | ⟨hz, _ | _⟩⟩
  refine ⟨_, hx, _, _, .of_members hmembers ?_, hy, hz⟩
  simp [field?, hne, hne.symm]

end Data

end JsonNav
