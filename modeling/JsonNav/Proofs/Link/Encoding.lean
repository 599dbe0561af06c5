import JsonNav.Link.Encoding
import JsonNav.Proofs.Data.Written

/-! The written forms of links.  `Form l x` says that the data `x` is one of the ways to write the
link `l`: at each of the levels of link, range and position as an object with its fields in any
order among other members, or as an array of its fields.  A text is decoded as the link that it is
a form of, the text that a link is encoded as is one of its forms, and `Flawed` data is no form of
any link. -/

namespace JsonNav

open Data (IsMember IsUnfit IsWord Record Writes)

variable {x : Data}

namespace Position

/-- The data is a written form of the position. -/
def Form (p : Position) (x : Data) : Prop :=
  ∃ line column, Record ["line", "character"] x [some line, some column] ∧ IsWord p.line line ∧
    IsWord p.column column

/-- Data that is no position: a field of it is repeated or missing, or is a number that is no word
in digits, or it is an array of another length. -/
def Flawed : Data → Prop :=
  Data.Flawed ["line", "character"] ["line", "character"] fun _ y => IsUnfit y

variable {p : Position}

theorem ofData?_eq_some_iff : ofData? x = some p ↔ Form p x := by
  constructor
  · intro h
    unfold ofData? at h
    split at h
    next line column hfields =>
      obtain ⟨l, hl, h⟩ := Option.bind_eq_some_iff.mp h
      obtain ⟨c, hc, h⟩ := Option.bind_eq_some_iff.mp h
      obtain rfl := Option.some.inj h
      exact ⟨line, column, Data.fields?_eq_some_iff.mp hfields, Data.word?_eq_some_iff.mp hl,
        Data.word?_eq_some_iff.mp hc⟩
    next => exact nomatch h
  · rintro ⟨line, column, hrecord, hl, hc⟩
    rw [ofData?, Data.fields?_eq_some_iff.mpr hrecord]
    simp [Data.word?_eq_some_iff.mpr hl, Data.word?_eq_some_iff.mpr hc]

theorem Flawed.not_form (h : Flawed x) : ¬Form p x := by
  rintro ⟨line, column, hrecord, hl, hc⟩
  rcases Data.Flawed.of_pair h (List.Subset.refl _) hrecord with ⟨-, h⟩ | ⟨y, hy, h⟩ | h
  · exact nomatch h
  · obtain rfl := Option.some.inj hy
    exact h.not_isWord p.line hl
  · exact h.not_isWord p.column hc

theorem writes_encode (p : Position) : Writes p.encode (Form p) :=
  Data.writes_pair (by decide) (Data.writes_word p.line) (Data.writes_word p.column)

end Position

namespace Range

/-- The data is a written form of the range. -/
def Form (r : Range) (x : Data) : Prop :=
  ∃ start stop, Record ["start", "end"] x [some start, some stop] ∧ r.start.Form start ∧
    r.stop.Form stop

/-- Data that is no range: a field of it is repeated or missing, or is flawed as a position, or it
is an array of another length. -/
def Flawed : Data → Prop :=
  Data.Flawed ["start", "end"] ["start", "end"] fun _ y => Position.Flawed y

variable {r : Range}

theorem ofData?_eq_some_iff : ofData? x = some r ↔ Form r x := by
  constructor
  · intro h
    unfold ofData? at h
    split at h
    next start stop hfields =>
      obtain ⟨p, hp, h⟩ := Option.bind_eq_some_iff.mp h
      obtain ⟨q, hq, h⟩ := Option.bind_eq_some_iff.mp h
      obtain rfl := Option.some.inj h
      exact ⟨start, stop, Data.fields?_eq_some_iff.mp hfields, Position.ofData?_eq_some_iff.mp hp,
        Position.ofData?_eq_some_iff.mp hq⟩
    next => exact nomatch h
  · rintro ⟨start, stop, hrecord, hp, hq⟩
    rw [ofData?, Data.fields?_eq_some_iff.mpr hrecord]
    simp [Position.ofData?_eq_some_iff.mpr hp, Position.ofData?_eq_some_iff.mpr hq]

theorem Flawed.not_form (h : Flawed x) : ¬Form r x := by
  rintro ⟨start, stop, hrecord, hp, hq⟩
  rcases Data.Flawed.of_pair h (List.Subset.refl _) hrecord with ⟨-, h⟩ | ⟨y, hy, h⟩ | h
  · exact nomatch h
  · obtain rfl := Option.some.inj hy
    exact Position.Flawed.not_form h hp
  · exact Position.Flawed.not_form h hq

theorem writes_encode (r : Range) : Writes r.encode (Form r) :=
  Data.writes_pair (by decide) r.start.writes_encode r.stop.writes_encode

end Range

namespace Link

/-- What a record has for the target of a link. -/
inductive TargetForm : Option String → Option Data → Prop
  | missing : TargetForm none none
  | null {span : Span} : TargetForm none (some (.null span))
  | text {span : Span} {s : String} : TargetForm (some s) (some (.string span (some s)))

/-- The data is a written form of the link. -/
def Form (l : Link) (x : Data) : Prop :=
  ∃ target range, Record ["target", "range"] x [target, some range] ∧
    TargetForm l.target target ∧ l.range.Form range

/-- Data that is no link: a field of it is repeated, or its range is missing or flawed, or it is an
array of another length. -/
def Flawed : Data → Prop :=
  Data.Flawed ["target", "range"] ["range"] fun name y => name = "range" ∧ Range.Flawed y

variable {l : Link}

theorem optionalText?_eq_some_iff {target : Option Data} {t : Option String} :
    (target.map Data.optionalText?).getD (some none) = some t ↔ TargetForm t target := by
  constructor
  · intro h
    cases target with
    | none =>
      obtain rfl := Option.some.inj h
      exact .missing
    | some y =>
      change Data.optionalText? y = some t at h
      unfold Data.optionalText? at h
      split at h
      next =>
        obtain rfl := Option.some.inj h
        exact .null
      next =>
        obtain rfl := Option.some.inj h
        exact .text
      next => exact nomatch h
  · rintro (_ | _ | _) <;> rfl

theorem ofData?_eq_some_iff : ofData? x = some l ↔ Form l x := by
  constructor
  · intro h
    unfold ofData? at h
    split at h
    next target range hfields =>
      obtain ⟨t, ht, h⟩ := Option.bind_eq_some_iff.mp h
      obtain ⟨r, hr, h⟩ := Option.bind_eq_some_iff.mp h
      obtain rfl := Option.some.inj h
      exact ⟨target, range, Data.fields?_eq_some_iff.mp hfields, optionalText?_eq_some_iff.mp ht,
        Range.ofData?_eq_some_iff.mp hr⟩
    next => exact nomatch h
  · rintro ⟨target, range, hrecord, ht, hr⟩
    rw [ofData?, Data.fields?_eq_some_iff.mpr hrecord]
    simp [optionalText?_eq_some_iff.mpr ht, Range.ofData?_eq_some_iff.mpr hr]

theorem Flawed.not_form (h : Flawed x) : ¬Form l x := by
  rintro ⟨target, range, hrecord, -, hr⟩
  rcases Data.Flawed.of_pair h (by simp) hrecord with ⟨h, -⟩ | ⟨y, -, h, -⟩ | ⟨-, h⟩
  · exact absurd h (by decide)
  · exact absurd h (by decide)
  · exact Range.Flawed.not_form h hr

/-- A link is written as an object with its range, and with its target if it has one. -/
theorem writes_encode (l : Link) :
    Writes l.encode fun x => l.Form x ∧ ∃ span properties members, x = .object span properties ∧
      List.Forall₂ IsMember properties members ∧
      members.map Prod.fst = (if l.target.isSome then ["target", "range"] else ["range"]) := by
  obtain ⟨range, target⟩ := l
  intro o
  cases target with
  | none =>
    have h : List.Forall₂ (fun m F => Writes m.2 F) [("range", range.encode)] [range.Form] :=
      .cons range.writes_encode .nil
    obtain ⟨x, hx, span, properties, values, rfl, hmembers, hvalues⟩ := Data.writes_objectText h o
    rcases hvalues with _ | ⟨hr, _ | _⟩
    refine ⟨_, hx, ⟨none, _, .of_members hmembers ?_, .missing, hr⟩, _, _, _, rfl, hmembers, rfl⟩
    simp [Data.field?]
  | some t =>
    have h : List.Forall₂ (fun m F => Writes m.2 F)
        [("target", Text.Quoted.quote t), ("range", range.encode)]
        [fun x => ∃ span, x = .string span (some t), range.Form] :=
      .cons (Data.writes_quote t) (.cons range.writes_encode .nil)
    obtain ⟨x, hx, span, properties, values, rfl, hmembers, hvalues⟩ := Data.writes_objectText h o
    rcases hvalues with _ | ⟨⟨quoted, rfl⟩, _ | ⟨hr, _ | _⟩⟩
    refine ⟨_, hx, ⟨some (.string quoted (some t)), _, .of_members hmembers ?_, .text, hr⟩, _, _, _,
      rfl, hmembers, rfl⟩
    simp [Data.field?]

theorem decode?_eq_some_iff {s : String} :
    decode? s = some l ↔ ∃ x, Grammar.Text Data.meaning s.toList x ∧ Form l x := by
  simp only [decode?, Option.bind_eq_bind, Option.bind_eq_some_iff, Data.parse?_eq_some_iff,
    ofData?_eq_some_iff]

/-- A link is decoded from each text of each of its forms and from no other, and so from the text
that it is encoded as, which has a target just if the link has one.  Flawed data is refused as a
link, as a range and as a position. -/
theorem decode?_forms :
    (∀ l : Link, decode? (String.ofList l.encode) = some l ∧
      ∃ span properties members,
        Grammar.Text Data.meaning l.encode (.object span properties) ∧
        List.Forall₂ IsMember properties members ∧
        members.map Prod.fst = if l.target.isSome then ["target", "range"] else ["range"]) ∧
    (∀ s l, decode? s = some l ↔ ∃ x, Grammar.Text Data.meaning s.toList x ∧ Form l x) ∧
    ∀ s x, Grammar.Text Data.meaning s.toList x →
      (Flawed x → decode? s = none) ∧ (Range.Flawed x → Range.decode? s = none) ∧
        (Position.Flawed x → Position.decode? s = none) := by
  refine ⟨fun l => ?written, fun s l => decode?_eq_some_iff, fun s x hx => ?flawed⟩
  case written =>
    obtain ⟨x, hvalue, hform, span, properties, members, rfl, hmembers, hnames⟩ :=
      l.writes_encode 0
    have htext : Grammar.Text Data.meaning l.encode (.object span properties) := by
      simpa using Grammar.Text.mk Grammar.blanks_nil hvalue Grammar.blanks_nil
    refine ⟨decode?_eq_some_iff.mpr ⟨_, ?_, hform⟩, span, properties, members, htext, hmembers,
      hnames⟩
    rwa [String.toList_ofList]
  case flawed =>
    have hparse {α : Type} (f : Data → Option α) : Data.parse? s >>= f = f x := by
      rw [Data.parse?_eq_some_iff.mpr hx]
      rfl
    refine ⟨fun h => ?_, fun h => ?_, fun h => ?_⟩
    · refine (hparse ofData?).trans (Option.eq_none_iff_forall_ne_some.mpr fun l hl => ?_)
      exact h.not_form (ofData?_eq_some_iff.mp hl)
    · refine (hparse Range.ofData?).trans (Option.eq_none_iff_forall_ne_some.mpr fun r hr => ?_)
      exact h.not_form (Range.ofData?_eq_some_iff.mp hr)
    · refine (hparse Position.ofData?).trans (Option.eq_none_iff_forall_ne_some.mpr fun p hp => ?_)
      exact h.not_form (Position.ofData?_eq_some_iff.mp hp)

set_option maxRecDepth 100000 in
/-- Arrays and objects may be mixed, and members that no field is named by are passed over. -/
example :
    decode? "[null, \x7b\"end\": [2, 3], \"x\": [], \"start\": [0, 1]\x7d]" =
      some ⟨⟨⟨0, 1⟩, ⟨2, 3⟩⟩, none⟩ := by
  cbv

end Link

end JsonNav
