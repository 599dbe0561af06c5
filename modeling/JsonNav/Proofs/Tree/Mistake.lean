import JsonNav.Proofs.Tree.Due
import JsonNav.Proofs.Tree.Truncation

/-! Where errors point.  An error that carries an offset points at a character of the text, and what
it says of that character and of the text before it is a `Mistake`.  `Reader.Points r P` says that
the errors of `r` point at mistakes wherever a `P` is due, and `Reader.points_value` is an induction
on the depth that is left. -/

namespace JsonNav

open Text (byteLength)
open Grammar (Assigned blanks_nil Contents Items Others Padded Property Quote Value Within)

variable {α σ ν : Type}

/-- What an error says of the character `c` that it points at and of the text `before` it, where
`accepts` holds of the texts that are read and `limit` is the depth that is allowed. -/
def Mistake (accepts : List Char → Prop) (limit : Nat) (before : List Char) (c : Char) :
    ParseError → Prop
  | .unfinished => False
  | .misplaced _ => ∃ after, accepts (before ++ after)
  | .malformedNumber _ => (∃ after, accepts (before ++ after)) ∧ (c = '-' ∨ c.isDigit)
  | .malformedString _ => c = '"' ∧ (∃ after, accepts (before ++ after)) ∨ c.toNat < 0x20
  | .trailing _ => accepts before ∧ c ∉ [' ', '\t', '\n', '\r']
  | .tooDeep _ => (∃ after, accepts (before ++ after)) ∧ (c = '[' ∨ c = '{') ∧
      Nesting.ofText before = .outside limit

/-- The text ended too early, or the error points at a mistake in it. -/
def Pointed (accepts : List Char → Prop) (limit : Nat) (whole : List Char) (e : ParseError) :
    Prop :=
  e = .unfinished ∨ ∃ before c after, whole = before ++ c :: after ∧
    e.offset? = some (byteLength before) ∧ Mistake accepts limit before c e

variable {accepts : List Char → Prop} {limit depth : Nat} {whole before cs : List Char} {c : Cursor}
  {d : Char} {e : ParseError}

theorem Cursor.Passes.pointed (h : (Cursor.ofText whole).Passes before c) (hc : c.rest = d :: cs)
    (hoffset : e.offset? = some c.offset) (hmistake : Mistake accepts limit before d e) :
    Pointed accepts limit whole e := by
  refine .inr ⟨before, d, cs, ?_, ?_, hmistake⟩
  · rw [← hc]
    exact h.rest
  · rw [hoffset, h.offset, Cursor.ofText, Nat.zero_add]

theorem Due.misplaced {P : List Char → Nat → α → Prop} (h : Due accepts whole P depth before c)
    (hc : c.rest = d :: cs) (hP : ∃ cs a, P cs c.offset a) :
    Pointed accepts limit whole (.misplaced c.offset) :=
  h.passes.pointed hc rfl (h.begun hP)

namespace Reader

/-- The errors of `r` point at mistakes wherever a `P` is due. -/
def Points (accepts : List Char → Prop) (limit : Nat) (whole : List Char) (r : Reader α)
    (P : List Char → Nat → α → Prop) (depth : Nat) : Prop :=
  ∀ ⦃before c e⦄, Due accepts whole P depth before c → r.run c = .error e →
    Pointed accepts limit whole e

variable {l : Literals σ ν} {m : Meaning σ ν}

theorem points_string (hempty : ∃ x, m.string [] x) :
    Points accepts limit whole (string l) (Quote m) depth := by
  intro before c e h hrun
  have hquote : ∃ cs n, Quote m cs c.offset n := by
    obtain ⟨x, hx⟩ := hempty
    exact ⟨_, _, .mk hx⟩
  rw [run_string] at hrun
  split at hrun
  next => exact .inl (Except.error.inj hrun).symm
  next cs hc =>
    rcases bind_eq_error_iff.mp hrun with hrun | ⟨⟨body, stop⟩, -, hrun⟩
    · rcases Cursor.malformed_of_takeBody hrun with rfl | ⟨inner, d, after, rfl, hd, rfl⟩
      · exact .inl rfl
      · -- The error points into the string, so nothing is said of the text before it.
        have hinner : Cursor.Passes ⟨c.offset + 1, inner ++ d :: after⟩ inner
            ⟨c.offset + 1 + byteLength inner, d :: after⟩ := ⟨rfl, rfl⟩
        refine ((h.passes.trans (.head hc rfl)).trans hinner).pointed rfl rfl (.inr ?_)
        simpa [Text.Quoted.isControl] using hd
    · simp only at hrun
      split at hrun
      next =>
        obtain rfl := Except.error.inj hrun
        exact h.passes.pointed hc rfl (.inl ⟨rfl, h.begun hquote⟩)
      next => cases hrun
  next hnil _ =>
    obtain ⟨d, ds, hc⟩ := List.exists_cons_of_ne_nil hnil
    obtain rfl := Except.error.inj hrun
    exact h.misplaced hc hquote

/-! ### Depth -/

/-- A reader that refuses what is nested too deep has read nothing that is. -/
theorem Sound.within {r : Reader (Node σ ν)} {P : List Char → Nat → Node σ ν → Prop}
    {nodes : Node σ ν → List (Node σ ν)} (hsound : Sound r (Padded P))
    (hcomplete : Complete limit r (Padded P) (·.openings depth)) (hstable : Stable r nodes)
    (hle : depth ≤ limit) : Sound r (Padded (Within limit depth P)) := by
  intro c n next h
  obtain ⟨cs, hpass, ws, ds, hcs, hws, hP⟩ := hsound h
  refine ⟨cs, hpass, ws, ds, hcs, hws, hP, Node.depth_le_of_openings hle n ?_⟩
  -- Were a bracket too deep, what was read would be refused by itself, and so with what follows it.
  have hrun := hcomplete [] ⟨ws, ds, hcs, hws, hP⟩ (by simp [Ends])
  rw [List.append_nil, verdict] at hrun
  split at hrun
  next hnone =>
    intro b hb
    simpa using List.find?_eq_none.mp hnone b hb
  next b _ =>
    rcases (hstable _).error hrun with (hend | ⟨_, _, -, hend, -⟩) | hfinal
    · cases hend
    · cases hend
    · have hrefused := hfinal next.rest
      rw [Cursor.extend, ← hpass.rest, h] at hrefused
      cases hrefused

theorem sound_value_within (hl : l.Fits m) {left : Nat} (hlimit : depth + left = limit) :
    Sound (value l left) (Padded (Within limit depth (Value m))) :=
  (sound_value hl left).within (complete_value hl hlimit) (stable_value l left) (by omega)

theorem sound_property_within (hl : l.Fits m) {left : Nat} (hlimit : depth + left = limit) :
    Sound (property l (value l left)) (Padded (Within limit depth (Property m (Value m)))) :=
  (sound_property hl (sound_value hl left)).within (complete_property hl (complete_value hl hlimit))
    (stable_property l (stable_value l left)) (by omega)

/-! ### Containers -/

variable {item : Reader α} {P : List Char → Nat → α → Prop} {close : Char}

/-- Where items are due, the errors of the first and of the others point at mistakes. -/
theorem pointed_cons (hitem : Points accepts limit whole item (Padded P) depth)
    (hsound : Sound item (Padded P)) (hP : ∀ {cs o a}, P cs o a → Nesting.Neutral cs)
    (h : Due accepts whole (Items P close) depth before c)
    (hothers : ∀ {before next}, next.rest.length ≤ c.rest.length →
      Due accepts whole (Others P close) depth before next →
      run (items item close) next = .error e → Pointed accepts limit whole e)
    (hrun : (item.run c >>= fun r =>
      run (items item close) r.2 >>= fun s => .ok (r.1 :: s.1, s.2)) = .error e) :
    Pointed accepts limit whole e := by
  rcases bind_eq_error_iff.mp hrun with hrun | ⟨⟨a, next⟩, ha, hrun⟩
  · exact hitem h.item hrun
  · obtain ⟨cs, hpass, ha⟩ := hsound ha
    rcases bind_eq_error_iff.mp hrun with hrun | ⟨_, -, hrun⟩
    · exact hothers hpass.length_le (h.others hP hpass ha) hrun
    · exact nomatch hrun

theorem points_items (hitem : Points accepts limit whole item (Padded P) depth)
    (hsound : Sound item (Padded P)) (hP : ∀ {cs o a}, P cs o a → Nesting.Neutral cs)
    (h : Due accepts whole (Others P close) depth before c)
    (hrun : run (items item close) c = .error e) : Pointed accepts limit whole e := by
  -- Each item leaves less of the text, so the induction is on the length of what is left.
  induction hlen : c.rest.length using Nat.strongRecOn generalizing before c with
  | ind len ih =>
    obtain ⟨ws, hws, hblanks, -⟩ := c.exists_skipBlanks
    rw [run_items] at hrun
    split at hrun
    next => exact .inl (Except.error.inj hrun).symm
    next d ds hd =>
      split at hrun
      next => exact nomatch hrun
      next =>
        split at hrun
        next hcomma =>
          subst hcomma
          have hless : ds.length < len := by
            have := c.length_rest_skipBlanks_le
            rw [hd, List.length_cons] at this
            omega
          refine pointed_cons hitem hsound hP (h.comma hws (hblanks.trans (.head hd rfl))) ?_ hrun
          intro _ next hnext hdue hrun
          exact ih _ (Nat.lt_of_le_of_lt hnext hless) hdue hrun rfl
        next =>
          obtain rfl := Except.error.inj hrun
          exact (h.closing hws hblanks).misplaced hd ⟨_, [], rfl⟩

theorem points_contents (hitem : Points accepts limit whole item (Padded P) depth)
    (hsound : Sound item (Padded P)) (hP : ∀ {cs o a}, P cs o a → Nesting.Neutral cs) :
    Points accepts limit whole (contents item close) (Contents P close) depth := by
  intro before c e h hrun
  rw [run_contents] at hrun
  split at hrun
  next => exact .inl (Except.error.inj hrun).symm
  next =>
    split at hrun
    next => exact nomatch hrun
    next =>
      refine pointed_cons hitem hsound hP h.items ?_ hrun
      exact fun _ hdue hrun => points_items hitem hsound hP hdue hrun

theorem pointed_container {item : Reader (Node σ ν)} {P : List Char → Nat → Node σ ν → Prop}
    (hitem : Points accepts limit whole item (Padded P) depth) (hsound : Sound item (Padded P))
    (hP : ∀ {cs o n}, P cs o n → Nesting.Neutral cs)
    {node : Span → List (Node σ ν) → Node σ ν} (hc : c.rest = d :: cs)
    (h : Due accepts whole (Contents P close) depth before ⟨c.offset + 1, cs⟩)
    (hrun : (container item close node).run c = .error e) : Pointed accepts limit whole e := by
  rw [run_container, hc] at hrun
  rcases bind_eq_error_iff.mp hrun with hrun | ⟨_, -, hrun⟩
  · exact points_contents hitem hsound hP h hrun
  · exact nomatch hrun

theorem points_property (hl : l.Fits m) (hempty : ∃ x, m.string [] x) {inner : Reader (Node σ ν)}
    (hinner : Points accepts limit whole inner (Padded (Within limit depth (Value m))) depth) :
    Points accepts limit whole (property l inner)
      (Padded (Within limit depth (Property m (Value m)))) depth := by
  intro before c e h hrun
  obtain ⟨ws, h⟩ := h.skipBlanks
  rw [run_property] at hrun
  rcases bind_eq_error_iff.mp hrun with hrun | ⟨⟨k, mid⟩, hk, hrun⟩
  · exact points_string hempty h.key hrun
  · obtain ⟨key, hpass, hkey⟩ := sound_string hl hk
    obtain ⟨ws', h⟩ := (h.assigned hl hpass hkey).skipBlanks
    simp only at hrun
    split at hrun
    next => exact .inl (Except.error.inj hrun).symm
    next cs hcs =>
      rcases bind_eq_error_iff.mp hrun with hrun | ⟨_, -, hrun⟩
      · exact hinner (h.value hcs) hrun
      · exact nomatch hrun
    next hnil _ =>
      obtain ⟨d, ds, hd⟩ := List.exists_cons_of_ne_nil hnil
      obtain rfl := Except.error.inj hrun
      exact h.misplaced hd ⟨_, _, .mk ⟨[], _, rfl, blanks_nil, Grammar.within_null _⟩⟩

/-! ### Values -/

theorem pointed_word {w : List Char} {hw : w ≠ []} {node : Span → Node σ ν} (hc : c.rest = d :: cs)
    (h : Due accepts whole (Within limit depth (Value m)) depth before c)
    (hrun : (word w hw node).run c = .error e) : Pointed accepts limit whole e := by
  rw [run_word] at hrun
  split at hrun
  next => exact .inl (Except.error.inj hrun).symm
  next =>
    split at hrun
    next => exact nomatch hrun
    next =>
      obtain rfl := Except.error.inj hrun
      exact h.misplaced hc ⟨_, _, Grammar.within_null _⟩

/-- What is asked of the reader of nested values, where `depth` containers are open around it. -/
structure Nested (l : Literals σ ν) (m : Meaning σ ν) (accepts : List Char → Prop) (limit : Nat)
    (whole : List Char) (depth : Nat) (inner : Reader (Node σ ν)) : Prop where
  points : Points accepts limit whole inner (Padded (Within limit depth (Value m))) depth
  value : Sound inner (Padded (Within limit depth (Value m)))
  property : Sound (property l inner) (Padded (Within limit depth (Property m (Value m))))

theorem points_start (hl : l.Fits m) (hempty : ∃ x, m.string [] x)
    {nested : Option (Reader (Node σ ν))} (hnone : nested = none → depth = limit)
    (hsome : ∀ inner ∈ nested, depth < limit ∧
      Nested l m accepts limit whole (depth + 1) inner) :
    Points accepts limit whole (start l nested) (Within limit depth (Value m)) depth := by
  intro before c e h hrun
  have hnull : ∃ cs n, Within limit depth (Value m) cs c.offset n := ⟨_, _, Grammar.within_null _⟩
  rw [run_start] at hrun
  split at hrun
  next => exact .inl (Except.error.inj hrun).symm
  next cs hc =>
    have hquote : Due accepts whole (Quote m) depth before c :=
      h.first [] fun {_ n} hn => ⟨n, by simpa using Grammar.within_quote hn⟩
    exact points_string hempty hquote hrun
  next cs hc =>
    split at hrun
    next =>
      obtain rfl := Except.error.inj hrun
      exact h.passes.pointed hc rfl ⟨h.begun hnull, .inr rfl, hnone rfl ▸ h.nesting⟩
    next inner =>
      obtain ⟨hlt, hinner⟩ := hsome inner rfl
      refine pointed_container (points_property hl hempty hinner.points) hinner.property ?_ hc
        (h.object hlt hc) hrun
      exact fun hn => Nesting.neutral_property hl (Nesting.neutral_value hl) hn.1
  next cs hc =>
    split at hrun
    next =>
      obtain rfl := Except.error.inj hrun
      exact h.passes.pointed hc rfl ⟨h.begun hnull, .inl rfl, hnone rfl ▸ h.nesting⟩
    next inner =>
      obtain ⟨hlt, hinner⟩ := hsome inner rfl
      refine pointed_container hinner.points hinner.value ?_ hc (h.array hlt hc) hrun
      exact fun hn => Nesting.neutral_value hl hn.1
  next hc => exact pointed_word hc h hrun
  next hc => exact pointed_word hc h hrun
  next hc => exact pointed_word hc h hrun
  next d _ _ _ _ _ _ _ hc =>
    split at hrun
    next hd =>
      rw [run_number] at hrun
      split at hrun
      next =>
        obtain rfl := Except.error.inj hrun
        exact h.passes.pointed hc rfl ⟨h.begun hnull, hd.imp_right Digit.isSome_ofChar?_iff.mp⟩
      next => exact nomatch hrun
    next =>
      obtain rfl := Except.error.inj hrun
      exact h.misplaced hc hnull

theorem points_valueWith (hl : l.Fits m) (hempty : ∃ x, m.string [] x)
    {nested : Option (Reader (Node σ ν))} (hnone : nested = none → depth = limit)
    (hsome : ∀ inner ∈ nested, depth < limit ∧
      Nested l m accepts limit whole (depth + 1) inner) :
    Points accepts limit whole (valueWith l nested) (Padded (Within limit depth (Value m)))
      depth := by
  intro before c e h hrun
  obtain ⟨ws, h⟩ := h.skipBlanks
  rw [run_valueWith] at hrun
  exact points_start hl hempty hnone hsome h hrun

theorem points_value (hl : l.Fits m) (hempty : ∃ x, m.string [] x) {left : Nat}
    (hlimit : depth + left = limit) :
    Points accepts limit whole (value l left) (Padded (Within limit depth (Value m))) depth := by
  induction left generalizing depth with
  | zero => exact points_valueWith hl hempty (fun _ => hlimit) (by simp)
  | succ left ih =>
    refine points_valueWith hl hempty (by simp) ?_
    rintro _ ⟨⟩
    have hlimit : depth + 1 + left = limit := by omega
    exact ⟨by omega, ih hlimit, sound_value_within hl hlimit, sound_property_within hl hlimit⟩

/-- The texts that are read. -/
def Accepts (l : Literals σ ν) (limit : Nat) (cs : List Char) : Prop :=
  ∃ n, text l limit cs = .ok n

theorem accepts_of_value (hl : l.Fits m) {cs ws : List Char} {n : Node σ ν}
    (h : Padded (Within limit 0 (Value m)) cs 0 n) (hws : Grammar.Blanks ws) :
    Accepts l limit (cs ++ ws) := by
  obtain ⟨ws', ds, rfl, hws', hvalue, hdepth⟩ := h
  rw [Nat.zero_add] at hvalue
  exact ⟨n, by rw [text_eq_verdict hl limit (.mk hws' hvalue hws), verdict_eq_ok hdepth]⟩

/-- The error for a text that is not read points at a mistake in it. -/
theorem pointed_text (hl : l.Fits m) (hempty : ∃ x, m.string [] x) {cs : List Char}
    (h : text l limit cs = .error e) : Pointed (Accepts l limit) limit cs e := by
  have hlimit : 0 + limit = limit := Nat.zero_add limit
  rw [text_eq] at h
  rcases bind_eq_error_iff.mp h with h | ⟨⟨n, next⟩, hn, h⟩
  · refine points_value hl hempty hlimit ⟨.refl _, rfl, [], ?_⟩ h
    intro ds n hn
    simpa using accepts_of_value hl hn blanks_nil
  · obtain ⟨ds, hpass, hvalue⟩ := sound_value_within hl hlimit hn
    obtain ⟨ws, hws, hblanks, hno⟩ := next.exists_skipBlanks
    simp only at h
    split at h
    next => exact nomatch h
    next d ds' hd =>
      obtain rfl := Except.error.inj h
      rw [hd, Cursor.noBlank_cons_iff] at hno
      refine (hpass.trans hblanks).pointed hd rfl ⟨accepts_of_value hl hvalue hws, ?_⟩
      rw [← Cursor.isBlank_iff, hno]
      exact Bool.false_ne_true

end Reader

namespace Tree

/-- An error that carries an offset points at a character of the text, and the mistake is there.
The text before it is the beginning of a text that is read, unless the error is for a control
character in a string.  What comes after a value is no blank, a malformed number begins as numbers
do, and a bracket that is too deep comes where 512 containers are open. -/
theorem parse_error_offset {cs : List Char} {e : ParseError} {o : Nat} (h : parse cs = .error e)
    (ho : e.offset? = some o) :
    ∃ before c after, cs = before ++ c :: after ∧ byteLength before = o ∧
      Mistake (fun cs => ∃ t, parse cs = .ok t) 512 before c e := by
  have hempty : ∃ s, Meaning.standard.string [] s := ⟨"", .nil⟩
  rcases Reader.pointed_text Literals.fits_standard hempty h with rfl | hpointed
  · exact nomatch ho
  · obtain ⟨before, c, after, hsplit, hoffset, hmistake⟩ := hpointed
    rw [hoffset] at ho
    exact ⟨before, c, after, hsplit, Option.some.inj ho, hmistake⟩

theorem parse_error_offset_trailing :
    parse "\"é\" x".toList = .error (.trailing 5) ∧
      ∃ before c after, "\"é\" x".toList = before ++ c :: after ∧ byteLength before = 5 ∧
        Mistake (fun cs => ∃ t, parse cs = .ok t) 512 before c (.trailing 5) :=
  ⟨rfl, parse_error_offset rfl rfl⟩

end Tree

end JsonNav
