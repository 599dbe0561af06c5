import Mathlib.Data.Bool.AllAny
import JsonNav.Proofs.Number.Scan
import JsonNav.Proofs.Tree.Soundness

/-! What the grammar derives is read, or nests too deep.  `Reader.Complete limit r P openings` says
what `r` yields for each text that `P` derives: the derived value, unless one of its opening
brackets has the depth `limit + 1`, and then the first such bracket is the error. -/

namespace JsonNav

open Text (byteLength)
open Grammar (Blanks Padded)

variable {α β σ ν : Type}

/-- What is yielded for a value with the given opening brackets. -/
def verdict (limit : Nat) (bs : List Opening) (a : α) : Except ParseError α :=
  match bs.find? (·.depth = limit + 1) with
  | none => .ok a
  | some b => .error (.tooDeep b.offset)

@[simp] theorem verdict_nil (limit : Nat) (a : α) : verdict limit [] a = .ok a := rfl

theorem verdict_bind {limit : Nat} {bs bs' : List Opening} {a : α} {b : β}
    {f : α → Except ParseError β} (h : f a = verdict limit bs' b) :
    verdict limit bs a >>= f = verdict limit (bs ++ bs') b := by
  unfold verdict at h ⊢
  rw [List.find?_append]
  cases bs.find? (·.depth = limit + 1) with
  | none => exact h
  | some b => rfl

theorem verdict_bind_ok {limit : Nat} {bs : List Opening} {a : α} {b : β}
    {f : α → Except ParseError β} (h : f a = .ok b) :
    verdict limit bs a >>= f = verdict limit bs b := by
  have hbind : verdict limit bs a >>= f = verdict limit (bs ++ []) b := verdict_bind h
  rwa [List.append_nil] at hbind

/-- A bracket at the last depth that is allowed is passed over. -/
theorem verdict_cons {limit : Nat} {b : Opening} (hb : b.depth ≤ limit) (bs : List Opening)
    (a : α) :
    verdict limit (b :: bs) a = verdict limit bs a := by
  have hne : ¬b.depth = limit + 1 := by omega
  unfold verdict
  rw [List.find?_cons_of_neg (by simpa using hne)]

theorem verdict_tooDeep {limit : Nat} {b : Opening} (hb : b.depth = limit + 1) (bs : List Opening)
    (a : α) : verdict limit (b :: bs) a = .error (.tooDeep b.offset) := by
  unfold verdict
  rw [List.find?_cons_of_pos (by simpa using hb)]

theorem verdict_eq_ok {limit : Nat} {bs : List Opening} (h : ∀ b ∈ bs, b.depth ≤ limit) (a : α) :
    verdict limit bs a = .ok a := by
  have hnone : bs.find? (·.depth = limit + 1) = none := by
    rw [List.find?_eq_none]
    intro b hb
    have := h b hb
    simp only [decide_eq_true_eq]
    omega
  rw [verdict, hnone]

/-- A blank, a comma, a closing bracket or the end of the text comes next, as after an item. -/
def Ends (cs : List Char) : Prop :=
  ∀ c ∈ cs.head?, c ∈ [' ', '\t', '\n', '\r', ',', ']', '}']

theorem Ends.blanks {ws : List Char} (h : Blanks ws) {rest : List Char} (hrest : Ends rest) :
    Ends (ws ++ rest) := by
  cases ws with
  | nil => exact hrest
  | cons c ws =>
    intro d hd
    obtain rfl : c = d := by simpa using hd
    exact List.mem_append_left [',', ']', '}'] (h c (List.mem_cons_self ..))

theorem Ends.stops {n : Numeral} {rest : List Char} (h : Ends rest) : n.Stops rest := by
  intro c hc hext
  have hnone : ∀ c ∈ [' ', '\t', '\n', '\r', ',', ']', '}'],
      Digit.ofChar? c = none ∧ c ≠ 'e' ∧ c ≠ 'E' ∧ c ≠ '.' :=
        List.all_iff_forall_prop.mp (by decide)
  obtain ⟨hdigit, he, hE, hpoint⟩ := hnone c (h c hc)
  rcases hext with hext | ⟨-, hext | hext | ⟨-, hext⟩⟩
  · exact hext hdigit
  · exact he hext
  · exact hE hext
  · exact hpoint hext

namespace Grammar

variable {P : List Char → Nat → α → Prop} {m : Meaning σ ν}

/-- What follows an item does not belong to it. -/
theorem Others.ends {close : Char} (hclose : close = ']' ∨ close = '}') {cs : List Char} {o : Nat}
    {as : List α} (h : Others P close cs o as) (rest : List Char) : Ends (cs ++ rest) := by
  cases h with
  | done hws =>
    rw [List.append_assoc]
    refine Ends.blanks hws ?_
    rintro c ⟨⟩
    rcases hclose with rfl | rfl <;> decide
  | more hws =>
    rw [List.append_assoc, List.append_assoc, List.append_assoc]
    refine Ends.blanks hws ?_
    rintro c ⟨⟩
    decide

/-- A derived text begins with a character that is neither blank nor a closing bracket. -/
def Begins (P : List Char → Nat → α → Prop) : Prop :=
  ∀ ⦃cs o a⦄, P cs o a → ∃ d ds, cs = d :: ds ∧ Cursor.isBlank d = false ∧ d ≠ ']' ∧ d ≠ '}'

theorem begins_quote : Begins (Quote m) := by
  rintro _ o _ ⟨h⟩
  exact ⟨_, _, rfl, by decide, by decide, by decide⟩

theorem begins_property {Q : List Char → Nat → Node σ ν → Prop} : Begins (Property m Q) := by
  rintro _ o _ ⟨hkey, -, -, -⟩
  obtain ⟨d, ds, rfl, hd⟩ := begins_quote hkey
  exact ⟨d, _, rfl, hd⟩

end Grammar

theorem Numeral.exists_text_eq (n : Numeral) :
    ∃ d ds, n.text = d :: ds ∧ (d = '-' ∨ (Digit.ofChar? d).isSome) := by
  obtain ⟨negative, whole, fraction, exponent⟩ := n
  cases negative with
  | true => exact ⟨'-', _, rfl, .inl rfl⟩
  | false => exact ⟨whole.head.toChar, _, rfl, .inr (by simp)⟩

theorem Numeral.utf8Size_of_begins {d : Char} (h : d = '-' ∨ (Digit.ofChar? d).isSome) :
    d.utf8Size = 1 := by
  have hall : ∀ v : Digit, v.toChar.utf8Size = 1 := by decide
  rcases h with rfl | h
  · rfl
  · obtain ⟨v, hv⟩ := Option.isSome_iff_exists.mp h
    rw [Digit.eq_toChar_of_ofChar? hv]
    exact hall v

theorem Grammar.begins_value {m : Meaning σ ν} : Begins (Value m) := by
  intro cs o n h
  cases h with
  | string h => exact begins_quote h
  | @number n _ _ h =>
    obtain ⟨d, ds, htext, hd⟩ := n.exists_text_eq
    refine ⟨d, ds, htext, ?_⟩
    rcases hd with rfl | hd
    · decide
    · obtain ⟨v, hv⟩ := Option.isSome_iff_exists.mp hd
      have hall : ∀ v : Digit,
          Cursor.isBlank v.toChar = false ∧ v.toChar ≠ ']' ∧ v.toChar ≠ '}' := by
        decide
      rw [Digit.eq_toChar_of_ofChar? hv]
      exact hall v
  | _ => exact ⟨_, _, rfl, by decide, by decide, by decide⟩

namespace Reader

variable {l : Literals σ ν} {m : Meaning σ ν} {limit : Nat}

/-- What `P` derives is read by `r`, unless it has an opening bracket that is nested too deep. -/
def Complete (limit : Nat) (r : Reader α) (P : List Char → Nat → α → Prop)
    (openings : α → List Opening) : Prop :=
  ∀ ⦃cs o a⦄ rest, P cs o a → Ends rest →
    r.run ⟨o, cs ++ rest⟩ = verdict limit (openings a) (a, ⟨o + byteLength cs, rest⟩)

theorem run_string_append (hl : l.Fits m) {cs : List Char} {o : Nat} {n : Node σ ν}
    (h : Grammar.Quote m cs o n) (rest : List Char) :
    (string l).run ⟨o, cs ++ rest⟩ = .ok (n, ⟨o + byteLength cs, rest⟩) := by
  cases h with
  | @mk body _ x h =>
    obtain ⟨hbody, hx⟩ := hl.string.mp h
    have hcs : '"' :: (body ++ ['"']) ++ rest = '"' :: (body ++ '"' :: rest) := by simp
    rw [run_string, hcs]
    simp only [Cursor.takeBody_append hbody, bind, Except.bind, hx]
    have hlength : o + 1 + byteLength body + 1 = o + byteLength ('"' :: (body ++ ['"'])) := by
      simp [show '"'.utf8Size = 1 from rfl, Nat.add_assoc]
    rw [hlength, spanned, Nat.add_sub_cancel_left]
    rfl

theorem run_word_append (w : List Char) (hw : w ≠ []) (node : Span → Node σ ν) (o : Nat)
    (rest : List Char) :
    (word w hw node).run ⟨o, w ++ rest⟩ =
      .ok (node ⟨o, byteLength w⟩, ⟨o + byteLength w, rest⟩) := by
  rw [run_word, List.take_left, if_neg (Nat.lt_irrefl _), if_pos (List.prefix_append ..)]
  simp [spanned]

theorem run_number_append (hl : l.Fits m) {n : Numeral} {x : ν} (hx : m.number n x) (o : Nat)
    {rest : List Char} (hrest : Ends rest) :
    (number l).run ⟨o, n.text ++ rest⟩ =
      .ok (.number ⟨o, byteLength n.text⟩ x, ⟨o + byteLength n.text, rest⟩) := by
  rw [run_number, Numeral.scan?_text_append n hrest.stops, hl.number.mp hx]
  simp [spanned]

/-- A value that begins as literals do is read as a number. -/
theorem run_start_number {nested : Option (Reader (Node σ ν))} {d : Char} {cs : List Char} {o : Nat}
    (hd : d = '-' ∨ (Digit.ofChar? d).isSome) :
    (start l nested).run ⟨o, d :: cs⟩ = (number l).run ⟨o, d :: cs⟩ := by
  have hno : ∀ c ∈ ['"', '{', '[', 't', 'f', 'n'], ¬(c = '-' ∨ (Digit.ofChar? c).isSome) :=
    List.all_iff_forall_prop.mp (by decide)
  rw [run_start_other rfl fun hmem => hno d hmem hd, if_pos hd]

variable {item : Reader α} {P : List Char → Nat → α → Prop} {openings : α → List Opening}
  {close : Char}

theorem utf8Size_close (hclose : close = ']' ∨ close = '}') : close.utf8Size = 1 := by
  rcases hclose with rfl | rfl <;> rfl

theorem skipBlanks_close (hclose : close = ']' ∨ close = '}') {ws : List Char}
    (hws : Grammar.Blanks ws) (o : Nat) (rest : List Char) :
    Cursor.skipBlanks ⟨o, ws ++ [close] ++ rest⟩ = ⟨o + byteLength ws, close :: rest⟩ := by
  have hno : Cursor.NoBlank (close :: rest) := by
    rw [Cursor.noBlank_cons_iff]
    rcases hclose with rfl | rfl <;> rfl
  rw [List.append_assoc, List.singleton_append, Cursor.skipBlanks_append o hws hno]

theorem run_items_append (hitem : Complete limit item (Padded P) openings)
    (hclose : close = ']' ∨ close = '}') {cs : List Char} {o : Nat} {as : List α}
    (h : Grammar.Others P close cs o as) (rest : List Char) :
    run (items item close) ⟨o, cs ++ rest⟩ =
      verdict limit (as.flatMap openings) (as, ⟨o + byteLength cs, rest⟩) := by
  induction h with
  | @done ws o hws =>
    rw [run_items, skipBlanks_close hclose hws]
    simp [utf8Size_close hclose, Nat.add_assoc]
  | @more ws ws' cs others o a as hws hws' ha has ih =>
    have hno : Cursor.NoBlank (',' :: (ws' ++ cs ++ (others ++ rest))) :=
      Cursor.noBlank_cons_iff.mpr rfl
    have hcs : ws ++ ',' :: ws' ++ cs ++ others ++ rest =
        ws ++ (',' :: (ws' ++ cs ++ (others ++ rest))) := by simp
    have hne : ',' ≠ close := by
      rcases hclose with rfl | rfl <;> decide
    have hstart : o + byteLength (ws ++ ',' :: ws') = o + byteLength ws + 1 + byteLength ws' := by
      simp [show ','.utf8Size = 1 from rfl, Nat.add_assoc]
    have hstop : o + byteLength (ws ++ ',' :: ws' ++ cs) =
        o + byteLength ws + 1 + byteLength (ws' ++ cs) := by
      rw [Text.byteLength_append, ← Nat.add_assoc, hstart, Text.byteLength_append, Nat.add_assoc]
    rw [hstart] at ha
    have hfirst := hitem (others ++ rest) ⟨ws', cs, rfl, hws', ha⟩ (has.ends hclose rest)
    rw [hstop] at ih
    rw [hcs, run_items, Cursor.skipBlanks_append o hws hno]
    simp only [hne, if_false, if_true]
    rw [hfirst]
    refine verdict_bind (b := (a :: as, _)) ?_
    simp only
    rw [ih]
    refine verdict_bind_ok ?_
    simp [show ','.utf8Size = 1 from rfl, Nat.add_assoc, pure, Except.pure]

theorem run_contents_append (hitem : Complete limit item (Padded P) openings)
    (hbegins : Grammar.Begins P) (hclose : close = ']' ∨ close = '}') {cs : List Char} {o : Nat}
    {as : List α} (h : Grammar.Contents P close cs o as) (rest : List Char) :
    (contents item close).run ⟨o, cs ++ rest⟩ =
      verdict limit (as.flatMap openings) (as, ⟨o + byteLength cs, rest⟩) := by
  cases h with
  | @empty ws o hws =>
    rw [run_contents, skipBlanks_close hclose hws]
    simp [utf8Size_close hclose, Nat.add_assoc]
  | @items ws cs others o a as hws ha has =>
    obtain ⟨d, ds, rfl, hblank, hd⟩ := hbegins ha
    have hno : Cursor.NoBlank (d :: ds ++ (others ++ rest)) := Cursor.noBlank_cons_iff.mpr hblank
    have hne : d ≠ close := by
      rcases hclose with rfl | rfl
      · exact hd.1
      · exact hd.2
    have hfirst := hitem (others ++ rest) ⟨ws, d :: ds, rfl, hws, ha⟩ (has.ends hclose rest)
    have hothers := run_items_append hitem hclose has rest
    rw [run_contents, List.append_assoc, List.append_assoc, Cursor.skipBlanks_append o hws hno]
    simp only [List.cons_append, hne, if_false]
    rw [← List.cons_append, ← List.append_assoc, hfirst]
    refine verdict_bind (b := (a :: as, _)) ?_
    simp only
    rw [hothers]
    refine verdict_bind_ok ?_
    simp [Nat.add_assoc, pure, Except.pure]

theorem run_container_append {item : Reader (Node σ ν)} {P : List Char → Nat → Node σ ν → Prop}
    {openings : Node σ ν → List Opening} (hitem : Complete limit item (Padded P) openings)
    (hbegins : Grammar.Begins P) (hclose : close = ']' ∨ close = '}') {opening : Char}
    (hopening : opening.utf8Size = 1) {node : Span → List (Node σ ν) → Node σ ν} {cs : List Char}
    {o : Nat} {ns : List (Node σ ν)} (h : Grammar.Contents P close cs (o + 1) ns)
    (rest : List Char) :
    (container item close node).run ⟨o, opening :: cs ++ rest⟩ =
      verdict limit (ns.flatMap openings)
        (node ⟨o, byteLength (opening :: cs)⟩ ns, ⟨o + byteLength (opening :: cs), rest⟩) := by
  have hlength : o + 1 + byteLength cs = o + byteLength (opening :: cs) := by
    rw [Text.byteLength_cons, hopening, Nat.add_assoc]
  rw [run_container, List.cons_append]
  simp only
  rw [run_contents_append hitem hbegins hclose h rest, hlength]
  refine verdict_bind_ok ?_
  simp only [spanned, Nat.add_sub_cancel_left]
  rfl

theorem complete_property (hl : l.Fits m) {inner : Reader (Node σ ν)} {outer : Nat}
    (hinner : Complete limit inner (Padded (Grammar.Value m)) (·.openings outer)) :
    Complete limit (property l inner) (Padded (Grammar.Property m (Grammar.Value m)))
      (·.openings outer) := by
  rintro _ o _ rest ⟨ws, _, rfl, hws, hproperty⟩ hrest
  cases hproperty with
  | @mk key ws₁ ws₂ cs _ k v hkey hws₁ hws₂ hvalue =>
    let afterColon := ws₂ ++ cs ++ rest
    have hcs : ws ++ (key ++ ws₁ ++ ':' :: ws₂ ++ cs) ++ rest =
        ws ++ (key ++ (ws₁ ++ ':' :: afterColon)) := by simp [afterColon]
    have hkeyBlank : Cursor.NoBlank (key ++ (ws₁ ++ ':' :: afterColon)) := by
      obtain ⟨d, ds, rfl, hd, -⟩ := Grammar.begins_quote hkey
      exact Cursor.noBlank_cons_iff.mpr hd
    have hcolon : Cursor.NoBlank (':' :: afterColon) := Cursor.noBlank_cons_iff.mpr rfl
    have hstart : o + byteLength ws + byteLength (key ++ ws₁ ++ ':' :: ws₂) =
        o + byteLength ws + byteLength key + byteLength ws₁ + 1 + byteLength ws₂ := by
      simp [show ':'.utf8Size = 1 from rfl, Nat.add_assoc]
    have hstop : o + byteLength ws + byteLength key + byteLength ws₁ + 1 + byteLength (ws₂ ++ cs) =
        o + byteLength (ws ++ (key ++ ws₁ ++ ':' :: ws₂ ++ cs)) := by
      simp [show ':'.utf8Size = 1 from rfl, Nat.add_assoc]
    have hspan : (⟨k.offset, v.stop - k.offset⟩ : Span) =
        ⟨o + byteLength ws, byteLength (key ++ ws₁ ++ ':' :: ws₂ ++ cs)⟩ := by
      rw [Node.offset, Node.stop, hkey.span, hvalue.span, Span.stop]
      simp only [Text.byteLength_append, Span.mk.injEq, true_and]
      omega
    have hopenings : (Node.property ⟨k.offset, v.stop - k.offset⟩ k (some v)).openings outer =
        v.openings outer := by
      cases hkey with
      | mk => simp [Node.openings]
    rw [hstart] at hvalue
    have hinner := hinner rest ⟨ws₂, cs, rfl, hws₂, hvalue⟩ hrest
    rw [run_property, hcs, Cursor.skipBlanks_append o hws hkeyBlank, run_string_append hl hkey]
    simp only [bind, Except.bind]
    rw [Cursor.skipBlanks_append _ hws₁ hcolon]
    simp only
    rw [hinner, ← hspan, hopenings, hstop]
    exact verdict_bind_ok rfl

theorem complete_start (hl : l.Fits m) {nested : Option (Reader (Node σ ν))} {outer : Nat}
    (hnone : nested = none → outer = limit)
    (hsome : ∀ inner ∈ nested, outer < limit ∧
      Complete limit inner (Padded (Grammar.Value m)) (·.openings (outer + 1))) :
    Complete limit (start l nested) (Grammar.Value m) (·.openings outer) := by
  intro cs o n rest h hrest
  cases h with
  | string h =>
    have hrun := run_string_append hl h rest
    cases h with
    | mk => exact hrun
  | @number n _ x hx =>
    obtain ⟨d, ds, htext, hd⟩ := n.exists_text_eq
    have hrun := run_number_append hl hx o hrest
    rw [htext, List.cons_append] at hrun ⊢
    rw [run_start_number hd, hrun]
    simp [Node.openings]
  | trueWord => exact run_word_append _ (by decide) (.boolean · true) o rest
  | falseWord => exact run_word_append _ (by decide) (.boolean · false) o rest
  | nullWord => exact run_word_append _ (by decide) .null o rest
  | @array cs _ ns h =>
    simp only [Node.openings]
    cases nested with
    | none =>
      rw [verdict_tooDeep (by simp [hnone rfl])]
      rfl
    | some inner =>
      obtain ⟨hlt, hinner⟩ := hsome inner rfl
      rw [verdict_cons hlt, Node.openingsAll_eq_flatMap]
      exact run_container_append hinner Grammar.begins_value (.inl rfl) rfl h rest
  | @object cs _ ns h =>
    simp only [Node.openings]
    cases nested with
    | none =>
      rw [verdict_tooDeep (by simp [hnone rfl])]
      rfl
    | some inner =>
      obtain ⟨hlt, hinner⟩ := hsome inner rfl
      rw [verdict_cons hlt, Node.openingsAll_eq_flatMap]
      exact run_container_append (complete_property hl hinner) Grammar.begins_property (.inr rfl)
        rfl h rest

theorem complete_valueWith (hl : l.Fits m) {nested : Option (Reader (Node σ ν))} {outer : Nat}
    (hnone : nested = none → outer = limit)
    (hsome : ∀ inner ∈ nested, outer < limit ∧
      Complete limit inner (Padded (Grammar.Value m)) (·.openings (outer + 1))) :
    Complete limit (valueWith l nested) (Padded (Grammar.Value m)) (·.openings outer) := by
  rintro _ o n rest ⟨ws, cs, rfl, hws, hvalue⟩ hrest
  have hno : Cursor.NoBlank (cs ++ rest) := by
    obtain ⟨d, ds, rfl, hd, -⟩ := Grammar.begins_value hvalue
    exact Cursor.noBlank_cons_iff.mpr hd
  rw [run_valueWith, List.append_assoc, Cursor.skipBlanks_append o hws hno,
    complete_start hl hnone hsome rest hvalue hrest, Text.byteLength_append, Nat.add_assoc]

/-- A value that is derived is read if no bracket is nested deeper than there are levels left. -/
theorem complete_value (hl : l.Fits m) {depth outer : Nat} (hlimit : outer + depth = limit) :
    Complete limit (value l depth) (Padded (Grammar.Value m)) (·.openings outer) := by
  induction depth generalizing outer with
  | zero => exact complete_valueWith hl (fun _ => hlimit) (by simp)
  | succ depth ih =>
    refine complete_valueWith hl (by simp) ?_
    rintro _ ⟨⟩
    exact ⟨by omega, ih (by omega)⟩

/-- What a text is read as that the grammar derives. -/
theorem text_eq_verdict (hl : l.Fits m) (depth : Nat) {cs : List Char} {n : Node σ ν}
    (h : Grammar.Text m cs n) : text l depth cs = verdict depth (n.openings 0) n := by
  cases h with
  | @mk ws cs ws' _ hws hvalue hws' =>
    have hends : Ends (ws' ++ []) := Ends.blanks hws' (by simp [Ends])
    rw [List.append_nil] at hends
    have hread := complete_value hl (Nat.zero_add depth) ws'
      ⟨ws, cs, rfl, hws, (Nat.zero_add (byteLength ws)).symm ▸ hvalue⟩ hends
    have hskip : ∀ o, Cursor.skipBlanks ⟨o, ws'⟩ = ⟨o + byteLength ws', []⟩ := by
      intro o
      have hno : Cursor.NoBlank [] := by simp [Cursor.NoBlank]
      rw [← Cursor.skipBlanks_append o hws' hno, List.append_nil]
    rw [text_eq, Cursor.ofText, hread]
    refine verdict_bind_ok ?_
    simp only [hskip]

end Reader

theorem exists_depth_le (bs : List Opening) : ∃ depth, ∀ b ∈ bs, b.depth ≤ depth := by
  induction bs with
  | nil => exact ⟨0, by simp⟩
  | cons b bs ih =>
    obtain ⟨depth, h⟩ := ih
    refine ⟨max b.depth depth, ?_⟩
    rintro c (_ | ⟨_, hc⟩)
    · exact Nat.le_max_left ..
    · exact Nat.le_trans (h c hc) (Nat.le_max_right ..)

/-- The grammar derives no text as two trees. -/
theorem Grammar.Text.unique {l : Literals σ ν} {m : Meaning σ ν} (hl : l.Fits m) {cs : List Char}
    {n n' : Node σ ν} (h : Grammar.Text m cs n) (h' : Grammar.Text m cs n') : n = n' := by
  -- A reader that may go deep enough for both trees reads both.
  obtain ⟨depth, hdepth⟩ := exists_depth_le (n.openings 0 ++ n'.openings 0)
  have hn := Reader.text_eq_verdict hl depth h
  have hn' := Reader.text_eq_verdict hl depth h'
  rw [verdict_eq_ok fun b hb => hdepth b (List.mem_append_left _ hb)] at hn
  rw [verdict_eq_ok fun b hb => hdepth b (List.mem_append_right _ hb)] at hn'
  rw [hn] at hn'
  exact Except.ok.inj hn'

end JsonNav
