import JsonNav.Number.Numeral

/-! Scanning takes the longest literal.  `scan?_eq_some_iff` says which literal stands at the front
of a text: one whose text is the front, and which the next character does not extend.  So a scan is
decided by the literal and one more character, and what follows them has no say. -/

namespace JsonNav

namespace Digit

/-- The next character, if there is one, is no digit. -/
def Stops (cs : List Char) : Prop :=
  ∀ c ∈ cs.head?, ofChar? c = none

theorem stops_cons_iff {c : Char} {cs : List Char} : Stops (c :: cs) ↔ ofChar? c = none := by
  simp [Stops]

theorem span_of_stops {cs : List Char} (h : Stops cs) : span cs = ([], cs) := by
  cases cs with
  | nil => rfl
  | cons c cs => rw [span, stops_cons_iff.mp h]

theorem span_text_append (ds : List Digit) {rest : List Char} (h : Stops rest) :
    span (text ds ++ rest) = (ds, rest) := by
  induction ds with
  | nil => exact span_of_stops h
  | cons d ds ih =>
    have hd : text (d :: ds) ++ rest = d.toChar :: (text ds ++ rest) := rfl
    rw [hd, span, ofChar?_toChar, ih]

theorem toChar_lt (d : Digit) : d.toChar.toNat < 0x80 := by
  revert d
  decide

theorem toChar_ne {d : Digit} {c : Char} (h : ofChar? c = none) : d.toChar ≠ c := by
  rintro rfl
  rw [ofChar?_toChar] at h
  exact nomatch h

end Digit

namespace Exponent

/-- The next character does not begin an exponent. -/
def Absent (cs : List Char) : Prop :=
  ∀ c ∈ cs.head?, c ≠ 'e' ∧ c ≠ 'E'

theorem scan?_of_absent {cs : List Char} (h : Absent cs) : scan? cs = some (none, cs) := by
  unfold scan?
  split
  · exact absurd rfl (h 'e' rfl).1
  · exact absurd rfl (h 'E' rfl).2
  · rfl

theorem scanDigits?_append (capital : Bool) (sign : Option Sign) (ds : Digits) {rest : List Char}
    (h : Digit.Stops rest) :
    scanDigits? capital ((sign.map Sign.toChar).toList ++ ds.text ++ rest) =
      some (⟨capital, sign, ds⟩, rest) := by
  have hscan : Sign.scan ((sign.map Sign.toChar).toList ++ ds.text ++ rest) =
      (sign, ds.text ++ rest) := by
    cases sign with
    | none =>
      simp only [Digits.text, Digits.toList, Digit.text, List.map_cons, Option.map_none,
        Option.toList_none, List.nil_append, List.cons_append]
      unfold Sign.scan
      split
      next h => exact absurd (List.cons.inj h).1 (Digit.toChar_ne rfl)
      next h => exact absurd (List.cons.inj h).1 (Digit.toChar_ne rfl)
      next => rfl
    | some s => cases s <;> rfl
  unfold scanDigits?
  rw [hscan]
  simp only [Digits.text]
  rw [Digit.span_text_append _ h, Digits.ofList?_toList]
  rfl

theorem scan?_text_append (e : Exponent) {rest : List Char} (h : Digit.Stops rest) :
    scan? (e.text ++ rest) = some (some e, rest) := by
  obtain ⟨capital, sign, ds⟩ := e
  have hd := scanDigits?_append capital sign ds h
  cases capital with
  | false =>
    simp only [text, Bool.false_eq_true, if_false, List.cons_append, scan?]
    rw [hd]
    rfl
  | true =>
    simp only [text, if_true, List.cons_append, scan?]
    rw [hd]
    rfl

/-- What an exponent leaves does not extend it, and without an exponent nothing is taken. -/
theorem scan?_eq_some {cs rest : List Char} {e : Option Exponent} (h : scan? cs = some (e, rest)) :
    e = none ∧ rest = cs ∧ Absent cs ∨ e ≠ none ∧ Digit.Stops rest := by
  have hdigits {capital : Bool} {cs : List Char}
      (h : (scanDigits? capital cs).map (fun r => (some r.1, r.2)) = some (e, rest)) :
      e ≠ none ∧ Digit.Stops rest := by
    obtain ⟨⟨e', rest'⟩, he, h⟩ := Option.map_eq_some_iff.mp h
    obtain ⟨rfl, rfl⟩ := Prod.mk.inj h
    obtain ⟨ds, -, h⟩ := Option.map_eq_some_iff.mp he
    obtain ⟨-, rfl⟩ := Prod.mk.inj h
    exact ⟨by simp, Digit.ofChar?_head_span _⟩
  unfold scan? at h
  split at h
  next => exact .inr (hdigits h)
  next => exact .inr (hdigits h)
  next cs h₁ h₂ =>
    obtain ⟨rfl, rfl⟩ := Prod.mk.inj (Option.some.inj h)
    refine .inl ⟨rfl, rfl, ?_⟩
    intro c hc
    obtain ⟨tail, rfl⟩ := List.head?_eq_some_iff.mp hc
    exact ⟨fun hc => h₁ tail (hc ▸ rfl), fun hc => h₂ tail (hc ▸ rfl)⟩

end Exponent

namespace Numeral

theorem scanFraction?_text_append (ds : Digits) {rest : List Char} (h : Digit.Stops rest) :
    scanFraction? ('.' :: ds.text ++ rest) = some (some ds, rest) := by
  simp only [List.cons_append, scanFraction?, Digits.text]
  rw [Digit.span_text_append _ h, Digits.ofList?_toList]
  rfl

theorem scanFraction?_of_ne {cs : List Char} (h : ∀ c ∈ cs.head?, c ≠ '.') :
    scanFraction? cs = some (none, cs) := by
  unfold scanFraction?
  split
  · exact absurd rfl (h '.' rfl)
  · rfl

/-- What a fraction leaves does not extend it, and without a fraction nothing is taken. -/
theorem scanFraction?_eq_some {cs rest : List Char} {f : Option Digits}
    (h : scanFraction? cs = some (f, rest)) :
    f = none ∧ rest = cs ∧ (∀ c ∈ cs.head?, c ≠ '.') ∨ f ≠ none ∧ Digit.Stops rest := by
  unfold scanFraction? at h
  split at h
  next cs =>
    obtain ⟨ds, -, h⟩ := Option.map_eq_some_iff.mp h
    obtain ⟨rfl, rfl⟩ := Prod.mk.inj h
    exact .inr ⟨by simp, Digit.ofChar?_head_span cs⟩
  next cs hcs =>
    obtain ⟨rfl, rfl⟩ := Prod.mk.inj (Option.some.inj h)
    refine .inl ⟨rfl, rfl, ?_⟩
    intro c hc
    obtain ⟨tail, rfl⟩ := List.head?_eq_some_iff.mp hc
    exact fun hc => hcs tail (hc ▸ rfl)

theorem scanMinus_append (negative : Bool) (ds : Digits) (rest : List Char) :
    scanMinus ((if negative then ['-'] else []) ++ ds.text ++ rest) =
      (negative, ds.text ++ rest) := by
  cases negative with
  | true => rfl
  | false =>
    simp only [Bool.false_eq_true, if_false, List.nil_append, Digits.text, Digits.toList,
      Digit.text, List.map_cons, List.cons_append]
    unfold scanMinus
    split
    next h => exact absurd (List.cons.inj h).1 (Digit.toChar_ne rfl)
    next => rfl

/-- `c` after the literal would make it longer: it is a digit, or it begins a part that the literal
lacks and that may still follow. -/
def Extends (n : Numeral) (c : Char) : Prop :=
  Digit.ofChar? c ≠ none ∨ n.exponent = none ∧ (c = 'e' ∨ c = 'E' ∨ n.fraction = none ∧ c = '.')

/-- The next character does not extend the literal. -/
def Stops (n : Numeral) (rest : List Char) : Prop :=
  ∀ c ∈ rest.head?, ¬n.Extends c

theorem Stops.digit {n : Numeral} {rest : List Char} (h : n.Stops rest) : Digit.Stops rest := by
  intro c hc
  have hd : ¬Digit.ofChar? c ≠ none := fun hd => h c hc (.inl hd)
  exact Decidable.not_not.mp hd

theorem scan?_text_append (n : Numeral) {rest : List Char} (h : n.Stops rest) :
    scan? (n.text ++ rest) = some (n, rest) := by
  obtain ⟨negative, whole, fraction, exponent⟩ := n
  -- What follows the fraction, and what follows the whole part.
  let afterFraction := (exponent.map Exponent.text).getD [] ++ rest
  let afterWhole := (fraction.map fun ds => '.' :: ds.text).getD [] ++ afterFraction
  have hexp : Exponent.scan? afterFraction = some (exponent, rest) := by
    cases exponent with
    | none => exact Exponent.scan?_of_absent fun c hc =>
        ⟨fun he => h c hc (.inr ⟨rfl, .inl he⟩), fun he => h c hc (.inr ⟨rfl, .inr (.inl he)⟩)⟩
    | some e => exact Exponent.scan?_text_append e h.digit
  have hstop : Digit.Stops afterFraction := by
    cases exponent with
    | none => exact h.digit
    | some e =>
      cases hc : e.capital <;> simp [afterFraction, Exponent.text, hc, Digit.Stops] <;> rfl
  have hfrac : scanFraction? afterWhole = some (fraction, afterFraction) := by
    cases fraction with
    | none =>
      apply scanFraction?_of_ne
      cases exponent with
      | none => exact fun c hc he => h c hc (.inr ⟨rfl, .inr (.inr ⟨rfl, he⟩)⟩)
      | some e =>
        cases hc : e.capital <;> simp [afterWhole, afterFraction, Exponent.text, hc]
    | some ds => exact scanFraction?_text_append ds hstop
  have hstop' : Digit.Stops afterWhole := by
    cases fraction with
    | none => exact hstop
    | some ds => exact Digit.stops_cons_iff.mpr rfl
  have htext : (⟨negative, whole, fraction, exponent⟩ : Numeral).text ++ rest =
      (if negative then ['-'] else []) ++ whole.text ++ afterWhole := by
    simp only [text, afterWhole, afterFraction, List.append_assoc]
  rw [htext, scan?, scanMinus_append]
  simp only [Digits.text]
  rw [Digit.span_text_append _ hstop', Whole.ofList?_eq_some_iff.mpr rfl]
  simp [hfrac, hexp]

theorem stops_of_scan? {cs rest : List Char} {n : Numeral} (h : scan? cs = some (n, rest)) :
    n.Stops rest := by
  obtain ⟨whole, -, h⟩ := Option.bind_eq_some_iff.mp h
  obtain ⟨⟨fraction, afterFraction⟩, hf, h⟩ := Option.bind_eq_some_iff.mp h
  obtain ⟨⟨exponent, afterExponent⟩, he, h⟩ := Option.bind_eq_some_iff.mp h
  obtain ⟨rfl, rfl⟩ := Prod.mk.inj (Option.some.inj h)
  rcases Exponent.scan?_eq_some he with ⟨rfl, rfl, habs⟩ | ⟨hexp, hstop⟩
  · rcases scanFraction?_eq_some hf with ⟨rfl, rfl, hdot⟩ | ⟨hfrac, hstop⟩
    · rintro c hc (hd | ⟨-, rfl | rfl | ⟨-, rfl⟩⟩)
      · exact hd (Digit.ofChar?_head_span _ c hc)
      · exact (habs _ hc).1 rfl
      · exact (habs _ hc).2 rfl
      · exact hdot _ hc rfl
    · rintro c hc (hd | ⟨-, rfl | rfl | ⟨hnone, -⟩⟩)
      · exact hd (hstop c hc)
      · exact (habs _ hc).1 rfl
      · exact (habs _ hc).2 rfl
      · exact hfrac hnone
  · rintro c hc (hd | ⟨hnone, -⟩)
    · exact hd (hstop c hc)
    · exact hexp hnone

/-- The literal at the front of a text is the one that is not extended by what follows it. -/
theorem scan?_eq_some_iff {cs rest : List Char} {n : Numeral} :
    scan? cs = some (n, rest) ↔ cs = n.text ++ rest ∧ n.Stops rest := by
  constructor
  · intro h
    exact ⟨eq_append_of_scan? h, stops_of_scan? h⟩
  · rintro ⟨rfl, h⟩
    exact scan?_text_append n h

/-! ### Literals that a text cuts short -/

/-- The characters that occur in literals. -/
def IsPart (c : Char) : Prop :=
  Digit.ofChar? c ≠ none ∨ c ∈ ['+', '-', '.', 'e', 'E']

instance (c : Char) : Decidable (IsPart c) :=
  inferInstanceAs (Decidable (Digit.ofChar? c ≠ none ∨ c ∈ ['+', '-', '.', 'e', 'E']))

theorem isPart_of_mem_text {ds : List Digit} {c : Char} (h : c ∈ Digit.text ds) : IsPart c := by
  obtain ⟨d, -, rfl⟩ := List.mem_map.mp h
  exact .inl (by simp)

theorem isPart_of_mem_exponent {e : Exponent} {c : Char} (h : c ∈ e.text) : IsPart c := by
  obtain ⟨capital, sign, ds⟩ := e
  simp only [Exponent.text, List.cons_append, List.mem_cons, List.mem_append, Option.mem_toList,
    Option.map_eq_some_iff] at h
  rcases h with rfl | ⟨s, -, rfl⟩ | h
  · cases capital
    · exact .inr (by simp)
    · exact .inr (by simp)
  · cases s
    · exact .inr (by simp [Sign.toChar])
    · exact .inr (by simp [Sign.toChar])
  · exact isPart_of_mem_text h

theorem isPart_of_mem {n : Numeral} {c : Char} (h : c ∈ n.text) : IsPart c := by
  obtain ⟨negative, whole, fraction, exponent⟩ := n
  simp only [text, List.mem_append] at h
  rcases h with ((h | h) | h) | h
  · cases negative with
    | false => simp at h
    | true =>
      obtain rfl := List.mem_singleton.mp h
      exact .inr (by simp)
  · exact isPart_of_mem_text h
  · cases fraction with
    | none => simp at h
    | some ds =>
      rcases List.mem_cons.mp h with rfl | h
      · exact .inr (by simp)
      · exact isPart_of_mem_text h
  · cases exponent with
    | none => simp at h
    | some e => exact isPart_of_mem_exponent h

theorem Stops.append {n : Numeral} {rest : List Char} (h : n.Stops rest) (hne : rest ≠ [])
    (more : List Char) : n.Stops (rest ++ more) := by
  obtain ⟨d, rest, rfl⟩ := List.exists_cons_of_ne_nil hne
  exact h

/-- A literal that ends within a text ends there too when the text goes on. -/
theorem scan?_append {cs rest : List Char} {n : Numeral} (h : scan? cs = some (n, rest))
    (hne : rest ≠ []) (more : List Char) : scan? (cs ++ more) = some (n, rest ++ more) := by
  obtain ⟨rfl, hstop⟩ := scan?_eq_some_iff.mp h
  rw [List.append_assoc]
  exact scan?_text_append n (hstop.append hne more)

/-- A text that has no literal at its front, but gets one by going on, is a part of that literal. -/
theorem exists_cut_of_scan? {cs more rest : List Char} {n : Numeral} (h : scan? cs = none)
    (h' : scan? (cs ++ more) = some (n, rest)) : ∃ tail, tail ≠ [] ∧ n.text = cs ++ tail := by
  obtain ⟨heq, hstop⟩ := scan?_eq_some_iff.mp h'
  rcases List.append_eq_append_iff.mp heq with ⟨tail, htext, -⟩ | ⟨inner, hcs, hrest⟩
  · refine ⟨tail, ?_, htext⟩
    rintro rfl
    rw [List.append_nil] at htext
    have : scan? cs = some (n, []) := by
      rw [scan?_eq_some_iff]
      exact ⟨by rw [htext, List.append_nil], by simp [Stops]⟩
    rw [h] at this
    exact nomatch this
  · have : scan? cs = some (n, inner) := by
      rw [scan?_eq_some_iff]
      refine ⟨hcs, ?_⟩
      intro c hc
      obtain ⟨inner, rfl⟩ := List.head?_eq_some_iff.mp hc
      exact hstop c (by rw [hrest]; rfl)
    rw [h] at this
    exact nomatch this

/-- A text with a character that is no part of a literal has its last say about the literal at its
front. -/
theorem scan?_append_eq_none {cs : List Char} (h : scan? cs = none) (hc : ∃ c ∈ cs, ¬IsPart c)
    (more : List Char) : scan? (cs ++ more) = none := by
  cases hs : scan? (cs ++ more) with
  | none => rfl
  | some r =>
    obtain ⟨tail, -, htext⟩ := exists_cut_of_scan? h hs
    obtain ⟨c, hc, hpart⟩ := hc
    refine absurd (isPart_of_mem (n := r.1) ?_) hpart
    rw [htext]
    exact List.mem_append_left _ hc

end Numeral

end JsonNav
