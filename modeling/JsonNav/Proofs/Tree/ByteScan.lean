import JsonNav.Proofs.Number.Scan
import JsonNav.Proofs.Tree.ByteReader
import JsonNav.Proofs.Tree.Quotation

/-! What is scanned in the bytes of a text.  A cursor of the text stands for an index into its
bytes, and from there on the bytes are those of the rest of the text.  So the scans over bytes,
which end where a byte fails a test, end where the readers of characters do, and none of them goes
wrong. -/

namespace JsonNav

open Text (bytes byteLength lead)

variable {whole before : List Char} {c next : Cursor} {cs : List Char} {d : Char}

namespace Cursor.Passes

theorem drop_bytes (h : (Cursor.ofText whole).Passes before c) :
    (bytes whole).drop c.offset = bytes c.rest := by
  have hwhole : bytes whole = bytes before ++ bytes c.rest := by
    rw [← Text.bytes_append, ← h.rest]
    rfl
  have hoffset : c.offset = (bytes before).length := by
    rw [h.offset, Text.length_bytes, Cursor.ofText, Nat.zero_add]
  rw [hwhole, hoffset, List.drop_left]

theorem offset_add (h : (Cursor.ofText whole).Passes before c) :
    c.offset + byteLength c.rest = (bytes whole).length := by
  have hrest : whole = before ++ c.rest := h.rest
  rw [h.offset, hrest, Text.length_bytes, Text.byteLength_append, Cursor.ofText, Nat.zero_add]

theorem offset_le (h : (Cursor.ofText whole).Passes before c) :
    c.offset ≤ (bytes whole).length := by
  rw [← h.offset_add]
  exact Nat.le_add_right ..

theorem getElem?_bytes (h : (Cursor.ofText whole).Passes before c) :
    (bytes whole)[c.offset]? = c.rest.head?.map lead := by
  rw [← Text.head?_bytes, ← h.drop_bytes, List.head?_drop]

end Cursor.Passes

namespace ByteReader

/-- What a reader of characters yields, as a reader of bytes puts it. -/
def answer {α : Type} : Except ParseError (α × Cursor) → Except Stop (α × Nat)
  | .error e => .error (.refused e)
  | .ok (a, c) => .ok (a, c.offset)

/-! ### Single steps -/

theorem byteAt_eq (h : (Cursor.ofText whole).Passes before c) (hd : c.rest = d :: cs) :
    byteAt (bytes whole) c.offset = .ok (lead d) := by
  rw [byteAt, h.getElem?_bytes, hd]
  rfl

theorem peek_eq (h : (Cursor.ofText whole).Passes before c) :
    peek (bytes whole) c.offset =
      match c.rest with
      | [] => refuse .unfinished
      | d :: _ => .ok (lead d) := by
  rw [peek, h.getElem?_bytes]
  cases c.rest with
  | nil => rfl
  | cons d cs => rfl

theorem offset_lt_iff (h : (Cursor.ofText whole).Passes before c) :
    c.offset < (bytes whole).length ↔ c.rest ≠ [] := by
  have hsum := h.offset_add
  constructor
  · intro hlt hrest
    rw [hrest, Text.byteLength_nil] at hsum
    omega
  · intro hrest
    have := Text.byteLength_pos hrest
    omega

/-- What lies between two cursors is a slice. -/
theorem slice_eq (h : (Cursor.ofText whole).Passes before c) (hpass : c.Passes cs next) :
    slice (bytes whole) c.offset next.offset = .ok (bytes cs) := by
  have hle := (h.trans hpass).offset_le
  have hlength : next.offset - c.offset = (bytes cs).length := by
    rw [hpass.offset, Text.length_bytes, Nat.add_sub_cancel_left]
  rw [slice, if_pos ⟨hpass.le, hle⟩, h.drop_bytes, hpass.rest, Text.bytes_append, hlength,
    List.take_left]

theorem difference_add (x n : Nat) : difference (x + n) x = .ok n := by
  rw [difference, if_pos (Nat.le_add_right ..), Nat.add_sub_cancel_left]

theorem difference_eq (hpass : c.Passes cs next) :
    difference next.offset c.offset = .ok (byteLength cs) := by
  rw [hpass.offset, difference_add]

theorem skipWhile_eq (data : List UInt8) (p : UInt8 → Bool) (x : Nat) :
    skipWhile data p x = .ok (x + ((data.drop x).takeWhile p).length) := by
  fun_induction skipWhile data p x with
  | case1 x h ih =>
    rw [byteAt, List.getElem?_eq_getElem h, List.drop_eq_getElem_cons h, List.takeWhile_cons]
    simp only [bind, Except.bind]
    split
    next => rw [ih, List.length_cons]; congr 1; omega
    next => rfl
  | case2 x h =>
    rw [List.drop_eq_nil_of_le (by omega)]
    rfl

theorem skipIf_of_pos (h : (Cursor.ofText whole).Passes before c) (hd : c.rest = d :: cs)
    {p : UInt8 → Bool} (hp : p (lead d) = true) :
    skipIf (bytes whole) p c.offset = .ok (c.offset + 1) := by
  have hlt : c.offset < (bytes whole).length := (offset_lt_iff h).mpr (by simp [hd])
  rw [skipIf, if_pos hlt, byteAt_eq h hd]
  exact if_pos hp

theorem skipIf_of_neg (h : (Cursor.ofText whole).Passes before c) {p : UInt8 → Bool}
    (hp : ∀ d ∈ c.rest.head?, p (lead d) = false) :
    skipIf (bytes whole) p c.offset = .ok c.offset := by
  rw [skipIf]
  split
  next hlt =>
    obtain ⟨d, cs, hd⟩ := List.exists_cons_of_ne_nil ((offset_lt_iff h).mp hlt)
    rw [byteAt_eq h hd]
    exact if_neg (Bool.eq_false_iff.mp (hp d (by rw [hd]; rfl)))
  next => rfl

theorem skipIf_ne (h : (Cursor.ofText whole).Passes before c) {e : Char} (he : e.toNat < 0x80)
    (hne : ¬∃ cs, c.rest = e :: cs) :
    skipIf (bytes whole) (· = e.toUInt8) c.offset = .ok c.offset := by
  refine skipIf_of_neg h fun d hd => decide_eq_false fun hlead => hne ?_
  rw [(Text.lead_eq_iff he).mp hlead] at hd
  exact List.head?_eq_some_iff.mp hd

theorem skipIf_ne_or (h : (Cursor.ofText whole).Passes before c) {e f : Char}
    (he : e.toNat < 0x80) (hf : f.toNat < 0x80) (hne : ¬∃ cs, c.rest = e :: cs)
    (hne' : ¬∃ cs, c.rest = f :: cs) :
    skipIf (bytes whole) (fun b => b = e.toUInt8 || b = f.toUInt8) c.offset = .ok c.offset := by
  refine skipIf_of_neg h fun d hd => ?_
  rw [Bool.or_eq_false_iff, decide_eq_false_iff_not, decide_eq_false_iff_not, Text.lead_eq_iff he,
    Text.lead_eq_iff hf]
  constructor
  · rintro rfl
    exact hne (List.head?_eq_some_iff.mp hd)
  · rintro rfl
    exact hne' (List.head?_eq_some_iff.mp hd)

/-! ### Blanks -/

theorem isBlank_lead (c : Char) : isBlank (lead c) = Cursor.isBlank c := by
  have hlead {d : Char} (hd : d.toNat < 0x80) :
      decide (lead c = d.toUInt8) = decide (c = d) := by
    rw [decide_eq_decide]
    exact Text.lead_eq_iff hd
  rw [isBlank, Cursor.isBlank, hlead (by decide), hlead (by decide), hlead (by decide),
    hlead (by decide)]

theorem offset_afterBlanks (o : Nat) (cs : List Char) :
    (Cursor.afterBlanks o cs).offset = o + (cs.takeWhile Cursor.isBlank).length := by
  induction cs generalizing o with
  | nil => rfl
  | cons c cs ih =>
    rw [Cursor.afterBlanks, List.takeWhile_cons]
    split
    next => rw [ih, List.length_cons]; omega
    next => rfl

theorem skipBlanks_eq (h : (Cursor.ofText whole).Passes before c) :
    skipBlanks (bytes whole) c.offset = .ok c.skipBlanks.offset := by
  have hascii : ∀ d, Cursor.isBlank d = true → d.toNat < 0x80 := fun d hd =>
    Text.utf8Size_eq_one_iff.mp (Cursor.utf8Size_of_isBlank hd)
  rw [skipBlanks, skipWhile_eq, h.drop_bytes, Text.length_takeWhile_bytes isBlank_lead hascii,
    Cursor.skipBlanks, offset_afterBlanks]

/-! ### Numbers -/

theorem isDigit_lead (c : Char) : isDigit (lead c) = (Digit.ofChar? c).isSome := by
  rw [isDigit, Digit.ofChar?, Bool.eq_iff_iff, Bool.and_eq_true, decide_eq_true_iff,
    decide_eq_true_iff, UInt8.le_iff_toNat_le, UInt8.le_iff_toNat_le, Option.isSome_dite]
  show 48 ≤ (lead c).toNat ∧ (lead c).toNat ≤ 57 ↔ _
  by_cases hc : c.toNat < 0x80
  · rw [Text.lead_of_lt hc, Text.toNat_toUInt8 hc]
    omega
  · have := Text.le_lead hc
    omega

theorem length_span (cs : List Char) :
    (Digit.span cs).1.length = (cs.takeWhile fun c => (Digit.ofChar? c).isSome).length := by
  induction cs with
  | nil => rfl
  | cons c cs ih =>
    rw [Digit.span, List.takeWhile_cons]
    cases Digit.ofChar? c with
    | none => rfl
    | some d => simp [ih]

theorem byteLength_digits (ds : List Digit) : byteLength (Digit.text ds) = ds.length := by
  have hascii : ∀ c ∈ Digit.text ds, c.toNat < 0x80 :=
    List.forall_mem_map.mpr fun d _ => d.toChar_lt
  rw [Text.byteLength_eq_length hascii, Digit.text, List.length_map]

theorem skipDigits_eq (h : (Cursor.ofText whole).Passes before c) :
    skipWhile (bytes whole) isDigit c.offset = .ok (c.offset + (Digit.span c.rest).1.length) := by
  have hascii (d : Char) (hd : (Digit.ofChar? d).isSome = true) : d.toNat < 0x80 := by
    rw [Digit.ofChar?, Option.isSome_dite] at hd
    omega
  rw [skipWhile_eq, h.drop_bytes, Text.length_takeWhile_bytes isDigit_lead hascii, length_span]

theorem digitsEnd_eq (h : (Cursor.ofText whole).Passes before c) (start : Nat) :
    digitsEnd (bytes whole) start c.offset =
      match Digits.ofList? (Digit.span c.rest).1 with
      | none => refuse (.malformedNumber start)
      | some ds => .ok (c.offset + byteLength ds.text) := by
  rw [digitsEnd, skipDigits_eq h]
  simp only [bind, Except.bind]
  cases hds : (Digit.span c.rest).1 with
  | nil => exact if_pos rfl
  | cons d ds =>
    have hlength : byteLength (Digits.text ⟨d, ds⟩) = (d :: ds).length := byteLength_digits _
    rw [if_neg (by rw [List.length_cons]; omega), ← hlength]
    rfl

theorem lead_digit (d : Digit) : lead d.toChar = '0'.toUInt8 ↔ d = 0 := by
  rw [Text.lead_eq_iff (by decide)]
  revert d
  decide

theorem wholeEnd_eq (h : (Cursor.ofText whole).Passes before c) (start : Nat) :
    wholeEnd (bytes whole) start c.offset =
      match Whole.ofList? (Digit.span c.rest).1 with
      | none => refuse (.malformedNumber start)
      | some w => .ok (c.offset + byteLength w.text) := by
  rw [wholeEnd, skipDigits_eq h]
  simp only [bind, Except.bind, difference_add]
  have hrest := Digit.text_span_append c.rest
  rcases hds : (Digit.span c.rest).1 with _ | ⟨d, _ | ⟨e, ds⟩⟩
  · rfl
  · have hsome : Whole.ofList? [d] = some ⟨⟨d, []⟩, fun _ => rfl⟩ :=
      Whole.ofList?_eq_some_iff.mpr rfl
    rw [hsome]
    simp only [Digits.text, Digits.toList, byteLength_digits]
    rfl
  · rw [hds] at hrest
    rw [byteAt_eq h hrest.symm, if_neg (by simp), if_pos (by simp)]
    simp only [lead_digit]
    by_cases hd : d = 0
    · rw [if_pos hd, Whole.ofList?, Digits.ofList?]
      simp [hd]
    · have hsome : Whole.ofList? (d :: e :: ds) = some ⟨⟨d, e :: ds⟩, fun h => absurd h hd⟩ :=
        Whole.ofList?_eq_some_iff.mpr rfl
      rw [if_neg hd, hsome]
      simp only [Digits.text, Digits.toList, byteLength_digits]
      rfl

theorem fractionEnd_eq (h : (Cursor.ofText whole).Passes before c) (start : Nat) :
    fractionEnd (bytes whole) start c.offset =
      match Numeral.scanFraction? c.rest with
      | none => refuse (.malformedNumber start)
      | some (f, _) => .ok (c.offset + byteLength ((f.map fun ds => '.' :: ds.text).getD [])) := by
  rw [fractionEnd]
  by_cases hpoint : ∃ cs, c.rest = '.' :: cs
  · obtain ⟨cs, hcs⟩ := hpoint
    have hdigits := digitsEnd_eq (h.trans (.head hcs rfl)) start
    rw [skipIf_of_pos h hcs (by decide), hcs, Numeral.scanFraction?]
    simp only [bind, Except.bind, if_neg (Nat.succ_ne_self c.offset), hdigits]
    cases Digits.ofList? (Digit.span cs).1 with
    | none => rfl
    | some ds =>
      show _ = Except.ok (c.offset + byteLength ('.' :: ds.text))
      rw [Text.byteLength_cons, ← Nat.add_assoc]
      rfl
  · have hne : ∀ d ∈ c.rest.head?, d ≠ '.' := by
      rintro d hd rfl
      exact hpoint (List.head?_eq_some_iff.mp hd)
    rw [skipIf_ne h (by decide) hpoint, Numeral.scanFraction?_of_ne hne]
    exact if_pos rfl

/-- What follows the letter of an exponent. -/
theorem signedEnd_eq (h : (Cursor.ofText whole).Passes before c) (start : Nat) (capital : Bool) :
    (do
      let first ← skipIf (bytes whole) (fun b => b = '+'.toUInt8 || b = '-'.toUInt8) c.offset
      digitsEnd (bytes whole) start first) =
      match Exponent.scanDigits? capital c.rest with
      | none => refuse (.malformedNumber start)
      | some (e, _) => .ok (c.offset + (byteLength e.text - 1)) := by
  have hsign : c.Passes ((Sign.scan c.rest).1.map Sign.toChar).toList
    ⟨c.offset + byteLength ((Sign.scan c.rest).1.map Sign.toChar).toList, (Sign.scan c.rest).2⟩ :=
      ⟨Sign.eq_append_of_scan c.rest, rfl⟩
  have hskip : skipIf (bytes whole) (fun b => b = '+'.toUInt8 || b = '-'.toUInt8) c.offset =
      .ok (c.offset + byteLength ((Sign.scan c.rest).1.map Sign.toChar).toList) := by
    cases hscan : (Sign.scan c.rest).1 with
    | none =>
      refine skipIf_ne_or h (by decide) (by decide) ?_ ?_
      · rintro ⟨cs, hcs⟩
        rw [hcs] at hscan
        cases hscan
      · rintro ⟨cs, hcs⟩
        rw [hcs] at hscan
        cases hscan
    | some s =>
      rw [hscan] at hsign
      rw [skipIf_of_pos h hsign.rest]
      · cases s <;> rfl
      · cases s <;> decide
  have hdigits := digitsEnd_eq (h.trans hsign) start
  rw [hskip, Exponent.scanDigits?]
  simp only [bind, Except.bind, hdigits]
  cases Digits.ofList? (Digit.span (Sign.scan c.rest).2).1 with
  | none => rfl
  | some ds =>
    have hletter : (if capital then 'E' else 'e').utf8Size = 1 := by cases capital <;> rfl
    simp only [Option.map_some, Exponent.text, List.cons_append, Text.byteLength_cons,
      Text.byteLength_append, hletter, Nat.add_sub_cancel_left, Nat.add_assoc]

theorem exponentEnd_eq (h : (Cursor.ofText whole).Passes before c) (start : Nat) :
    exponentEnd (bytes whole) start c.offset =
      match Exponent.scan? c.rest with
      | none => refuse (.malformedNumber start)
      | some (e, _) => .ok (c.offset + byteLength ((e.map Exponent.text).getD [])) := by
  have hletter (capital : Bool) {cs : List Char}
      (hcs : c.rest = (if capital then 'E' else 'e') :: cs) :
      exponentEnd (bytes whole) start c.offset =
        match (Exponent.scanDigits? capital cs).map fun r => (some r.1, r.2) with
        | none => refuse (.malformedNumber start)
        | some (e, _) => .ok (c.offset + byteLength ((e.map Exponent.text).getD [])) := by
    have hpass := Cursor.Passes.head hcs (by cases capital <;> rfl)
    rw [exponentEnd, skipIf_of_pos h hcs (by cases capital <;> decide)]
    simp only [bind, Except.bind, if_neg (Nat.succ_ne_self c.offset)]
    refine (signedEnd_eq (h.trans hpass) start capital).trans ?_
    cases Exponent.scanDigits? capital cs with
    | none => rfl
    | some r =>
      have hpos : 0 < byteLength r.1.text := Text.byteLength_pos (by simp [Exponent.text])
      simp only [Option.map_some, Option.getD_some]
      congr 1
      omega
  by_cases hsmall : ∃ cs, c.rest = 'e' :: cs
  · obtain ⟨cs, hcs⟩ := hsmall
    rw [hcs]
    exact hletter false hcs
  by_cases hcapital : ∃ cs, c.rest = 'E' :: cs
  · obtain ⟨cs, hcs⟩ := hcapital
    rw [hcs]
    exact hletter true hcs
  have habsent : Exponent.Absent c.rest := by
    intro d hd
    constructor
    · rintro rfl
      exact hsmall (List.head?_eq_some_iff.mp hd)
    · rintro rfl
      exact hcapital (List.head?_eq_some_iff.mp hd)
  rw [exponentEnd, skipIf_ne_or h (by decide) (by decide) hsmall hcapital,
    Exponent.scan?_of_absent habsent]
  exact if_pos rfl

theorem minusEnd_eq (h : (Cursor.ofText whole).Passes before c) :
    skipIf (bytes whole) (· = '-'.toUInt8) c.offset =
      .ok (c.offset + byteLength (if (Numeral.scanMinus c.rest).1 then ['-'] else [])) := by
  by_cases hsign : ∃ cs, c.rest = '-' :: cs
  · obtain ⟨cs, hcs⟩ := hsign
    rw [skipIf_of_pos h hcs (by decide), hcs]
    rfl
  · have hnone : (Numeral.scanMinus c.rest).1 = false := by
      unfold Numeral.scanMinus
      split
      next cs hcs => exact absurd ⟨cs, hcs⟩ hsign
      next => rfl
    rw [hnone, skipIf_ne h (by decide) hsign]
    rfl

/-- The scan of a number ends after the literal, or finds that there is none. -/
theorem numberEnd_eq (h : (Cursor.ofText whole).Passes before c) :
    numberEnd (bytes whole) c.offset =
      match Numeral.scan? c.rest with
      | none => refuse (.malformedNumber c.offset)
      | some (n, _) => .ok (c.offset + byteLength n.text) := by
  have hpart {c : Cursor} {cs rest : List Char} (h : c.rest = cs ++ rest) :
      c.Passes cs ⟨c.offset + byteLength cs, rest⟩ := ⟨h, rfl⟩
  have hminus := hpart (Numeral.eq_append_of_scanMinus c.rest)
  have hwhole := wholeEnd_eq (h.trans hminus) c.offset
  rw [numberEnd, minusEnd_eq h, Numeral.scan?]
  simp only [bind, Except.bind, Option.bind, hwhole]
  cases hw : Whole.ofList? (Digit.span (Numeral.scanMinus c.rest).2).1 with
  | none => rfl
  | some w =>
    have hspan : (Numeral.scanMinus c.rest).2 =
        w.text ++ (Digit.span (Numeral.scanMinus c.rest).2).2 := by
      rw [Digits.text, ← Whole.ofList?_eq_some_iff.mp hw, Digit.text_span_append]
    have hpassWhole := hminus.trans (hpart hspan)
    have hfraction := fractionEnd_eq (h.trans hpassWhole) c.offset
    simp only at hfraction ⊢
    rw [hfraction]
    cases hf : Numeral.scanFraction? (Digit.span (Numeral.scanMinus c.rest).2).2 with
    | none => rfl
    | some f =>
      have hpassFraction := hpassWhole.trans (hpart (Numeral.eq_append_of_scanFraction? hf))
      have hexponent := exponentEnd_eq (h.trans hpassFraction) c.offset
      simp only at hexponent ⊢
      rw [hexponent]
      cases Exponent.scan? f.2 with
      | none => rfl
      | some e =>
        simp only [pure, Numeral.text, Text.byteLength_append, Nat.add_assoc]

/-! ### Leaves -/

theorem text?_bytes (cs : List Char) : text? (bytes cs) = some cs := by
  have hencode : (bytes cs).toByteArray = cs.utf8Encode := rfl
  rw [text?, hencode, List.utf8Decode?_utf8Encode]
  rfl

/-- The literals of a text are read by `double?` and as the bodies of strings are. -/
structure Agrees (double? : List Char → Option Binary64) (l : Literals String Binary64) : Prop where
  string : l.string? = Literals.standard.string?
  number : ∀ n : Numeral, double? n.text = some (l.number n)

variable {double? : List Char → Option Binary64} {l : Literals String Binary64}

theorem number_eq (hl : Agrees double? l) (h : (Cursor.ofText whole).Passes before c) :
    number (bytes whole) double? c.offset = answer ((Reader.number l).run c) := by
  rw [number, numberEnd_eq h, Reader.run_number]
  cases hn : Numeral.scan? c.rest with
  | none => rfl
  | some r =>
    have hpass : c.Passes r.1.text ⟨c.offset + byteLength r.1.text, r.2⟩ :=
      ⟨Numeral.eq_append_of_scan? hn, rfl⟩
    have hslice := slice_eq h hpass
    simp only at hslice
    simp only [bind, Except.bind, hslice, text?_bytes, hl.number, difference_add]
    simp only [answer, Reader.spanned, Nat.add_sub_cancel_left]
    rfl

/-- The scan for the closing quote, past the end of the bytes or not. -/
theorem endingQuote_eq (data : List UInt8) (x : Nat) :
    endingQuote data x = (Cursor.closingQuote x (data.drop x)).mapError .refused := by
  fun_induction endingQuote data x with
  | case1 x h ih₂ ih₁ =>
    rw [byteAt, List.getElem?_eq_getElem h, List.drop_eq_getElem_cons h, Cursor.closingQuote]
    simp only [bind, Except.bind]
    split
    next => rfl
    -- Past the end there is nothing to drop, as there is nothing left of the tail.
    split
    next => rw [ih₂, List.tail_drop]
    split
    next => rfl
    next => exact ih₁
  | case2 x h =>
    rw [List.drop_eq_nil_of_le (by omega), Cursor.closingQuote]
    rfl

theorem bodyText?_bytes {body : List Char} (h : Cursor.Body body) :
    bodyText? (bytes body) = Literals.standard.string? body := by
  have hmem : '\\'.toUInt8 ∈ bytes body ↔ '\\' ∈ body := by
    rw [bytes, List.mem_flatMap]
    constructor
    · rintro ⟨c, hc, hbyte⟩
      rwa [← Text.eq_of_toUInt8_mem (by decide) hbyte]
    · intro h
      exact ⟨_, h, by decide⟩
  rw [← Literals.string?_copying h, bodyText?, text?_bytes]
  simp only [hmem]
  rfl

theorem string_eq (hl : Agrees double? l) (h : (Cursor.ofText whole).Passes before c)
    (hc : c.rest = '"' :: cs) :
    string (bytes whole) c.offset = answer ((Reader.string l).run c) := by
  have hbody := h.trans (.head hc rfl)
  have hdrop := hbody.drop_bytes
  simp only at hdrop
  rw [string, endingQuote_eq, hdrop, Cursor.closingQuote_bytes, Reader.run_string, hc]
  simp only
  cases htake : Cursor.takeBody (c.offset + 1) cs with
  | error e => rfl
  | ok r =>
    obtain ⟨hr, hpass⟩ := Cursor.body_of_takeBody htake
    have hquote : (⟨c.offset + 1, cs⟩ : Cursor).Passes r.1
        ⟨c.offset + 1 + byteLength r.1, '"' :: r.2.rest⟩ := ⟨by simpa using hpass.rest, rfl⟩
    have hslice := slice_eq hbody hquote
    have hstop : r.2.offset = c.offset + 1 + byteLength r.1 + 1 := by
      rw [hpass.offset, Text.byteLength_append_quote]
      rfl
    simp only [Except.map, Except.mapError, bind, Except.bind, hslice, bodyText?_bytes hr,
      hl.string]
    cases Literals.standard.string? r.1 with
    | none => rfl
    | some s =>
      have hlength : difference r.2.offset c.offset = .ok (r.2.offset - c.offset) :=
        if_pos (by omega)
      simp only [← hstop, hlength]
      rfl

/-- A text has too few bytes for an ASCII word if as many characters as the word has are too few. -/
theorem byteLength_take_lt_iff {w : List Char} (hascii : ∀ d ∈ w, d.toNat < 0x80)
    (cs : List Char) :
    byteLength (cs.take w.length) < byteLength w ↔ byteLength cs < byteLength w := by
  rw [Text.byteLength_eq_length hascii]
  have hle : byteLength (cs.take w.length) ≤ byteLength cs := by
    conv => rhs; rw [← List.take_append_drop w.length cs, Text.byteLength_append]
    exact Nat.le_add_right ..
  constructor
  · intro hlt
    have hshort := Nat.lt_of_le_of_lt (Text.length_le_byteLength _) hlt
    rw [List.length_take] at hshort
    rwa [List.take_of_length_le (by omega)] at hlt
  · exact Nat.lt_of_le_of_lt hle

theorem word_eq {w : List Char} (hascii : ∀ d ∈ w, d.toNat < 0x80) {hw : w ≠ []}
    {node : Span → Tree} (h : (Cursor.ofText whole).Passes before c) :
    word (bytes whole) w node c.offset = answer ((Reader.word w hw node).run c) := by
  have hlength := h.offset_add
  rw [word, Reader.run_word, Text.length_bytes w]
  simp only [byteLength_take_lt_iff hascii]
  by_cases hshort : byteLength c.rest < byteLength w
  · rw [if_pos hshort, if_pos (by omega)]
    rfl
  · have hslice : slice (bytes whole) c.offset (c.offset + byteLength w) =
        .ok ((bytes c.rest).take (bytes w).length) := by
      rw [slice, if_pos ⟨by omega, by omega⟩, h.drop_bytes, Nat.add_sub_cancel_left,
        Text.length_bytes]
    rw [if_neg hshort, if_neg (by omega), hslice]
    simp only [bind, Except.bind]
    by_cases hprefix : w <+: c.rest
    · have hbytes := (Text.bytes_prefix_iff hascii c.rest).mpr hprefix
      rw [if_pos (List.prefix_iff_eq_take.mp hbytes).symm, if_pos hprefix]
      simp only [answer, Reader.spanned, Nat.add_sub_cancel_left]
      rfl
    · have htake : (bytes c.rest).take (bytes w).length ≠ bytes w := fun htake =>
        hprefix ((Text.bytes_prefix_iff hascii c.rest).mp (List.prefix_iff_eq_take.mpr htake.symm))
      rw [if_neg htake, if_neg hprefix]
      rfl

end ByteReader

end JsonNav
