import Mathlib.Algebra.Group.Nat.Even
import JsonNav.Proofs.Text.Bytes
import JsonNav.Proofs.Tree.WellFormed

/-! String literals.  What is read between two quotes is exactly a spelling of the string, and the
closing quote is the first that an even number of backslashes precedes.  A scan over bytes finds it,
although the byte that is skipped after a backslash may be the first of a longer character.  A body
without a backslash denotes itself, so it may be copied instead of decoded. -/

namespace JsonNav

open Text (byteLength)

theorem Text.byteLength_append_quote (cs : List Char) :
    byteLength (cs ++ ['"']) = byteLength cs + 1 := by
  rw [byteLength_append]
  rfl

theorem Text.byteLength_quoted (body : List Char) :
    byteLength ('"' :: (body ++ ['"'])) = byteLength body + 2 := by
  rw [byteLength_cons, byteLength_append_quote, Nat.add_comm]
  rfl

namespace Text.Quoted

/-! ### Backslashes -/

variable {body cs ds : List Char} {c : Char}

/-- How many backslashes stand at the end of a text. -/
def backslashes (cs : List Char) : Nat :=
  (cs.reverse.takeWhile (· = '\\')).length

theorem backslashes_append (hc : c ≠ '\\') : backslashes (ds ++ c :: cs) = backslashes cs := by
  rw [backslashes, backslashes, List.reverse_append, List.reverse_cons, List.append_assoc,
    List.takeWhile_append, List.singleton_append,
    List.takeWhile_cons_of_neg (by simpa using hc), List.append_nil]
  split
  next hall => exact hall.symm
  next => rfl

/-- An escape changes nothing in whether the number of backslashes after it is even. -/
theorem even_backslashes_escape :
    Even (backslashes ('\\' :: c :: cs)) ↔ Even (backslashes cs) := by
  by_cases hc : c = '\\'
  · rw [hc, backslashes, backslashes, List.reverse_cons, List.reverse_cons, List.append_assoc,
      List.takeWhile_append]
    split
    next hall =>
      have htwo : ['\\', '\\'].takeWhile (· = '\\') = ['\\', '\\'] := by decide
      rw [List.singleton_append, htwo, List.length_append, ← hall, Nat.even_iff, Nat.even_iff]
      simp only [List.length_cons, List.length_nil]
      omega
    next => rfl
  · rw [show '\\' :: c :: cs = ['\\'] ++ c :: cs from rfl, backslashes_append hc]

theorem even_backslashes (h : Cursor.Body body) : Even (backslashes body) := by
  induction h with
  | nil => exact Even.zero
  | @char c cs _ hb _ _ ih => rwa [← List.nil_append (c :: cs), backslashes_append hb]
  | escape _ ih => exact even_backslashes_escape.mpr ih

/-- A quote in a body follows a backslash that no backslash escapes. -/
theorem not_even_backslashes (h : Cursor.Body body) {before after : List Char}
    (hcut : body = before ++ '"' :: after) : ¬Even (backslashes before) := by
  induction h generalizing before with
  | nil => simp at hcut
  | @char c cs hq hb _ _ ih =>
    cases before with
    | nil => exact absurd (List.cons.inj hcut).1 hq
    | cons d before =>
      obtain ⟨rfl, hrest⟩ := List.cons.inj hcut
      rw [← List.nil_append (c :: before), backslashes_append hb]
      exact ih hrest
  | @escape c cs _ ih =>
    rcases before with _ | ⟨d, _ | ⟨e, before⟩⟩
    · exact absurd (List.cons.inj hcut).1 (by decide)
    · obtain ⟨rfl, -⟩ := List.cons.inj hcut
      decide
    · obtain ⟨rfl, hrest⟩ := List.cons.inj hcut
      obtain ⟨rfl, hinner⟩ := List.cons.inj hrest
      rw [even_backslashes_escape]
      exact ih hinner

/-- The quote after a body is the first that an even number of backslashes precedes. -/
def Closes (body : List Char) : Prop :=
  Even (backslashes body) ∧
    ∀ before after, body = before ++ '"' :: after → ¬Even (backslashes before)

theorem closes (h : Cursor.Body body) : Closes body :=
  ⟨even_backslashes h, fun _ _ => not_even_backslashes h⟩

/-- A body without a backslash is the text that it denotes. -/
theorem spells_self (h : Cursor.Body body) (hb : '\\' ∉ body) : Spells body body := by
  induction h with
  | nil => exact .nil
  | char hq hslash hc _ ih =>
    simp only [isControl, decide_eq_false_iff_not, Nat.not_lt] at hc
    exact .raw hc hq hslash (ih fun hmem => hb (List.mem_cons_of_mem _ hmem))
  | escape => exact absurd (List.mem_cons_self ..) hb

end Text.Quoted

namespace Cursor

open Text (bytes)

/-! ### The scan over bytes -/

variable {o : Nat} {c : Char}

/-- The offset of the quote that ends a body, searched in the bytes from the body on.  A backslash
is skipped together with the byte after it, which may be the first of a longer character. -/
def closingQuote (offset : Nat) : List UInt8 → Except ParseError Nat
  | [] => .error .unfinished
  | b :: bs =>
    if b = '"'.toUInt8 then .ok offset
    else if b = '\\'.toUInt8 then closingQuote (offset + 2) bs.tail
    else if b < 0x20 then .error (.malformedString offset)
    else closingQuote (offset + 1) bs
termination_by bs => bs.length
decreasing_by all_goals simp only [List.length_tail, List.length_cons]; omega

theorem closingQuote_high {bs : List UInt8} (h : ∀ b ∈ bs, 0x80 ≤ b) (o : Nat)
    (rest : List UInt8) : closingQuote o (bs ++ rest) = closingQuote (o + bs.length) rest := by
  induction bs generalizing o with
  | nil => rfl
  | cons b bs ih =>
    have hb := UInt8.le_iff_toNat_le.mp (h b (List.mem_cons_self ..))
    have hne {d : UInt8} (hd : d.toNat < 0x80) : b ≠ d := by
      rintro rfl
      exact Nat.not_le_of_lt hd hb
    have hlt : ¬b < 0x20 := by
      rw [UInt8.lt_iff_toNat_lt, Nat.not_lt]
      exact Nat.le_trans (by decide) hb
    rw [List.cons_append, closingQuote, if_neg (hne (by decide)), if_neg (hne (by decide)),
      if_neg hlt, ih fun b hb => h b (List.mem_cons_of_mem _ hb), List.length_cons]
    congr 1
    omega

theorem closingQuote_char (hq : c ≠ '"') (hb : c ≠ '\\') (o : Nat) (rest : List UInt8) :
    closingQuote o (String.utf8EncodeChar c ++ rest) =
      if Text.Quoted.isControl c then .error (.malformedString o)
      else closingQuote (o + c.utf8Size) rest := by
  by_cases hlt : c.toNat < 0x80
  · have hbyte := Text.toNat_toUInt8 hlt
    have hne {d : Char} (hd : c ≠ d) (hsmall : d.toNat < 0x80) : c.toUInt8 ≠ d.toUInt8 := by
      intro h
      apply hd
      rw [← Char.toNat_inj, ← hbyte, h, Text.toNat_toUInt8 hsmall]
    have hcontrol : c.toUInt8 < 0x20 ↔ Text.Quoted.isControl c = true := by
      rw [UInt8.lt_iff_toNat_lt, hbyte, Text.Quoted.isControl, decide_eq_true_iff]
      rfl
    rw [Text.utf8EncodeChar_of_lt hlt, List.singleton_append, closingQuote,
      if_neg (hne hq (by decide)), if_neg (hne hb (by decide)), Text.utf8Size_eq_one_iff.mpr hlt]
    simp only [hcontrol]
  · have hcontrol : ¬Text.Quoted.isControl c = true := by
      rw [Text.Quoted.isControl, decide_eq_true_iff]
      omega
    rw [closingQuote_high (Text.le_of_mem_utf8EncodeChar hlt), String.length_utf8EncodeChar,
      if_neg hcontrol]

theorem closingQuote_backslash (o : Nat) (bs : List UInt8) :
    closingQuote o (String.utf8EncodeChar '\\' ++ bs) = closingQuote (o + 2) bs.tail := by
  rw [Text.utf8EncodeChar_of_lt (by decide), List.singleton_append, closingQuote,
    if_neg (by decide), if_pos rfl]

/-- The rest of a character after its first byte is passed over like any other. -/
theorem closingQuote_escape (o : Nat) (c : Char) (rest : List UInt8) :
    closingQuote o (String.utf8EncodeChar '\\' ++ (String.utf8EncodeChar c ++ rest)) =
      closingQuote (o + 1 + c.utf8Size) rest := by
  obtain ⟨b, bs, hbytes, hlength, hhigh⟩ := Text.exists_utf8EncodeChar c
  rw [closingQuote_backslash, hbytes, List.cons_append, List.tail_cons, closingQuote_high hhigh,
    ← hlength]
  congr 1
  omega

/-- The scan over bytes ends at the quote where the body ends, or fails as the body does. -/
theorem closingQuote_bytes (o : Nat) (cs : List Char) :
    closingQuote o (bytes cs) = (takeBody o cs).map fun r => o + byteLength r.1 := by
  induction o, cs using takeBody.induct with
  | case1 =>
    rw [Text.bytes_nil, closingQuote]
    rfl
  | case2 o cs =>
    rw [Text.bytes_cons, Text.utf8EncodeChar_of_lt (by decide), List.singleton_append, closingQuote,
      if_pos rfl]
    rfl
  | case3 o =>
    rw [Text.bytes_cons, closingQuote_backslash, Text.bytes_nil, List.tail_nil, closingQuote]
    rfl
  | case4 o c cs ih =>
    rw [Text.bytes_cons, Text.bytes_cons, closingQuote_escape, ih, takeBody_of_escape]
    cases takeBody (o + 1 + c.utf8Size) cs with
    | error e => rfl
    | ok r => simp [Except.map, Nat.add_assoc]; rfl
  | case5 o c cs hq hb₁ hb₂ hc =>
    have hb := ne_backslash hb₁ hb₂
    rw [Text.bytes_cons, closingQuote_char hq hb, takeBody_of_char o hq hb, if_pos hc, if_pos hc]
    rfl
  | case6 o c cs hq hb₁ hb₂ hc ih =>
    have hb := ne_backslash hb₁ hb₂
    rw [Text.bytes_cons, closingQuote_char hq hb, takeBody_of_char o hq hb, if_neg hc, if_neg hc,
      ih]
    cases takeBody (o + c.utf8Size) cs with
    | error e => rfl
    | ok r => simp [Except.map, Nat.add_assoc]

end Cursor

/-- A body without a backslash is copied, and only other bodies are decoded. -/
def Literals.copying : Literals String Binary64 where
  string? body :=
    if '\\' ∈ body then Literals.standard.string? body else some (String.ofList body)
  number := Literals.standard.number

theorem Literals.string?_copying {body : List Char} (h : Cursor.Body body) :
    Literals.copying.string? body = Literals.standard.string? body := by
  show (if '\\' ∈ body then _ else _) = _
  split
  next => rfl
  next hb =>
    have hdecode := Text.Quoted.decode?_of_spells (Text.Quoted.spells_self h hb)
    show _ = (Text.Quoted.decode? body).map String.ofList
    rw [hdecode, Option.map_some]

namespace Reader

/-! ### Readers that differ in what literals denote -/

variable {α σ ν : Type} {l l' : Literals σ ν}

theorem eq_of_run {r r' : Reader α} (h : ∀ c, r.run c = r'.run c) : r = r' := by
  funext c
  have hc := h c
  unfold run at hc
  cases hr : r c with
  | error e =>
    cases hr' : r' c with
    | error e' => simpa [hr, hr', Except.map] using hc
    | ok s' => simp [hr, hr', Except.map] at hc
  | ok s =>
    cases hr' : r' c with
    | error e' => simp [hr, hr', Except.map] at hc
    | ok s' =>
      obtain ⟨v, next, _⟩ := s
      obtain ⟨v', next', _⟩ := s'
      simpa [hr, hr', Except.map] using hc

theorem string_congr (h : ∀ body, Cursor.Body body → l.string? body = l'.string? body) :
    string l = string l' := by
  apply eq_of_run
  intro c
  rw [run_string, run_string]
  split
  next => rfl
  next cs hc =>
    cases hbody : Cursor.takeBody (c.offset + 1) cs with
    | error e => rfl
    | ok r =>
      simp only [bind, Except.bind]
      rw [h r.1 (Cursor.body_of_takeBody hbody).1]
  next => rfl

theorem start_congr (hstring : string l = string l') (hnumber : number l = number l')
    (nested : Option (Reader (Node σ ν))) : start l nested = start l' nested := by
  have hproperty (value : Reader (Node σ ν)) : property l value = property l' value := by
    apply eq_of_run
    intro c
    rw [run_property, run_property, hstring]
  apply eq_of_run
  intro c
  rw [run_start, run_start]
  simp only [hstring, hnumber, hproperty]

theorem value_congr (hstring : string l = string l') (hnumber : number l = number l')
    (depth : Nat) : value l depth = value l' depth := by
  have hvalue {nested nested' : Option (Reader (Node σ ν))} (h : nested = nested') :
      valueWith l nested = valueWith l' nested' := by
    apply eq_of_run
    intro c
    rw [run_valueWith, run_valueWith, start_congr hstring hnumber, h]
  induction depth with
  | zero => exact hvalue rfl
  | succ depth ih => exact hvalue (congrArg some ih)

/-- Only what string bodies and numbers denote decides how a text is read. -/
theorem text_congr (hstring : ∀ body, Cursor.Body body → l.string? body = l'.string? body)
    (hnumber : l.number = l'.number) (depth : Nat) (cs : List Char) :
    text l depth cs = text l' depth cs := by
  have hnumber : number l = number l' := by
    apply eq_of_run
    intro c
    rw [run_number, run_number, hnumber]
  rw [text_eq, text_eq, value_congr (string_congr hstring) hnumber]

end Reader

namespace Tree

open Text.Quoted (Spells Closes)

/-- A string of a tree is written between quotes. -/
theorem exists_quoted {cs : List Char} {t : Tree} (h : parse cs = .ok t) {span : Span} {s : String}
    (hn : .string span s ∈ t.preorder) :
    ∃ before body after, cs = before ++ '"' :: (body ++ '"' :: after) ∧
      span = ⟨byteLength before, byteLength body + 2⟩ ∧ Spells body s.toList := by
  obtain ⟨before, piece, after, rfl, hpiece⟩ := exists_piece h hn
  cases hpiece with
  | property h => exact nomatch h
  | value h =>
    cases h with
    | string h =>
      cases h with
      | @mk body _ _ hspells =>
        exact ⟨before, body, after, by simp, by rw [Text.byteLength_quoted], hspells⟩

/-- String literals are read exactly.  Each spelling of a string between quotes is read as that
string, and each string of a tree, value or key, is spelled in the text between two quotes, of which
the second is the first after it that an even number of backslashes precedes.  Scanning the bytes
finds that quote.  A body without a backslash denotes itself, so nothing changes if such bodies are
copied. -/
theorem parse_string_exact :
    (∀ body s, Spells body s.toList →
      parse ('"' :: (body ++ ['"'])) = .ok (.string ⟨0, byteLength body + 2⟩ s)) ∧
    (∀ cs t, parse cs = .ok t → ∀ span s, (.string span s : Tree) ∈ t.preorder →
      ∃ before body after, cs = before ++ '"' :: (body ++ '"' :: after) ∧
        span = ⟨byteLength before, byteLength body + 2⟩ ∧ Spells body s.toList ∧ Closes body) ∧
    (∀ o cs, Cursor.closingQuote o (Text.bytes cs) =
      (Cursor.takeBody o cs).map fun r => o + byteLength r.1) ∧
    (∀ o cs body next, Cursor.takeBody o cs = .ok (body, next) → '\\' ∉ body →
      Text.Quoted.decode? body = some body) ∧
    ∀ cs, Reader.text .copying maxDepth cs = parse cs := by
  refine ⟨fun body s h => ?spelled, fun cs t h span s hn => ?read, Cursor.closingQuote_bytes,
    fun o cs body next h hb => ?plain, fun cs => ?copied⟩
  case spelled =>
    have hvalue : Grammar.Value .standard ('"' :: (body ++ ['"'])) 0
        (.string ⟨0, byteLength ('"' :: (body ++ ['"']))⟩ s) := .string (.mk h)
    rw [Text.byteLength_quoted] at hvalue
    exact parse_value hvalue (by simp [Node.openings])
  case read =>
    obtain ⟨before, body, after, hcs, hspan, hspells⟩ := exists_quoted h hn
    exact ⟨before, body, after, hcs, hspan, hspells, Text.Quoted.closes hspells.body⟩
  case plain =>
    exact Text.Quoted.decode?_of_spells
      (Text.Quoted.spells_self (Cursor.body_of_takeBody h).1 hb)
  case copied => exact Reader.text_congr (fun _ => Literals.string?_copying) rfl maxDepth cs

/-- An escaped backslash, an escaped quote, and a character above U+FFFF by its surrogates. -/
theorem parse_string_exact_escapes :
    let body := "\\\\\\\"\\uD834\\udd1e".toList
    let text := '"' :: (body ++ ['"'])
    Spells body "\\\"𝄞".toList ∧ parse text = .ok (.string ⟨0, 18⟩ "\\\"𝄞") ∧
      ∃ before body' after, text = before ++ '"' :: (body' ++ '"' :: after) ∧
        Spells body' "\\\"𝄞".toList ∧ Closes body' := by
  intro body text
  have hdecode : Text.Quoted.decode? body = some "\\\"𝄞".toList := by
    subst body
    simp only [String.reduceToList]
    decide
  have hspells := Text.Quoted.decode?_eq_some_iff.mp hdecode
  have hlength : byteLength body + 2 = 18 := by
    subst body
    decide
  have hparse := parse_string_exact.1 body _ hspells
  rw [hlength] at hparse
  obtain ⟨before, body', after, htext, -, hbody, hcloses⟩ :=
    parse_string_exact.2.1 text _ hparse _ _ (List.mem_singleton_self _)
  exact ⟨hspells, hparse, before, body', after, htext, hbody, hcloses⟩

end Tree

end JsonNav
