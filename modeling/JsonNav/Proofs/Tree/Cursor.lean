import JsonNav.Proofs.Tree.Grammar

/-! How cursors move.  A cursor passes over a text to another cursor when the text stands at the
first and the second is where the text ends.  `skipBlanks` passes over as many blanks as there are,
and `takeBody` over a string body and its closing quote. -/

namespace JsonNav

open Text (byteLength)

namespace Cursor

/-- From `c` one comes to `next` by passing over `cs`. -/
structure Passes (c : Cursor) (cs : List Char) (next : Cursor) : Prop where
  rest : c.rest = cs ++ next.rest
  offset : next.offset = c.offset + byteLength cs

theorem Passes.refl (c : Cursor) : c.Passes [] c :=
  ⟨rfl, rfl⟩

theorem Passes.trans {c c' c'' : Cursor} {cs ds : List Char} (h : c.Passes cs c')
    (h' : c'.Passes ds c'') : c.Passes (cs ++ ds) c'' := by
  constructor
  · rw [h.rest, h'.rest, List.append_assoc]
  · rw [h'.offset, h.offset, Text.byteLength_append, Nat.add_assoc]

theorem Passes.le {c c' : Cursor} {cs : List Char} (h : c.Passes cs c') : c.offset ≤ c'.offset := by
  rw [h.offset]
  exact Nat.le_add_right ..

theorem Passes.head {c : Cursor} {d : Char} {cs : List Char} (h : c.rest = d :: cs)
    (hd : d.utf8Size = 1) : c.Passes [d] ⟨c.offset + 1, cs⟩ :=
  ⟨h, by rw [Text.byteLength_cons, Text.byteLength_nil, hd]⟩

/-! ### Blanks -/

theorem isBlank_iff {c : Char} : isBlank c = true ↔ c ∈ [' ', '\t', '\n', '\r'] := by
  simp [isBlank, or_assoc]

theorem utf8Size_of_isBlank {c : Char} (h : isBlank c = true) : c.utf8Size = 1 := by
  rw [isBlank_iff] at h
  simp only [List.mem_cons, List.not_mem_nil, or_false] at h
  rcases h with rfl | rfl | rfl | rfl <;> rfl

/-- The next character, if there is one, is no blank. -/
def NoBlank (cs : List Char) : Prop :=
  ∀ c ∈ cs.head?, isBlank c = false

theorem noBlank_cons_iff {c : Char} {cs : List Char} : NoBlank (c :: cs) ↔ isBlank c = false := by
  simp [NoBlank]

theorem exists_afterBlanks (offset : Nat) (cs : List Char) :
    ∃ ws, Grammar.Blanks ws ∧ (⟨offset, cs⟩ : Cursor).Passes ws (afterBlanks offset cs) ∧
      NoBlank (afterBlanks offset cs).rest := by
  induction cs generalizing offset with
  | nil => exact ⟨[], by simp [Grammar.Blanks], .refl _, by simp [afterBlanks, NoBlank]⟩
  | cons c cs ih =>
    rw [afterBlanks]
    split
    next hc =>
      obtain ⟨ws, hws, hpass, hno⟩ := ih (offset + 1)
      refine ⟨c :: ws, ?_, ?_, hno⟩
      · rintro d (_ | ⟨_, hd⟩)
        · exact isBlank_iff.mp hc
        · exact hws d hd
      · exact (Passes.head rfl (utf8Size_of_isBlank hc)).trans hpass
    next hc =>
      exact ⟨[], by simp [Grammar.Blanks], .refl _, noBlank_cons_iff.mpr (by simpa using hc)⟩

/-- Skipping blanks passes over some blanks, and none comes next. -/
theorem exists_skipBlanks (c : Cursor) :
    ∃ ws, Grammar.Blanks ws ∧ c.Passes ws c.skipBlanks ∧ NoBlank c.skipBlanks.rest :=
  exists_afterBlanks c.offset c.rest

theorem skipBlanks_append {ws rest : List Char} (o : Nat) (hws : Grammar.Blanks ws)
    (hno : NoBlank rest) : skipBlanks ⟨o, ws ++ rest⟩ = ⟨o + byteLength ws, rest⟩ := by
  unfold skipBlanks
  induction ws generalizing o with
  | nil =>
    cases rest with
    | nil => rfl
    | cons c cs => simp [afterBlanks, noBlank_cons_iff.mp hno]
  | cons c ws ih =>
    have hc : isBlank c = true := isBlank_iff.mpr (hws c (List.mem_cons_self ..))
    have ih := ih (o + 1) fun d hd => hws d (List.mem_cons_of_mem _ hd)
    simp only [List.cons_append, afterBlanks, hc, if_true] at ih ⊢
    rw [ih, Text.byteLength_cons, utf8Size_of_isBlank hc, Nat.add_assoc]

theorem skipBlanks_skipBlanks (c : Cursor) : c.skipBlanks.skipBlanks = c.skipBlanks := by
  obtain ⟨ws, -, -, hno⟩ := c.exists_skipBlanks
  simpa using skipBlanks_append c.skipBlanks.offset Grammar.blanks_nil hno

/-! ### String bodies -/

/-- A text without a quote or a control character, except after a backslash. -/
inductive Body : List Char → Prop
  | nil : Body []
  | char {c : Char} {cs : List Char} : c ≠ '"' → c ≠ '\\' → Text.Quoted.isControl c = false →
      Body cs → Body (c :: cs)
  | escape {c : Char} {cs : List Char} : Body cs → Body ('\\' :: c :: cs)

theorem takeBody_of_char {c : Char} {cs : List Char} (o : Nat) (hq : c ≠ '"') (hb : c ≠ '\\') :
    takeBody o (c :: cs) =
      if Text.Quoted.isControl c then .error (.malformedString o)
      else (takeBody (o + c.utf8Size) cs).map fun r => (c :: r.1, r.2) := by
  rw [takeBody]
  · split
    · rfl
    · cases takeBody (o + c.utf8Size) cs <;> rfl
  · exact fun h => hq h
  · exact fun h _ => hb h
  · exact fun d ds h _ => hb h

theorem takeBody_of_escape {c : Char} {cs : List Char} (o : Nat) :
    takeBody o ('\\' :: c :: cs) =
      (takeBody (o + 1 + c.utf8Size) cs).map fun r => ('\\' :: c :: r.1, r.2) := by
  rw [takeBody]
  cases takeBody (o + 1 + c.utf8Size) cs <;> rfl

/-- A character that begins no escape, as the cases of `takeBody` put it, is no backslash. -/
theorem ne_backslash {c : Char} {cs : List Char} (hnil : c = '\\' → cs = [] → False)
    (hcons : ∀ d ds, c = '\\' → cs = d :: ds → False) : c ≠ '\\' := by
  rintro rfl
  cases cs with
  | nil => exact hnil rfl rfl
  | cons d ds => exact hcons d ds rfl rfl

theorem takeBody_append {body : List Char} (h : Body body) (o : Nat) (rest : List Char) :
    takeBody o (body ++ '"' :: rest) = .ok (body, ⟨o + byteLength body + 1, rest⟩) := by
  induction h generalizing o with
  | nil => rfl
  | char hq hb hc _ ih =>
    rw [List.cons_append, takeBody_of_char o hq hb, hc, if_neg (by simp), ih]
    simp [Except.map, Nat.add_assoc]
  | escape _ ih =>
    rw [List.cons_append, List.cons_append, takeBody_of_escape, ih]
    simp [Except.map, Nat.add_assoc]
    rfl

theorem body_of_takeBody {o : Nat} {cs body : List Char} {next : Cursor}
    (h : takeBody o cs = .ok (body, next)) :
    Body body ∧ (⟨o, cs⟩ : Cursor).Passes (body ++ ['"']) next := by
  fun_induction takeBody o cs generalizing body next with
  | case1 | case3 | case5 => cases h
  | case2 o cs =>
    obtain ⟨rfl, rfl⟩ := Prod.mk.inj (Except.ok.inj h)
    exact ⟨.nil, .head rfl rfl⟩
  | case4 o c cs ih =>
    cases hr : takeBody (o + 1 + c.utf8Size) cs with
    | error e => rw [hr] at h; cases h
    | ok r =>
      rw [hr] at h
      obtain ⟨rfl, rfl⟩ := Prod.mk.inj (Except.ok.inj h)
      obtain ⟨hbody, hpass⟩ := ih hr
      refine ⟨.escape hbody, ⟨?_, ?_⟩⟩
      · simpa using hpass.rest
      · rw [hpass.offset]
        simp [show '\\'.utf8Size = 1 from rfl, Nat.add_assoc]
  | case6 o c cs hq hb₁ hb₂ hc ih =>
    cases hr : takeBody (o + c.utf8Size) cs with
    | error e => rw [hr] at h; cases h
    | ok r =>
      rw [hr] at h
      obtain ⟨rfl, rfl⟩ := Prod.mk.inj (Except.ok.inj h)
      obtain ⟨hbody, hpass⟩ := ih hr
      refine ⟨.char hq (ne_backslash hb₁ hb₂) (by simpa using hc) hbody, ⟨?_, ?_⟩⟩
      · simpa using hpass.rest
      · rw [hpass.offset]
        simp [Nat.add_assoc]

/-- What can be wrong with a body is that it does not end, or a control character in it. -/
theorem malformed_of_takeBody {o : Nat} {cs : List Char} {e : ParseError}
    (h : takeBody o cs = .error e) :
    e = .unfinished ∨ ∃ before c after, cs = before ++ c :: after ∧
      Text.Quoted.isControl c = true ∧ e = .malformedString (o + byteLength before) := by
  fun_induction takeBody o cs with
  | case1 | case3 => exact .inl (Except.error.inj h).symm
  | case2 => cases h
  | case4 o c cs ih =>
    cases hr : takeBody (o + 1 + c.utf8Size) cs with
    | ok r =>
      rw [hr] at h
      cases h
    | error e' =>
      rw [hr] at h
      obtain rfl := Except.error.inj h
      refine (ih hr).imp_right ?_
      rintro ⟨before, d, after, rfl, hd, rfl⟩
      refine ⟨'\\' :: c :: before, d, after, rfl, hd, ?_⟩
      simp [show '\\'.utf8Size = 1 from rfl, Nat.add_assoc]
  | case5 o c cs _ _ _ hc =>
    obtain rfl := Except.error.inj h
    exact .inr ⟨[], c, cs, rfl, hc, by simp⟩
  | case6 o c cs _ _ _ _ ih =>
    cases hr : takeBody (o + c.utf8Size) cs with
    | ok r =>
      rw [hr] at h
      cases h
    | error e' =>
      rw [hr] at h
      obtain rfl := Except.error.inj h
      refine (ih hr).imp_right ?_
      rintro ⟨before, d, after, rfl, hd, rfl⟩
      exact ⟨c :: before, d, after, rfl, hd, by simp [Nat.add_assoc]⟩

end Cursor

end JsonNav
