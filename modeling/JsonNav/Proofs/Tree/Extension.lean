import JsonNav.Proofs.Tree.Completeness
import JsonNav.Tree.Walk

/-! How the reading of a text goes on when the text does.  `Settles` relates what is yielded at a
cursor to what is yielded there when more text follows: a value that ends before the text does
stays, and so does an error, unless the text ended too early or within a number. -/

namespace JsonNav

open Text (byteLength)

variable {α β σ ν : Type}

namespace Cursor

/-- The same place when the text goes on with `s`. -/
def extend (c : Cursor) (s : List Char) : Cursor :=
  ⟨c.offset, c.rest ++ s⟩

/-- Where the text ends. -/
def finish (c : Cursor) : Nat :=
  c.offset + byteLength c.rest

theorem Passes.finish {c next : Cursor} {cs : List Char} (h : c.Passes cs next) :
    next.finish = c.finish := by
  rw [Cursor.finish, Cursor.finish, h.rest, h.offset, Text.byteLength_append, Nat.add_assoc]

theorem skipBlanks_extend {c : Cursor} (h : c.skipBlanks.rest ≠ []) (s : List Char) :
    (c.extend s).skipBlanks = c.skipBlanks.extend s := by
  obtain ⟨ws, hws, hpass, hno⟩ := c.exists_skipBlanks
  obtain ⟨d, ds, hd⟩ := List.exists_cons_of_ne_nil h
  have hextend : c.extend s = ⟨c.offset, ws ++ (c.skipBlanks.rest ++ s)⟩ := by
    rw [extend, hpass.rest, List.append_assoc]
  have hnoMore : NoBlank (c.skipBlanks.rest ++ s) := by
    rw [hd] at hno ⊢
    exact hno
  rw [hextend, skipBlanks_append c.offset hws hnoMore, extend, hpass.offset]

theorem skipBlanks_extend_of_cons {c : Cursor} {d : Char} {ds : List Char}
    (h : c.skipBlanks.rest = d :: ds) (s : List Char) :
    (c.extend s).skipBlanks = ⟨c.skipBlanks.offset, d :: (ds ++ s)⟩ := by
  rw [skipBlanks_extend (by simp [h]), extend, h, List.cons_append]

/-- The end of a body stays where it is, and so does a mistake in it. -/
theorem takeBody_extend {o : Nat} {cs body : List Char} {next : Cursor}
    (h : takeBody o cs = .ok (body, next)) (s : List Char) :
    takeBody o (cs ++ s) = .ok (body, next.extend s) := by
  obtain ⟨hbody, hpass⟩ := body_of_takeBody h
  obtain rfl : cs = body ++ ['"'] ++ next.rest := hpass.rest
  rw [List.append_assoc, List.append_assoc, List.singleton_append, takeBody_append hbody, extend,
    hpass.offset]
  simp [Nat.add_assoc, show '"'.utf8Size = 1 from rfl]

theorem takeBody_extend_error {o : Nat} {cs : List Char} {e : ParseError}
    (h : takeBody o cs = .error e) :
    e = .unfinished ∨ ∀ s, takeBody o (cs ++ s) = .error e := by
  fun_induction takeBody o cs with
  | case1 | case3 =>
    exact .inl (Except.error.inj h).symm
  | case2 => cases h
  | case4 o c cs ih =>
    have hr : takeBody (o + 1 + c.utf8Size) cs = .error e := by
      rcases bind_eq_error_iff.mp h with h | ⟨_, -, h⟩
      · exact h
      · cases h
    rcases ih hr with h | h
    · exact .inl h
    · refine .inr fun s => ?_
      rw [List.cons_append, List.cons_append, takeBody_of_escape, h s]
      rfl
  | case5 o c cs hq hb₁ hb₂ hc =>
    refine .inr fun s => ?_
    rw [List.cons_append, takeBody_of_char o hq (ne_backslash hb₁ hb₂), if_pos hc]
    exact h
  | case6 o c cs hq hb₁ hb₂ hc ih =>
    have hr : takeBody (o + c.utf8Size) cs = .error e := by
      rcases bind_eq_error_iff.mp h with h | ⟨_, -, h⟩
      · exact h
      · cases h
    rcases ih hr with h | h
    · exact .inl h
    · refine .inr fun s => ?_
      rw [List.cons_append, takeBody_of_char o hq (ne_backslash hb₁ hb₂), if_neg hc, h s]
      rfl

end Cursor

/-- An error that more text may mend: the text ended, or it ended within what begins as a number. -/
def Open (c : Cursor) (e : ParseError) : Prop :=
  e = .unfinished ∨ ∃ cs next, c.Passes cs next ∧ e = .malformedNumber next.offset ∧
    ∀ d ∈ next.rest, Numeral.IsPart d

/-- One of the nodes is a number that begins at `o` and that the byte offset `stop` cuts in two. -/
def CutAt (stop o : Nat) (ns : List (Node σ ν)) : Prop :=
  ∃ span x, Node.number span x ∈ ns ∧ span.offset = o ∧ o < stop ∧ stop < span.stop

/-- `x` is yielded at `c`, and `y s` when the text goes on with `s`. -/
structure Settles (c : Cursor) (nodes : α → List (Node σ ν)) (x : Except ParseError (α × Cursor))
    (y : List Char → Except ParseError (α × Cursor)) : Prop where
  passes : ∀ {a next}, x = .ok (a, next) → ∃ cs, c.Passes cs next
  ok : ∀ {a next}, x = .ok (a, next) → next.rest ≠ [] → ∀ s, y s = .ok (a, next.extend s)
  error : ∀ {e}, x = .error e → Open c e ∨ ∀ s, y s = .error e
  cut : ∀ {o s a next}, x = .error (.malformedNumber o) → y s = .ok (a, next) →
    CutAt c.finish o (nodes a)

theorem Open.after {c mid : Cursor} {cs : List Char} {e : ParseError} (hpass : c.Passes cs mid)
    (h : Open mid e) : Open c e := by
  rcases h with h | ⟨ds, next, hnext, h⟩
  · exact .inl h
  · exact .inr ⟨cs ++ ds, next, hpass.trans hnext, h⟩

theorem CutAt.mono {stop o : Nat} {ns ms : List (Node σ ν)} (h : CutAt stop o ns) (hsub : ns ⊆ ms) :
    CutAt stop o ms := by
  obtain ⟨span, x, hmem, hspan⟩ := h
  exact ⟨span, x, hsub hmem, hspan⟩

namespace Settles

variable {c : Cursor} {nodes : α → List (Node σ ν)} {nodes' : β → List (Node σ ν)}
  {x : Except ParseError (α × Cursor)} {y : List Char → Except ParseError (α × Cursor)}

theorem unfinished : Settles c nodes (.error .unfinished) y where
  passes h := nomatch h
  ok h := nomatch h
  error h := .inl (.inl (Except.error.inj h).symm)
  cut h := nomatch h

theorem final {e : ParseError} (hy : ∀ s, y s = .error e) : Settles c nodes (.error e) y where
  passes h := nomatch h
  ok h := nomatch h
  error h := by
    obtain rfl := Except.error.inj h
    exact .inr hy
  cut _ h := by
    rw [hy] at h
    exact nomatch h

theorem value {a : α} {cs : List Char} {next : Cursor} (hpass : c.Passes cs next)
    (hy : ∀ s, y s = .ok (a, next.extend s)) : Settles c nodes (.ok (a, next)) y where
  passes h := by
    obtain ⟨rfl, rfl⟩ := Prod.mk.inj (Except.ok.inj h)
    exact ⟨cs, hpass⟩
  ok h _ := by
    obtain ⟨rfl, rfl⟩ := Prod.mk.inj (Except.ok.inj h)
    exact hy
  error h := nomatch h
  cut h := nomatch h

/-- What is passed over first may be left out. -/
theorem after {mid : Cursor} {cs : List Char} (hpass : c.Passes cs mid)
    (h : Settles mid nodes x y) :
    Settles c nodes x y where
  passes hx := by
    obtain ⟨ds, hnext⟩ := h.passes hx
    exact ⟨cs ++ ds, hpass.trans hnext⟩
  ok := h.ok
  error hx := (h.error hx).imp_left (Open.after hpass)
  cut hx hy := hpass.finish ▸ h.cut hx hy

/-- Two steps settle when each does, if the second needs some text to be left. -/
theorem bind {f : α × Cursor → Except ParseError (β × Cursor)} (hx : Settles c nodes x y)
    (hempty : ∀ a next, next.rest = [] → f (a, next) = .error .unfinished)
    (hnext : ∀ a next cs, c.Passes cs next → next.rest ≠ [] →
      Settles next nodes' (f (a, next)) fun s => f (a, next.extend s))
    (hsub : ∀ {a next b last}, f (a, next) = .ok (b, last) → nodes a ⊆ nodes' b) :
    Settles c nodes' (x >>= f) fun s => y s >>= f where
  passes h := by
    obtain ⟨⟨a, next⟩, ha, h⟩ := bind_eq_ok_iff.mp h
    obtain ⟨cs, hpass⟩ := hx.passes ha
    by_cases hne : next.rest = []
    · rw [hempty a next hne] at h
      exact nomatch h
    · obtain ⟨ds, hlast⟩ := (hnext a next cs hpass hne).passes h
      exact ⟨cs ++ ds, hpass.trans hlast⟩
  ok h hlast s := by
    obtain ⟨⟨a, next⟩, ha, h⟩ := bind_eq_ok_iff.mp h
    obtain ⟨cs, hpass⟩ := hx.passes ha
    by_cases hne : next.rest = []
    · rw [hempty a next hne] at h
      exact nomatch h
    · rw [hx.ok ha hne s]
      exact (hnext a next cs hpass hne).ok h hlast s
  error h := by
    rcases bind_eq_error_iff.mp h with h | ⟨⟨a, next⟩, ha, h⟩
    · refine (hx.error h).imp_right fun hy s => ?_
      rw [hy s]
      rfl
    · obtain ⟨cs, hpass⟩ := hx.passes ha
      by_cases hne : next.rest = []
      · rw [hempty a next hne] at h
        exact .inl (.inl (Except.error.inj h).symm)
      · rcases (hnext a next cs hpass hne).error h with h | h
        · exact .inl (h.after hpass)
        · refine .inr fun s => ?_
          rw [hx.ok ha hne s]
          exact h s
  cut h hy := by
    obtain ⟨⟨a, next⟩, ha, hf⟩ := bind_eq_ok_iff.mp hy
    rcases bind_eq_error_iff.mp h with h | ⟨⟨a', next'⟩, ha', h⟩
    · exact (hx.cut h ha).mono (hsub hf)
    · obtain ⟨cs, hpass⟩ := hx.passes ha'
      by_cases hne : next'.rest = []
      · rw [hempty a' next' hne] at h
        exact nomatch h
      · rw [hx.ok ha' hne] at ha
        obtain ⟨rfl, rfl⟩ := Prod.mk.inj (Except.ok.inj ha)
        rw [← hpass.finish]
        exact (hnext a' next' cs hpass hne).cut h hf

/-- What is made of a value settles when the value does. -/
theorem map {g : α → Nat → β} (hx : Settles c nodes x y)
    (hsub : ∀ a o, nodes a ⊆ nodes' (g a o)) :
    Settles c nodes' (x >>= fun r => .ok (g r.1 r.2.offset, r.2))
      fun s => y s >>= fun r => .ok (g r.1 r.2.offset, r.2) where
  passes h := by
    obtain ⟨⟨a, next⟩, ha, h⟩ := bind_eq_ok_iff.mp h
    obtain ⟨rfl, rfl⟩ := Prod.mk.inj (Except.ok.inj h)
    exact hx.passes ha
  ok h hne s := by
    obtain ⟨⟨a, next⟩, ha, h⟩ := bind_eq_ok_iff.mp h
    obtain ⟨rfl, rfl⟩ := Prod.mk.inj (Except.ok.inj h)
    rw [hx.ok ha hne s]
    rfl
  error h := by
    rcases bind_eq_error_iff.mp h with h | ⟨_, -, h⟩
    · refine (hx.error h).imp_right fun hy s => ?_
      rw [hy s]
      rfl
    · exact nomatch h
  cut h hy := by
    obtain ⟨⟨a, next⟩, ha, hb⟩ := bind_eq_ok_iff.mp hy
    obtain ⟨rfl, rfl⟩ := Prod.mk.inj (Except.ok.inj hb)
    rcases bind_eq_error_iff.mp h with h | ⟨_, -, h⟩
    · exact (hx.cut h ha).mono (hsub a _)
    · exact nomatch h

end Settles

end JsonNav
