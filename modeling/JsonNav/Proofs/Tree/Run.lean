import JsonNav.Tree.Reader

/-! What readers yield.  `Reader.run` leaves out the proof that a step moves on, so each reader has
an equation that says what it yields at a cursor in terms of what its parts yield. -/

namespace JsonNav

open Text (byteLength)

variable {α β σ ν : Type}

theorem bind_eq_ok_iff {ε : Type} {x : Except ε α} {f : α → Except ε β} {b : β} :
    x >>= f = .ok b ↔ ∃ a, x = .ok a ∧ f a = .ok b := by
  cases x with
  | error e => simp [bind, Except.bind]
  | ok a => simp [bind, Except.bind]

theorem bind_eq_error_iff {ε : Type} {x : Except ε α} {f : α → Except ε β} {e : ε} :
    x >>= f = .error e ↔ x = .error e ∨ ∃ a, x = .ok a ∧ f a = .error e := by
  cases x with
  | error e => simp [bind, Except.bind]
  | ok a => simp [bind, Except.bind]

namespace Reader

/-- What a reader yields at a cursor: the value and the cursor after it, or the cause of a refusal.
-/
def run (r : Reader α) (c : Cursor) : Except ParseError (α × Cursor) :=
  (r c).map fun s => (s.value, s.next)

theorem length_lt_of_run {r : Reader α} {c next : Cursor} {a : α} (h : r.run c = .ok (a, next)) :
    next.rest.length < c.rest.length := by
  unfold run at h
  cases hr : r c with
  | error e => rw [hr] at h; cases h
  | ok s =>
    rw [hr] at h
    obtain ⟨-, rfl⟩ := Prod.mk.inj (Except.ok.inj h)
    exact s.shorter

theorem run_string (l : Literals σ ν) (c : Cursor) :
    (string l).run c =
      match c.rest with
      | [] => .error .unfinished
      | '"' :: cs => do
        let r ← Cursor.takeBody (c.offset + 1) cs
        match l.string? r.1 with
        | none => .error (.malformedString c.offset)
        | some x => return (.string (spanned c r.2) x, r.2)
      | _ => .error (.misplaced c.offset) := by
  unfold run string
  split
  next hc =>
    conv => rhs; rw [hc]
    rfl
  next cs hc =>
    conv => rhs; rw [hc]
    simp only
    split
    next e hb =>
      conv => rhs; rw [hb]
      rfl
    next body next hb =>
      conv => rhs; rw [hb]
      simp only [bind, Except.bind]
      cases l.string? body with
      | none => rfl
      | some x => rfl
  next h₁ h₂ =>
    split
    next hc => exact absurd hc h₁
    next hc => exact absurd hc (h₂ _)
    next => rfl

theorem run_number (l : Literals σ ν) (c : Cursor) :
    (number l).run c =
      match Numeral.scan? c.rest with
      | none => .error (.malformedNumber c.offset)
      | some (n, rest) =>
        let next : Cursor := ⟨c.offset + byteLength n.text, rest⟩
        .ok (.number (spanned c next) (l.number n), next) := by
  unfold run number
  split
  next hn =>
    conv => rhs; rw [hn]
    rfl
  next n rest hn =>
    conv => rhs; rw [hn]
    rfl

theorem run_word (w : List Char) (hw : w ≠ []) (node : Span → Node σ ν) (c : Cursor) :
    (word w hw node).run c =
      if byteLength (c.rest.take w.length) < byteLength w then .error .unfinished
      else if w <+: c.rest then
        let next : Cursor := ⟨c.offset + byteLength w, c.rest.drop w.length⟩
        .ok (node (spanned c next), next)
      else .error (.misplaced c.offset) := by
  unfold run word
  split
  · rfl
  · split <;> rfl

theorem run_items (item : Reader α) (close : Char) (c : Cursor) :
    run (items item close) c =
      match c.skipBlanks.rest with
      | [] => .error .unfinished
      | d :: cs =>
        if d = close then .ok ([], ⟨c.skipBlanks.offset + 1, cs⟩)
        else if d = ',' then do
          let r ← item.run ⟨c.skipBlanks.offset + 1, cs⟩
          let s ← run (items item close) r.2
          return (r.1 :: s.1, s.2)
        else .error (.misplaced c.skipBlanks.offset) := by
  rw [run, items]
  split
  next hc =>
    conv => rhs; rw [hc]
    rfl
  next d cs hc =>
    conv => rhs; rw [hc]
    simp only
    split
    next => rfl
    next =>
      split
      next =>
        simp only [run]
        cases item ⟨c.skipBlanks.offset + 1, cs⟩ with
        | error e => rfl
        | ok first =>
          simp only [Except.map, bind, Except.bind]
          cases items item close first.next with
          | error e => rfl
          | ok others => rfl
      next => rfl

theorem run_contents (item : Reader α) (close : Char) (c : Cursor) :
    (contents item close).run c =
      match c.skipBlanks.rest with
      | [] => .error .unfinished
      | d :: cs =>
        if d = close then .ok ([], ⟨c.skipBlanks.offset + 1, cs⟩)
        else do
          let r ← item.run c
          let s ← run (items item close) r.2
          return (r.1 :: s.1, s.2) := by
  rw [run, contents]
  split
  next hc =>
    conv => rhs; rw [hc]
    rfl
  next d cs hc =>
    conv => rhs; rw [hc]
    simp only
    split
    next => rfl
    next =>
      simp only [run]
      cases item c with
      | error e => rfl
      | ok first =>
        simp only [Except.map, bind, Except.bind]
        cases items item close first.next with
        | error e => rfl
        | ok others => rfl

theorem run_container (item : Reader (Node σ ν)) (close : Char)
    (node : Span → List (Node σ ν) → Node σ ν) (c : Cursor) :
    (container item close node).run c =
      match c.rest with
      | [] => .error .unfinished
      | _ :: cs => do
        let r ← (contents item close).run ⟨c.offset + 1, cs⟩
        return (node (spanned c r.2) r.1, r.2) := by
  unfold run container
  split
  next hc =>
    conv => rhs; rw [hc]
    rfl
  next d cs hc =>
    conv => rhs; rw [hc]
    simp only
    cases contents item close ⟨c.offset + 1, cs⟩ with
    | error e => rfl
    | ok all => rfl

theorem run_property (l : Literals σ ν) (value : Reader (Node σ ν)) (c : Cursor) :
    (property l value).run c = ((string l).run c.skipBlanks >>= fun k =>
      match k.2.skipBlanks.rest with
      | [] => .error .unfinished
      | ':' :: cs => do
        let v ← value.run ⟨k.2.skipBlanks.offset + 1, cs⟩
        return (.property ⟨k.1.offset, v.1.stop - k.1.offset⟩ k.1 v.1, v.2)
      | _ => .error (.misplaced k.2.skipBlanks.offset)) := by
  conv => lhs; unfold run property
  cases hs : string l c.skipBlanks with
  | error e =>
    have : (string l).run c.skipBlanks = .error e := by rw [run, hs]; rfl
    rw [this]
    rfl
  | ok key =>
    have : (string l).run c.skipBlanks = .ok (key.value, key.next) := by rw [run, hs]; rfl
    rw [this]
    simp only [bind, Except.bind]
    split
    next hk =>
      conv => rhs; rw [hk]
      rfl
    next cs hk =>
      conv => rhs; rw [hk]
      simp only [run]
      cases value ⟨key.next.skipBlanks.offset + 1, cs⟩ with
      | error e => rfl
      | ok v => rfl
    next h₁ h₂ =>
      split
      next hk => exact absurd hk h₁
      next hk => exact absurd hk (h₂ _)
      next => rfl

/-- A value is what begins after the blanks. -/
theorem run_valueWith (l : Literals σ ν) (nested : Option (Reader (Node σ ν))) (c : Cursor) :
    (valueWith l nested).run c = (start l nested).run c.skipBlanks := by
  unfold run valueWith
  cases start l nested c.skipBlanks <;> rfl

theorem run_start (l : Literals σ ν) (nested : Option (Reader (Node σ ν))) (c : Cursor) :
    (start l nested).run c =
      match c.rest with
      | [] => .error .unfinished
      | '"' :: _ => (string l).run c
      | '{' :: _ =>
        match nested with
        | none => .error (.tooDeep c.offset)
        | some value => (container (property l value) '}' .object).run c
      | '[' :: _ =>
        match nested with
        | none => .error (.tooDeep c.offset)
        | some value => (container value ']' .array).run c
      | 't' :: _ => (word ['t', 'r', 'u', 'e'] (by decide) (.boolean · true)).run c
      | 'f' :: _ => (word ['f', 'a', 'l', 's', 'e'] (by decide) (.boolean · false)).run c
      | 'n' :: _ => (word ['n', 'u', 'l', 'l'] (by decide) .null).run c
      | d :: _ =>
        if d = '-' ∨ (Digit.ofChar? d).isSome then (number l).run c
        else .error (.misplaced c.offset) := by
  obtain ⟨o, rest⟩ := c
  unfold run start
  simp only
  split
  case h_3 =>
    cases nested with
    | none => rfl
    | some value => rfl
  case h_4 =>
    cases nested with
    | none => rfl
    | some value => rfl
  case h_8 d _ _ _ _ _ _ _ =>
    by_cases hd : d = '-' ∨ (Digit.ofChar? d).isSome
    · simp only [if_pos hd]
    · simp only [if_neg hd]
      rfl
  all_goals rfl

/-- What begins with none of the characters that begin other values is a number, or misplaced. -/
theorem run_start_other {l : Literals σ ν} {nested : Option (Reader (Node σ ν))} {c : Cursor}
    {d : Char} {cs : List Char} (hd : c.rest = d :: cs) (h : d ∉ ['"', '{', '[', 't', 'f', 'n']) :
    (start l nested).run c =
      if d = '-' ∨ (Digit.ofChar? d).isSome then (number l).run c
      else .error (.misplaced c.offset) := by
  rw [run_start, hd]
  split
  case h_1 heq => cases heq
  case h_8 heq =>
    obtain ⟨rfl, -⟩ := List.cons.inj heq
    rfl
  all_goals
    next heq =>
      rw [(List.cons.inj heq).1] at h
      exact absurd (by simp) h

theorem text_eq (l : Literals σ ν) (depth : Nat) (cs : List Char) :
    text l depth cs = ((value l depth).run (.ofText cs) >>= fun r =>
      match r.2.skipBlanks.rest with
      | [] => .ok r.1
      | _ :: _ => .error (.trailing r.2.skipBlanks.offset)) := by
  unfold text run
  cases value l depth (Cursor.ofText cs) with
  | error e => rfl
  | ok root =>
    simp only [Except.map, bind, Except.bind]
    cases root.next.skipBlanks with
    | mk offset rest => cases rest <;> rfl

end Reader

end JsonNav
