import JsonNav.Proofs.Tree.Cursor
import JsonNav.Proofs.Tree.Run
import JsonNav.Proofs.Tree.Shift

/-! Readers at other offsets.  What is read depends on the text that is left and not on the offset
that has been reached: `d` bytes further on the same tree is read with its spans `d` bytes further
on, and the same mistake is found `d` bytes further on. -/

namespace JsonNav

open Text (byteLength)
open Grammar (Blanks)

variable {α β σ ν : Type}

/-- The same mistake `d` bytes further on. -/
def ParseError.shift (d : Nat) : ParseError → ParseError
  | unfinished => unfinished
  | misplaced o => misplaced (o + d)
  | malformedNumber o => malformedNumber (o + d)
  | malformedString o => malformedString (o + d)
  | trailing o => trailing (o + d)
  | tooDeep o => tooDeep (o + d)

/-- What is yielded for the same text `d` bytes further on. -/
def shifted (d : Nat) (move : α → α) :
    Except ParseError (α × Cursor) → Except ParseError (α × Cursor)
  | .error e => .error (e.shift d)
  | .ok (a, next) => .ok (move a, ⟨next.offset + d, next.rest⟩)

theorem shifted_bind {d : Nat} {f : α → α} {g : β → β} {x y : Except ParseError (α × Cursor)}
    {k l : α × Cursor → Except ParseError (β × Cursor)} (hxy : y = shifted d f x)
    (hkl : ∀ a o rest, x = .ok (a, ⟨o, rest⟩) →
      l (f a, ⟨o + d, rest⟩) = shifted d g (k (a, ⟨o, rest⟩))) :
    y >>= l = shifted d g (x >>= k) := by
  rw [hxy]
  cases x with
  | error e => rfl
  | ok r => exact hkl r.1 r.2.offset r.2.rest rfl

namespace Cursor

theorem skipBlanks_shift (o d : Nat) (cs : List Char) :
    skipBlanks ⟨o + d, cs⟩ = ⟨(skipBlanks ⟨o, cs⟩).offset + d, (skipBlanks ⟨o, cs⟩).rest⟩ := by
  unfold skipBlanks
  induction cs generalizing o with
  | nil => rfl
  | cons c cs ih =>
    simp only [afterBlanks]
    split
    · rw [Nat.add_right_comm]
      exact ih (o + 1)
    · rfl

/-- Blanks before a place are passed over with the blanks after it. -/
theorem skipBlanks_append_blanks (o : Nat) {ws : List Char} (hws : Blanks ws) (cs : List Char) :
    skipBlanks ⟨o, ws ++ cs⟩ = skipBlanks ⟨o + byteLength ws, cs⟩ := by
  obtain ⟨ws', hws', hpass, hno⟩ := exists_skipBlanks ⟨o + byteLength ws, cs⟩
  obtain ⟨hrest, hoffset⟩ := hpass
  simp only at hrest hoffset
  conv => lhs; rw [hrest, ← List.append_assoc, skipBlanks_append o (hws.append hws') hno]
  rw [Text.byteLength_append, ← Nat.add_assoc, ← hoffset]

theorem takeBody_shift (o d : Nat) (cs : List Char) :
    takeBody (o + d) cs = shifted d id (takeBody o cs) := by
  fun_induction takeBody o cs with
  | case1 => rfl
  | case2 o cs => rw [takeBody, Nat.add_right_comm]; rfl
  | case3 => rfl
  | case4 o c cs ih =>
    rw [takeBody_of_escape, Nat.add_right_comm o, Nat.add_right_comm (o + 1), ih]
    cases takeBody (o + 1 + c.utf8Size) cs <;> rfl
  | case5 o c cs hq hb₁ hb₂ hc =>
    rw [takeBody_of_char _ hq (ne_backslash hb₁ hb₂), if_pos hc]
    rfl
  | case6 o c cs hq hb₁ hb₂ hc ih =>
    rw [takeBody_of_char _ hq (ne_backslash hb₁ hb₂), if_neg hc, Nat.add_right_comm, ih]
    cases takeBody (o + c.utf8Size) cs <;> rfl

end Cursor

namespace Reader

/-- The reader yields the same `d` bytes further on, moved along. -/
def Steady (r : Reader α) (move : Nat → α → α) : Prop :=
  ∀ o d cs, r.run ⟨o + d, cs⟩ = shifted d (move d) (r.run ⟨o, cs⟩)

variable {l : Literals σ ν} {item : Reader (Node σ ν)} {close : Char}

theorem spanned_shift (o o' d : Nat) (cs cs' : List Char) :
    spanned ⟨o + d, cs⟩ ⟨o' + d, cs'⟩ = (spanned ⟨o, cs⟩ ⟨o', cs'⟩).shift d := by
  simp only [spanned, Span.shift, Nat.add_sub_add_right]

theorem steady_string (l : Literals σ ν) : Steady (string l) Node.shift := by
  intro o d cs
  rw [run_string, run_string]
  simp only
  split
  next => rfl
  next cs =>
    refine shifted_bind (f := id) ?_ ?_
    · rw [Nat.add_right_comm]
      exact Cursor.takeBody_shift ..
    · intro body o' rest _
      simp only [id]
      cases l.string? body with
      | none => rfl
      | some x =>
        rw [spanned_shift]
        rfl
  next => rfl

theorem steady_number (l : Literals σ ν) : Steady (number l) Node.shift := by
  intro o d cs
  rw [run_number, run_number]
  simp only
  cases Numeral.scan? cs with
  | none => rfl
  | some r =>
    simp only
    rw [Nat.add_right_comm, spanned_shift]
    rfl

theorem steady_word (w : List Char) (hw : w ≠ []) {node : Span → Node σ ν}
    (hnode : ∀ d s, (node s).shift d = node (s.shift d)) : Steady (word w hw node) Node.shift := by
  intro o d cs
  rw [run_word, run_word]
  simp only
  split
  · rfl
  · split
    · rw [Nat.add_right_comm, spanned_shift, ← hnode]
      rfl
    · rfl

theorem steady_items (hitem : Steady item Node.shift) :
    Steady (items item close) Node.shiftAll := by
  intro o d cs
  -- Each item leaves less of the text, so the induction is on the length of what is left.
  induction hlen : cs.length using Nat.strongRecOn generalizing o cs with
  | ind len ih =>
    have hle := Cursor.length_rest_skipBlanks_le ⟨o, cs⟩
    rw [run_items, run_items, Cursor.skipBlanks_shift]
    cases hc : (Cursor.skipBlanks ⟨o, cs⟩).rest with
    | nil => rfl
    | cons c rest =>
      rw [hc, List.length_cons] at hle
      simp only
      split
      · rw [Nat.add_right_comm]
        rfl
      · split
        · refine shifted_bind (f := Node.shift d) ?_ ?_
          · rw [Nat.add_right_comm]
            exact hitem ..
          · intro n o' rest' hn
            have hlt := length_lt_of_run hn
            simp only at hlt hle ⊢
            exact shifted_bind (ih rest'.length (by omega) o' rest' rfl) fun _ _ _ _ => rfl
        · rfl

theorem steady_contents (hitem : Steady item Node.shift) :
    Steady (contents item close) Node.shiftAll := by
  intro o d cs
  rw [run_contents, run_contents, Cursor.skipBlanks_shift]
  cases hc : (Cursor.skipBlanks ⟨o, cs⟩).rest with
  | nil => rfl
  | cons c rest =>
    simp only
    split
    · rw [Nat.add_right_comm]
      rfl
    · exact shifted_bind (hitem ..) fun _ _ _ _ =>
        shifted_bind (steady_items hitem ..) fun _ _ _ _ => rfl

theorem steady_container (hitem : Steady item Node.shift)
    {node : Span → List (Node σ ν) → Node σ ν}
    (hnode : ∀ d s ns, (node s ns).shift d = node (s.shift d) (Node.shiftAll d ns)) :
    Steady (container item close node) Node.shift := by
  intro o d cs
  rw [run_container, run_container]
  cases cs with
  | nil => rfl
  | cons c cs =>
    refine shifted_bind (f := Node.shiftAll d) ?_ ?_
    · rw [Nat.add_right_comm]
      exact steady_contents hitem ..
    · intro ns o' rest _
      simp only
      rw [spanned_shift, ← hnode]
      rfl

theorem steady_property (hvalue : Steady item Node.shift) :
    Steady (property l item) Node.shift := by
  intro o d cs
  rw [run_property, run_property, Cursor.skipBlanks_shift]
  refine shifted_bind (steady_string l ..) ?_
  intro k o' rest _
  simp only [Cursor.skipBlanks_shift]
  split
  next => rfl
  next cs' hc =>
    refine shifted_bind (f := Node.shift d) ?_ ?_
    · rw [Nat.add_right_comm]
      exact hvalue ..
    · intro v o₂ rest₂ _
      simp only
      rw [Node.offset_shift, Node.stop_shift, Nat.add_sub_add_right]
      rfl
  next => rfl

theorem steady_start {nested : Option (Reader (Node σ ν))}
    (hnested : ∀ value ∈ nested, Steady value Node.shift) :
    Steady (start l nested) Node.shift := by
  intro o d cs
  rw [run_start, run_start]
  simp only
  split
  case h_1 => rfl
  case h_2 => exact steady_string l ..
  case h_3 =>
    cases nested with
    | none => rfl
    | some value =>
      exact steady_container (steady_property (hnested value rfl)) Node.shift_object ..
  case h_4 =>
    cases nested with
    | none => rfl
    | some value => exact steady_container (hnested value rfl) Node.shift_array ..
  case h_5 => exact steady_word _ _ (fun _ _ => rfl) ..
  case h_6 => exact steady_word _ _ (fun _ _ => rfl) ..
  case h_7 => exact steady_word _ _ (fun _ _ => rfl) ..
  case h_8 =>
    split
    · exact steady_number l ..
    · rfl

theorem steady_valueWith {nested : Option (Reader (Node σ ν))}
    (hnested : ∀ value ∈ nested, Steady value Node.shift) :
    Steady (valueWith l nested) Node.shift := by
  intro o d cs
  rw [run_valueWith, run_valueWith, Cursor.skipBlanks_shift]
  exact steady_start hnested ..

theorem steady_value (l : Literals σ ν) (depth : Nat) : Steady (value l depth) Node.shift := by
  induction depth with
  | zero => exact steady_valueWith (by simp)
  | succ depth ih => exact steady_valueWith (by simpa using ih)

theorem run_value_append_blanks (l : Literals σ ν) (depth o : Nat) {ws : List Char}
    (hws : Blanks ws) (cs : List Char) :
    (value l depth).run ⟨o, ws ++ cs⟩ = (value l depth).run ⟨o + byteLength ws, cs⟩ := by
  cases depth with
  | zero => rw [value, run_valueWith, run_valueWith, Cursor.skipBlanks_append_blanks o hws]
  | succ depth => rw [value, run_valueWith, run_valueWith, Cursor.skipBlanks_append_blanks o hws]

/-- Blanks before a text move what it is read as, or the mistake in it. -/
theorem text_append_blanks (l : Literals σ ν) (depth : Nat) {ws : List Char} (hws : Blanks ws)
    (cs : List Char) :
    text l depth (ws ++ cs) =
      match text l depth cs with
      | .error e => .error (e.shift (byteLength ws))
      | .ok n => .ok (n.shift (byteLength ws)) := by
  rw [text_eq, text_eq, Cursor.ofText, run_value_append_blanks l depth 0 hws, steady_value,
    Cursor.ofText]
  cases (value l depth).run ⟨0, cs⟩ with
  | error e => rfl
  | ok r =>
    simp only [shifted, bind, Except.bind, Cursor.skipBlanks_shift]
    cases r.2.skipBlanks.rest <;> rfl

end Reader

end JsonNav
