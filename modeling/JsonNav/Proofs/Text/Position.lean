import Mathlib.Algebra.Group.Nat.Defs
import JsonNav.Text.Source

/-! Positions keep the order of byte offsets.  Of two character boundaries the later one has the
later position: it is on a later line, or on the same line with more units of UTF-16 before it.  The
text must have fewer than `2 ^ 32` bytes, for positions count in 32-bit words. -/

namespace JsonNav

namespace Position

variable {p q r : Position}

theorem le_refl (p : Position) : p ≤ p :=
  .inr ⟨rfl, UInt32.le_refl _⟩

theorem le_of_lt (h : p < q) : p ≤ q := by
  rcases h with h | ⟨hline, hcolumn⟩
  · exact .inl h
  · exact .inr ⟨hline, UInt32.le_of_lt hcolumn⟩

theorem lt_of_lt_of_le (h : p < q) (h' : q ≤ r) : p < r := by
  rw [lt_def] at h ⊢
  rw [le_def] at h'
  grind

theorem lt_irrefl (p : Position) : ¬p < p := by
  rw [lt_def]
  simp

end Position

namespace Text

theorem dropBytes_byteLength (cs ds : List Char) : dropBytes (byteLength cs) (cs ++ ds) = ds := by
  have h := takeBytes_append_dropBytes (byteLength cs) (cs ++ ds)
  rw [takeBytes_byteLength] at h
  exact List.append_cancel_left h

theorem boundaryBefore_byteLength (cs ds : List Char) :
    boundaryBefore (cs ++ ds) (byteLength cs) = byteLength cs := by
  rw [boundaryBefore, takeBytes_byteLength]

theorem unitSize_pos (c : Char) : 0 < unitSize c := by
  unfold unitSize
  split <;> omega

theorem unitSize_le_utf8Size (c : Char) : unitSize c ≤ c.utf8Size := by
  unfold unitSize
  split
  next => exact c.utf8Size_pos
  next h =>
    have hval : ¬c.val.toNat < 0x10000 := h
    have hfour : c.utf8Size = 4 := by
      unfold Char.utf8Size
      simp only [UInt32.le_iff_toNat_le]
      split
      next h₁ => simp at h₁; omega
      next =>
        split
        next h₂ => simp at h₂; omega
        next =>
          split
          next h₃ => simp at h₃; omega
          next => rfl
    omega

theorem unitLength_le_byteLength (cs : List Char) : unitLength cs ≤ byteLength cs := by
  induction cs with
  | nil => simp
  | cons c cs ih =>
    have h := unitSize_le_utf8Size c
    rw [unitLength_cons, byteLength_cons]
    omega

theorem unitLength_pos {cs : List Char} (h : cs ≠ []) : 0 < unitLength cs := by
  obtain ⟨c, cs, rfl⟩ := List.exists_cons_of_ne_nil h
  have := unitSize_pos c
  rw [unitLength_cons]
  omega

/-! ### Lines -/

theorem utf8Size_of_break {c : Char} (h : c = '\r' ∨ c = '\n') : c.utf8Size = 1 := by
  rcases h with rfl | rfl <;> rfl

/-- A break ends after a carriage return or a line feed. -/
theorem exists_break_of_mem_breakEnds {o e : Nat} {cs : List Char} (h : e ∈ breakEnds o cs) :
    ∃ before c after, cs = before ++ c :: after ∧ (c = '\r' ∨ c = '\n') ∧
      e = o + byteLength before + 1 := by
  fun_induction breakEnds o cs with
  | case1 => exact nomatch h
  | case2 o cs ih =>
    rcases List.mem_cons.mp h with rfl | h
    · exact ⟨['\r'], '\n', cs, rfl, .inr rfl, rfl⟩
    · obtain ⟨before, c, after, rfl, hc, rfl⟩ := ih h
      refine ⟨'\r' :: '\n' :: before, c, after, rfl, hc, ?_⟩
      rw [byteLength_cons, byteLength_cons, utf8Size_of_break (.inl rfl),
        utf8Size_of_break (.inr rfl)]
      omega
  | case3 o c cs hpair hc ih =>
    rcases List.mem_cons.mp h with rfl | h
    · exact ⟨[], c, cs, rfl, hc, rfl⟩
    · obtain ⟨before, c', after, rfl, hc', rfl⟩ := ih h
      refine ⟨c :: before, c', after, rfl, hc', ?_⟩
      rw [byteLength_cons, utf8Size_of_break hc]
      omega
  | case4 o c cs hpair hc ih =>
    obtain ⟨before, c', after, rfl, hc', rfl⟩ := ih h
    refine ⟨c :: before, c', after, rfl, hc', ?_⟩
    rw [byteLength_cons]
    omega

theorem length_breakEnds_le (o : Nat) (cs : List Char) :
    (breakEnds o cs).length ≤ byteLength cs := by
  fun_induction breakEnds o cs with
  | case1 => simp
  | case2 o cs ih =>
    simp only [List.length_cons, byteLength_cons]
    have := '\r'.utf8Size_pos
    omega
  | case3 o c cs hpair hc ih =>
    have := c.utf8Size_pos
    simp only [List.length_cons, byteLength_cons]
    omega
  | case4 o c cs hpair hc ih =>
    rw [byteLength_cons]
    omega

theorem exists_of_mem_lineOffsets {e : Nat} {cs : List Char} (h : e ∈ lineOffsets cs) :
    ∃ before after, cs = before ++ after ∧ e = byteLength before := by
  rcases List.mem_cons.mp h with rfl | h
  · exact ⟨[], cs, rfl, rfl⟩
  · obtain ⟨before, c, after, rfl, hc, rfl⟩ := exists_break_of_mem_breakEnds h
    refine ⟨before ++ [c], after, by simp, ?_⟩
    rw [byteLength_append, byteLength_cons, utf8Size_of_break hc, byteLength_nil]
    omega

theorem takeWhile_le_prefix {a b : Nat} (h : a ≤ b) (l : List Nat) :
    l.takeWhile (· ≤ a) <+: l.takeWhile (· ≤ b) := by
  induction l with
  | nil => exact List.prefix_rfl
  | cons n l ih =>
    rw [List.takeWhile_cons, List.takeWhile_cons]
    split
    next hn =>
      have hb : n ≤ b := Nat.le_trans (by simpa using hn) h
      rw [if_pos (by simpa using hb)]
      exact (List.prefix_cons_inj n).mpr ih
    next => exact List.nil_prefix

end Text

namespace Source

open Text (byteLength unitLength)

variable {s : Source} {before piece after : List Char}

theorem lineOffsetsUpTo_ne_nil (s : Source) (offset : Nat) : s.lineOffsetsUpTo offset ≠ [] := by
  rw [lineOffsetsUpTo, s.lineOffsets_eq, Text.lineOffsets, List.takeWhile_cons]
  simp

/-- The number of the line is below the size of the text. -/
theorem length_lineOffsetsUpTo_le (s : Source) (offset : Nat) :
    (s.lineOffsetsUpTo offset).length ≤ s.size + 1 := by
  have h := (List.takeWhile_sublist (l := s.lineOffsets) (· ≤ offset)).length_le
  have hall := Text.length_breakEnds_le 0 s.text
  rw [s.lineOffsets_eq, Text.lineOffsets, List.length_cons] at h
  rw [size, lineOffsetsUpTo, s.lineOffsets_eq, Text.lineOffsets]
  omega

/-- The counts of a text are no greater than its size, so they fit. -/
theorem toNat_toUInt32 (hsize : s.size < 2 ^ 32) {n : Nat} (hn : n ≤ s.size) :
    n.toUInt32.toNat = n := by
  rw [Nat.toUInt32, UInt32.toNat_ofNat_of_lt']
  exact Nat.lt_of_le_of_lt hn hsize

/-- The line of a boundary begins at an earlier boundary, or at the same. -/
theorem exists_lineStart (htext : s.text = before ++ after) :
    ∃ head mid, before = head ++ mid ∧
      (s.lineOffsetsUpTo (byteLength before)).getLastD 0 = byteLength head := by
  obtain ⟨e, he⟩ : ∃ e, (s.lineOffsetsUpTo (byteLength before)).getLast? = some e :=
    Option.ne_none_iff_exists'.mp fun h =>
      s.lineOffsetsUpTo_ne_nil _ (List.getLast?_eq_none_iff.mp h)
  have hmem := List.mem_of_getLast? he
  have hle : e ≤ byteLength before := by
    simpa using List.all_eq_true.mp List.all_takeWhile e hmem
  have hline : e ∈ Text.lineOffsets s.text := by
    rw [← s.lineOffsets_eq]
    exact (List.takeWhile_sublist _).subset hmem
  obtain ⟨head, tail, hhead, rfl⟩ := Text.exists_of_mem_lineOffsets hline
  obtain ⟨mid, hbefore, -⟩ :=
    Text.exists_eq_append_of_byteLength_le (hhead.symm.trans htext) hle
  exact ⟨head, mid, hbefore, by rw [List.getLastD_eq_getLast?, he]; rfl⟩

theorem line_position (htext : s.text = before ++ after) :
    (s.position (byteLength before)).line =
      ((s.lineOffsetsUpTo (byteLength before)).length - 1).toUInt32 := by
  rw [position, htext, Text.boundaryBefore_byteLength]

theorem column_position {head mid : List Char} (htext : s.text = head ++ mid ++ after)
    (hstart : (s.lineOffsetsUpTo (byteLength (head ++ mid))).getLastD 0 = byteLength head) :
    (s.position (byteLength (head ++ mid))).column = (unitLength mid).toUInt32 := by
  have hmid : byteLength (head ++ mid) - byteLength head = byteLength mid := by
    rw [Text.byteLength_append, Nat.add_sub_cancel_left]
  rw [position, htext, Text.boundaryBefore_byteLength]
  simp only [hstart, hmid]
  rw [List.append_assoc, Text.dropBytes_byteLength, Text.takeBytes_byteLength]

/-- A later boundary has a later position. -/
theorem position_lt (hsize : s.size < 2 ^ 32) (htext : s.text = before ++ piece ++ after)
    (hpiece : piece ≠ []) :
    s.position (byteLength before) < s.position (byteLength (before ++ piece)) := by
  have htext' : s.text = before ++ (piece ++ after) := by
    rw [htext, List.append_assoc]
  have hle : byteLength before ≤ byteLength (before ++ piece) := by
    rw [Text.byteLength_append]
    exact Nat.le_add_right ..
  have hsmall : byteLength (before ++ piece) ≤ s.size := by
    rw [size, htext, Text.byteLength_append (before ++ piece)]
    exact Nat.le_add_right ..
  obtain ⟨more, hmore⟩ := Text.takeWhile_le_prefix hle s.lineOffsets
  change s.lineOffsetsUpTo _ ++ more = s.lineOffsetsUpTo _ at hmore
  have hlength := s.length_lineOffsetsUpTo_le (byteLength (before ++ piece))
  have hpos := List.length_pos_iff.mpr (s.lineOffsetsUpTo_ne_nil (byteLength before))
  rw [← hmore, List.length_append] at hlength
  rw [Position.lt_def, line_position htext', line_position htext, ← hmore, List.length_append]
  cases more with
  | cons m more =>
    -- There is a line break between the boundaries.
    left
    rw [UInt32.lt_iff_toNat_lt, toNat_toUInt32 hsize (by omega), toNat_toUInt32 hsize (by omega)]
    simp only [List.length_cons]
    omega
  | nil =>
    obtain ⟨head, mid, rfl, hstart⟩ := exists_lineStart htext'
    have hstart' : (s.lineOffsetsUpTo (byteLength (head ++ (mid ++ piece)))).getLastD 0 =
        byteLength head := by
      rw [← List.append_assoc, ← hmore, List.append_nil, hstart]
    have hunits := Text.unitLength_le_byteLength (mid ++ piece)
    have hpiecePos := Text.unitLength_pos hpiece
    rw [Text.unitLength_append] at hunits
    simp only [Text.byteLength_append] at hunits hsmall
    right
    refine ⟨rfl, ?_⟩
    rw [column_position htext' hstart, List.append_assoc,
      column_position (by simpa using htext) hstart', UInt32.lt_iff_toNat_lt,
      toNat_toUInt32 hsize (by omega),
      toNat_toUInt32 hsize (by rw [Text.unitLength_append]; omega), Text.unitLength_append]
    omega

/-- Of two boundaries the later one has the later position. -/
theorem position_lt_of_byteLength_lt {before' after' : List Char} (hsize : s.size < 2 ^ 32)
    (htext : s.text = before ++ after) (htext' : s.text = before' ++ after')
    (h : byteLength before < byteLength before') :
    s.position (byteLength before) < s.position (byteLength before') := by
  obtain ⟨mid, rfl, rfl⟩ :=
    Text.exists_eq_append_of_byteLength_le (htext.symm.trans htext') (Nat.le_of_lt h)
  refine position_lt hsize htext' ?_
  rintro rfl
  rw [List.append_nil] at h
  exact Nat.lt_irrefl _ h

/-- Boundaries with one position are the same. -/
theorem byteLength_eq_of_position_eq {before' after' : List Char} (hsize : s.size < 2 ^ 32)
    (htext : s.text = before ++ after) (htext' : s.text = before' ++ after')
    (h : s.position (byteLength before) = s.position (byteLength before')) :
    byteLength before = byteLength before' := by
  rcases Nat.lt_trichotomy (byteLength before) (byteLength before') with hlt | heq | hlt
  · have hposition := position_lt_of_byteLength_lt hsize htext htext' hlt
    rw [h] at hposition
    exact absurd hposition (Position.lt_irrefl _)
  · exact heq
  · have hposition := position_lt_of_byteLength_lt hsize htext' htext hlt
    rw [h] at hposition
    exact absurd hposition (Position.lt_irrefl _)

end Source

end JsonNav
