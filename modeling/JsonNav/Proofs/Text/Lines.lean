import JsonNav.Proofs.Text.Position

/-! The lines of a text, and positions by line and column.  One scan from left to right cuts a text
into lines that end with a break, and a last line without one.  The line of a position is the number
of breaks that end at or before it, and its column counts the units of UTF-16 after the last of
these breaks. -/

namespace JsonNav

namespace Text

/-- A line break that is followed by `rest`.  A carriage return and a line feed after it are one
break. -/
inductive Break : List Char → List Char → Prop
  | pair {rest : List Char} : Break ['\r', '\n'] rest
  | carriageReturn {rest : List Char} : rest.head? ≠ some '\n' → Break ['\r'] rest
  | lineFeed {rest : List Char} : Break ['\n'] rest

/-- The lines of a text that end with a break, each with its break, and the line after them. -/
inductive Lines : List Char → List (List Char) → List Char → Prop
  | last {cs : List Char} : '\r' ∉ cs → '\n' ∉ cs → Lines cs [] cs
  | line {cs br rest last : List Char} {lines : List (List Char)} : '\r' ∉ cs → '\n' ∉ cs →
      Break br rest → Lines rest lines last → Lines (cs ++ (br ++ rest)) ((cs ++ br) :: lines) last

/-- Where the breaks end, if `lines` begin a text. -/
def lineEnds (lines : List (List Char)) : List Nat :=
  (List.range lines.length).map fun k => byteLength (lines.take (k + 1)).flatten

theorem breakEnds_cons {c : Char} (hreturn : c ≠ '\r') (hfeed : c ≠ '\n') (o : Nat)
    (cs : List Char) : breakEnds o (c :: cs) = breakEnds (o + c.utf8Size) cs := by
  rw [breakEnds]
  · rw [if_neg (by simp [hreturn, hfeed])]
  · exact fun _ h _ => hreturn h

/-- A text without a break only moves the breaks after it. -/
theorem breakEnds_append {cs : List Char} (hreturn : '\r' ∉ cs) (hfeed : '\n' ∉ cs) (o : Nat)
    (rest : List Char) : breakEnds o (cs ++ rest) = breakEnds (o + byteLength cs) rest := by
  induction cs generalizing o with
  | nil => rfl
  | cons c cs ih =>
    simp only [List.mem_cons, not_or] at hreturn hfeed
    rw [List.cons_append, breakEnds_cons (Ne.symm hreturn.1) (Ne.symm hfeed.1),
      ih hreturn.2 hfeed.2, byteLength_cons, Nat.add_assoc]

theorem Break.breakEnds {br rest : List Char} (h : Break br rest) (o : Nat) :
    breakEnds o (br ++ rest) = (o + byteLength br) :: Text.breakEnds (o + byteLength br) rest := by
  cases h with
  | pair => rfl
  | lineFeed =>
    rw [List.singleton_append, Text.breakEnds]
    · rfl
    · exact fun _ h _ => absurd h (by decide)
  | carriageReturn hrest =>
    rw [List.singleton_append, Text.breakEnds]
    · rfl
    · rintro tail - rfl
      exact hrest rfl

theorem lineEnds_cons (l : List Char) (lines : List (List Char)) :
    lineEnds (l :: lines) = byteLength l :: (lineEnds lines).map (byteLength l + ·) := by
  simp [lineEnds, List.range_succ_eq_map, Function.comp_def]

theorem Lines.eq_append {cs last : List Char} {lines : List (List Char)} (h : Lines cs lines last) :
    cs = lines.flatten ++ last := by
  induction h with
  | last => rfl
  | line _ _ _ _ ih => simpa using ih

/-- The scan finds every break where it ends. -/
theorem Lines.breakEnds {cs last : List Char} {lines : List (List Char)} (h : Lines cs lines last)
    (o : Nat) : breakEnds o cs = (lineEnds lines).map (o + ·) := by
  induction h generalizing o with
  | @last cs hreturn hfeed =>
    have hall := breakEnds_append hreturn hfeed o []
    rwa [List.append_nil] at hall
  | @line cs br rest last lines hreturn hfeed hbreak _ ih =>
    rw [breakEnds_append hreturn hfeed, hbreak.breakEnds, ih, lineEnds_cons]
    simp [Function.comp_def, Nat.add_assoc]

/-- A character of no break belongs to the line that it begins. -/
theorem Lines.exists_cons {c : Char} {cs last : List Char} {lines : List (List Char)}
    (hreturn : c ≠ '\r') (hfeed : c ≠ '\n') (h : Lines cs lines last) :
    ∃ lines last, Lines (c :: cs) lines last := by
  have hplain {d : Char} {ds : List Char} (hd : c ≠ d) (h : d ∉ ds) : d ∉ c :: ds := by
    simp [hd.symm, h]
  cases h with
  | last hr hf => exact ⟨_, _, .last (hplain hreturn hr) (hplain hfeed hf)⟩
  | line hr hf hbreak h =>
    exact ⟨_, _, .line (hplain hreturn hr) (hplain hfeed hf) hbreak h⟩

theorem exists_lines (cs : List Char) : ∃ lines last, Lines cs lines last := by
  have hnil {c : Char} : c ∉ [] := List.not_mem_nil
  -- The cases are those of the scan: a pair, another break, and a character of no break.
  fun_induction Text.breakEnds 0 cs with
  | case1 => exact ⟨[], [], .last hnil hnil⟩
  | case2 _ cs ih =>
    obtain ⟨lines, last, h⟩ := ih
    exact ⟨_, last, .line hnil hnil .pair h⟩
  | case3 _ c cs hpair hc ih =>
    obtain ⟨lines, last, h⟩ := ih
    rcases hc with rfl | rfl
    · refine ⟨_, last, .line hnil hnil (.carriageReturn ?_) h⟩
      intro hhead
      obtain ⟨tail, rfl⟩ := List.head?_eq_some_iff.mp hhead
      exact hpair tail rfl rfl
    · exact ⟨_, last, .line hnil hnil .lineFeed h⟩
  | case4 _ c cs _ hc ih =>
    obtain ⟨lines, last, h⟩ := ih
    exact h.exists_cons (fun hr => hc (.inl hr)) fun hf => hc (.inr hf)

/-! ### Breaks up to an offset -/

theorem lt_of_mem_breakEnds {o e : Nat} {cs : List Char} (h : e ∈ breakEnds o cs) : o < e := by
  fun_induction breakEnds o cs with
  | case1 => cases h
  | case2 o cs ih =>
    rcases List.mem_cons.mp h with rfl | h
    · omega
    · have := ih h
      omega
  | case3 o c cs _ _ ih =>
    rcases List.mem_cons.mp h with rfl | h
    · omega
    · have := ih h
      omega
  | case4 o c cs _ _ ih =>
    have := ih h
    omega

theorem sorted_breakEnds (o : Nat) (cs : List Char) : (breakEnds o cs).Pairwise (· < ·) := by
  fun_induction breakEnds o cs with
  | case1 => exact .nil
  | case2 o cs ih => exact .cons (fun _ h => lt_of_mem_breakEnds h) ih
  | case3 o c cs _ _ ih => exact .cons (fun _ h => lt_of_mem_breakEnds h) ih
  | case4 o c cs _ _ ih => exact ih

theorem takeWhile_le_eq_take {l : List Nat} (h : l.Pairwise (· < ·)) (b : Nat) :
    l.takeWhile (· ≤ b) = l.take (l.countP (· ≤ b)) := by
  induction l with
  | nil => rfl
  | cons n l ih =>
    obtain ⟨hn, hl⟩ := List.pairwise_cons.mp h
    by_cases hb : n ≤ b
    · rw [List.takeWhile_cons_of_pos (by simpa using hb),
        List.countP_cons_of_pos (by simpa using hb), List.take_succ_cons, ih hl]
    · have hnone : l.countP (· ≤ b) = 0 := by
        rw [List.countP_eq_zero]
        intro m hm
        have := hn m hm
        simp only [decide_eq_true_eq]
        omega
      rw [List.takeWhile_cons_of_neg (by simpa using hb),
        List.countP_cons_of_neg (by simpa using hb), hnone, List.take_zero]

/-- No boundary up to an offset lies behind the cut. -/
theorem byteLength_le_takeBytes {n : Nat} {before : List Char} (h : byteLength before ≤ n)
    (after : List Char) : byteLength before ≤ byteLength (takeBytes n (before ++ after)) := by
  induction before generalizing n with
  | nil => exact Nat.zero_le _
  | cons c before ih =>
    rw [byteLength_cons] at h
    have hrest := ih (n := n - c.utf8Size) (by omega)
    rw [List.cons_append, takeBytes, if_pos (by omega), byteLength_cons, byteLength_cons]
    omega

end Text

namespace Source

open Text (byteLength unitLength)

/-- Only the boundary before an offset counts. -/
theorem position_eq_position_takeBytes (s : Source) (offset : Nat) :
    s.position offset = s.position (byteLength (Text.takeBytes offset s.text)) := by
  have hboundary := Text.boundaryBefore_byteLength (Text.takeBytes offset s.text)
    (Text.dropBytes offset s.text)
  rw [Text.takeBytes_append_dropBytes] at hboundary
  rw [position, position, hboundary]
  rfl

/-- The lines up to a boundary are the first, and one more for each break that ends at or before the
boundary. -/
theorem lineOffsetsUpTo_eq {s : Source} {lines : List (List Char)} {last : List Char}
    (h : Text.Lines s.text lines last) (b : Nat) :
    s.lineOffsetsUpTo b =
      0 :: (Text.lineEnds lines).take ((Text.lineEnds lines).countP (· ≤ b)) := by
  have hends : Text.breakEnds 0 s.text = Text.lineEnds lines := by
    rw [h.breakEnds]
    simp
  have hsorted := Text.sorted_breakEnds 0 s.text
  rw [hends] at hsorted
  rw [lineOffsetsUpTo, s.lineOffsets_eq, Text.lineOffsets, hends,
    List.takeWhile_cons_of_pos (by simp), Text.takeWhile_le_eq_take hsorted]

/-- The last of these lines begins where the last of these breaks ends. -/
theorem getLastD_lineOffsetsUpTo {s : Source} {lines : List (List Char)} {last : List Char}
    (h : Text.Lines s.text lines last) (b : Nat) :
    (s.lineOffsetsUpTo b).getLastD 0 =
      byteLength (lines.take ((Text.lineEnds lines).countP (· ≤ b))).flatten := by
  rw [lineOffsetsUpTo_eq h]
  have hle : (Text.lineEnds lines).countP (· ≤ b) ≤ (Text.lineEnds lines).length :=
    List.countP_le_length
  cases hk : (Text.lineEnds lines).countP (· ≤ b) with
  | zero => rfl
  | succ k =>
    rw [hk] at hle
    have hlt : k < (Text.lineEnds lines).length := hle
    rw [List.getLastD_cons, List.getLastD_eq_getLast?, List.getLast?_take, if_neg (by simp),
      Nat.add_sub_cancel, List.getElem?_eq_getElem hlt]
    simp [Text.lineEnds]

theorem line_position_eq {s : Source} (hsize : s.size < 2 ^ 32) {lines : List (List Char)}
    {before after last : List Char} (h : Text.Lines s.text lines last)
    (htext : s.text = before ++ after) :
    (s.position (byteLength before)).line.toNat =
      (Text.lineEnds lines).countP (· ≤ byteLength before) := by
  have hle : (Text.lineEnds lines).countP (· ≤ byteLength before) ≤ (Text.lineEnds lines).length :=
    List.countP_le_length
  have hlength := s.length_lineOffsetsUpTo_le (byteLength before)
  rw [lineOffsetsUpTo_eq h, List.length_cons, List.length_take, Nat.min_eq_left hle] at hlength
  rw [line_position htext, lineOffsetsUpTo_eq h, List.length_cons, List.length_take,
    Nat.min_eq_left hle, Nat.add_sub_cancel,
    toNat_toUInt32 hsize (Nat.le_of_succ_le_succ hlength)]

theorem column_position_eq {s : Source} (hsize : s.size < 2 ^ 32) {lines : List (List Char)}
    {before after last : List Char} (h : Text.Lines s.text lines last)
    (htext : s.text = before ++ after) :
    ∃ mid, before =
        (lines.take ((Text.lineEnds lines).countP (· ≤ byteLength before))).flatten ++ mid ∧
      (s.position (byteLength before)).column.toNat = unitLength mid := by
  let k := (Text.lineEnds lines).countP (· ≤ byteLength before)
  obtain ⟨head, mid, rfl, hstart⟩ := exists_lineStart htext
  have hsplit : (lines.take k).flatten ++ ((lines.drop k).flatten ++ last) =
      head ++ (mid ++ after) := by
    rw [← List.append_assoc, ← List.flatten_append, List.take_append_drop, ← h.eq_append, htext,
      List.append_assoc]
  have hlength : byteLength (lines.take k).flatten = byteLength head := by
    rw [← getLastD_lineOffsetsUpTo h, hstart]
  have hrest := Text.append_right_inj_of_byteLength hsplit hlength
  rw [hrest] at hsplit
  have hhead : (lines.take k).flatten = head := List.append_cancel_right hsplit
  refine ⟨mid, by rw [show (Text.lineEnds lines).countP _ = k from rfl, hhead], ?_⟩
  have hunits := Text.unitLength_le_byteLength mid
  have hmid : byteLength mid ≤ s.size := by
    rw [size, htext, Text.byteLength_append, Text.byteLength_append]
    omega
  rw [column_position htext hstart, toNat_toUInt32 hsize (Nat.le_trans hunits hmid)]

/-- Positions are exact.  For the breaks that a scan finds, the line of an offset is the number of
breaks that end at or before the last character boundary up to the offset, and its column is the
number of units of UTF-16 from the last of these breaks to that boundary. -/
theorem position_counts (s : Source) (hsize : s.size < 2 ^ 32) :
    (∃ lines last, Text.Lines s.text lines last) ∧
    ∀ lines last, Text.Lines s.text lines last →
      s.numLines = lines.length + 1 ∧
      ∀ offset, ∃ before after, s.text = before ++ after ∧ byteLength before ≤ offset ∧
        (∀ before' after', s.text = before' ++ after' → byteLength before' ≤ offset →
          byteLength before' ≤ byteLength before) ∧
        (s.position offset).line.toNat = (Text.lineEnds lines).countP (· ≤ byteLength before) ∧
        ∃ mid, before = (lines.take (s.position offset).line.toNat).flatten ++ mid ∧
          (s.position offset).column.toNat = unitLength mid := by
  refine ⟨Text.exists_lines s.text, fun lines last h => ⟨?lines, fun offset => ?position⟩⟩
  case lines =>
    rw [numLines, s.lineOffsets_eq, Text.lineOffsets, h.breakEnds]
    simp [Text.lineEnds]
  case position =>
    let before := Text.takeBytes offset s.text
    have htext : s.text = before ++ Text.dropBytes offset s.text :=
      (Text.takeBytes_append_dropBytes offset s.text).symm
    have hline := line_position_eq hsize h htext
    obtain ⟨mid, hmid, hcolumn⟩ := column_position_eq hsize h htext
    rw [← hline] at hmid
    rw [position_eq_position_takeBytes]
    refine ⟨before, _, htext, Text.byteLength_takeBytes_le offset s.text, ?_, hline, mid, hmid,
      hcolumn⟩
    intro before' after' htext' hle
    have hmax := Text.byteLength_le_takeBytes hle after'
    rwa [← htext'] at hmax

/-- The offset 8 is within the last character.  A pair ends the line before it, and the character
before it has two units. -/
theorem position_counts_pair :
    Text.Lines "a\r\n𝄞é".toList ["a\r\n".toList] "𝄞é".toList ∧
      (Source.ofString "" "a\r\n𝄞é").numLines = 2 ∧
      ((Source.ofString "" "a\r\n𝄞é").position 8).line.toNat = 1 ∧
      ((Source.ofString "" "a\r\n𝄞é").position 8).column.toNat = 2 := by
  have h : Text.Lines (['a'] ++ (['\r', '\n'] ++ ['𝄞', 'é'])) [['a'] ++ ['\r', '\n']] ['𝄞', 'é'] :=
    .line (by decide) (by decide) .pair (.last (by decide) (by decide))
  obtain ⟨hlines, hposition⟩ := (position_counts (.ofString "" "a\r\n𝄞é") (by decide)).2 _ _ h
  obtain ⟨before, after, htext, hle, hmax, hline, mid, hmid, hcolumn⟩ := hposition 8
  have hlower : 7 ≤ byteLength before := hmax ['a', '\r', '\n', '𝄞'] ['é'] rfl (by decide)
  have hprefix : before <+: ['a', '\r', '\n', '𝄞', 'é'] := ⟨after, htext.symm⟩
  have honly : ∀ k < 6, 7 ≤ byteLength (['a', '\r', '\n', '𝄞', 'é'].take k) →
      byteLength (['a', '\r', '\n', '𝄞', 'é'].take k) ≤ 8 → k = 4 := by decide
  have hbefore : before = ['a', '\r', '\n', '𝄞'] := by
    have htake := List.prefix_iff_eq_take.mp hprefix
    rw [htake] at hlower hle
    rw [htake, honly _ (Nat.lt_succ_of_le hprefix.length_le) hlower hle]
    rfl
  subst hbefore
  have hone : ((Source.ofString "" "a\r\n𝄞é").position 8).line.toNat = 1 :=
    hline.trans (by decide)
  rw [hone] at hmid
  have hcancel : ['a', '\r', '\n'] ++ ['𝄞'] = ['a', '\r', '\n'] ++ mid := hmid
  obtain rfl := List.append_cancel_left hcancel
  exact ⟨h, hlines, hone, hcolumn⟩

end Source

end JsonNav
