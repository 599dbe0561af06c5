import JsonNav.Document
import JsonNav.Proofs.Text.Bytes
import JsonNav.Proofs.Text.Order

/-! Positions by steps that can fail.  A position is found by moving an offset back to a character,
searching the sorted beginnings of lines, and cutting the line before the offset out of the text.
Each of these steps asks for something: there must be a character to move back to, the search must
find a line, and a cut needs two boundaries in the right order.  No text and no offset refuse it. -/

namespace JsonNav

namespace Text

variable {cs : List Char} {o e n : Nat}

/-! ### Boundaries -/

/-- Whether the first byte of a character stands at an offset, or the bytes end there. -/
def isBoundaryAt (bs : List UInt8) (offset : Nat) : Bool :=
  match bs[offset]? with
  | some b => decide b.IsUTF8FirstByte
  | none => offset = bs.length

theorem isBoundaryAt_encode (c : Char) (bs : List UInt8) (h : o < c.utf8Size) :
    isBoundaryAt (String.utf8EncodeChar c ++ bs) o = decide (o = 0) := by
  have hlength : o < (String.utf8EncodeChar c).length := by
    rwa [String.length_utf8EncodeChar]
  rw [isBoundaryAt, List.getElem?_append_left hlength, List.getElem?_eq_getElem hlength]
  simp only [UInt8.isUTF8FirstByte_getElem_utf8EncodeChar]

theorem isBoundaryAt_append (c : Char) (bs : List UInt8) (o : Nat) :
    isBoundaryAt (String.utf8EncodeChar c ++ bs) (c.utf8Size + o) = isBoundaryAt bs o := by
  have hlength := String.length_utf8EncodeChar c
  rw [isBoundaryAt, List.getElem?_append_right (by omega), List.length_append, hlength,
    Nat.add_sub_cancel_left]
  simp only [Nat.add_left_cancel_iff]
  rfl

/-- The first bytes of characters stand where the text can be cut. -/
theorem isBoundaryAt_iff :
    isBoundaryAt (bytes cs) o = true ↔
      ∃ before after, cs = before ++ after ∧ o = byteLength before := by
  induction cs generalizing o with
  | nil =>
    constructor
    · intro h
      exact ⟨[], [], rfl, of_decide_eq_true h⟩
    · rintro ⟨before, after, h, rfl⟩
      obtain ⟨rfl, -⟩ := List.nil_eq_append_iff.mp h
      rfl
  | cons c cs ih =>
    rw [bytes_cons]
    by_cases h : o < c.utf8Size
    · rw [isBoundaryAt_encode c _ h, decide_eq_true_iff]
      constructor
      · rintro rfl
        exact ⟨[], c :: cs, rfl, rfl⟩
      · rintro ⟨before, after, hcut, rfl⟩
        cases before with
        | nil => rfl
        | cons d before =>
          obtain ⟨rfl, -⟩ := List.cons.inj hcut
          rw [byteLength_cons] at h
          omega
    · obtain ⟨o, rfl⟩ := Nat.exists_eq_add_of_le (Nat.le_of_not_lt h)
      rw [isBoundaryAt_append, ih]
      constructor
      · rintro ⟨before, after, rfl, rfl⟩
        exact ⟨c :: before, after, rfl, (byteLength_cons c before).symm⟩
      · rintro ⟨before, after, hcut, hlength⟩
        cases before with
        | nil =>
          have := c.utf8Size_pos
          rw [byteLength_nil] at hlength
          omega
        | cons d before =>
          obtain ⟨rfl, rfl⟩ := List.cons.inj hcut
          rw [byteLength_cons] at hlength
          exact ⟨before, after, rfl, by omega⟩

/-- Moves an offset back, byte by byte, to a boundary.  There is nothing before the first byte. -/
def moveBack? (bs : List UInt8) : (offset : Nat) → Option Nat
  | 0 => if isBoundaryAt bs 0 then some 0 else none
  | offset + 1 => if isBoundaryAt bs (offset + 1) then some (offset + 1) else moveBack? bs offset

theorem moveBack?_eq {bs : List UInt8} {b : Nat} (hb : isBoundaryAt bs b = true) (hle : b ≤ o)
    (hlast : ∀ i, isBoundaryAt bs i = true → i ≤ o → i ≤ b) : moveBack? bs o = some b := by
  induction o with
  | zero =>
    obtain rfl := Nat.le_zero.mp hle
    rw [moveBack?, if_pos hb]
  | succ o ih =>
    rw [moveBack?]
    split
    next ho => rw [Nat.le_antisymm hle (hlast _ ho (Nat.le_refl _))]
    next ho =>
      have hne : b ≠ o + 1 := by
        rintro rfl
        exact ho hb
      exact ih (by omega) fun i hi hio => hlast i hi (by omega)

/-- Moving back from an offset, or from the end if the offset lies past it, ends at the last
boundary before the offset. -/
theorem moveBack?_bytes (cs : List Char) (offset : Nat) :
    moveBack? (bytes cs) (min offset (byteLength cs)) = some (boundaryBefore cs offset) := by
  have hcut := takeBytes_append_dropBytes offset cs
  have hle := byteLength_takeBytes_le offset cs
  have hend : boundaryBefore cs offset ≤ byteLength cs := by
    conv => rhs; rw [← hcut, byteLength_append]
    exact Nat.le_add_right ..
  refine moveBack?_eq (isBoundaryAt_iff.mpr ⟨_, _, hcut.symm, rfl⟩) (Nat.le_min.mpr ⟨hle, hend⟩) ?_
  intro i hi hio
  obtain ⟨before, after, rfl, rfl⟩ := isBoundaryAt_iff.mp hi
  exact byteLength_le_takeBytes (Nat.le_trans hio (Nat.min_le_left ..)) after

/-- The text between two offsets, which must be boundaries in this order. -/
def slice? (cs : List Char) (start stop : Nat) : Option (List Char) :=
  if start ≤ stop ∧ isBoundaryAt (bytes cs) start ∧ isBoundaryAt (bytes cs) stop then
    some (takeBytes (stop - start) (dropBytes start cs))
  else none

/-! ### Beginnings of lines -/

/-- The offset just after each line break, found in the bytes of a text. -/
def breakEndsOfBytes (offset : Nat) : List UInt8 → List Nat
  | [] => []
  | 13 :: 10 :: bs => (offset + 2) :: breakEndsOfBytes (offset + 2) bs
  | b :: bs =>
    if b = 13 ∨ b = 10 then (offset + 1) :: breakEndsOfBytes (offset + 1) bs
    else breakEndsOfBytes (offset + 1) bs

theorem breakEndsOfBytes_cons {b : UInt8} {bs : List UInt8} (hreturn : b ≠ 13) (hfeed : b ≠ 10)
    (o : Nat) : breakEndsOfBytes o (b :: bs) = breakEndsOfBytes (o + 1) bs := by
  rw [breakEndsOfBytes, if_neg (by simp [hreturn, hfeed])]
  exact fun _ h _ => hreturn h

theorem breakEndsOfBytes_append {bs : List UInt8} (h : ∀ b ∈ bs, b ≠ 13 ∧ b ≠ 10) (o : Nat)
    (rest : List UInt8) :
    breakEndsOfBytes o (bs ++ rest) = breakEndsOfBytes (o + bs.length) rest := by
  induction bs generalizing o with
  | nil => rfl
  | cons b bs ih =>
    obtain ⟨hreturn, hfeed⟩ := h b (List.mem_cons_self ..)
    rw [List.cons_append, breakEndsOfBytes_cons hreturn hfeed,
      ih fun d hd => h d (List.mem_cons_of_mem _ hd), List.length_cons, Nat.add_assoc,
      Nat.add_comm 1]

/-- The bytes of a text break where its characters do. -/
theorem breakEndsOfBytes_bytes (o : Nat) (cs : List Char) :
    breakEndsOfBytes o (bytes cs) = breakEnds o cs := by
  fun_induction breakEnds o cs with
  | case1 => rfl
  | case2 o cs ih => rw [← ih]; rfl
  | case3 o c cs hpair hc ih =>
    rw [← ih]
    rcases hc with rfl | rfl
    · have hnext : ∀ bs, bytes cs ≠ 10 :: bs := by
        intro bs hbs
        cases cs with
        | nil => cases hbs
        | cons d cs =>
          obtain ⟨b, tail, hencode, -⟩ := exists_utf8EncodeChar d
          rw [bytes_cons, hencode, List.cons_append] at hbs
          obtain ⟨rfl, -⟩ := List.cons.inj hbs
          have hmem : '\n'.toUInt8 ∈ String.utf8EncodeChar d := by
            rw [hencode]
            exact List.mem_cons_self ..
          obtain rfl := eq_of_toUInt8_mem (by decide) hmem
          exact hpair cs rfl rfl
      show breakEndsOfBytes o (13 :: bytes cs) = _
      rw [breakEndsOfBytes]
      · rfl
      · exact fun bs _ h => hnext bs h
    · rfl
  | case4 o c cs hpair hc ih =>
    have hplain : ∀ b ∈ String.utf8EncodeChar c, b ≠ 13 ∧ b ≠ 10 := by
      intro b hb
      constructor
      · rintro rfl
        exact hc (.inl (eq_of_toUInt8_mem (d := '\r') (by decide) hb))
      · rintro rfl
        exact hc (.inr (eq_of_toUInt8_mem (d := '\n') (by decide) hb))
    rw [bytes_cons, breakEndsOfBytes_append hplain, String.length_utf8EncodeChar, ih]

/-- No line begins between the two characters of a break. -/
theorem ne_of_mem_breakEnds {before after : List Char} (he : e ∈ breakEnds o cs)
    (hcs : cs = before ++ '\r' :: '\n' :: after) : e ≠ o + byteLength before + 1 := by
  fun_induction breakEnds o cs generalizing before with
  | case1 => cases he
  | case2 o cs ih =>
    rcases before with _ | ⟨c, _ | ⟨d, before⟩⟩
    · rcases List.mem_cons.mp he with rfl | he
      · simp
      · have := lt_of_mem_breakEnds he
        rw [byteLength_nil]
        omega
    · simp at hcs
    · obtain ⟨rfl, rfl, rfl⟩ : '\r' = c ∧ '\n' = d ∧ cs = before ++ '\r' :: '\n' :: after := by
        simpa using hcs
      have hsize : byteLength ('\r' :: '\n' :: before) = byteLength before + 2 := by
        rw [byteLength_cons, byteLength_cons, utf8Size_of_break (.inl rfl),
          utf8Size_of_break (.inr rfl)]
        omega
      rw [hsize]
      rcases List.mem_cons.mp he with rfl | he
      · omega
      · have := ih he rfl
        omega
  | case3 o c cs hpair hc ih =>
    cases before with
    | nil =>
      obtain ⟨rfl, rfl⟩ := List.cons.inj hcs
      exact absurd rfl (hpair _ rfl)
    | cons d before =>
      obtain ⟨rfl, rfl⟩ := List.cons.inj hcs
      rw [byteLength_cons, utf8Size_of_break hc]
      rcases List.mem_cons.mp he with rfl | he
      · omega
      · have := ih he rfl
        omega
  | case4 o c cs hpair hc ih =>
    cases before with
    | nil => exact absurd (.inl (List.cons.inj hcs).1) hc
    | cons d before =>
      obtain ⟨rfl, rfl⟩ := List.cons.inj hcs
      have := ih he rfl
      rw [byteLength_cons]
      omega

theorem sorted_lineOffsets (cs : List Char) : (lineOffsets cs).Pairwise (· < ·) :=
  .cons (fun _ h => lt_of_mem_breakEnds h) (sorted_breakEnds 0 cs)

end Text

/-- How many members of a list pass a test, if these are the first ones. -/
def partitionPoint? {α : Type} (p : α → Bool) (as : List α) : Option Nat :=
  if (as.dropWhile p).any p then none else some (as.takeWhile p).length

theorem partitionPoint?_le {ns : List Nat} (h : ns.Pairwise (· < ·)) (b : Nat) :
    partitionPoint? (· ≤ b) ns = some (ns.takeWhile (· ≤ b)).length := by
  rw [partitionPoint?, if_neg]
  induction ns with
  | nil => simp
  | cons n ns ih =>
    obtain ⟨hn, hns⟩ := List.pairwise_cons.mp h
    rw [List.dropWhile_cons]
    split
    next => exact ih hns
    next hb =>
      simp only [List.any_cons, Bool.or_eq_true, List.any_eq_true, not_or, not_exists, not_and]
      refine ⟨hb, fun m hm hle => ?_⟩
      have := hn m hm
      simp only [decide_eq_true_eq] at hb hle
      omega

/-- The number before another one.  There is none before zero. -/
def previous? : Nat → Option Nat
  | 0 => none
  | n + 1 => some n

theorem previous?_eq {n : Nat} (h : 1 ≤ n) : previous? n = some (n - 1) := by
  cases n with
  | zero => exact absurd h (by decide)
  | succ n => rfl

namespace Source

open Text (byteLength)

/-- The position of an offset, found step by step: the boundary before it, how many lines begin up
to there, the beginning of the last of them, and the text between the two. -/
def position? (s : Source) (offset : Nat) : Option Position := do
  let boundary ← Text.moveBack? (Text.bytes s.text) (min offset s.size)
  let count ← partitionPoint? (· ≤ boundary) s.lineOffsets
  let line ← previous? count
  let start ← s.lineOffsets[line]?
  let before ← Text.slice? s.text start boundary
  return ⟨line.toUInt32, (Text.unitLength before).toUInt32⟩

variable {s : Source}

theorem isBoundary_of_mem_lineOffsets {o : Nat} (h : o ∈ s.lineOffsets) : s.IsBoundary o := by
  rw [s.lineOffsets_eq] at h
  exact Text.exists_of_mem_lineOffsets h

theorem IsBoundary.le_size {o : Nat} (h : s.IsBoundary o) : o ≤ s.size := by
  obtain ⟨before, after, htext, rfl⟩ := h
  rw [size, htext, Text.byteLength_append]
  exact Nat.le_add_right ..

/-- The last line up to a boundary is in the table, just before as many as begin up to there. -/
theorem getElem?_lineOffsets (s : Source) (b : Nat) :
    s.lineOffsets[(s.lineOffsetsUpTo b).length - 1]? =
      some ((s.lineOffsetsUpTo b).getLastD 0) := by
  have hpos := List.length_pos_iff.mpr (s.lineOffsetsUpTo_ne_nil b)
  obtain ⟨more, hmore⟩ := List.takeWhile_prefix (l := s.lineOffsets) (· ≤ b)
  change s.lineOffsetsUpTo b ++ more = s.lineOffsets at hmore
  rw [← hmore, List.getElem?_append_left (by omega), ← List.getLast?_eq_getElem?,
    List.getLastD_eq_getLast?, List.getLast?_eq_some_getLast (s.lineOffsetsUpTo_ne_nil b)]
  rfl

/-- The table of lines is found in the bytes of a text, begins at zero, is strictly ordered, and has
only boundaries, none of them between the two characters of a break.  So for every offset, wherever
in the text it lies or past its end, each step to its position succeeds: moving back ends, the
search finds a line, this line begins no later than the boundary, and the text between the two can
be cut out. -/
theorem position?_eq_some (d : Document) :
    let s := d.source
    let bs := Text.bytes s.text
    s.lineOffsets = 0 :: Text.breakEndsOfBytes 0 bs ∧
    s.lineOffsets.Pairwise (· < ·) ∧
    (∀ o ∈ s.lineOffsets, s.IsBoundary o ∧ o ≤ s.size ∧
      ∀ before after, s.text = before ++ '\r' :: '\n' :: after → o ≠ byteLength before + 1) ∧
    ∀ offset, ∃ boundary count start,
      Text.moveBack? bs (min offset s.size) = some boundary ∧
      partitionPoint? (· ≤ boundary) s.lineOffsets = some count ∧ 1 ≤ count ∧
      s.lineOffsets[count - 1]? = some start ∧ start ≤ boundary ∧
      (Text.slice? s.text start boundary).isSome ∧
      s.position? offset = some (d.position offset) := by
  intro s bs
  have hsorted : s.lineOffsets.Pairwise (· < ·) := by
    rw [s.lineOffsets_eq]
    exact Text.sorted_lineOffsets s.text
  refine ⟨?table, hsorted, fun o ho => ⟨isBoundary_of_mem_lineOffsets ho,
    (isBoundary_of_mem_lineOffsets ho).le_size, fun before after htext => ?pair⟩,
    fun offset => ?steps⟩
  case table => rw [s.lineOffsets_eq, Text.lineOffsets, Text.breakEndsOfBytes_bytes]
  case pair =>
    rw [s.lineOffsets_eq] at ho
    rcases List.mem_cons.mp ho with rfl | ho
    · omega
    · have := Text.ne_of_mem_breakEnds ho htext
      omega
  case steps =>
    let before := Text.takeBytes offset s.text
    have htext : s.text = before ++ Text.dropBytes offset s.text :=
      (Text.takeBytes_append_dropBytes offset s.text).symm
    let lines := s.lineOffsetsUpTo (byteLength before)
    obtain ⟨head, mid, hbefore, hstart⟩ := exists_lineStart htext
    have hboundary : Text.moveBack? bs (min offset s.size) = some (byteLength before) :=
      Text.moveBack?_bytes s.text offset
    have hcount : partitionPoint? (· ≤ byteLength before) s.lineOffsets = some lines.length :=
      partitionPoint?_le hsorted _
    have hpos : 1 ≤ lines.length := List.length_pos_iff.mpr (s.lineOffsetsUpTo_ne_nil _)
    have hline : s.lineOffsets[lines.length - 1]? = some (lines.getLastD 0) :=
      s.getElem?_lineOffsets _
    have hle : lines.getLastD 0 ≤ byteLength before := by
      rw [hstart, hbefore, Text.byteLength_append]
      exact Nat.le_add_right ..
    have hslice : Text.slice? s.text (lines.getLastD 0) (byteLength before) =
        some (Text.takeBytes (byteLength before - lines.getLastD 0)
          (Text.dropBytes (lines.getLastD 0) s.text)) := by
      refine if_pos ⟨hle, Text.isBoundaryAt_iff.mpr ⟨head, mid ++ Text.dropBytes offset s.text, ?_,
        hstart⟩, Text.isBoundaryAt_iff.mpr ⟨before, _, htext, rfl⟩⟩
      rw [← List.append_assoc, ← hbefore]
      exact htext
    refine ⟨byteLength before, lines.length, lines.getLastD 0, hboundary, hcount, hpos, hline, hle,
      by rw [hslice]; rfl, ?_⟩
    refine Option.bind_eq_some_iff.mpr ⟨_, hboundary, Option.bind_eq_some_iff.mpr ⟨_, hcount, ?_⟩⟩
    refine Option.bind_eq_some_iff.mpr ⟨_, previous?_eq hpos, ?_⟩
    exact Option.bind_eq_some_iff.mpr ⟨_, hline, Option.bind_eq_some_iff.mpr ⟨_, hslice, rfl⟩⟩

end Source

end JsonNav
