import Mathlib.Data.Prod.Lex
import JsonNav.Proofs.Text.Lines

/-! The order of positions.  It is that of the byte offsets, also of those that are no character
boundaries or lie past the end, and along a text without a break the line stays the same while the
column counts the units of UTF-16.  Between boundaries it is strict, so that ranges are sorted as
the pairs of their byte offsets are. -/

namespace JsonNav

namespace Text

theorem takeWhile_congr {l : List Nat} {a b : Nat} (h : ∀ n ∈ l, n ≤ a ↔ n ≤ b) :
    l.takeWhile (· ≤ a) = l.takeWhile (· ≤ b) := by
  induction l with
  | nil => rfl
  | cons n l ih =>
    have hn := h n (List.mem_cons_self ..)
    rw [List.takeWhile_cons, List.takeWhile_cons, ih fun m hm => h m (List.mem_cons_of_mem _ hm)]
    simp only [hn]

end Text

namespace Source

open Text (byteLength unitLength)

variable {s : Source} {before piece after : List Char}

/-- A later offset has no earlier position. -/
theorem position_mono (hsize : s.size < 2 ^ 32) {a b : Nat} (h : a ≤ b) :
    s.position a ≤ s.position b := by
  let cut := Text.takeBytes a s.text
  have htext : s.text = cut ++ Text.dropBytes a s.text :=
    (Text.takeBytes_append_dropBytes a s.text).symm
  have htext' : s.text = Text.takeBytes b s.text ++ Text.dropBytes b s.text :=
    (Text.takeBytes_append_dropBytes b s.text).symm
  have hcut : byteLength cut ≤ b := Nat.le_trans (Text.byteLength_takeBytes_le a s.text) h
  have hle := Text.byteLength_le_takeBytes hcut (Text.dropBytes a s.text)
  rw [← htext] at hle
  obtain ⟨mid, hmid, -⟩ := Text.exists_eq_append_of_byteLength_le (htext.symm.trans htext') hle
  rw [hmid] at htext'
  rw [position_eq_position_takeBytes s a, position_eq_position_takeBytes s b, hmid]
  by_cases hnil : mid = []
  · rw [hnil, List.append_nil]
    exact Position.le_refl _
  · exact Position.le_of_lt (position_lt hsize htext' hnil)

/-- No line begins inside a piece without breaks. -/
theorem lineOffsetsUpTo_append (htext : s.text = before ++ piece ++ after) (hreturn : '\r' ∉ piece)
    (hfeed : '\n' ∉ piece) :
    s.lineOffsetsUpTo (byteLength (before ++ piece)) = s.lineOffsetsUpTo (byteLength before) := by
  refine Text.takeWhile_congr fun e he => ?_
  rw [s.lineOffsets_eq, Text.lineOffsets, List.mem_cons] at he
  rw [Text.byteLength_append]
  refine ⟨fun hle => ?_, fun hle => by omega⟩
  rcases he with rfl | he
  · exact Nat.zero_le _
  · obtain ⟨before', c, after', htext', hc, rfl⟩ := Text.exists_break_of_mem_breakEnds he
    -- The break is one character, so it stands before the piece or inside it.
    apply Nat.le_of_not_lt
    intro hlt
    rw [htext, List.append_assoc] at htext'
    obtain ⟨mid, rfl, hmid⟩ := Text.exists_eq_append_of_byteLength_le htext' (by omega)
    have hcut : (mid ++ [c]) ++ after' = piece ++ after := by
      rw [hmid, List.append_assoc, List.singleton_append]
    have hlength : byteLength (mid ++ [c]) ≤ byteLength piece := by
      simp only [Text.byteLength_append, Text.byteLength_cons, Text.byteLength_nil,
        Text.utf8Size_of_break hc] at hle ⊢
      omega
    obtain ⟨rest, rfl, -⟩ := Text.exists_eq_append_of_byteLength_le hcut hlength
    have hmem : c ∈ mid ++ [c] ++ rest := by simp
    rcases hc with rfl | rfl
    · exact hreturn hmem
    · exact hfeed hmem

/-- Along a piece without breaks the line stays, and the column counts units. -/
theorem position_append (hsize : s.size < 2 ^ 32) (htext : s.text = before ++ piece ++ after)
    (hreturn : '\r' ∉ piece) (hfeed : '\n' ∉ piece) :
    (s.position (byteLength (before ++ piece))).line = (s.position (byteLength before)).line ∧
      (s.position (byteLength (before ++ piece))).column.toNat =
        (s.position (byteLength before)).column.toNat + unitLength piece := by
  have hlines := lineOffsetsUpTo_append htext hreturn hfeed
  have htext' : s.text = before ++ (piece ++ after) := by
    rw [htext, List.append_assoc]
  obtain ⟨head, mid, rfl, hstart⟩ := exists_lineStart htext'
  have hstart' : (s.lineOffsetsUpTo (byteLength (head ++ (mid ++ piece)))).getLastD 0 =
      byteLength head := by
    rw [← List.append_assoc, hlines, hstart]
  have hunits := Text.unitLength_le_byteLength (mid ++ piece)
  have hsmall : byteLength (mid ++ piece) ≤ s.size := by
    rw [size, htext]
    simp only [Text.byteLength_append]
    omega
  constructor
  · rw [line_position htext, line_position htext', hlines]
  · rw [column_position htext' hstart, List.append_assoc,
      column_position (by simpa using htext) hstart', toNat_toUInt32 hsize (by omega),
      Text.unitLength_append, toNat_toUInt32 hsize]
    rw [Text.unitLength_append] at hunits
    omega

/-! ### Ranges between boundaries -/

/-- A byte offset at which a character begins or the text ends. -/
def IsBoundary (s : Source) (offset : Nat) : Prop :=
  ∃ before after, s.text = before ++ after ∧ offset = byteLength before

/-- The range between two byte offsets. -/
def range (s : Source) (start stop : Nat) : Range :=
  ⟨s.position start, s.position stop⟩

variable {a b c d : Nat}

theorem position_eq_iff (hsize : s.size < 2 ^ 32) (ha : s.IsBoundary a) (hb : s.IsBoundary b) :
    s.position a = s.position b ↔ a = b := by
  obtain ⟨before, after, htext, rfl⟩ := ha
  obtain ⟨before', after', htext', rfl⟩ := hb
  exact ⟨byteLength_eq_of_position_eq hsize htext htext', fun h => by rw [h]⟩

theorem position_lt_iff (hsize : s.size < 2 ^ 32) (ha : s.IsBoundary a) (hb : s.IsBoundary b) :
    s.position a < s.position b ↔ a < b := by
  constructor
  · intro h
    apply Nat.lt_of_not_le
    intro hle
    exact Position.lt_irrefl _ (Position.lt_of_lt_of_le h (position_mono hsize hle))
  · intro h
    obtain ⟨before, after, htext, rfl⟩ := ha
    obtain ⟨before', after', htext', rfl⟩ := hb
    exact position_lt_of_byteLength_lt hsize htext htext' h

theorem position_le_iff (hsize : s.size < 2 ^ 32) (ha : s.IsBoundary a) (hb : s.IsBoundary b) :
    s.position a ≤ s.position b ↔ a ≤ b := by
  refine ⟨fun h => ?_, position_mono hsize⟩
  apply Nat.le_of_not_lt
  intro hlt
  have hposition := (position_lt_iff hsize hb ha).mpr hlt
  exact Position.lt_irrefl _ (Position.lt_of_lt_of_le hposition h)

theorem range_le_iff (hsize : s.size < 2 ^ 32) (ha : s.IsBoundary a) (hb : s.IsBoundary b)
    (hc : s.IsBoundary c) (hd : s.IsBoundary d) :
    s.range a b ≤ s.range c d ↔ toLex (a, b) ≤ toLex (c, d) := by
  rw [Range.le_def, Prod.Lex.toLex_le_toLex]
  exact or_congr (position_lt_iff hsize ha hc)
    (and_congr (position_eq_iff hsize ha hc) (position_le_iff hsize hb hd))

theorem range_lt_iff (hsize : s.size < 2 ^ 32) (ha : s.IsBoundary a) (hb : s.IsBoundary b)
    (hc : s.IsBoundary c) (hd : s.IsBoundary d) :
    s.range a b < s.range c d ↔ toLex (a, b) < toLex (c, d) := by
  rw [Range.lt_def, Prod.Lex.toLex_lt_toLex]
  exact or_congr (position_lt_iff hsize ha hc)
    (and_congr (position_eq_iff hsize ha hc) (position_lt_iff hsize hb hd))

/-- Ranges are sorted as their offsets are. -/
theorem sort_map_range (hsize : s.size < 2 ^ 32) {offsets : List (Nat × Nat)}
    (h : ∀ x ∈ offsets, s.IsBoundary x.1 ∧ s.IsBoundary x.2) :
    Range.sort (offsets.map fun x => s.range x.1 x.2) =
      (offsets.mergeSort fun x y => toLex x ≤ toLex y).map fun x => s.range x.1 x.2 := by
  rw [Range.sort]
  refine (List.map_mergeSort fun x hx y hy => ?_).symm
  obtain ⟨hx₁, hx₂⟩ := h x hx
  obtain ⟨hy₁, hy₂⟩ := h y hy
  exact decide_eq_decide.mpr (range_le_iff hsize hx₁ hx₂ hy₁ hy₂).symm

/-- The order of positions is the order of byte offsets.  It never reverses two offsets, and it
keeps two boundaries apart, so ranges between boundaries are compared as the pairs of their byte
offsets, and sorting the ranges puts them in the order of these pairs. -/
theorem position_order (s : Source) (hsize : s.size < 2 ^ 32) :
    (∀ a b, a ≤ b → s.position a ≤ s.position b) ∧
    (∀ a b, s.IsBoundary a → s.IsBoundary b →
      (s.position a < s.position b ↔ a < b) ∧ (s.position a = s.position b ↔ a = b)) ∧
    (∀ a b c d, s.IsBoundary a → s.IsBoundary b → s.IsBoundary c → s.IsBoundary d →
      (s.range a b < s.range c d ↔ toLex (a, b) < toLex (c, d)) ∧
      (s.range a b ≤ s.range c d ↔ toLex (a, b) ≤ toLex (c, d))) ∧
    ∀ offsets sorted : List (Nat × Nat), (∀ x ∈ offsets, s.IsBoundary x.1 ∧ s.IsBoundary x.2) →
      sorted.Perm offsets → sorted.Pairwise (fun x y => toLex x ≤ toLex y) →
      Range.sort (offsets.map fun x => s.range x.1 x.2) = sorted.map fun x => s.range x.1 x.2 := by
  refine ⟨fun a b => position_mono hsize, fun a b ha hb => ?positions,
    fun a b c d ha hb hc hd => ?ranges, fun offsets sorted hoffsets hperm hsorted => ?sort⟩
  case positions => exact ⟨position_lt_iff hsize ha hb, position_eq_iff hsize ha hb⟩
  case ranges => exact ⟨range_lt_iff hsize ha hb hc hd, range_le_iff hsize ha hb hc hd⟩
  case sort =>
    have hmerge := offsets.mergeSort_perm fun x y => toLex x ≤ toLex y
    have hpairwise : (offsets.mergeSort fun x y => toLex x ≤ toLex y).Pairwise
        fun x y => toLex x ≤ toLex y := by
      simpa using @List.pairwise_mergeSort _ (fun x y : Nat × Nat => toLex x ≤ toLex y)
        (fun x y z => by simpa using le_trans) (fun x y => by simpa using le_total _ _) offsets
    rw [sort_map_range hsize hoffsets]
    congr 1
    refine List.Perm.eq_of_pairwise ?_ hpairwise hsorted (hmerge.trans hperm.symm)
    exact fun x y _ _ hxy hyx => toLex.injective (le_antisymm hxy hyx)

/-- The offset between the two characters of a break belongs to the line before. -/
theorem position_order_pair :
    let s := Source.ofString "" "a\r\n𝄞b"
    s.size < 2 ^ 32 ∧ s.IsBoundary 2 ∧ s.IsBoundary 3 ∧ s.IsBoundary 7 ∧
      s.position 2 < s.position 3 ∧
      Range.sort [s.range 3 7, s.range 2 7] = [s.range 2 7, s.range 3 7] := by
  intro s
  have hsize : s.size < 2 ^ 32 := by decide
  have htwo : s.IsBoundary 2 := ⟨['a', '\r'], ['\n', '𝄞', 'b'], by decide, by decide⟩
  have hthree : s.IsBoundary 3 := ⟨['a', '\r', '\n'], ['𝄞', 'b'], by decide, by decide⟩
  have hseven : s.IsBoundary 7 := ⟨['a', '\r', '\n', '𝄞'], ['b'], by decide, by decide⟩
  obtain ⟨-, hpositions, -, hsort⟩ := position_order s hsize
  refine ⟨hsize, htwo, hthree, hseven, (hpositions 2 3 htwo hthree).1.mpr (by decide), ?_⟩
  exact hsort [(3, 7), (2, 7)] [(2, 7), (3, 7)] (by simp [htwo, hthree, hseven]) (by decide)
    (by decide)

end Source

end JsonNav
