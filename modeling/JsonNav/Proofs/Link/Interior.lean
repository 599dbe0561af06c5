import JsonNav.Proofs.Linker.Ranges
import JsonNav.Proofs.Text.Order
import JsonNav.Proofs.Tree.Quotation

/-! The range of a link.  It never ends before it starts, whatever span the string has.  In a parsed
document it reaches from the opening quote of the string to its closing quote, which stand on one
line, and the text between them spells the string. -/

namespace JsonNav

open Text (byteLength unitLength)

/-- The value of a reference is written as `body` between quotes, after `before`, and a range
reaches from just after the opening quote up to the closing quote, on one line. -/
structure Reference.Covers (d : Document) (x : Reference) (range : Range)
    (before body after : List Char) : Prop where
  text : d.source.text = before ++ '"' :: (body ++ '"' :: after)
  value : x.value.node = .string ⟨byteLength before, byteLength body + 2⟩ x.text
  spells : Text.Quoted.Spells body x.text.toList
  start : range.start = d.position (byteLength before + 1)
  stop : range.stop = d.position (byteLength before + 1 + byteLength body)
  line : range.start.line = range.stop.line
  column : range.stop.column.toNat = range.start.column.toNat + unitLength body

theorem Link.start_le_stop_interior {d : Document} (hsize : d.source.size < 2 ^ 32) (v : Tree) :
    (interior d v).start ≤ (interior d v).stop :=
  Source.position_mono hsize (Nat.le_max_right ..)

namespace Document

variable {uri text : String} {d : Document}

/-- A string of a parsed document is written between quotes. -/
theorem exists_quoted (hd : parse uri text = .ok d) {s : Span} {x : String}
    (hn : .string s x ∈ d.root.preorder) :
    ∃ before body after, d.source.text = before ++ '"' :: (body ++ '"' :: after) ∧
      s = ⟨byteLength before, byteLength body + 2⟩ ∧ Text.Quoted.Spells body x.toList := by
  obtain ⟨hsource, hroot⟩ := parse_eq_ok hd
  rw [hsource]
  exact Tree.exists_quoted hroot hn

/-- The range of a string reaches from just after the opening quote up to the closing quote. -/
theorem interior_string {before body : List Char} {x : String} :
    Link.interior d (.string ⟨byteLength before, byteLength body + 2⟩ x) =
      ⟨d.position (byteLength before + 1),
        d.position (byteLength before + 1 + byteLength body)⟩ := by
  have hstop : max (byteLength before + (byteLength body + 2) - 1) (byteLength before + 1) =
      byteLength before + 1 + byteLength body := by omega
  show Range.mk (d.position _) (d.position (max _ _)) = _
  rw [← hstop]
  rfl

theorem covers_interior (hd : parse uri text = .ok d) (hsize : d.source.size < 2 ^ 32)
    {x : Reference} {s : Span} (hnode : x.value.node = .string s x.text)
    (hmem : x.value.node ∈ d.root.preorder) :
    ∃ before body after, x.Covers d (Link.interior d x.value.node) before body after := by
  rw [hnode] at hmem
  obtain ⟨before, body, after, htext, rfl, hspells⟩ := exists_quoted hd hmem
  have hcontrol {c : Char} (hc : c.toNat < 0x20) : c ∉ body := by
    intro hmem
    have := hspells.not_control c hmem
    omega
  have hcut : d.source.text = before ++ ['"'] ++ body ++ '"' :: after := by
    rw [htext]
    simp
  obtain ⟨hline, hcolumn⟩ :=
    Source.position_append hsize hcut (hcontrol (by decide)) (hcontrol (by decide))
  rw [Text.byteLength_append _ body, Text.byteLength_append_quote] at hline hcolumn
  rw [hnode, interior_string]
  exact ⟨before, body, after, htext, hnode, hspells, rfl, rfl, hline.symm, hcolumn⟩

/-- Of two strings one of which ends before the other begins, the ranges do not touch. -/
theorem stop_interior_lt_start (hd : parse uri text = .ok d) (hsize : d.source.size < 2 ^ 32)
    {s t : Span} {x y : String} (hs : .string s x ∈ d.root.preorder)
    (ht : .string t y ∈ d.root.preorder) (h : s.stop ≤ t.offset) :
    (Link.interior d (.string s x)).stop < (Link.interior d (.string t y)).start := by
  obtain ⟨before, body, after, htext, rfl, -⟩ := exists_quoted hd hs
  obtain ⟨before', body', after', htext', rfl, -⟩ := exists_quoted hd ht
  have hcut : d.source.text = before ++ ['"'] ++ body ++ '"' :: after := by
    rw [htext]
    simp
  have hcut' : d.source.text = before' ++ ['"'] ++ (body' ++ '"' :: after') := by
    rw [htext']
    simp
  have hlt : byteLength (before ++ ['"'] ++ body) < byteLength (before' ++ ['"']) := by
    rw [Text.byteLength_append, Text.byteLength_append_quote, Text.byteLength_append_quote]
    simp only [Span.stop] at h
    omega
  have hposition := Source.position_lt_of_byteLength_lt hsize hcut hcut' hlt
  rw [Text.byteLength_append, Text.byteLength_append_quote, Text.byteLength_append_quote]
    at hposition
  rw [interior_string, interior_string]
  exact hposition

end Document

end JsonNav
