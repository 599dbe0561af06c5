import JsonNav.Proofs.Link.Interior
import JsonNav.Proofs.Linker.Linking
import JsonNav.Proofs.Tree.Decidable

/-! What the ranges of links cover.  In a parsed document each link covers the text of its own
reference, whichever way it was made. -/

namespace JsonNav

open Text (byteLength)

/-- The range of a link never ends before it starts, whatever spans the tree has.  If the document
was parsed, and all destinations are given for places of it, each link covers the text of the
reference that it was made for. -/
theorem Linking.range_covers (w : Linking) (l : Linker) (d : Document)
    (hsize : d.source.size < 2 ^ 32) :
    w.links l d = (w.pairs l d).map (·.2) ∧
    (∀ k ∈ w.links l d, k.range.start ≤ k.range.stop) ∧
    ∀ uri text, Document.parse uri text = .ok d →
      (∀ t ∈ w.destinations, t.source ∈ Place.all d.root) →
      ∀ x k, (x, k) ∈ w.pairs l d → x ∈ l.references d ∧
        ∃ before body after, x.Covers d k.range before body after := by
  refine ⟨links_eq_map_pairs l d w, ?ordered, ?covers⟩
  case ordered =>
    intro k hk
    rw [links_eq_map_pairs] at hk
    obtain ⟨⟨x, k⟩, hpair, rfl⟩ := List.mem_map.mp hk
    rw [(reference_of_mem_pairs hpair).2]
    exact Link.start_le_stop_interior hsize x.value.node
  case covers =>
    intro uri text hd hsources x k hpair
    obtain ⟨hreference, hrange⟩ := reference_of_mem_pairs hpair
    have hx : x ∈ l.references d := by
      rcases hreference with hx | ⟨t, ht, hx⟩
      · exact hx
      · exact List.mem_filterMap.mpr ⟨t.source, hsources t ht, hx⟩
    obtain ⟨-, -, vs, -, -, hnode⟩ := Linker.node_of_reference? (Linker.reference?_of_mem hx)
    rw [hrange]
    exact ⟨hx, Document.covers_interior hd hsize hnode (Linker.value_mem_preorder hx)⟩

/-- The reference is written with an escape, on a line after a character of two bytes. -/
theorem Linking.range_covers_escape :
    let text := "[\"é\",\n\x7b\"$ref\":\"\\u0023\"\x7d]"
    let property : Tree :=
      .property ⟨8, 15⟩ (.string ⟨8, 6⟩ "$ref") (some (.string ⟨15, 8⟩ "#"))
    let x : Reference := ⟨⟨3, property⟩, ⟨5, .string ⟨15, 8⟩ "#"⟩, "#"⟩
    ∃ d, Document.parse "" text = .ok d ∧ d.source.size < 2 ^ 32 ∧
      inside.pairs {} d = [(x, ⟨⟨⟨1, 9⟩, ⟨1, 15⟩⟩, some "#1,1"⟩)] ∧
      ∃ before body after, x.Covers d ⟨⟨1, 9⟩, ⟨1, 15⟩⟩ before body after := by
  intro text property x
  let d : Document := ⟨.ofString "" text, .array ⟨0, 25⟩
    [.string ⟨1, 4⟩ "é", .object ⟨7, 17⟩ [property]]⟩
  have hd : Document.parse "" text = .ok d := by
    subst d property text
    decide +kernel
  have hsize : d.source.size < 2 ^ 32 := by decide
  have hpairs : inside.pairs {} d = [(x, ⟨⟨⟨1, 9⟩, ⟨1, 15⟩⟩, some "#1,1"⟩)] := by
    subst x d property text
    decide +kernel
  refine ⟨d, hd, hsize, hpairs, ?_⟩
  have hmem : (x, ⟨⟨⟨1, 9⟩, ⟨1, 15⟩⟩, some "#1,1"⟩) ∈ inside.pairs {} d := by
    rw [hpairs]
    exact List.mem_singleton_self _
  have hsources : ∀ t ∈ inside.destinations, t.source ∈ Place.all d.root :=
    fun _ ht => absurd ht List.not_mem_nil
  exact ((range_covers inside {} d hsize).2.2 "" text hd hsources x _ hmem).2

end JsonNav
