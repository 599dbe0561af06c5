import Mathlib.Data.List.Forall2
import JsonNav.Proofs.Link.Interior
import JsonNav.Proofs.Linker.Reformatting
import JsonNav.Proofs.Tree.Decidable

/-! The links inside a parsed document.  There is one for each property that is a reference to a
place of the same tree, and none for any other node.  They come in the order of the text, and each
range ends before the next one starts. -/

namespace JsonNav

open Text (byteLength)

namespace Linker

/-- The property at `p` has the marking key, and for its value a string that leads to a place of the
same tree, and `k` is the link from that value to that place. -/
def Links (l : Linker) (d : Document) (p : Place) (k : Link) : Prop :=
  ∃ s ks vs text target, p.node = .property s (.string ks l.key) (some (.string vs text)) ∧
    d.root.follow? text = some target ∧ k = .between d (.string vs text) d target.node

variable {l : Linker} {d : Document} {p : Place} {x y : Reference}

theorem exists_reference? {s ks vs : Span} {text : String}
    (h : p.node = .property s (.string ks l.key) (some (.string vs text))) :
    ∃ x, l.reference? p = some x ∧ x.text = text := by
  have hkey : p.node.key? = some l.key := by
    rw [h]
    rfl
  have hvalue := p.node_value?
  rw [h] at hvalue
  obtain ⟨v, hv, hnode⟩ := Option.map_eq_some_iff.mp hvalue
  refine ⟨⟨p, v, text⟩, ?_, rfl⟩
  rw [reference?, if_pos hkey, hv]
  show (v.node.string?).bind _ = _
  rw [hnode]
  rfl

/-- The place of a reference that leads to a place of its own tree is linked to it. -/
theorem links_of_mem_resolved {target : Place} (h : (x, target) ∈ l.resolved d) :
    l.Links d x.property (.between d x.value.node d target.node) := by
  obtain ⟨hx, hfollow⟩ := mem_resolved_iff.mp h
  obtain ⟨s, ks, vs, hnode, -, hvalue⟩ := node_of_reference? (reference?_of_mem hx)
  exact ⟨s, ks, vs, x.text, target, hnode, hfollow, by rw [hvalue]⟩

/-- The places that are linked are those of the references that lead to a place of their own tree.
-/
theorem exists_mem_resolved_iff :
    (∃ a ∈ l.resolved d, a.1.property = p) ↔ p ∈ Place.all d.root ∧ ∃ k, l.Links d p k := by
  constructor
  · rintro ⟨⟨x, target⟩, ha, rfl⟩
    exact ⟨(mem_all_of_mem_resolved ha).1, _, links_of_mem_resolved ha⟩
  · rintro ⟨hp, k, s, ks, vs, text, target, hnode, hfollow, -⟩
    obtain ⟨x, hx, rfl⟩ := exists_reference? hnode
    refine ⟨(x, target), mem_resolved_iff.mpr ⟨?_, hfollow⟩, (reference?_eq_some hx).1⟩
    exact List.mem_filterMap.mpr ⟨p, hp, hx⟩

/-- The places that are linked have the links inside the document, one by one. -/
theorem forall₂_links_resolved (l : Linker) (d : Document) :
    List.Forall₂ (l.Links d) ((l.resolved d).map (·.1.property)) (l.localLinks d) := by
  rw [l.localLinks_eq_map_resolved, List.forall₂_map_left_iff, List.forall₂_map_right_iff,
    List.forall₂_same]
  exact fun a ha => links_of_mem_resolved ha

end Linker

namespace Document

variable {uri text : String} {d : Document}

/-- The value of a reference lies in its property. -/
theorem value_within_property (hd : parse uri text = .ok d) {l : Linker} {x : Reference}
    (hx : x ∈ l.references d) :
    x.property.node.offset ≤ x.value.node.offset ∧ x.value.node.stop ≤ x.property.node.stop := by
  obtain ⟨p, hp, hreference⟩ := List.mem_filterMap.mp hx
  obtain ⟨s, ks, vs, hnode, rfl, hvalue⟩ := Linker.node_of_reference? hreference
  refine (Tree.nests_of_parse (parse_eq_ok hd).2 (Place.node_mem_preorder hp)).inside _ ?_
  rw [hnode, hvalue]
  simp [Node.children]

/-- Each reference of a parsed document ends before the next one begins. -/
theorem pairwise_property_references (hd : parse uri text = .ok d) (l : Linker) :
    (l.references d).Pairwise fun x y => x.property.node.stop ≤ y.property.node.offset := by
  have hnests : ∀ n ∈ d.root.preorder, n.Nests :=
    fun n hn => Tree.nests_of_parse (parse_eq_ok hd).2 hn
  have hall := Node.apart_of_nests d.root hnests
  rw [← Place.map_node_all, List.pairwise_map] at hall
  rw [Linker.references, List.pairwise_filterMap]
  refine hall.imp fun {p q} hpq x hx y hy => ?_
  obtain ⟨s, ks, vs, hp, rfl, -⟩ := Linker.node_of_reference? hx
  obtain ⟨s', ks', vs', hq, rfl, -⟩ := Linker.node_of_reference? hy
  rcases hpq with hpq | hbelow
  · exact hpq
  · -- Below a reference there are only the two strings.
    rw [hp, hq] at hbelow
    simp [Node.children, Node.preorder] at hbelow

theorem pairwise_range_localLinks (hd : parse uri text = .ok d) (hsize : d.source.size < 2 ^ 32)
    (l : Linker) : (l.localLinks d).Pairwise fun a b => a.range.stop < b.range.start := by
  rw [l.localLinks_eq_map_resolved, List.pairwise_map, Linker.resolved, List.pairwise_filterMap]
  refine (pairwise_property_references hd l).imp_of_mem ?_
  intro x y hx hy hxy a ha b hb
  obtain ⟨target, -, rfl⟩ := Option.map_eq_some_iff.mp ha
  obtain ⟨target', -, rfl⟩ := Option.map_eq_some_iff.mp hb
  have hxvalue := Linker.value_mem_preorder hx
  have hyvalue := Linker.value_mem_preorder hy
  have hstop := (value_within_property hd hx).2
  have hoffset := (value_within_property hd hy).1
  obtain ⟨-, -, vs, -, -, hvs⟩ := Linker.node_of_reference? (Linker.reference?_of_mem hx)
  obtain ⟨-, -, vs', -, -, hvs'⟩ := Linker.node_of_reference? (Linker.reference?_of_mem hy)
  show (Link.interior d x.value.node).stop < (Link.interior d y.value.node).start
  have hapart : x.value.node.stop ≤ y.value.node.offset := by omega
  rw [hvs] at hxvalue hapart ⊢
  rw [hvs'] at hyvalue hapart ⊢
  exact stop_interior_lt_start hd hsize hxvalue hyvalue hapart

/-- The links inside a parsed document are complete, in order, and apart from one another.  Those
properties are linked that are references to a place of their own tree, each by one link, whether or
not their object has other properties with the same key.  The properties and their links come in the
order of the text, each ends before the next begins, and no two links have one range. -/
theorem localLinks_exact (hd : parse uri text = .ok d) (hsize : byteLength text.toList < 2 ^ 32)
    (l : Linker) :
    ∃ sites : List Place,
      (∀ p, p ∈ sites ↔ p ∈ Place.all d.root ∧ ∃ k, l.Links d p k) ∧
      sites.Pairwise (fun p q => p.index < q.index ∧ p.node.stop ≤ q.node.offset) ∧
      List.Forall₂ (l.Links d) sites (l.localLinks d) ∧
      (l.localLinks d).Pairwise (fun a b => a.range.stop < b.range.start) ∧
      ((l.localLinks d).map (·.range)).Nodup := by
  have hsize' : d.source.size < 2 ^ 32 := size_eq hd ▸ hsize
  have hapart := pairwise_range_localLinks hd hsize' l
  refine ⟨(l.resolved d).map (·.1.property), ?sites, ?order, l.forall₂_links_resolved d, hapart,
    ?nodup⟩
  case sites =>
    intro p
    rw [List.mem_map, Linker.exists_mem_resolved_iff]
  case order =>
    rw [List.pairwise_map, Linker.resolved, List.pairwise_filterMap]
    refine ((l.pairwise_references d).and (pairwise_property_references hd l)).imp ?_
    intro x y hxy a ha b hb
    obtain ⟨target, -, rfl⟩ := Option.map_eq_some_iff.mp ha
    obtain ⟨target', -, rfl⟩ := Option.map_eq_some_iff.mp hb
    exact hxy
  case nodup =>
    have hordered : ∀ k ∈ l.localLinks d, k.range.start ≤ k.range.stop := by
      intro k hk
      rw [l.localLinks_eq_map_resolved] at hk
      obtain ⟨a, -, rfl⟩ := List.mem_map.mp hk
      exact Link.start_le_stop_interior hsize' a.1.value.node
    rw [List.Nodup, List.pairwise_map]
    refine hapart.imp_of_mem fun {a b} ha _ hlt heq => ?_
    rw [← heq] at hlt
    exact Position.lt_irrefl _ (Position.lt_of_lt_of_le hlt (hordered a ha))

/-- One object has the key three times, and its second value is no pointer. -/
theorem localLinks_exact_duplicates :
    let text := "\x7b\"$ref\":\"#\",\"$ref\":\"é\",\"$ref\":\"#/$ref\"\x7d"
    let links : List Link :=
      [⟨⟨⟨0, 9⟩, ⟨0, 10⟩⟩, some "#1,1"⟩, ⟨⟨⟨0, 31⟩, ⟨0, 37⟩⟩, some "#1,9"⟩]
    ∃ d, parse "" text = .ok d ∧ byteLength text.toList < 2 ^ 32 ∧
      ({} : Linker).localLinks d = links ∧
      ∃ sites : List Place,
        (∀ p, p ∈ sites ↔ p ∈ Place.all d.root ∧ ∃ k, ({} : Linker).Links d p k) ∧
        List.Forall₂ (({} : Linker).Links d) sites links := by
  intro text links
  let d : Document := ⟨.ofString "" text, .object ⟨0, 40⟩ [
    .property ⟨1, 10⟩ (.string ⟨1, 6⟩ "$ref") (some (.string ⟨8, 3⟩ "#")),
    .property ⟨12, 11⟩ (.string ⟨12, 6⟩ "$ref") (some (.string ⟨19, 4⟩ "é")),
    .property ⟨24, 15⟩ (.string ⟨24, 6⟩ "$ref") (some (.string ⟨31, 8⟩ "#/$ref"))]⟩
  have hd : parse "" text = .ok d := by
    subst d text
    decide +kernel
  have hsize : byteLength text.toList < 2 ^ 32 := by decide
  have hlinks : ({} : Linker).localLinks d = links := by decide
  obtain ⟨sites, hsites, -, hforall, -⟩ := localLinks_exact hd hsize {}
  rw [hlinks] at hforall
  exact ⟨d, hd, hsize, hlinks, sites, hsites, hforall⟩

end Document

end JsonNav
