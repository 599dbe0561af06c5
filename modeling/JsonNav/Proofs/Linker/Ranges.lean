import JsonNav.Proofs.Linker.References
import JsonNav.Proofs.Text.Position
import JsonNav.Proofs.Tree.Parse

/-! The ranges of the references of a parsed document.  The values of references stand one after the
other in the text, each at a place of its own, so no two references have the same range. -/

namespace JsonNav

open Text (byteLength)

namespace Linker

/-- The value of a node that is a reference. -/
def referenceValue? (l : Linker) (n : Tree) : Option Tree :=
  if n.key? = some l.key then n.value?.filter fun v => v.string?.isSome else none

theorem map_node_reference? (l : Linker) (p : Place) :
    (l.reference? p).map (·.value.node) = l.referenceValue? p.node := by
  unfold reference? referenceValue?
  split
  next =>
    rw [← Place.node_value?]
    cases p.value? with
    | none => rfl
    | some v =>
      cases hv : v.node.string? with
      | none => simp [hv, Option.filter]
      | some text => simp [hv, Option.filter]
  next => rfl

theorem map_value_references (l : Linker) (d : Document) :
    (l.references d).map (·.value.node) = d.root.preorder.filterMap l.referenceValue? := by
  rw [references, List.map_filterMap, ← Place.map_node_all, List.filterMap_map]
  exact congrArg (List.filterMap · _) (funext l.map_node_reference?)

/-- The key and the value of a reference are strings, so no node stands below them. -/
theorem eq_property_of_referenceValue? {l : Linker} {n w : Tree}
    (h : l.referenceValue? n = some w) :
    ∃ s ks k vs v, n = .property s (.string ks k) (some (.string vs v)) ∧ w = .string vs v := by
  unfold referenceValue? at h
  split at h
  next hkey =>
    obtain ⟨hvalue, hstring⟩ := Option.filter_eq_some_iff.mp h
    unfold Node.key? at hkey
    split at hkey
    next s k v =>
      obtain rfl : v = some w := hvalue
      obtain ⟨ks, text, rfl⟩ : ∃ ks text, k = .string ks text := by
        cases k with
        | string ks text => exact ⟨ks, text, rfl⟩
        | _ => exact nomatch hkey
      cases w with
      | string vs v => exact ⟨s, ks, text, vs, v, rfl, rfl⟩
      | _ => exact nomatch hstring
    next => exact nomatch hkey
  next => exact nomatch h

/-- What a reference stands at. -/
theorem node_of_reference? {l : Linker} {p : Place} {x : Reference}
    (h : l.reference? p = some x) :
    ∃ s ks vs, p.node = .property s (.string ks l.key) (some (.string vs x.text)) ∧
      x.property = p ∧ x.value.node = .string vs x.text := by
  obtain ⟨hproperty, hkey, hvalue, htext⟩ := reference?_eq_some h
  have hnode : l.referenceValue? p.node = some x.value.node := by
    rw [← map_node_reference?, h, Option.map_some]
  obtain ⟨s, ks, key, vs, text, hp, hx⟩ := eq_property_of_referenceValue? hnode
  rw [hp] at hkey
  rw [hx] at htext
  obtain rfl := Option.some.inj hkey
  obtain rfl := Option.some.inj htext
  exact ⟨s, ks, vs, hp, hproperty, hx⟩

mutual

/-- The values of references are among the nodes that are no properties, in their order. -/
theorem referenceValues_sublist (l : Linker) : (n : Tree) →
    (n.preorder.filterMap l.referenceValue?).Sublist (n.preorder.filter (·.kind ≠ .property))
  | .object s ps => by
    rw [Node.preorder, List.filterMap_cons_none (by simp [referenceValue?, Node.key?]),
      List.filter_cons_of_pos (by simp [Node.kind])]
    exact (referenceValues_sublist_all l ps).trans (List.sublist_cons_self ..)
  | .array s items => by
    rw [Node.preorder, List.filterMap_cons_none (by simp [referenceValue?, Node.key?]),
      List.filter_cons_of_pos (by simp [Node.kind])]
    exact (referenceValues_sublist_all l items).trans (List.sublist_cons_self ..)
  | .property s k none => by
    have hnone : l.referenceValue? (.property s k none) = none := by
      simp [referenceValue?, Node.value?]
    rw [Node.preorder, List.filterMap_cons_none hnone,
      List.filter_cons_of_neg (by simp [Node.kind])]
    exact referenceValues_sublist l k
  | .property s k (some v) => by
    rw [Node.preorder, List.filter_cons_of_neg (by simp [Node.kind])]
    cases hvalue : l.referenceValue? (.property s k (some v)) with
    | none =>
      rw [List.filterMap_cons_none hvalue, List.filterMap_append, List.filter_append]
      exact (referenceValues_sublist l k).append (referenceValues_sublist l v)
    | some w =>
      rw [List.filterMap_cons_some hvalue]
      obtain ⟨_, ks, key, vs, text, heq, rfl⟩ := eq_property_of_referenceValue? hvalue
      obtain ⟨-, rfl, hv⟩ := Node.property.inj heq
      obtain rfl := Option.some.inj hv
      simp [Node.preorder, referenceValue?, Node.key?, Node.kind]
  | .string .. | .number .. | .boolean .. | .null .. => by
    simp [Node.preorder, referenceValue?, Node.key?]

theorem referenceValues_sublist_all (l : Linker) : (ns : List Tree) →
    ((Node.preorderAll ns).filterMap l.referenceValue?).Sublist
      ((Node.preorderAll ns).filter (·.kind ≠ .property))
  | [] => by simp [Node.preorderAll]
  | n :: ns => by
    rw [Node.preorderAll, List.filterMap_append, List.filter_append]
    exact (referenceValues_sublist l n).append (referenceValues_sublist_all l ns)

end

theorem pairwise_value_offset (l : Linker) {d : Document} {m : Meaning String Binary64}
    {cs : List Char} (h : Grammar.Text m cs d.root) :
    (l.references d).Pairwise (·.value.node.offset < ·.value.node.offset) := by
  have hvalues := h.inOrder.sorted.sublist (referenceValues_sublist l d.root)
  rw [← map_value_references, List.pairwise_map] at hvalues
  exact hvalues

theorem value_mem_preorder {l : Linker} {d : Document} {x : Reference} (h : x ∈ l.references d) :
    x.value.node ∈ d.root.preorder := by
  have hmem : x.value.node ∈ (l.references d).map (·.value.node) := List.mem_map_of_mem h
  rw [map_value_references] at hmem
  exact (List.mem_filter.mp ((referenceValues_sublist l d.root).subset hmem)).1

end Linker

namespace Document

theorem parse_eq_ok {uri text : String} {d : Document} (h : parse uri text = .ok d) :
    d.source = .ofString uri text ∧ Tree.parse text.toList = .ok d.root := by
  obtain ⟨root, hroot, h⟩ := bind_eq_ok_iff.mp h
  obtain rfl := Except.ok.inj h
  exact ⟨rfl, hroot⟩

variable {uri text : String} {d : Document}

theorem size_eq (hd : parse uri text = .ok d) : d.source.size = byteLength text.toList := by
  rw [(parse_eq_ok hd).1]
  rfl

/-- A node of a parsed document begins with a character of one byte. -/
theorem exists_first (hd : parse uri text = .ok d) {n : Tree} (hn : n ∈ d.root.preorder) :
    ∃ before c after, d.source.text = before ++ c :: after ∧ c.utf8Size = 1 ∧
      byteLength before = n.offset := by
  obtain ⟨hsource, hroot⟩ := parse_eq_ok hd
  obtain ⟨before, c, piece, after, htext, hc, hspan⟩ :=
    (Tree.text_of_parse hroot).inOrder.stands n hn
  refine ⟨before, c, piece ++ after, ?_, hc, ?_⟩
  · rw [hsource]
    exact htext.trans (List.append_assoc ..)
  · rw [Node.offset, hspan, Nat.zero_add]

theorem offset_eq_of_interior_eq (hd : parse uri text = .ok d)
    (hsize : byteLength text.toList < 2 ^ 32) {m n : Tree} (hm : m ∈ d.root.preorder)
    (hn : n ∈ d.root.preorder) (h : Link.interior d m = Link.interior d n) :
    m.offset = n.offset := by
  have hinside {k : Tree} (hk : k ∈ d.root.preorder) :
      ∃ before after, d.source.text = before ++ after ∧ byteLength before = k.offset + 1 := by
    obtain ⟨before, c, after, htext, hc, hbefore⟩ := exists_first hd hk
    exact ⟨before ++ [c], after, by simp [htext], by simp [hc, hbefore]⟩
  obtain ⟨before, after, htext, hbefore⟩ := hinside hm
  obtain ⟨before', after', htext', hbefore'⟩ := hinside hn
  have hsize' : d.source.size < 2 ^ 32 := size_eq hd ▸ hsize
  have hposition : d.source.position (m.offset + 1) = d.source.position (n.offset + 1) :=
    congrArg Range.start h
  rw [← hbefore, ← hbefore'] at hposition
  have hlength := Source.byteLength_eq_of_position_eq hsize' htext htext' hposition
  omega

/-- The references of a parsed document have different ranges. -/
theorem nodup_interior_references (l : Linker) (hd : parse uri text = .ok d)
    (hsize : byteLength text.toList < 2 ^ 32) :
    ((l.references d).map fun x => Link.interior d x.value.node).Nodup := by
  have hroot := Tree.text_of_parse (parse_eq_ok hd).2
  rw [List.Nodup, List.pairwise_map]
  refine (l.pairwise_value_offset hroot).imp_of_mem ?_
  intro x y hx hy hlt heq
  have hsame := offset_eq_of_interior_eq hd hsize (Linker.value_mem_preorder hx)
    (Linker.value_mem_preorder hy) heq
  omega

end Document

end JsonNav
