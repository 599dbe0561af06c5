import JsonNav.Proofs.Linker.References
import JsonNav.Proofs.Pointer.Follow
import JsonNav.Proofs.Tree.Decidable
import JsonNav.Proofs.Tree.Outline

/-! Links are found by what the tree of a text says, and not by how the text is written.  Two
documents whose trees have one outline have links at the same properties to the same nodes, and
list the same files at the same properties. -/

namespace JsonNav

namespace Linker

/-- The references that lead to a place in their own document, each with that place. -/
def resolved (l : Linker) (d : Document) : List (Reference × Place) :=
  (l.references d).filterMap fun x => (d.root.follow? x.text).map fun target => (x, target)

theorem localLinks_eq_map_resolved (l : Linker) (d : Document) :
    l.localLinks d =
      (l.resolved d).map fun (x, target) => .between d x.value.node d target.node := by
  rw [localLinks, localOutcomes, Outcome.links, resolved, List.filterMap_map, List.map_filterMap]
  refine List.filterMap_congr fun x _ => ?_
  rw [Function.comp_apply, Reference.localOutcome]
  cases d.root.follow? x.text <;> rfl

end Linker

theorem Tree.mem_all_of_follow? {t : Tree} {pointer : String} {p : Place}
    (h : t.follow? pointer = some p) : p ∈ Place.all t := by
  obtain ⟨tokens, -, hdescend⟩ := follow?_eq_some_iff.mp h
  exact Place.mem_all_iff.mpr (Place.path_of_descend hdescend).covers

namespace Linker

variable {l : Linker} {d e : Document}

theorem mem_resolved_iff {x : Reference} {p : Place} :
    (x, p) ∈ l.resolved d ↔ x ∈ l.references d ∧ d.root.follow? x.text = some p := by
  rw [resolved, List.mem_filterMap]
  constructor
  · rintro ⟨y, hy, h⟩
    obtain ⟨q, hq, heq⟩ := Option.map_eq_some_iff.mp h
    obtain ⟨rfl, rfl⟩ := Prod.mk.inj heq
    exact ⟨hy, hq⟩
  · rintro ⟨hx, hp⟩
    exact ⟨x, hx, by rw [hp, Option.map_some]⟩

theorem mem_all_of_mem_resolved {x : Reference} {p : Place} (h : (x, p) ∈ l.resolved d) :
    x.property ∈ Place.all d.root ∧ p ∈ Place.all d.root := by
  obtain ⟨hx, hp⟩ := mem_resolved_iff.mp h
  obtain ⟨q, hq, hreference⟩ := List.mem_filterMap.mp hx
  rw [(reference?_eq_some hreference).1]
  exact ⟨hq, Tree.mem_all_of_follow? hp⟩

end Linker

/-! ### Outlines -/

/-- The same reference in the outline of its tree. -/
def Reference.outline (x : Reference) : Reference :=
  ⟨x.property.outline, x.value.outline, x.text⟩

/-- The same reference with the address of its file. -/
def Outbound.outline (x : Outbound) : Outbound :=
  ⟨x.reference.outline, x.uri⟩

namespace Linker

variable {l : Linker} {d e : Document}

theorem reference?_outline (l : Linker) (p : Place) :
    l.reference? p.outline = (l.reference? p).map Reference.outline := by
  have hkey : p.outline.node.key? = p.node.key? := p.node.key?_outline
  rw [reference?, reference?, hkey, Place.value?_outline]
  split
  next =>
    cases p.value? with
    | none => rfl
    | some v =>
      show (v.outline.node.string?).bind _ = Option.map _ (v.node.string?.bind _)
      rw [show v.outline.node.string? = v.node.string? from v.node.string?_outline]
      cases v.node.string? <;> rfl
  next => rfl

theorem map_outline_references (l : Linker) (d : Document) :
    (l.references d).map Reference.outline =
      (Place.all d.root.outline).filterMap l.reference? := by
  rw [references, Place.all_outline, List.filterMap_map, List.map_filterMap]
  exact List.filterMap_congr fun p _ => (l.reference?_outline p).symm

theorem map_outline_resolved (l : Linker) (d : Document) :
    (l.resolved d).map (fun (x, p) => (x.outline, p.outline)) =
      ((l.references d).map Reference.outline).filterMap fun x =>
        (d.root.outline.follow? x.text).map fun target => (x, target) := by
  rw [resolved, List.map_filterMap, List.filterMap_map]
  refine List.filterMap_congr fun x _ => ?_
  rw [Function.comp_apply, Tree.follow?_outline]
  show _ = ((d.root.follow? x.text).map Place.outline).map _
  cases d.root.follow? x.text <;> rfl

theorem outbound?_outline (d : Document) (r : Resolver) (x : Reference) :
    x.outline.outbound? d r = (x.outbound? d r).map Outbound.outline := by
  have hparts : x.outline.parts = x.parts := rfl
  rw [Reference.outbound?, Reference.outbound?, hparts]
  split
  next => rfl
  next => cases r.address? x.parts.file d.uri <;> rfl

theorem map_outline_outbound (l : Linker) (d : Document) (r : Resolver) :
    (l.outbound d r).map Outbound.outline =
      ((l.references d).map Reference.outline).filterMap (Reference.outbound? d r) := by
  rw [outbound, List.map_filterMap, List.filterMap_map]
  exact List.filterMap_congr fun x _ => (outbound?_outline d r x).symm

/-- Only the address of a document counts for where its files are. -/
theorem outbound?_of_uri_eq (h : d.uri = e.uri) (r : Resolver) :
    Reference.outbound? d r = Reference.outbound? e r := by
  funext x
  rw [Reference.outbound?, Reference.outbound?, h]

/-- How a text is written does not matter for its links.  If two documents have one outline, as they
have when their trees differ in spans only (`Node.outline_eq_of_mapSpan_eq`), their links inside
come one by one from properties of one index and lead to nodes of one index.  If they have one
address too, they list the same files, at properties of one index. -/
theorem links_of_outline_eq (l : Linker) {d e : Document} (h : d.root.outline = e.root.outline) :
    (∀ c : Document,
      l.localLinks c =
        (l.resolved c).map (fun (x, target) => .between c x.value.node c target.node) ∧
      ∀ a ∈ l.resolved c, a.1.property ∈ Place.all c.root ∧ a.2 ∈ Place.all c.root) ∧
    (l.localLinks d).length = (l.localLinks e).length ∧
    (l.resolved d).map (fun (x, target) => (x.property.index, target.index)) =
      (l.resolved e).map (fun (x, target) => (x.property.index, target.index)) ∧
    ∀ r, d.uri = e.uri →
      (l.outbound d r).map (fun o => (o.uri, o.reference.property.index)) =
        (l.outbound e r).map fun o => (o.uri, o.reference.property.index) := by
  have hresolved : (l.resolved d).map (fun (x, target) => (x.outline, target.outline)) =
      (l.resolved e).map fun (x, target) => (x.outline, target.outline) := by
    rw [map_outline_resolved, map_outline_resolved, map_outline_references,
      map_outline_references, h]
  have hindices := congrArg (List.map fun (x, target) => (x.property.index, target.index)) hresolved
  rw [List.map_map, List.map_map] at hindices
  refine ⟨fun c => ⟨localLinks_eq_map_resolved l c, fun a ha => mem_all_of_mem_resolved ha⟩,
    ?count, hindices, fun r huri => ?files⟩
  case count =>
    have hcount := congrArg List.length hindices
    rw [List.length_map, List.length_map] at hcount
    rw [localLinks_eq_map_resolved, localLinks_eq_map_resolved, List.length_map, List.length_map,
      hcount]
  case files =>
    have houtbound : (l.outbound d r).map Outbound.outline =
        (l.outbound e r).map Outbound.outline := by
      rw [map_outline_outbound, map_outline_outbound, map_outline_references,
        map_outline_references, h, outbound?_of_uri_eq huri]
    have hfiles := congrArg (List.map fun o => (o.uri, o.reference.property.index)) houtbound
    rwa [List.map_map, List.map_map] at hfiles

/-- Other spaces, another spelling of the key `$ref` and of the pointer, another spelling of the
number: the link leads from the first property to the same node. -/
theorem links_of_outline_eq_escape :
    ∃ d e : Document,
      Document.parse "" "\x7b\"$ref\":\"#/a\",\"a\":1\x7d" = .ok d ∧
      Document.parse "" "\x7b\"\\u0024ref\": \"#\\/a\",\n\"a\": 1.0\x7d" = .ok e ∧
      d.root.outline = e.root.outline ∧
      (({} : Linker).resolved d).map (fun (x, target) => (x.property.index, target.index)) =
        (({} : Linker).resolved e).map (fun (x, target) => (x.property.index, target.index)) ∧
      (({} : Linker).resolved e).map (fun (x, target) => (x.property.index, target.index)) =
        [(1, 6)] := by
  refine ⟨
    ⟨.ofString "" "\x7b\"$ref\":\"#/a\",\"a\":1\x7d", .object ⟨0, 20⟩ [
      .property ⟨1, 12⟩ (.string ⟨1, 6⟩ "$ref") (some (.string ⟨8, 5⟩ "#/a")),
      .property ⟨14, 5⟩ (.string ⟨14, 3⟩ "a") (some (.number ⟨18, 1⟩ ⟨0x3ff0000000000000⟩))]⟩,
    ⟨.ofString "" "\x7b\"\\u0024ref\": \"#\\/a\",\n\"a\": 1.0\x7d", .object ⟨0, 31⟩ [
      .property ⟨1, 19⟩ (.string ⟨1, 11⟩ "$ref") (some (.string ⟨14, 6⟩ "#/a")),
      .property ⟨22, 8⟩ (.string ⟨22, 3⟩ "a") (some (.number ⟨27, 3⟩ ⟨0x3ff0000000000000⟩))]⟩,
    ?first, ?second, ?outline, (links_of_outline_eq {} ?outline).2.2.1, ?indices⟩
  case first => decide +kernel
  case second => decide +kernel
  case outline => exact Node.outline_eq_of_mapSpan_eq (f := fun _ => ⟨0, 0⟩) rfl
  case indices => decide

end Linker

end JsonNav
