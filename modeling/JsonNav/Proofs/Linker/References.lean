import JsonNav.Linker.Outbound

/-! References and where they may lead.  A reference that names a file is no pointer, so a reference
never has both a link inside its document and a file. -/

namespace JsonNav

theorem FilePointer.isLocal_ofString {s : String} :
    (FilePointer.ofString s).isLocal = true ↔ ∀ c ∈ s.toList.head?, c = '#' := by
  rw [isLocal, ofString, String.isEmpty_iff, String.ofList_eq_empty_iff]
  cases s.toList with
  | nil => simp
  | cons c cs => simp [List.takeWhile_cons]

theorem Pointer.head?_of_parse {s : String} {tokens : List String} (h : parse s = .ok tokens) :
    s.toList.head? = some '#' := by
  unfold parse at h
  split at h
  next hs => rw [hs]; rfl
  next hs => rw [hs]; rfl
  next => exact nomatch h

/-- A text that leads to a place of a tree names no file. -/
theorem Tree.isLocal_of_follow? {t : Tree} {s : String} {p : Place} (h : t.follow? s = some p) :
    (FilePointer.ofString s).isLocal = true := by
  rw [FilePointer.isLocal_ofString]
  unfold Tree.follow? at h
  cases hparse : Pointer.parse s with
  | error e =>
    rw [hparse] at h
    exact nomatch h
  | ok tokens =>
    rw [Pointer.head?_of_parse hparse]
    simp

namespace Reference

variable {d : Document} {x : Reference}

theorem link?_localOutcome_of_not_isLocal (h : x.parts.isLocal = false) :
    (x.localOutcome d).link? = none := by
  unfold localOutcome
  split
  next target hfollow =>
    have hlocal : x.parts.isLocal = true := Tree.isLocal_of_follow? hfollow
    rw [h] at hlocal
    exact nomatch hlocal
  next => rfl

end Reference

namespace Linker

variable {l : Linker} {p : Place} {x : Reference}

theorem reference?_eq_some (h : l.reference? p = some x) :
    x.property = p ∧ p.node.key? = some l.key ∧ p.value? = some x.value ∧
      x.value.node.string? = some x.text := by
  unfold reference? at h
  split at h
  next hkey =>
    obtain ⟨value, hvalue, h⟩ := Option.bind_eq_some_iff.mp h
    obtain ⟨text, htext, h⟩ := Option.bind_eq_some_iff.mp h
    obtain rfl := Option.some.inj h
    exact ⟨rfl, hkey, hvalue, htext⟩
  next => exact nomatch h

theorem reference?_property (h : l.reference? p = some x) : l.reference? x.property = some x := by
  rw [(reference?_eq_some h).1, h]

theorem reference?_of_mem {d : Document} (h : x ∈ l.references d) :
    l.reference? x.property = some x := by
  obtain ⟨p, -, hp⟩ := List.mem_filterMap.mp h
  exact reference?_property hp

end Linker

theorem Place.pairwise_index_all (t : Tree) : (Place.all t).Pairwise (·.index < ·.index) := by
  have hrow (ns : List Tree) (k : Nat) :
      ((ns.zipIdx k).map fun r => (⟨r.2, r.1⟩ : Place)).Pairwise (·.index < ·.index) := by
    induction ns generalizing k with
    | nil => simp
    | cons n ns ih =>
      rw [List.zipIdx_cons, List.map_cons, List.pairwise_cons]
      refine ⟨?_, ih (k + 1)⟩
      intro p hp
      obtain ⟨⟨m, i⟩, hmem, rfl⟩ := List.mem_map.mp hp
      exact (List.mem_zipIdx hmem).1
  exact hrow t.preorder 0

/-- The references of a document stand at different properties, in the order of the text. -/
theorem Linker.pairwise_references (l : Linker) (d : Document) :
    (l.references d).Pairwise (·.property.index < ·.property.index) := by
  rw [references, List.pairwise_filterMap]
  refine (Place.pairwise_index_all d.root).imp ?_
  intro p q hlt x hx y hy
  rw [(reference?_eq_some hx).1, (reference?_eq_some hy).1]
  exact hlt

/-- References that are selected keep their order. -/
theorem Linker.pairwise_selected {α : Type} (l : Linker) (d : Document) (f : Reference → Option α) :
    ((l.references d).filterMap fun x => (f x).map fun a => (x, a)).Pairwise
      fun a b => a.1.property.index < b.1.property.index := by
  rw [List.pairwise_filterMap]
  refine (l.pairwise_references d).imp ?_
  intro x y hlt a ha b hb
  obtain ⟨_, -, rfl⟩ := Option.map_eq_some_iff.mp ha
  obtain ⟨_, -, rfl⟩ := Option.map_eq_some_iff.mp hb
  exact hlt

end JsonNav
