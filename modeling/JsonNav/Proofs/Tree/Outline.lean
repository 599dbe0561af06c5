import JsonNav.Proofs.Pointer.Descent
import JsonNav.Proofs.Tree.Shift

/-! The outline of a tree: what is left when spans and numbers are forgotten.  Whatever finds its
way through a tree by keys, strings and indices finds the same way through the outline. -/

namespace JsonNav

namespace Node

mutual

/-- The same tree without spans and numbers. -/
def outline : Tree → Tree
  | object _ ps => object ⟨0, 0⟩ (outlineAll ps)
  | array _ items => array ⟨0, 0⟩ (outlineAll items)
  | property _ k none => property ⟨0, 0⟩ (outline k) none
  | property _ k (some v) => property ⟨0, 0⟩ (outline k) (some (outline v))
  | string _ x => string ⟨0, 0⟩ x
  | number _ _ => number ⟨0, 0⟩ ⟨0⟩
  | boolean _ b => boolean ⟨0, 0⟩ b
  | null _ => null ⟨0, 0⟩

def outlineAll : List Tree → List Tree
  | [] => []
  | n :: ns => outline n :: outlineAll ns

end

mutual

@[simp] theorem outline_mapSpan (f : Span → Span) : (n : Tree) → (n.mapSpan f).outline = n.outline
  | object _ ps => by rw [mapSpan, outline, outline, outlineAll_mapSpanAll f ps]
  | array _ items => by rw [mapSpan, outline, outline, outlineAll_mapSpanAll f items]
  | property _ k none => by rw [mapSpan, outline, outline, outline_mapSpan f k]
  | property _ k (some v) => by
    rw [mapSpan, outline, outline, outline_mapSpan f k, outline_mapSpan f v]
  | string .. | number .. | boolean .. | null .. => rfl

theorem outlineAll_mapSpanAll (f : Span → Span) :
    (ns : List Tree) → outlineAll (mapSpanAll f ns) = outlineAll ns
  | [] => rfl
  | n :: ns => by
    rw [mapSpanAll, outlineAll, outlineAll, outline_mapSpan f n, outlineAll_mapSpanAll f ns]

end

/-- Trees that differ in nothing but their spans have one outline. -/
theorem outline_eq_of_mapSpan_eq {f : Span → Span} {t u : Tree} (h : t.mapSpan f = u.mapSpan f) :
    t.outline = u.outline := by
  rw [← outline_mapSpan f t, h, outline_mapSpan]

theorem outlineAll_eq_map (ns : List Tree) : outlineAll ns = ns.map outline := by
  induction ns with
  | nil => rfl
  | cons n ns ih => rw [outlineAll, ih, List.map_cons]

mutual

@[simp] theorem size_outline : (n : Tree) → n.outline.size = n.size
  | object _ ps => by rw [outline, size, size, sizeAll_outline ps]
  | array _ items => by rw [outline, size, size, sizeAll_outline items]
  | property _ k none => by rw [outline, size, size, size_outline k]
  | property _ k (some v) => by rw [outline, size, size, size_outline k, size_outline v]
  | string .. | number .. | boolean .. | null .. => rfl

theorem sizeAll_outline : (ns : List Tree) → sizeAll (outlineAll ns) = sizeAll ns
  | [] => rfl
  | n :: ns => by rw [outlineAll, sizeAll, sizeAll, size_outline n, sizeAll_outline ns]

end

mutual

theorem preorder_outline : (n : Tree) → n.outline.preorder = n.preorder.map outline
  | object _ ps => by
    rw [outline, preorder, preorderAll_outline ps, preorder, List.map_cons, outline]
  | array _ items => by
    rw [outline, preorder, preorderAll_outline items, preorder, List.map_cons, outline]
  | property _ k none => by
    rw [outline, preorder, preorder_outline k, preorder, List.map_cons, outline]
  | property _ k (some v) => by
    rw [outline, preorder, preorder_outline k, preorder_outline v, preorder, List.map_cons,
      List.map_append, outline]
  | string .. | number .. | boolean .. | null .. => rfl

theorem preorderAll_outline : (ns : List Tree) →
    preorderAll (outlineAll ns) = (preorderAll ns).map outline
  | [] => rfl
  | n :: ns => by
    rw [outlineAll, preorderAll, preorder_outline n, preorderAll_outline ns, preorderAll,
      List.map_append]

end

@[simp] theorem children_outline (n : Tree) : n.outline.children = n.children.map outline := by
  cases n with
  | object s ps => rw [outline, children, children, outlineAll_eq_map]
  | array s items => rw [outline, children, children, outlineAll_eq_map]
  | property s k v => cases v <;> rfl
  | _ => rfl

@[simp] theorem string?_outline (n : Tree) : n.outline.string? = n.string? := by
  cases n with
  | property s k v => cases v <;> rfl
  | _ => rfl

theorem kind_outline (n : Tree) : n.outline.kind = n.kind := by
  cases n with
  | property s k v => cases v <;> rfl
  | _ => rfl

@[simp] theorem key?_outline (n : Tree) : n.outline.key? = n.key? := by
  cases n with
  | property s k v => cases v <;> exact k.string?_outline
  | _ => rfl

end Node

namespace Place

/-- The place of the same index in the outline of its tree. -/
def outline (p : Place) : Place :=
  ⟨p.index, p.node.outline⟩

theorem root_outline (t : Tree) : root t.outline = (root t).outline := rfl

theorem all_outline (t : Tree) : all t.outline = (all t).map outline := by
  rw [all, all, Node.preorder_outline, List.zipIdx_map, List.map_map, List.map_map]
  rfl

theorem row_outline (index : Nat) (ns : List Tree) :
    row index (ns.map Node.outline) = (row index ns).map outline := by
  induction ns generalizing index with
  | nil => rfl
  | cons n ns ih => rw [List.map_cons, row, row, List.map_cons, Node.size_outline, ih]; rfl

theorem children_outline (p : Place) : p.outline.children = p.children.map outline := by
  rw [children, children, outline, Node.children_outline, row_outline]

theorem value?_outline (p : Place) : p.outline.value? = p.value?.map outline := by
  obtain ⟨i, n⟩ := p
  cases n with
  | property s k v =>
    cases v with
    | none => rfl
    | some v =>
      simp only [value?, outline, Node.outline, Node.size_outline, Option.map_some]
  | _ => rfl

/-- Tokens lead to the same places in the outline. -/
theorem steady_outline : Steady outline where
  kind p := p.node.kind_outline
  key p := p.node.key?_outline
  children := children_outline
  value := value?_outline

end Place

/-- A pointer leads to the same place in the outline. -/
theorem Tree.follow?_outline (t : Tree) (pointer : String) :
    t.outline.follow? pointer = (t.follow? pointer).map Place.outline := by
  rw [follow?, follow?]
  cases Pointer.parse pointer with
  | error e => rfl
  | ok tokens =>
    show ((Place.root t.outline).descend tokens).toOption = _
    rw [Place.root_outline, Place.steady_outline.descend]
    show _ = ((Place.root t).descend tokens).toOption.map _
    cases (Place.root t).descend tokens <;> rfl

end JsonNav
