import JsonNav.Tree.Walk

/-! Places in a tree: a node together with its index in pre-order.  Two nodes of a tree may be
equal, but two places never have one index. -/

namespace JsonNav

/-- A node of a tree, and how many nodes come before it in pre-order. -/
structure Place where
  index : Nat
  node : Tree

namespace Place

def root (t : Tree) : Place :=
  ⟨0, t⟩

/-- The places of trees that follow one another, of which the first has a given index. -/
def row (index : Nat) : List Tree → List Place
  | [] => []
  | n :: ns => ⟨index, n⟩ :: row (index + n.size) ns

def children (p : Place) : List Place :=
  row (p.index + 1) p.node.children

def value? (p : Place) : Option Place :=
  match p.node with
  | .property _ k (some v) => some ⟨p.index + 1 + k.size, v⟩
  | _ => none

/-- All places of a tree in pre-order. -/
def all (t : Tree) : List Place :=
  t.preorder.zipIdx.map fun (n, i) => ⟨i, n⟩

@[simp] theorem node_value? (p : Place) :
    p.value?.map node = p.node.value? := by
  unfold value?
  split
  next h => rw [h]; rfl
  next h =>
    cases hn : p.node with
    | property s k v =>
      cases v with
      | none => rfl
      | some v => exact absurd hn (h s k v)
    | _ => rfl

@[simp] theorem map_node_all (t : Tree) : (all t).map node = t.preorder := by
  rw [all, List.map_map]
  exact List.zipIdx_map_fst 0 _

theorem length_all (t : Tree) : (all t).length = t.size := by
  simp [all, Node.length_preorder]

@[simp] theorem node_row (index : Nat) (ns : List Tree) : (row index ns).map node = ns := by
  induction ns generalizing index with
  | nil => rfl
  | cons n ns ih => simp [row, ih]

end Place

end JsonNav
