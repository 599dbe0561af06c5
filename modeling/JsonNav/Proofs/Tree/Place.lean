import JsonNav.Tree.Place

/-! Which places of a tree stand below which.  The places below a place have the indices from its
own up to its own and its size, so two places either stand one below the other or apart, and each
place below another is below just one of its children. -/

namespace JsonNav

namespace Node

variable {σ ν : Type}

theorem size_eq (n : Node σ ν) : n.size = 1 + sizeAll n.children := by
  cases n with
  | property s k v => cases v <;> simp [size, sizeAll, children, Nat.add_assoc]
  | _ => simp [size, sizeAll, children]

theorem size_pos (n : Node σ ν) : 0 < n.size := by
  rw [size_eq]
  omega

end Node

namespace Place

/-- `q` is `p` or stands below it. -/
inductive Covers : Place → Place → Prop
  | refl (p : Place) : Covers p p
  | step {p c q : Place} : c ∈ p.children → Covers c q → Covers p q

variable {p q r c d : Place}

/-- One place ends before the other begins. -/
def Precedes (p q : Place) : Prop :=
  p.index + p.node.size ≤ q.index

theorem mem_row {i : Nat} {ns : List Tree} (h : c ∈ row i ns) :
    i ≤ c.index ∧ c.index + c.node.size ≤ i + Node.sizeAll ns := by
  induction ns generalizing i with
  | nil => exact nomatch h
  | cons n ns ih =>
    rw [Node.sizeAll]
    rcases List.mem_cons.mp h with rfl | h
    · exact ⟨Nat.le_refl _, by simp only; omega⟩
    · have := ih h
      omega

theorem pairwise_row (i : Nat) (ns : List Tree) : (row i ns).Pairwise Precedes := by
  induction ns generalizing i with
  | nil => exact .nil
  | cons n ns ih => exact .cons (fun q hq => (mem_row hq).1) (ih (i + n.size))

theorem mem_children (h : c ∈ p.children) :
    p.index < c.index ∧ c.index + c.node.size ≤ p.index + p.node.size := by
  have := mem_row h
  have := p.node.size_eq
  omega

theorem pairwise_children (p : Place) : p.children.Pairwise Precedes :=
  pairwise_row ..

theorem nodup_children (p : Place) : p.children.Nodup := by
  refine p.pairwise_children.imp ?_
  rintro a b hab rfl
  have := a.node.size_pos
  unfold Precedes at hab
  omega

/-- Two children that have an index in common are the same. -/
theorem eq_of_mem_children (hc : c ∈ p.children) (hd : d ∈ p.children)
    (hcd : c.index < d.index + d.node.size) (hdc : d.index < c.index + c.node.size) : c = d := by
  have hapart := List.pairwise_iff_getElem.mp p.pairwise_children
  unfold Precedes at hapart
  obtain ⟨i, hi, rfl⟩ := List.getElem_of_mem hc
  obtain ⟨j, hj, rfl⟩ := List.getElem_of_mem hd
  rcases Nat.lt_trichotomy i j with hlt | rfl | hlt
  · have := hapart i j hi hj hlt
    omega
  · rfl
  · have := hapart j i hj hi hlt
    omega

theorem mem_children_of_value? (h : p.value? = some q) : q ∈ p.children := by
  unfold value? at h
  split at h
  next s k v hp =>
    obtain rfl := Option.some.inj h
    simp [children, Node.children, hp, row]
  next => cases h

namespace Covers

theorem le (h : p.Covers q) :
    p.index ≤ q.index ∧ q.index + q.node.size ≤ p.index + p.node.size := by
  induction h with
  | refl p => exact ⟨Nat.le_refl _, Nat.le_refl _⟩
  | step hc _ ih =>
    have := mem_children hc
    omega

theorem trans (h : p.Covers q) (h' : q.Covers r) : p.Covers r := by
  induction h with
  | refl => exact h'
  | step hc _ ih => exact .step hc (ih h')

theorem child (h : c ∈ p.children) : p.Covers c :=
  .step h (.refl c)

/-- Two children that cover one place are the same. -/
theorem eq_of_mem_children (hc : c ∈ p.children) (hd : d ∈ p.children) (h : c.Covers q)
    (h' : d.Covers q) : c = d := by
  have := h.le
  have := h'.le
  have := q.node.size_pos
  exact Place.eq_of_mem_children hc hd (by omega) (by omega)

/-- Of two places in a tree the first covers the second if it has its index. -/
theorem of_index (h : p.Covers q) (h' : p.Covers r) (hle : q.index ≤ r.index)
    (hlt : r.index < q.index + q.node.size) : q.Covers r := by
  induction h with
  | refl => exact h'
  | @step p c q hc hcq ih =>
    have hindex := mem_children hc
    have hcq' := hcq.le
    cases h' with
    | refl => omega
    | @step _ d _ hd hdr =>
      have hdr' := hdr.le
      have hsize := r.node.size_pos
      obtain rfl := Place.eq_of_mem_children hc hd (by omega) (by omega)
      exact ih hdr hle hlt

/-- A tree has one place for an index. -/
theorem eq_of_index (h : p.Covers q) (h' : p.Covers r) (heq : q.index = r.index) : q = r := by
  have hsize := q.node.size_pos
  cases h.of_index h' (Nat.le_of_eq heq) (by omega) with
  | refl => rfl
  | step hc hcr =>
    have hindex := mem_children hc
    have hle := hcr.le
    omega

/-- A place is a child of one place only. -/
theorem eq_of_child (h : p.Covers q) (h' : p.Covers r) (hc : c ∈ q.children)
    (hc' : c ∈ r.children) : q = r := by
  have hq := mem_children hc
  have hr := mem_children hc'
  have hsize := c.node.size_pos
  rcases Nat.le_total q.index r.index with hle | hle
  · cases h.of_index h' hle (by omega) with
    | refl => rfl
    | step hd hdr =>
      obtain rfl := eq_of_mem_children hc hd (.refl c) (hdr.trans (.child hc'))
      have := hdr.le
      omega
  · cases h'.of_index h hle (by omega) with
    | refl => rfl
    | step hd hdq =>
      obtain rfl := eq_of_mem_children hc' hd (.refl c) (hdq.trans (.child hc))
      have := hdq.le
      omega

end Covers

/-! ### The places of a tree -/

/-- A place and the places below it, in pre-order. -/
def within (p : Place) : List Place :=
  (p.node.preorder.zipIdx p.index).map fun (n, i) => ⟨i, n⟩

theorem within_flatMap (i : Nat) (ns : List Tree) :
    ((ns.flatMap Node.preorder).zipIdx i).map (fun (n, i) => (⟨i, n⟩ : Place)) =
      (row i ns).flatMap within := by
  induction ns generalizing i with
  | nil => rfl
  | cons n ns ih =>
    rw [List.flatMap_cons, List.zipIdx_append, List.map_append, Node.length_preorder, ih, row,
      List.flatMap_cons]
    rfl

theorem within_eq (p : Place) : p.within = p :: p.children.flatMap within := by
  rw [within, Node.preorder_eq, List.zipIdx_cons, List.map_cons, within_flatMap]
  rfl

theorem node_mem_preorder {t : Tree} (h : q ∈ all t) : q.node ∈ t.preorder := by
  rw [← map_node_all]
  exact List.mem_map_of_mem h

/-- The places of a tree are those that its root covers. -/
theorem mem_all_iff {t : Tree} : q ∈ all t ↔ (root t).Covers q := by
  show q ∈ (root t).within ↔ _
  generalize root t = p
  constructor
  · intro h
    -- A child is smaller than its parent, so the induction is on the size.
    induction hsize : p.node.size using Nat.strongRecOn generalizing p with
    | ind size ih =>
      rw [within_eq] at h
      rcases List.mem_cons.mp h with rfl | h
      · exact .refl q
      · obtain ⟨c, hc, hq⟩ := List.mem_flatMap.mp h
        have := mem_children hc
        exact .step hc (ih c.node.size (by omega) c hq rfl)
  · intro h
    induction h with
    | refl p =>
      rw [within_eq]
      exact List.mem_cons_self ..
    | @step p c q hc _ ih =>
      rw [within_eq]
      exact List.mem_cons_of_mem _ (List.mem_flatMap_of_mem hc ih)

end Place

end JsonNav
