import JsonNav.Proofs.Tree.Place

/-! Which nodes a walk shows.  A walk shows the nodes of a tree in pre-order up to the first that
the visitor refuses, so it is a scan of the list of all nodes, and what comes after the refused node
in pre-order, such as its later siblings and those of the nodes above it, is not shown. -/

namespace JsonNav.Node

variable {σ ν τ : Type} {f : Visitor σ ν τ} {t : τ} {n : Node σ ν} {ns ms : List (Node σ ν)}

namespace Visitor

/-- The visitor's state after nodes that it was shown one by one. -/
def after (f : Visitor σ ν τ) (t : τ) (ns : List (Node σ ν)) : τ :=
  ns.foldl (fun t n => (f t n).2) t

/-- The visitor refuses the last of some nodes that it is shown one by one. -/
def RefusesLast (f : Visitor σ ν τ) (t : τ) (ns : List (Node σ ν)) : Prop :=
  ∃ before n, ns = before ++ [n] ∧ (f (f.after t before) n).1 = false

/-- The same visitor, which also keeps a list of the nodes that it is shown. -/
def recording (f : Visitor σ ν τ) : Visitor σ ν (τ × List (Node σ ν)) :=
  fun (t, seen) n => ((f t n).1, (f t n).2, seen ++ [n])

theorem after_cons : f.after t (n :: ns) = f.after (f t n).2 ns := rfl

theorem not_refusesLast_nil : ¬f.RefusesLast t [] := by
  rintro ⟨before, n, h, -⟩
  simp at h

theorem refusesLast_cons_iff :
    f.RefusesLast t (n :: ns) ↔
      ns = [] ∧ (f t n).1 = false ∨ f.RefusesLast (f t n).2 ns := by
  constructor
  · rintro ⟨before, m, heq, h⟩
    cases before with
    | nil =>
      obtain ⟨rfl, rfl⟩ := List.cons.inj heq
      exact .inl ⟨rfl, h⟩
    | cons k before =>
      obtain ⟨rfl, rfl⟩ := List.cons.inj heq
      exact .inr ⟨before, m, rfl, h⟩
  · rintro (⟨rfl, h⟩ | ⟨before, m, rfl, h⟩)
    · exact ⟨[], n, rfl, h⟩
    · exact ⟨n :: before, m, rfl, h⟩

end Visitor

/-! ### Scans -/

/-- Shows nodes one by one to a visitor, up to the first that it refuses. -/
def scan (f : Visitor σ ν τ) (t : τ) : List (Node σ ν) → Bool × τ
  | [] => (true, t)
  | n :: ns =>
    match f t n with
    | (true, t) => scan f t ns
    | (false, t) => (false, t)

/-- The nodes that are shown by a scan. -/
def shown (f : Visitor σ ν τ) (t : τ) : List (Node σ ν) → List (Node σ ν)
  | [] => []
  | n :: ns =>
    match f t n with
    | (true, t) => n :: shown f t ns
    | (false, _) => [n]

theorem scan_singleton (f : Visitor σ ν τ) (t : τ) (n : Node σ ν) : scan f t [n] = f t n := by
  rw [scan]
  cases f t n with
  | mk go t => cases go <;> rfl

/-- A node, and then what goes on as a scan. -/
theorem scan_cons_eq {r : τ → Bool × τ} (h : ∀ t, r t = scan f t ns) (t : τ) :
    (match f t n with
      | (true, t) => r t
      | (false, t) => (false, t)) = scan f t (n :: ns) := by
  rw [scan]
  cases f t n with
  | mk go t =>
    cases go with
    | true => exact h t
    | false => rfl

/-- A scan, and then what goes on as another. -/
theorem scan_append_eq {r r' : τ → Bool × τ} (h : ∀ t, r t = scan f t ns)
    (h' : ∀ t, r' t = scan f t ms) (t : τ) :
    (match r t with
      | (true, t) => r' t
      | (false, t) => (false, t)) = scan f t (ns ++ ms) := by
  rw [h t]
  clear h
  induction ns generalizing t with
  | nil => exact h' t
  | cons n ns ih =>
    rw [List.cons_append, scan, scan]
    cases f t n with
    | mk go t =>
      cases go with
      | true => exact ih t
      | false => rfl

mutual

/-- A walk is a scan of all nodes in pre-order. -/
theorem walk_eq_scan (f : Visitor σ ν τ) :
    (n : Node σ ν) → ∀ t, walk f t n = scan f t n.preorder
  | object s ps, t => by
    rw [walk, preorder]
    exact scan_cons_eq (walkAll_eq_scan f ps) t
  | array s items, t => by
    rw [walk, preorder]
    exact scan_cons_eq (walkAll_eq_scan f items) t
  | property s k none, t => by
    rw [walk, preorder]
    exact scan_cons_eq (walk_eq_scan f k) t
  | property s k (some v), t => by
    rw [walk, preorder]
    exact scan_cons_eq (scan_append_eq (walk_eq_scan f k) (walk_eq_scan f v)) t
  | string s x, t => (scan_singleton f t _).symm
  | number s x, t => (scan_singleton f t _).symm
  | boolean s b, t => (scan_singleton f t _).symm
  | null s, t => (scan_singleton f t _).symm

theorem walkAll_eq_scan (f : Visitor σ ν τ) :
    (ns : List (Node σ ν)) → ∀ t, walkAll f t ns = scan f t (preorderAll ns)
  | [], _ => rfl
  | n :: ns, t => by
    rw [walkAll, preorderAll]
    exact scan_append_eq (walk_eq_scan f n) (walkAll_eq_scan f ns) t

end

/-! ### Fronts -/

theorem shown_prefix (f : Visitor σ ν τ) (t : τ) (ns : List (Node σ ν)) : shown f t ns <+: ns := by
  induction ns generalizing t with
  | nil => exact List.nil_prefix
  | cons n ns ih =>
    rw [shown]
    split
    · exact List.cons_prefix_cons.mpr ⟨rfl, ih _⟩
    · exact List.cons_prefix_cons.mpr ⟨rfl, List.nil_prefix⟩

theorem scan_recording (f : Visitor σ ν τ) (t : τ) (seen ns : List (Node σ ν)) :
    scan f.recording (t, seen) ns =
      ((scan f t ns).1, f.after t (shown f t ns), seen ++ shown f t ns) := by
  induction ns generalizing t seen with
  | nil => simp [scan, shown, Visitor.after]
  | cons n ns ih =>
    rw [scan, scan, shown, Visitor.recording]
    cases h : f t n with
    | mk go t' =>
      cases go with
      | true => simp only [ih, List.append_assoc, List.singleton_append, Visitor.after_cons, h]
      | false => simp [Visitor.after, h]

theorem scan_snd (f : Visitor σ ν τ) (t : τ) (ns : List (Node σ ν)) :
    (scan f t ns).2 = f.after t (shown f t ns) := by
  induction ns generalizing t with
  | nil => rfl
  | cons n ns ih =>
    rw [scan, shown]
    cases h : f t n with
    | mk go t' =>
      cases go with
      | true => simp only [ih, Visitor.after_cons, h]
      | false => simp [Visitor.after, h]

/-- A scan that is completed shows all nodes, and the visitor refuses none. -/
theorem shown_of_scan (h : (scan f t ns).1 = true) :
    shown f t ns = ns ∧ ∀ front, front <+: ns → ¬f.RefusesLast t front := by
  induction ns generalizing t with
  | nil =>
    refine ⟨rfl, fun front hfront => ?_⟩
    rw [List.prefix_nil.mp hfront]
    exact Visitor.not_refusesLast_nil
  | cons n ns ih =>
    rw [scan] at h
    rw [shown]
    cases hn : f t n with
    | mk go t' =>
      rw [hn] at h
      cases go with
      | false => exact nomatch h
      | true =>
        obtain ⟨hshown, hfronts⟩ := ih h
        refine ⟨by simp only [hshown], fun front hfront => ?_⟩
        cases front with
        | nil => exact Visitor.not_refusesLast_nil
        | cons k front =>
          obtain ⟨rfl, hrest⟩ := List.cons_prefix_cons.mp hfront
          rw [Visitor.refusesLast_cons_iff, hn]
          simpa using hfronts front hrest

/-- A scan that is not completed shows the nodes up to the first that the visitor refuses. -/
theorem refusesLast_of_scan (h : (scan f t ns).1 = false) :
    f.RefusesLast t (shown f t ns) ∧
      ∀ front, front <+: ns → f.RefusesLast t front → shown f t ns <+: front := by
  induction ns generalizing t with
  | nil => exact nomatch h
  | cons n ns ih =>
    rw [scan] at h
    rw [shown]
    cases hn : f t n with
    | mk go t' =>
      rw [hn] at h
      cases go with
      | false =>
        refine ⟨⟨[], n, rfl, by simp [Visitor.after, hn]⟩, fun front hfront hrefuses => ?_⟩
        cases front with
        | nil => exact absurd hrefuses Visitor.not_refusesLast_nil
        | cons k front =>
          obtain ⟨rfl, -⟩ := List.cons_prefix_cons.mp hfront
          exact List.cons_prefix_cons.mpr ⟨rfl, List.nil_prefix⟩
      | true =>
        obtain ⟨hlast, hfronts⟩ := ih h
        refine ⟨Visitor.refusesLast_cons_iff.mpr (.inr (by rw [hn]; exact hlast)),
          fun front hfront hrefuses => ?_⟩
        cases front with
        | nil => exact absurd hrefuses Visitor.not_refusesLast_nil
        | cons k front =>
          obtain ⟨rfl, hrest⟩ := List.cons_prefix_cons.mp hfront
          rw [Visitor.refusesLast_cons_iff, hn] at hrefuses
          have hlater : f.RefusesLast t' front := by simpa using hrefuses
          exact List.cons_prefix_cons.mpr ⟨rfl, hfronts front hrest hlater⟩

end JsonNav.Node

namespace JsonNav

namespace Place

theorem index_of_getElem?_all {root : Tree} {i : Nat} {p : Place} (h : (all root)[i]? = some p) :
    p.index = i := by
  rw [all, List.getElem?_map, List.getElem?_zipIdx, Option.map_map, Option.map_eq_some_iff] at h
  obtain ⟨n, -, rfl⟩ := h
  exact Nat.zero_add i

/-- The last of the first places of a tree comes after all others of them. -/
theorem index_le_of_getLast? {root : Tree} {places : List Place} {last p : Place}
    (h : places <+: all root) (hlast : places.getLast? = some last) (hp : p ∈ places) :
    p.index ≤ last.index := by
  have hindex (i : Nat) (hi : i < places.length) : places[i].index = i :=
    index_of_getElem?_all (List.prefix_iff_getElem?.mp h i hi)
  obtain ⟨i, hi, rfl⟩ := List.getElem_of_mem hp
  rw [List.getLast?_eq_getElem?, List.getElem?_eq_some_iff] at hlast
  obtain ⟨hend, rfl⟩ := hlast
  rw [hindex, hindex]
  omega

/-- What is at or below a later sibling of a place comes after all that is at or below the place. -/
theorem index_lt_of_siblings {parent p q p' q' : Place} (hp : p ∈ parent.children)
    (hq : q ∈ parent.children) (hlt : p.index < q.index) (hp' : p.Covers p') (hq' : q.Covers q') :
    p'.index < q'.index := by
  have hle := hp'.le
  have hle' := hq'.le
  have hsize := p'.node.size_pos
  by_cases h : q.index < p.index + p.node.size
  · -- Children that overlap are one child.
    obtain rfl := eq_of_mem_children hp hq (by have := q.node.size_pos; omega) h
    exact absurd hlt (Nat.lt_irrefl _)
  · omega

end Place

namespace Tree

open Node (Visitor)

variable {τ : Type}

/-- A walk shows the nodes of a tree in pre-order: all of them if the visitor refuses none, and then
it is completed, and otherwise those up to the first that the visitor refuses.  Neither the siblings
that come after the refused node, nor those of the nodes above it, nor what is below them, is shown.
-/
theorem walk_front (f : Visitor String Binary64 τ) (t : τ) (root : Tree) :
    (∀ n : Tree, n.preorder = n :: n.children.flatMap Node.preorder) ∧
    ∃ completed places, places <+: Place.all root ∧
      root.walk f t = (completed, f.after t (places.map Place.node)) ∧
      root.walk f.recording (t, []) =
        (completed, f.after t (places.map Place.node), places.map Place.node) ∧
      (completed = true ↔
        ∀ front, front <+: places → ¬f.RefusesLast t (front.map Place.node)) ∧
      (completed = true → places = Place.all root) ∧
      (completed = false → f.RefusesLast t (places.map Place.node) ∧
        (∀ front, front <+: Place.all root → f.RefusesLast t (front.map Place.node) →
          places <+: front) ∧
        ∀ refused parent ancestor sibling later, places.getLast? = some refused →
          parent ∈ Place.all root → ancestor ∈ parent.children → ancestor.Covers refused →
          sibling ∈ parent.children → ancestor.index < sibling.index → sibling.Covers later →
          later ∉ places) := by
  let seen := Node.shown f t root.preorder
  let places := (Place.all root).take seen.length
  have hplaces : places <+: Place.all root := List.take_prefix ..
  have hnodes : places.map Place.node = seen := by
    rw [List.map_take, Place.map_node_all]
    exact (List.prefix_iff_eq_take.mp (Node.shown_prefix f t root.preorder)).symm
  have hfront {front : List Place} (h : front <+: Place.all root) :
      front.map Place.node <+: root.preorder := by
    rw [← Place.map_node_all]
    exact h.map Place.node
  refine ⟨Node.preorder_eq, (root.walk f t).1, places, hplaces, ?walk, ?recording, ?iff, ?all, ?cut⟩
  case walk => rw [hnodes, Node.walk_eq_scan, ← Node.scan_snd]
  case recording =>
    rw [hnodes, Node.walk_eq_scan, Node.walk_eq_scan, Node.scan_recording, List.nil_append]
  case iff =>
    rw [Node.walk_eq_scan]
    constructor
    · intro h front hbefore
      exact (Node.shown_of_scan h).2 _ (hfront (hbefore.trans hplaces))
    · intro h
      rw [← Bool.not_eq_false]
      intro hcut
      refine h places List.prefix_rfl ?_
      rw [hnodes]
      exact (Node.refusesLast_of_scan hcut).1
  case all =>
    rw [Node.walk_eq_scan]
    intro h
    have hlength : seen.length = (Place.all root).length := by
      rw [show seen = root.preorder from (Node.shown_of_scan h).1, Node.length_preorder,
        Place.length_all]
    exact List.take_of_length_le (Nat.le_of_eq hlength.symm)
  case cut =>
    rw [Node.walk_eq_scan]
    intro h
    obtain ⟨hlast, hfirst⟩ := Node.refusesLast_of_scan h
    refine ⟨hnodes ▸ hlast, fun front hbefore hrefuses => ?_, ?_⟩
    · have hlength := (hfirst _ (hfront hbefore) hrefuses).length_le
      refine List.prefix_of_prefix_length_le hplaces hbefore ?_
      rw [← List.length_map Place.node, hnodes]
      simpa using hlength
    · intro refused parent ancestor sibling later hrefused _ hancestor hcovers hsibling hlt hlater
        hmem
      have hle := Place.index_le_of_getLast? hplaces hrefused hmem
      have hgt := Place.index_lt_of_siblings hancestor hsibling hlt hcovers hlater
      omega

end Tree

end JsonNav
