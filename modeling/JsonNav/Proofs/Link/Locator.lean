import Mathlib.Data.List.Nodup
import Std.Data.String.ToNat
import JsonNav.Proofs.Linker.Ranges
import JsonNav.Proofs.Linker.Reformatting
import JsonNav.Proofs.Lists
import JsonNav.Proofs.Tree.Decidable

/-! What the locators of nodes tell.  A locator can be read from its end, where two numbers stand
after the last `#`, so it tells the address and the position whatever the address is.  In a parsed
document the position tells the node, unless it is a property, which begins where its key does. -/

namespace JsonNav

open Text (byteLength)

namespace Link

theorem toList_locator (uri : String) (p : Position) :
    (locator uri p).toList = uri.toList ++ '#' :: ((Nat.repr (p.line.toNat + 1)).toList ++
      ',' :: (Nat.repr (p.column.toNat + 1)).toList) := by
  simp [locator]

/-- Lines and columns that leave room for it are counted from one in words of 32 bits. -/
theorem locator_eq_words (uri : String) {p : Position} (hline : p.line.toNat + 1 < 2 ^ 32)
    (hcolumn : p.column.toNat + 1 < 2 ^ 32) :
    locator uri p = uri ++ "#" ++ Nat.repr (p.line + 1).toNat ++ "," ++
      Nat.repr (p.column + 1).toNat := by
  have hword {w : UInt32} (h : w.toNat + 1 < 2 ^ 32) : (w + 1).toNat = w.toNat + 1 := by
    rw [UInt32.toNat_add]
    exact Nat.mod_eq_of_lt h
  rw [locator, hword hline, hword hcolumn]

/-- A locator tells the address and the position, also if the address looks like a locator. -/
theorem locator_injective2 : Function.Injective2 locator := by
  intro uri uri' p q h
  have hlist := congrArg String.toList h
  rw [toList_locator, toList_locator] at hlist
  have hnumbers (m n : Nat) : '#' ∉ (Nat.repr m).toList ++ ',' :: (Nat.repr n).toList := by
    rw [List.mem_append, List.mem_cons, not_or, not_or]
    exact ⟨notMem_repr (by decide) m, by decide, notMem_repr (by decide) n⟩
  obtain ⟨huri, hlist⟩ := eq_of_append_cons_eq (hnumbers _ _) (hnumbers _ _) hlist
  obtain ⟨hline, hcolumn⟩ := eq_of_append_cons_eq (notMem_repr (by decide) _)
    (notMem_repr (by decide) _) hlist
  have hword {a b : UInt32}
      (h : (Nat.repr (a.toNat + 1)).toList = (Nat.repr (b.toNat + 1)).toList) : a = b := by
    have hsucc := Nat.repr_injective (String.toList_inj.mp h)
    exact UInt32.toNat_inj.mp (Nat.succ.inj hsucc)
  obtain ⟨line, column⟩ := p
  obtain ⟨line', column'⟩ := q
  obtain rfl := hword hline
  obtain rfl := hword hcolumn
  exact ⟨String.toList_inj.mp huri, rfl⟩

end Link

/-- Neither number of a position is above the size of the text. -/
theorem Source.toNat_position_le {s : Source} {before after : List Char}
    (htext : s.text = before ++ after) :
    (s.position (byteLength before)).line.toNat ≤ s.size ∧
      (s.position (byteLength before)).column.toNat ≤ s.size := by
  have hword (n : Nat) : n.toUInt32.toNat ≤ n := Nat.mod_le ..
  have hlines := s.length_lineOffsetsUpTo_le (byteLength before)
  obtain ⟨head, mid, rfl, hstart⟩ := exists_lineStart htext
  have hunits := Text.unitLength_le_byteLength mid
  have hsize : s.size = byteLength head + byteLength mid + byteLength after := by
    rw [size, htext, Text.byteLength_append, Text.byteLength_append]
  rw [line_position htext, column_position htext hstart]
  exact ⟨(hword _).trans (by omega), (hword _).trans (by omega)⟩

/-- Where a node of a document is. -/
def Document.locator (d : Document) (n : Tree) : String :=
  Link.locator d.uri (d.position n.offset)

theorem Link.target_between (d e : Document) (v n : Tree) :
    (Link.between d v e n).target = some (e.locator n) := rfl

/-- Two places that are no properties and begin at one offset are the same. -/
theorem Place.eq_of_offset_eq {cs : List Char} {t : Tree} (h : Tree.parse cs = .ok t) {p q : Place}
    (hp : p ∈ all t) (hq : q ∈ all t) (hkind : p.node.kind ≠ .property)
    (hkind' : q.node.kind ≠ .property) (hoffset : p.node.offset = q.node.offset) : p = q := by
  have hsorted := (Tree.text_of_parse h).inOrder.sorted
  rw [← map_node_all, List.filter_map, List.pairwise_map] at hsorted
  have hnodup : (((all t).filter fun p => p.node.kind ≠ .property).map (·.node.offset)).Nodup :=
    List.pairwise_map.mpr (hsorted.imp fun hlt => Nat.ne_of_lt hlt)
  exact List.inj_on_of_nodup_map hnodup (List.mem_filter.mpr ⟨hp, by simpa using hkind⟩)
    (List.mem_filter.mpr ⟨hq, by simpa using hkind'⟩) hoffset

/-- Pointers lead to no property of a tree that was read. -/
theorem Tree.kind_ne_of_follow? {cs : List Char} {t : Tree} (h : parse cs = .ok t)
    {pointer : String} {p : Place} (hp : t.follow? pointer = some p) : p.node.kind ≠ .property := by
  obtain ⟨tokens, -, hdescend⟩ := follow?_eq_some_iff.mp hp
  exact ((Place.path_of_descend hdescend).isValue (text_of_parse h).isValue).kind_ne

namespace Document

variable {uri text : String} {d : Document}

/-- The positions of nodes leave room to count lines and columns from one. -/
theorem room_position (hd : parse uri text = .ok d) (hsize : byteLength text.toList < 2 ^ 32 - 1)
    {n : Tree} (hn : n ∈ d.root.preorder) :
    (d.position n.offset).line.toNat + 1 < 2 ^ 32 ∧
      (d.position n.offset).column.toNat + 1 < 2 ^ 32 := by
  obtain ⟨before, _, _, htext, -, hbefore⟩ := exists_first hd hn
  obtain ⟨hline, hcolumn⟩ := Source.toNat_position_le htext
  rw [size_eq hd] at hline hcolumn
  rw [position, ← hbefore]
  omega

/-- So the locators of nodes are written with words. -/
theorem locator_eq_words (hd : parse uri text = .ok d) (hsize : byteLength text.toList < 2 ^ 32 - 1)
    {n : Tree} (hn : n ∈ d.root.preorder) :
    d.locator n = d.uri ++ "#" ++ Nat.repr ((d.position n.offset).line + 1).toNat ++ "," ++
      Nat.repr ((d.position n.offset).column + 1).toNat := by
  obtain ⟨hline, hcolumn⟩ := room_position hd hsize hn
  exact Link.locator_eq_words d.uri hline hcolumn

theorem eq_of_locator_eq (hd : parse uri text = .ok d) (hsize : byteLength text.toList < 2 ^ 32 - 1)
    {p q : Place} (hp : p ∈ Place.all d.root) (hq : q ∈ Place.all d.root)
    (hkind : p.node.kind ≠ .property) (hkind' : q.node.kind ≠ .property)
    (h : d.locator p.node = d.locator q.node) : p = q := by
  obtain ⟨before, _, _, htext, -, hbefore⟩ := exists_first hd (Place.node_mem_preorder hp)
  obtain ⟨before', _, _, htext', -, hbefore'⟩ := exists_first hd (Place.node_mem_preorder hq)
  have hposition : d.source.position p.node.offset = d.source.position q.node.offset :=
    (Link.locator_injective2 h).2
  rw [← hbefore, ← hbefore'] at hposition
  have hsize' : d.source.size < 2 ^ 32 :=
    size_eq hd ▸ Nat.lt_of_lt_of_le hsize (Nat.sub_le ..)
  refine Place.eq_of_offset_eq (parse_eq_ok hd).2 hp hq hkind hkind' ?_
  rw [← hbefore, ← hbefore']
  exact Source.byteLength_eq_of_position_eq hsize' htext htext' hposition

/-- A locator tells the address and the position of the node, and in one document it tells which
node it is, unless it is a property.  So links inside a document have one target exactly if their
pointers lead to one place.  The size leaves room to count lines and columns from one. -/
theorem locator_exact (hd : parse uri text = .ok d)
    (hsize : byteLength text.toList < 2 ^ 32 - 1) :
    (∀ (e : Document) (m n : Tree), d.locator m = e.locator n →
      d.uri = e.uri ∧ d.position m.offset = e.position n.offset) ∧
    (∀ p ∈ Place.all d.root, ∀ q ∈ Place.all d.root, p.node.kind ≠ .property →
      q.node.kind ≠ .property → d.locator p.node = d.locator q.node → p = q) ∧
    (∀ p ∈ Place.all d.root, (d.position p.node.offset).line.toNat + 1 < 2 ^ 32 ∧
      (d.position p.node.offset).column.toNat + 1 < 2 ^ 32) ∧
    ∀ l : Linker,
      l.localLinks d =
        (l.resolved d).map (fun (x, target) => .between d x.value.node d target.node) ∧
      ∀ x p, (x, p) ∈ l.resolved d → d.root.follow? x.text = some p ∧
        ∀ y q, (y, q) ∈ l.resolved d →
          ((Link.between d x.value.node d p.node).target =
            (Link.between d y.value.node d q.node).target ↔ p = q) := by
  refine ⟨fun e m n h => Link.locator_injective2 h,
    fun p hp q hq hkind hkind' h => eq_of_locator_eq hd hsize hp hq hkind hkind' h,
    fun p hp => room_position hd hsize (Place.node_mem_preorder hp),
    fun l => ⟨l.localLinks_eq_map_resolved d, ?_⟩⟩
  intro x p hxp
  have hfollow := (Linker.mem_resolved_iff.mp hxp).2
  refine ⟨hfollow, fun y q hyq => ?_⟩
  have hfollow' := (Linker.mem_resolved_iff.mp hyq).2
  have hroot := (parse_eq_ok hd).2
  rw [Link.target_between, Link.target_between, Option.some_inj]
  constructor
  · exact eq_of_locator_eq hd hsize (Tree.mem_all_of_follow? hfollow)
      (Tree.mem_all_of_follow? hfollow') (Tree.kind_ne_of_follow? hroot hfollow)
      (Tree.kind_ne_of_follow? hroot hfollow')
  · rintro rfl
    rfl

/-- The address itself ends as a locator does. -/
theorem locator_exact_nested :
    let inner : Tree := .array ⟨1, 2⟩ []
    let outer : Tree := .array ⟨0, 4⟩ [inner]
    ∃ d, parse "a#1,2" "[[]]" = .ok d ∧ byteLength "[[]]".toList < 2 ^ 32 - 1 ∧
      Place.all d.root = [⟨0, outer⟩, ⟨1, inner⟩] ∧ d.locator inner = "a#1,2#1,2" ∧
      d.locator outer ≠ d.locator inner := by
  intro inner outer
  have hd : parse "a#1,2" "[[]]" = .ok ⟨.ofString "a#1,2" "[[]]", outer⟩ := by decide +kernel
  have hsize : byteLength "[[]]".toList < 2 ^ 32 - 1 := by decide
  have hall : Place.all outer = [⟨0, outer⟩, ⟨1, inner⟩] := rfl
  refine ⟨_, hd, hsize, hall, by decide, fun h => ?_⟩
  have heq := (locator_exact hd hsize).2.1 ⟨0, outer⟩ (by simp [hall]) ⟨1, inner⟩ (by simp [hall])
    (by decide) (by decide) h
  exact absurd (congrArg Place.index heq) (by decide)

end Document

end JsonNav
