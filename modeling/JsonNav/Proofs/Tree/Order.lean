import JsonNav.Proofs.Tree.Completeness
import JsonNav.Tree.Walk

/-! Where the nodes of a derived tree stand.  Each node of a tree stands in the text that the tree
was derived from, and in pre-order each begins after the one before it, except that a property
begins where its key does. -/

namespace JsonNav

open Text (byteLength)

variable {α σ ν : Type}

/-- The node has the span of a piece of a text that begins at the byte offset `o`, and the piece
begins with a character of one byte. -/
def Node.StandsIn (cs : List Char) (o : Nat) (n : Node σ ν) : Prop :=
  ∃ before c piece after, cs = before ++ c :: piece ++ after ∧ c.utf8Size = 1 ∧
    n.span = ⟨o + byteLength before, byteLength (c :: piece)⟩

/-- Nodes that stand in a text that begins at the byte offset `o`, one after the other. -/
structure InOrder (cs : List Char) (o : Nat) (ns : List (Node σ ν)) : Prop where
  stands : ∀ n ∈ ns, n.StandsIn cs o
  sorted : (ns.filter (·.kind ≠ .property)).Pairwise (·.offset < ·.offset)

namespace Node.StandsIn

variable {cs : List Char} {o : Nat} {n : Node σ ν}

theorem le_offset (h : n.StandsIn cs o) : o ≤ n.offset := by
  obtain ⟨before, c, piece, after, -, -, hspan⟩ := h
  rw [Node.offset, hspan]
  exact Nat.le_add_right ..

theorem offset_lt (h : n.StandsIn cs o) : n.offset < o + byteLength cs := by
  obtain ⟨before, c, piece, after, rfl, hc, hspan⟩ := h
  rw [Node.offset, hspan]
  simp only [Text.byteLength_append, Text.byteLength_cons]
  omega

theorem append (h : n.StandsIn cs o) (ds : List Char) : n.StandsIn (cs ++ ds) o := by
  obtain ⟨before, c, piece, after, rfl, hc, hspan⟩ := h
  exact ⟨before, c, piece, after ++ ds, by simp, hc, hspan⟩

theorem prepend (ds : List Char) (h : n.StandsIn cs (o + byteLength ds)) :
    n.StandsIn (ds ++ cs) o := by
  obtain ⟨before, c, piece, after, rfl, hc, hspan⟩ := h
  refine ⟨ds ++ before, c, piece, after, by simp, hc, ?_⟩
  rw [hspan, Text.byteLength_append, Nat.add_assoc]

theorem self {c : Char} (hspan : n.span = ⟨o, byteLength (c :: cs)⟩) (hc : c.utf8Size = 1) :
    n.StandsIn (c :: cs) o :=
  ⟨[], c, cs, [], by simp, hc, by simpa using hspan⟩

end Node.StandsIn

namespace InOrder

variable {cs ds : List Char} {o : Nat} {ns ms : List (Node σ ν)} {n : Node σ ν}

theorem nil : InOrder cs o ([] : List (Node σ ν)) :=
  ⟨by simp, by simp⟩

theorem append (h : InOrder cs o ns) (h' : InOrder ds (o + byteLength cs) ms) :
    InOrder (cs ++ ds) o (ns ++ ms) := by
  constructor
  · intro n hn
    rcases List.mem_append.mp hn with hn | hn
    · exact (h.stands n hn).append ds
    · exact (h'.stands n hn).prepend cs
  · rw [List.filter_append, List.pairwise_append]
    refine ⟨h.sorted, h'.sorted, ?_⟩
    intro a ha b hb
    have hlt := (h.stands a (List.mem_filter.mp ha).1).offset_lt
    have hle := (h'.stands b (List.mem_filter.mp hb).1).le_offset
    omega

theorem prepend (ds : List Char) (h : InOrder cs (o + byteLength ds) ns) :
    InOrder (ds ++ cs) o ns :=
  nil.append h

theorem postpone (h : InOrder cs o ns) (ds : List Char) : InOrder (cs ++ ds) o ns := by
  have happend : InOrder (cs ++ ds) o (ns ++ []) := h.append nil
  rwa [List.append_nil] at happend

theorem singleton {c : Char} (hn : n.span = ⟨o, byteLength (c :: cs)⟩) (hc : c.utf8Size = 1) :
    InOrder (c :: cs) o [n] := by
  constructor
  · intro k hk
    obtain rfl := List.mem_singleton.mp hk
    exact .self hn hc
  · exact (List.pairwise_singleton ..).sublist List.filter_sublist

/-- A node that begins a text comes before the nodes that stand after its first character. -/
theorem cons {c : Char} (hn : n.span = ⟨o, byteLength (c :: cs)⟩) (hc : c.utf8Size = 1)
    (h : InOrder cs (o + 1) ns) : InOrder (c :: cs) o (n :: ns) := by
  have hrest : InOrder (c :: cs) o ns := prepend [c] (by simpa [hc] using h)
  constructor
  · rintro k (_ | ⟨_, hk⟩)
    · exact .self hn hc
    · exact hrest.stands k hk
  · rw [List.filter_cons]
    split
    · refine List.pairwise_cons.mpr ⟨?_, hrest.sorted⟩
      intro k hk
      have hle := (h.stands k (List.mem_filter.mp hk).1).le_offset
      rw [Node.offset, hn]
      show o < k.offset
      omega
    · exact hrest.sorted

end InOrder

namespace Grammar

variable {m : Meaning σ ν} {P : List Char → Nat → α → Prop} {close : Char} {cs : List Char}
  {o : Nat} {as : List α}

theorem Others.inOrder {f : α → List (Node σ ν)}
    (hP : ∀ {cs o a}, P cs o a → InOrder cs o (f a)) (h : Others P close cs o as) :
    InOrder cs o (as.flatMap f) := by
  induction h with
  | done => exact .nil
  | more _ _ ha _ ih => exact ((hP ha).prepend _).append ih

theorem Contents.inOrder {f : α → List (Node σ ν)}
    (hP : ∀ {cs o a}, P cs o a → InOrder cs o (f a)) (h : Contents P close cs o as) :
    InOrder cs o (as.flatMap f) := by
  cases h with
  | empty => exact .nil
  | items _ ha has => exact ((hP ha).prepend _).append (has.inOrder hP)

theorem Quote.inOrder {n : Node σ ν} (h : Quote m cs o n) : InOrder cs o n.preorder := by
  cases h with
  | mk => exact .singleton rfl rfl

theorem Property.inOrder {Q : List Char → Nat → Node σ ν → Prop}
    (hQ : ∀ {cs o n}, Q cs o n → InOrder cs o n.preorder) {n : Node σ ν}
    (h : Property m Q cs o n) : InOrder cs o n.preorder := by
  cases h with
  | @mk key ws ws' cs o k v hkey _ _ hv =>
    have hkey' := (hkey.inOrder.postpone ws).postpone (':' :: ws')
    have hall := hkey'.append (hQ hv)
    constructor
    · rintro n (_ | ⟨_, hn⟩)
      · cases hkey with
        | mk => exact .self rfl rfl
      · exact hall.stands n hn
    · exact hall.sorted

theorem Value.inOrder {n : Node σ ν} (h : Value m cs o n) : InOrder cs o n.preorder := by
  refine Value.induct (motive := fun cs o n => InOrder cs o n.preorder) ?string ?number ?trueWord
    ?falseWord ?nullWord ?array ?object h
  case string => exact fun h => h.inOrder
  case number =>
    intro n o x _
    obtain ⟨d, ds, htext, hd⟩ := n.exists_text_eq
    rw [htext]
    exact .singleton rfl (Numeral.utf8Size_of_begins hd)
  case trueWord => exact fun {_} => .singleton rfl rfl
  case falseWord => exact fun {_} => .singleton rfl rfl
  case nullWord => exact fun {_} => .singleton rfl rfl
  case array =>
    intro cs o ns h
    rw [Node.preorder, Node.preorderAll_eq_flatMap]
    exact .cons rfl rfl (h.inOrder fun hn => hn.2)
  case object =>
    intro cs o ns h
    rw [Node.preorder, Node.preorderAll_eq_flatMap]
    exact .cons rfl rfl (h.inOrder fun hn => hn.inOrder fun hv => hv.2)

/-- The nodes of a tree stand one after the other in the text that it was derived from. -/
theorem Text.inOrder {t : Node σ ν} (h : Text m cs t) : InOrder cs 0 t.preorder := by
  cases h with
  | mk _ hvalue _ =>
    refine (InOrder.prepend _ ?_).postpone _
    rw [Nat.zero_add]
    exact hvalue.inOrder

end Grammar

namespace Node

mutual

/-- Opening brackets are listed in the order of the nodes that they open. -/
theorem openings_sublist (outer : Nat) : (n : Node σ ν) →
    ((n.openings outer).map (·.offset)).Sublist
      ((n.preorder.filter (·.kind ≠ .property)).map (·.offset))
  | object s ps => by
    rw [openings, preorder, List.filter_cons_of_pos (by rfl), List.map_cons, List.map_cons]
    exact .cons_cons _ (openingsAll_sublist (outer + 1) ps)
  | array s items => by
    rw [openings, preorder, List.filter_cons_of_pos (by rfl), List.map_cons, List.map_cons]
    exact .cons_cons _ (openingsAll_sublist (outer + 1) items)
  | property s k none => by
    rw [openings, preorder, List.filter_cons_of_neg (by simp [kind])]
    exact openings_sublist outer k
  | property s k (some v) => by
    rw [openings, preorder, List.filter_cons_of_neg (by simp [kind]), List.filter_append,
      List.map_append, List.map_append]
    exact (openings_sublist outer k).append (openings_sublist outer v)
  | string .. | number .. | boolean .. | null .. => by simp [openings]

theorem openingsAll_sublist (outer : Nat) : (ns : List (Node σ ν)) →
    ((openingsAll outer ns).map (·.offset)).Sublist
      (((preorderAll ns).filter (·.kind ≠ .property)).map (·.offset))
  | [] => by simp [openingsAll]
  | n :: ns => by
    simpa [openingsAll, preorderAll] using
      (openings_sublist outer n).append (openingsAll_sublist outer ns)

end

end Node

/-- The opening brackets of a derived tree are listed in the order of the text. -/
theorem Grammar.Text.sorted_openings {m : Meaning σ ν} {cs : List Char} {t : Node σ ν}
    (h : Grammar.Text m cs t) : (t.openings 0).Pairwise (·.offset < ·.offset) := by
  have hsorted := List.pairwise_map.mpr h.inOrder.sorted
  exact List.pairwise_map.mp (hsorted.sublist (t.openings_sublist 0))

end JsonNav
