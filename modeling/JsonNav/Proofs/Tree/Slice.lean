import JsonNav.Proofs.Tree.Decidable
import JsonNav.Proofs.Tree.Parse
import JsonNav.Proofs.Tree.Shape
import JsonNav.Proofs.Tree.Shift

/-! The piece of a text that a node spans.  Each node of a tree was derived from that piece alone,
so the piece is read as the node, moved to its beginning.  A property is no value, but it is read
when it is put between the brackets of an object. -/

namespace JsonNav

open Text (byteLength)

variable {σ ν : Type}

namespace Grammar

/-- What the nodes of a tree are derived as. -/
inductive Piece (m : Meaning σ ν) : List Char → Nat → Node σ ν → Prop
  | value {cs : List Char} {o : Nat} {n : Node σ ν} : Value m cs o n → Piece m cs o n
  | property {cs : List Char} {o : Nat} {n : Node σ ν} : Property m (Value m) cs o n →
      Piece m cs o n

/-- `n` was derived from a piece of a text that begins at the byte offset `o`.  Its brackets are
among the brackets `bs`, with `depth` more containers around it. -/
def Inside (m : Meaning σ ν) (cs : List Char) (o : Nat) (bs : Nat → List Opening) (n : Node σ ν)
    (depth : Nat) : Prop :=
  ∃ before piece after, cs = before ++ (piece ++ after) ∧ Piece m piece (o + byteLength before) n ∧
    ∀ outer, n.openings (outer + depth) ⊆ bs outer

variable {m : Meaning σ ν} {Q : List Char → Nat → Node σ ν → Prop} {cs : List Char} {o : Nat}
  {bs bs' : Nat → List Opening} {n : Node σ ν} {depth : Nat} {close : Char}

namespace Inside

theorem self (h : Piece m cs o n) : Inside m cs o (n.openings ·) n 0 :=
  ⟨[], cs, [], by simp, h, fun _ => List.Subset.refl _⟩

theorem append (h : Inside m cs o bs n depth) (ds : List Char) :
    Inside m (cs ++ ds) o bs n depth := by
  obtain ⟨before, piece, after, rfl, hpiece, hbs⟩ := h
  exact ⟨before, piece, after ++ ds, by simp, hpiece, hbs⟩

theorem prepend (ds : List Char) (h : Inside m cs (o + byteLength ds) bs n depth) :
    Inside m (ds ++ cs) o bs n depth := by
  obtain ⟨before, piece, after, rfl, hpiece, hbs⟩ := h
  rw [Nat.add_assoc, ← Text.byteLength_append] at hpiece
  exact ⟨ds ++ before, piece, after, by simp, hpiece, hbs⟩

theorem mono (h : Inside m cs o bs n depth) (hsub : ∀ outer, bs outer ⊆ bs' outer) :
    Inside m cs o bs' n depth := by
  obtain ⟨before, piece, after, hcs, hpiece, hbs⟩ := h
  exact ⟨before, piece, after, hcs, hpiece, fun outer => List.Subset.trans (hbs outer) (hsub outer)⟩

/-- What is inside the contents of a container is one level deeper inside the container. -/
theorem deeper (h : Inside m cs o bs n depth) (hsub : ∀ outer, bs (outer + 1) ⊆ bs' outer) :
    Inside m cs o bs' n (depth + 1) := by
  obtain ⟨before, piece, after, hcs, hpiece, hbs⟩ := h
  refine ⟨before, piece, after, hcs, hpiece, fun outer => ?_⟩
  rw [← Nat.add_assoc, Nat.add_right_comm]
  exact List.Subset.trans (hbs (outer + 1)) (hsub outer)

end Inside

theorem Others.inside
    (hQ : ∀ {cs o n}, Q cs o n → ∀ k ∈ n.preorder, ∃ depth, Inside m cs o (n.openings ·) k depth)
    {ns : List (Node σ ν)} (h : Others Q close cs o ns) :
    ∀ k ∈ ns.flatMap Node.preorder, ∃ depth, Inside m cs o (Node.openingsAll · ns) k depth := by
  induction h with
  | done => simp
  | @more ws ws' cs rest o n ns _ _ hn _ ih =>
    intro k hk
    rcases List.mem_append.mp hk with hk | hk
    · obtain ⟨depth, hinside⟩ := hQ hn k hk
      exact ⟨depth, ((hinside.prepend _).append rest).mono fun _ => List.subset_append_left ..⟩
    · obtain ⟨depth, hinside⟩ := ih k hk
      exact ⟨depth, (hinside.prepend _).mono fun _ => List.subset_append_right ..⟩

theorem Contents.inside
    (hQ : ∀ {cs o n}, Q cs o n → ∀ k ∈ n.preorder, ∃ depth, Inside m cs o (n.openings ·) k depth)
    {ns : List (Node σ ν)} (h : Contents Q close cs o ns) :
    ∀ k ∈ ns.flatMap Node.preorder, ∃ depth, Inside m cs o (Node.openingsAll · ns) k depth := by
  cases h with
  | empty => simp
  | @items ws cs rest o n ns _ hn hns =>
    intro k hk
    rcases List.mem_append.mp hk with hk | hk
    · obtain ⟨depth, hinside⟩ := hQ hn k hk
      exact ⟨depth, ((hinside.prepend _).append rest).mono fun _ => List.subset_append_left ..⟩
    · obtain ⟨depth, hinside⟩ := hns.inside hQ k hk
      exact ⟨depth, (hinside.prepend _).mono fun _ => List.subset_append_right ..⟩

theorem Property.inside (hvalue : ∀ {cs o n}, Q cs o n → Value m cs o n)
    (hQ : ∀ {cs o n}, Q cs o n → ∀ k ∈ n.preorder, ∃ depth, Inside m cs o (n.openings ·) k depth)
    (h : Property m Q cs o n) :
    ∀ k ∈ n.preorder, ∃ depth, Inside m cs o (n.openings ·) k depth := by
  have hself := Inside.self (.property (h.mono hvalue))
  cases h with
  | @mk key ws ws' cs o k v hkey _ _ hv =>
    intro n hn
    rw [Node.preorder, List.mem_cons, List.mem_append] at hn
    rcases hn with rfl | hn | hn
    · exact ⟨0, hself⟩
    · have hquote := Inside.self (.value (.string hkey))
      cases hkey with
      | mk =>
        obtain rfl := List.mem_singleton.mp hn
        exact ⟨0, (((hquote.append ws).append _).append cs).mono fun _ => List.nil_subset _⟩
    · obtain ⟨depth, hinside⟩ := hQ hv n hn
      exact ⟨depth, (hinside.prepend _).mono fun _ => List.subset_append_right ..⟩

/-- Each node of a value was derived from a piece of its text.  Properties stand in objects. -/
theorem Value.inside (h : Value m cs o n) :
    ∀ k ∈ n.preorder, ∃ depth, Inside m cs o (n.openings ·) k depth ∧
      (k.kind = .property → 0 < depth) := by
  have hleaf {cs : List Char} {o : Nat} {n : Node σ ν} (hn : Value m cs o n)
      (hpreorder : n.preorder = [n]) (hkind : n.kind ≠ .property) :
      ∀ k ∈ n.preorder, ∃ depth, Inside m cs o (n.openings ·) k depth ∧
        (k.kind = .property → 0 < depth) := by
    rw [hpreorder]
    intro k hk
    obtain rfl := List.mem_singleton.mp hk
    exact ⟨0, .self (.value hn), fun h => absurd h hkind⟩
  refine Value.induct (motive := fun cs o n => ∀ k ∈ n.preorder, ∃ depth,
    Inside m cs o (n.openings ·) k depth ∧ (k.kind = .property → 0 < depth)) ?string ?number
    ?trueWord ?falseWord ?nullWord ?array ?object h
  case string =>
    intro cs o n h
    have hn := Value.string h
    cases h with
    | mk => exact hleaf hn rfl (by simp [Node.kind])
  case number => exact fun {_ _ _} hx => hleaf (.number hx) rfl (by simp [Node.kind])
  case trueWord => exact fun {_} => hleaf .trueWord rfl (by simp [Node.kind])
  case falseWord => exact fun {_} => hleaf .falseWord rfl (by simp [Node.kind])
  case nullWord => exact fun {_} => hleaf .nullWord rfl (by simp [Node.kind])
  case array =>
    intro cs o ns h k hk
    rw [Node.preorder, Node.preorderAll_eq_flatMap] at hk
    rcases List.mem_cons.mp hk with rfl | hk
    · exact ⟨0, .self (.value (.array (h.mono fun hn => hn.1))), by simp [Node.kind]⟩
    · obtain ⟨depth, hinside⟩ := h.inside
        (fun hn k hk => (hn.2 k hk).imp fun _ h => h.1) k hk
      exact ⟨depth + 1, (hinside.prepend ['[']).deeper fun _ => List.subset_cons_self ..,
        fun _ => Nat.succ_pos depth⟩
  case object =>
    intro cs o ns h k hk
    rw [Node.preorder, Node.preorderAll_eq_flatMap] at hk
    rcases List.mem_cons.mp hk with rfl | hk
    · refine ⟨0, .self (.value (.object (h.mono fun hn => hn.mono fun hv => hv.1))), ?_⟩
      simp [Node.kind]
    · obtain ⟨depth, hinside⟩ := h.inside
        (fun hn => hn.inside (fun hv => hv.1) fun hv k hk => (hv.2 k hk).imp fun _ h => h.1) k hk
      exact ⟨depth + 1, (hinside.prepend ['{']).deeper fun _ => List.subset_cons_self ..,
        fun _ => Nat.succ_pos depth⟩

/-- Each node of a tree was derived from a piece of the text that begins where the node does. -/
theorem Text.inside {t : Node σ ν} (h : Text m cs t) (hn : n ∈ t.preorder) :
    ∃ depth, Inside m cs 0 (t.openings ·) n depth ∧ (n.kind = .property → 0 < depth) := by
  cases h with
  | @mk ws cs ws' _ _ hvalue _ =>
    rw [← Nat.zero_add (byteLength ws)] at hvalue
    obtain ⟨depth, hinside, hkind⟩ := hvalue.inside n hn
    exact ⟨depth, (hinside.prepend ws).append ws', hkind⟩

theorem Piece.span (h : Piece m cs o n) : n.span = ⟨o, byteLength cs⟩ := by
  cases h with
  | value h => exact h.span
  | property h => exact h.span

theorem Property.kind_eq {P : List Char → Nat → Node σ ν → Prop} (h : Property m P cs o n) :
    n.kind = .property := by
  cases h with
  | mk => rfl

end Grammar

namespace Tree

open Grammar (blanks_nil)

/-- A value that was derived with few enough containers around it is read by itself. -/
theorem parse_value {cs : List Char} {u : Tree} (h : Grammar.Value .standard cs 0 u)
    (hdepth : ∀ b ∈ u.openings 0, b.depth ≤ maxDepth) : parse cs = .ok u := by
  rw [parse_eq_verdict h.text, verdict_eq_ok hdepth]

/-- A property that was derived with few enough containers around it is read between brackets. -/
theorem parse_object {cs : List Char} {u : Tree}
    (h : Grammar.Property .standard (Grammar.Value .standard) cs 1 u)
    (hdepth : ∀ b ∈ u.openings 1, b.depth ≤ maxDepth) :
    parse ('{' :: cs ++ ['}']) = .ok (.object ⟨0, byteLength cs + 2⟩ [u]) := by
  have hcontents : Grammar.Contents (Grammar.Property .standard (Grammar.Value .standard)) '}'
      ([] ++ cs ++ ([] ++ ['}'])) (0 + 1) [u] := .items blanks_nil h (.done blanks_nil)
  rw [List.nil_append, List.nil_append] at hcontents
  have hlength : byteLength ('{' :: (cs ++ ['}'])) = byteLength cs + 2 := by
    simp [show '{'.utf8Size = 1 from rfl, show '}'.utf8Size = 1 from rfl]
    omega
  have hvalue := Grammar.Value.object hcontents
  rw [hlength] at hvalue
  refine parse_value hvalue fun b hb => ?_
  simp only [Node.openings, Node.openingsAll, List.append_nil, List.mem_cons] at hb
  rcases hb with rfl | hb
  · exact Nat.le_of_ble_eq_true rfl
  · exact hdepth b hb

theorem depth_le_of_inside {limit depth d : Nat} {t u : Tree}
    (ht : ∀ b ∈ t.openings 0, b.depth ≤ limit)
    (hsub : (u.shift d).openings (0 + depth) ⊆ t.openings 0) :
    ∀ b ∈ u.openings 0, b.depth + depth ≤ limit := by
  intro b hb
  rw [Node.openings_shift] at hsub
  exact ht _ (hsub (List.mem_map_of_mem hb))

/-- The piece of a text that a node spans holds all that the node says.  A value is read from its
piece alone as the same tree, but that it begins at zero, and a property from its piece between
brackets as the only property of an object, but that it begins at one. -/
theorem parse_slice {cs : List Char} {t n : Tree} (h : parse cs = .ok t) (hn : n ∈ t.preorder) :
    ∃ before piece after, cs = before ++ piece ++ after ∧ byteLength before = n.offset ∧
      byteLength (before ++ piece) = n.stop ∧
      (n.kind ≠ .property → ∃ u, parse piece = .ok u ∧ u.shift n.offset = n) ∧
      (n.kind = .property → ∃ u, parse ('{' :: piece ++ ['}']) =
        .ok (.object ⟨0, byteLength piece + 2⟩ [u]) ∧ u.shift n.offset = n.shift 1) := by
  have htext := text_of_parse h
  have ht : ∀ b ∈ t.openings 0, b.depth ≤ maxDepth :=
    depth_le_of_verdict ((parse_eq_verdict htext).symm.trans h)
  obtain ⟨depth, ⟨before, piece, after, hcs, hpiece, hsub⟩, hkind⟩ := htext.inside hn
  have hsub := hsub 0
  rw [Nat.zero_add] at hpiece
  have hspan := hpiece.span
  have hoffset : n.offset = byteLength before := congrArg Span.offset hspan
  refine ⟨before, piece, after, by rw [hcs, List.append_assoc], hoffset.symm, ?stop, ?_⟩
  case stop => rw [Node.stop, hspan, Span.stop, Text.byteLength_append]
  cases hpiece with
  | value hvalue =>
    refine ⟨fun _ => ?_, fun hproperty => ?_⟩
    · obtain ⟨u, rfl, hu⟩ := hvalue.movable
      have hread := hu 0
      rw [Node.shift_zero] at hread
      have hdepth := depth_le_of_inside ht hsub
      refine ⟨u, parse_value hread fun b hb => ?_, by rw [hoffset]⟩
      exact Nat.le_trans (Nat.le_add_right ..) (hdepth b hb)
    · exact absurd hproperty (Grammar.IsValue.kind_ne ⟨_, _, hvalue⟩)
  | property hproperty =>
    refine ⟨fun hne => absurd hproperty.kind_eq hne, fun hkind' => ?_⟩
    obtain ⟨u, rfl, hu⟩ := hproperty.movable Grammar.Value.movable
    have hdepth := depth_le_of_inside ht hsub
    refine ⟨u.shift 1, parse_object (hu 1) fun b hb => ?_, ?_⟩
    · have := hkind hkind'
      rw [← Nat.zero_add 1, Node.openings_shift] at hb
      obtain ⟨b', hb', rfl⟩ := List.mem_map.mp hb
      have := hdepth b' hb'
      simp only
      omega
    · rw [Node.shift_shift, Node.shift_shift, Nat.add_comm, hoffset]

theorem parse_slice_property :
    let n : Tree := .property ⟨2, 8⟩ (.string ⟨2, 3⟩ "a") (some (.null ⟨6, 4⟩))
    let text := [' ', '{', '"', 'a', '"', ':', 'n', 'u', 'l', 'l', '}']
    parse text = .ok (.object ⟨1, 10⟩ [n]) ∧
      ∃ before piece after, text = before ++ piece ++ after ∧ byteLength before = 2 ∧
        ∃ u, parse ('{' :: piece ++ ['}']) = .ok (.object ⟨0, byteLength piece + 2⟩ [u]) ∧
          u.shift 2 = n.shift 1 := by
  intro n text
  have h : parse text = .ok (.object ⟨1, 10⟩ [n]) := by decide +kernel
  have hn : n ∈ Node.preorder (.object ⟨1, 10⟩ [n]) :=
    List.mem_cons_of_mem _ (List.mem_append_left _ (List.mem_cons_self ..))
  obtain ⟨before, piece, after, htext, hbefore, -, -, hproperty⟩ := parse_slice h hn
  exact ⟨h, before, piece, after, htext, hbefore, hproperty rfl⟩

end Tree

end JsonNav
