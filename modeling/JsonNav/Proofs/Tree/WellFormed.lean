import Mathlib.Data.Bool.AllAny
import JsonNav.Proofs.Tree.Place
import JsonNav.Proofs.Tree.Slice

/-! The form of the trees that are read from texts.  Objects hold properties, properties have a key
and a value, and all nodes lie in the text as its brackets do: inside their parent and one after the
other, so that offsets grow along the pre-order. -/

namespace JsonNav

open Text (byteLength)

variable {α σ ν : Type}

/-! ### Spans inside spans -/

namespace Node

/-- The nodes below a node lie inside its span, one after the other. -/
structure Nests (n : Node σ ν) : Prop where
  inside : ∀ c ∈ n.children, n.offset ≤ c.offset ∧ c.stop ≤ n.stop
  apart : n.children.Pairwise (·.stop ≤ ·.offset)

theorem size_lt_of_mem_children {n c : Node σ ν} (h : c ∈ n.children) : c.size < n.size := by
  have hle : ∀ ns : List (Node σ ν), c ∈ ns → c.size ≤ sizeAll ns := by
    intro ns hc
    induction ns with
    | nil => exact nomatch hc
    | cons m ns ih =>
      rw [sizeAll]
      rcases List.mem_cons.mp hc with rfl | hc
      · exact Nat.le_add_right ..
      · have := ih hc
        omega
  have := hle n.children h
  rw [n.size_eq]
  omega

/-- To prove something of all nodes, prove it of a node from the nodes below it. -/
theorem induct_children {motive : Node σ ν → Prop}
    (h : ∀ n, (∀ c ∈ n.children, motive c) → motive n) (n : Node σ ν) : motive n := by
  induction hsize : n.size using Nat.strongRecOn generalizing n with
  | ind size ih =>
    refine h n fun c hc => ih c.size ?_ c rfl
    have := size_lt_of_mem_children hc
    omega

theorem offset_le_stop (n : Node σ ν) : n.offset ≤ n.stop :=
  Nat.le_add_right ..

/-- Where all nodes lie inside their parents, they lie inside the root, and offsets grow along the
pre-order. -/
theorem ascending_of_nests (n : Node σ ν) (h : ∀ k ∈ n.preorder, k.Nests) :
    (∀ k ∈ n.preorder, n.offset ≤ k.offset ∧ k.stop ≤ n.stop) ∧
      n.preorder.Pairwise (·.offset ≤ ·.offset) := by
  induction n using induct_children with
  | h n ih =>
    rw [preorder_eq] at h
    obtain ⟨hinside, hapart⟩ := h n (List.mem_cons_self ..)
    have hchild {c : Node σ ν} (hc : c ∈ n.children) :=
      ih c hc fun k hk => h k (List.mem_cons_of_mem _ (List.mem_flatMap_of_mem hc hk))
    have hbelow : ∀ k ∈ n.children.flatMap preorder, n.offset ≤ k.offset ∧ k.stop ≤ n.stop := by
      intro k hk
      obtain ⟨c, hc, hk⟩ := List.mem_flatMap.mp hk
      have := hinside c hc
      have := (hchild hc).1 k hk
      omega
    rw [preorder_eq, List.pairwise_cons, List.pairwise_flatMap]
    refine ⟨?_, fun k hk => (hbelow k hk).1, fun c hc => (hchild hc).2, ?_⟩
    · rintro k (_ | ⟨_, hk⟩)
      · exact ⟨Nat.le_refl _, Nat.le_refl _⟩
      · exact hbelow k hk
    · refine hapart.imp_of_mem fun {a b} ha hb hab x hx y hy => ?_
      have := (hchild ha).1 x hx
      have := (hchild hb).1 y hy
      have := x.offset_le_stop
      omega

/-- Where all nodes lie inside their parents, a node that comes after another in pre-order stands
below it, or begins where the other has ended. -/
theorem apart_of_nests (n : Node σ ν) (h : ∀ k ∈ n.preorder, k.Nests) :
    n.preorder.Pairwise fun a b => a.stop ≤ b.offset ∨ b ∈ a.children.flatMap preorder := by
  induction n using induct_children with
  | h n ih =>
    rw [preorder_eq] at h
    have hchild {c : Node σ ν} (hc : c ∈ n.children) : ∀ k ∈ c.preorder, k.Nests :=
      fun k hk => h k (List.mem_cons_of_mem _ (List.mem_flatMap_of_mem hc hk))
    rw [preorder_eq, List.pairwise_cons, List.pairwise_flatMap]
    refine ⟨fun b hb => .inr hb, fun c hc => ih c hc (hchild hc), ?_⟩
    refine (h n (List.mem_cons_self ..)).apart.imp_of_mem fun {c c'} hc hc' hapart a ha b hb => ?_
    have := (ascending_of_nests c (hchild hc)).1 a ha
    have := (ascending_of_nests c' (hchild hc')).1 b hb
    left
    omega

theorem offset_stop_of_span {o k : Nat} (n : Node σ ν) (h : n.span = ⟨o, k⟩) :
    n.offset = o ∧ n.stop = o + k := by
  rw [offset, stop, h]
  exact ⟨rfl, rfl⟩

/-- Nodes lie between two offsets, each ending before the next begins. -/
structure Apart (lo hi : Nat) (ns : List (Node σ ν)) : Prop where
  inside : ∀ n ∈ ns, lo ≤ n.offset ∧ n.stop < hi
  apart : ns.Pairwise (·.stop < ·.offset)

namespace Apart

variable {lo hi : Nat} {n : Node σ ν} {ns : List (Node σ ν)}

theorem nil : Apart lo hi ([] : List (Node σ ν)) :=
  ⟨by simp, .nil⟩

theorem cons (hlo : lo ≤ n.offset) (hhi : n.stop < hi) (h : Apart (n.stop + 1) hi ns) :
    Apart lo hi (n :: ns) := by
  refine ⟨?_, List.pairwise_cons.mpr ⟨fun k hk => (h.inside k hk).1, h.apart⟩⟩
  rintro k (_ | ⟨_, hk⟩)
  · exact ⟨hlo, hhi⟩
  · have := h.inside k hk
    have := n.offset_le_stop
    omega

end Apart

end Node

/-! ### Brackets -/

/-- A span begins and ends with a bracket, and nodes lie between the two brackets, each ending
before the next begins. -/
structure Bracketed (cs : List Char) (opening closing : Char) (s : Span) (ns : List (Node σ ν)) :
    Prop where
  brackets : ∃ before inner after, cs = before ++ opening :: (inner ++ [closing]) ++ after ∧
    s = ⟨byteLength before, byteLength (opening :: (inner ++ [closing]))⟩
  inside : ∀ n ∈ ns, s.offset < n.offset ∧ n.stop < s.stop
  apart : ns.Pairwise (·.stop < ·.offset)

namespace Grammar

variable {P : List Char → Nat → α → Prop} {Q : List Char → Nat → Node σ ν → Prop}
  {m : Meaning σ ν} {close : Char} {cs : List Char} {o : Nat} {n : Node σ ν}

theorem Others.exists_close {as : List α} (h : Others P close cs o as) :
    ∃ inner, cs = inner ++ [close] := by
  induction h with
  | @done ws => exact ⟨ws, rfl⟩
  | more _ _ _ _ ih =>
    obtain ⟨inner, rfl⟩ := ih
    exact ⟨_, (List.append_assoc ..).symm⟩

theorem Contents.exists_close {as : List α} (h : Contents P close cs o as) :
    ∃ inner, cs = inner ++ [close] := by
  cases h with
  | @empty ws => exact ⟨ws, rfl⟩
  | items _ _ has =>
    obtain ⟨inner, rfl⟩ := has.exists_close
    exact ⟨_, (List.append_assoc ..).symm⟩

theorem byteLength_pos_of_close (h : ∃ inner, cs = inner ++ [close]) : 0 < byteLength cs := by
  obtain ⟨inner, rfl⟩ := h
  exact Text.byteLength_pos (by simp)

/-- Each item after the first comes after a comma, and the last before the closing bracket. -/
theorem Others.apart (hQ : ∀ {cs o n}, Q cs o n → n.span = ⟨o, byteLength cs⟩)
    {ns : List (Node σ ν)} (h : Others Q close cs o ns) :
    Node.Apart (o + 1) (o + byteLength cs) ns := by
  induction h with
  | done => exact .nil
  | @more ws ws' cs rest o n ns _ _ hn hns ih =>
    obtain ⟨hoffset, hstop⟩ := n.offset_stop_of_span (hQ hn)
    have hcomma := ','.utf8Size_pos
    have hrest := byteLength_pos_of_close hns.exists_close
    rw [Nat.add_assoc, ← Text.byteLength_append] at hstop
    have hend : o + byteLength (ws ++ ',' :: ws' ++ cs ++ rest) = n.stop + byteLength rest := by
      rw [hstop, Text.byteLength_append _ rest, Nat.add_assoc]
    rw [← hstop] at ih
    rw [hend]
    refine .cons ?_ (by omega) ih
    rw [hoffset, Text.byteLength_append, Text.byteLength_cons]
    omega

theorem Contents.apart (hQ : ∀ {cs o n}, Q cs o n → n.span = ⟨o, byteLength cs⟩)
    {ns : List (Node σ ν)} (h : Contents Q close cs o ns) :
    Node.Apart o (o + byteLength cs) ns := by
  cases h with
  | empty => exact .nil
  | @items ws cs rest _ n ns _ hn hns =>
    obtain ⟨hoffset, hstop⟩ := n.offset_stop_of_span (hQ hn)
    have hns' := hns.apart hQ
    have hrest := byteLength_pos_of_close hns.exists_close
    rw [Nat.add_assoc, ← Text.byteLength_append] at hstop
    have hend : o + byteLength (ws ++ cs ++ rest) = n.stop + byteLength rest := by
      rw [hstop, Text.byteLength_append _ rest, Nat.add_assoc]
    rw [← hstop] at hns'
    rw [hend]
    exact .cons (by omega) (by omega) hns'

/-- A container that stands in a text has its brackets there, and its items between them. -/
theorem Contents.bracketed (hQ : ∀ {cs o n}, Q cs o n → n.span = ⟨o, byteLength cs⟩)
    {opening : Char} (hopening : opening.utf8Size = 1) {before inner after : List Char}
    {ns : List (Node σ ν)} (h : Contents Q close inner (byteLength before + 1) ns) :
    Bracketed (before ++ opening :: inner ++ after) opening close
      ⟨byteLength before, byteLength (opening :: inner)⟩ ns := by
  obtain ⟨hinside, hapart⟩ := h.apart hQ
  obtain ⟨body, rfl⟩ := h.exists_close
  refine ⟨⟨before, body, after, rfl, rfl⟩, fun n hn => ?_, hapart⟩
  have := hinside n hn
  simp only [Text.byteLength_cons, Span.stop]
  omega

theorem Piece.ne_nil (h : Piece m cs o n) : cs ≠ [] := by
  cases h with
  | value h =>
    obtain ⟨d, ds, rfl, -⟩ := begins_value h
    exact List.cons_ne_nil d ds
  | property h =>
    obtain ⟨d, ds, rfl, -⟩ := begins_property h
    exact List.cons_ne_nil d ds

/-- The last character of a value is no blank. -/
theorem Value.getLast_not_blank (h : Value m cs o n) :
    ∀ c ∈ cs.getLast?, Cursor.isBlank c = false := by
  have hclose (inner : List Char) {c d : Char} (hd : Cursor.isBlank d = false)
      (hc : c ∈ (inner ++ [d]).getLast?) : Cursor.isBlank c = false := by
    rw [List.getLast?_concat] at hc
    rwa [← Option.some.inj hc]
  intro c hc
  cases h with
  | string h =>
    cases h with
    | @mk body _ _ _ => exact hclose ('"' :: body) (by decide) hc
  | @number n _ _ _ =>
    have hpart := Numeral.isPart_of_mem (List.mem_of_getLast? hc)
    cases hblank : Cursor.isBlank c with
    | false => rfl
    | true =>
      have hnone : ∀ c ∈ [' ', '\t', '\n', '\r'],
          Digit.ofChar? c = none ∧ c ∉ ['+', '-', '.', 'e', 'E'] :=
        List.all_iff_forall_prop.mp (by decide)
      obtain ⟨hdigit, hsign⟩ := hnone c (Cursor.isBlank_iff.mp hblank)
      rcases hpart with hpart | hpart
      · exact absurd hdigit hpart
      · exact absurd hpart hsign
  | trueWord => exact hclose ['t', 'r', 'u'] (by decide) hc
  | falseWord => exact hclose ['f', 'a', 'l', 's'] (by decide) hc
  | nullWord => exact hclose ['n', 'u', 'l'] (by decide) hc
  | array h =>
    obtain ⟨inner, rfl⟩ := h.exists_close
    exact hclose ('[' :: inner) (by decide) hc
  | object h =>
    obtain ⟨inner, rfl⟩ := h.exists_close
    exact hclose ('{' :: inner) (by decide) hc

end Grammar

namespace Tree

/-- What holds of a tree that was read from a text. -/
structure WellFormed (cs : List Char) (t : Tree) : Prop where
  /-- The root reaches from the first character that is no blank to the last. -/
  root : ∃ before first piece after last, cs = before ++ piece ++ after ∧
    t.span = ⟨byteLength before, byteLength piece⟩ ∧ Grammar.Blanks before ∧ Grammar.Blanks after ∧
    piece.head? = some first ∧ Cursor.isBlank first = false ∧
    piece.getLast? = some last ∧ Cursor.isBlank last = false
  /-- Each node spans a piece of the text that is not empty and splits no character. -/
  piece : ∀ n ∈ t.preorder, ∃ before piece after, cs = before ++ piece ++ after ∧ piece ≠ [] ∧
    n.span = ⟨byteLength before, byteLength piece⟩
  root_kind : t.kind ≠ .property
  object : ∀ s ps, .object s ps ∈ t.preorder →
    (∀ p ∈ ps, p.kind = .property) ∧ Bracketed cs '{' '}' s ps
  array : ∀ s items, .array s items ∈ t.preorder →
    (∀ n ∈ items, n.kind ≠ .property) ∧ Bracketed cs '[' ']' s items
  /-- A property reaches from its key to its value, which is no property again. -/
  property : ∀ s k v, .property s k v ∈ t.preorder → ∃ ks key w, k = .string ks key ∧ v = some w ∧
    w.kind ≠ .property ∧ s.offset = k.offset ∧ k.stop < w.offset ∧ w.stop = s.stop
  nesting : ∀ b ∈ t.openings 0, b.depth ≤ 512
  ascending : t.preorder.Pairwise (·.offset ≤ ·.offset)
  /-- Only a property begins where another node does. -/
  distinct : (t.preorder.filter (·.kind ≠ .property)).Pairwise (·.offset < ·.offset)

open Grammar (Inside Piece Value Property)

theorem exists_piece {cs : List Char} {t n : Tree} (h : parse cs = .ok t) (hn : n ∈ t.preorder) :
    ∃ before piece after, cs = before ++ piece ++ after ∧
      Piece .standard piece (byteLength before) n := by
  obtain ⟨depth, ⟨before, piece, after, hcs, hpiece, -⟩, -⟩ := (text_of_parse h).inside hn
  rw [Nat.zero_add] at hpiece
  exact ⟨before, piece, after, by rw [hcs, List.append_assoc], hpiece⟩

theorem bracketed_array {cs : List Char} {t : Tree} {s : Span} {items : List Tree}
    (h : parse cs = .ok t) (hn : .array s items ∈ t.preorder) :
    (∀ n ∈ items, n.kind ≠ .property) ∧ Bracketed cs '[' ']' s items := by
  obtain ⟨before, piece, after, rfl, hpiece⟩ := exists_piece h hn
  cases hpiece with
  | property h => exact nomatch h
  | value h =>
    refine ⟨fun n hn => (Grammar.IsValue.of_array ⟨_, _, h⟩ n hn).kind_ne, ?_⟩
    cases h with
    | string h => exact nomatch h
    | array h => exact h.bracketed Value.span rfl

theorem bracketed_object {cs : List Char} {t : Tree} {s : Span} {ps : List Tree}
    (h : parse cs = .ok t) (hn : .object s ps ∈ t.preorder) :
    (∀ p ∈ ps, p.kind = .property) ∧ Bracketed cs '{' '}' s ps := by
  obtain ⟨before, piece, after, rfl, hpiece⟩ := exists_piece h hn
  cases hpiece with
  | property h => exact nomatch h
  | value h =>
    cases h with
    | string h => exact nomatch h
    | object h =>
      refine ⟨fun p hp => ?_, h.bracketed Property.span rfl⟩
      obtain ⟨_, _, hproperty⟩ := h.forall_mem p hp
      exact hproperty.kind_eq

theorem exists_key_value {cs : List Char} {t k : Tree} {s : Span} {v : Option Tree}
    (h : parse cs = .ok t) (hn : .property s k v ∈ t.preorder) :
    ∃ ks key w, k = .string ks key ∧ v = some w ∧ w.kind ≠ .property ∧ s.offset = k.offset ∧
      k.stop < w.offset ∧ w.stop = s.stop := by
  obtain ⟨before, piece, after, rfl, hpiece⟩ := exists_piece h hn
  cases hpiece with
  | value h =>
    cases h with
    | string h => exact nomatch h
  | property h =>
    cases h with
    | @mk key ws ws' cs o k w hkey _ _ hw =>
      have hk := hkey.span
      have hv := hw.span
      have hcolon := ':'.utf8Size_pos
      obtain ⟨ks, x, rfl⟩ : ∃ ks x, k = .string ks x := by
        cases hkey with
        | mk => exact ⟨_, _, rfl⟩
      refine ⟨ks, x, w, rfl, rfl, Grammar.IsValue.kind_ne ⟨_, _, hw⟩, ?_, ?_, ?_⟩
      · rw [Node.offset, hk]
      · rw [Node.stop, hk, Node.offset, hv]
        simp only [Span.stop, Text.byteLength_append, Text.byteLength_cons]
        omega
      · rw [Node.stop, hv]
        simp only [Span.stop, Text.byteLength_append]
        omega

theorem nests_of_parse {cs : List Char} {t n : Tree} (h : parse cs = .ok t) (hn : n ∈ t.preorder) :
    n.Nests := by
  cases n with
  | object s ps =>
    obtain ⟨-, -, hinside, hapart⟩ := bracketed_object h hn
    exact ⟨fun c hc => (hinside c hc).imp Nat.le_of_lt Nat.le_of_lt, hapart.imp Nat.le_of_lt⟩
  | array s items =>
    obtain ⟨-, -, hinside, hapart⟩ := bracketed_array h hn
    exact ⟨fun c hc => (hinside c hc).imp Nat.le_of_lt Nat.le_of_lt, hapart.imp Nat.le_of_lt⟩
  | property s k v =>
    obtain ⟨ks, key, w, rfl, rfl, -, hoffset, hapart, hstop⟩ := exists_key_value h hn
    have hkey := (Node.string ks key : Tree).offset_le_stop
    have hvalue := w.offset_le_stop
    constructor
    · simp only [Node.children, Option.toList_some, List.mem_cons, List.not_mem_nil, or_false]
      rintro c (rfl | rfl)
      · exact ⟨Nat.le_of_eq hoffset, by show _ ≤ s.stop; omega⟩
      · exact ⟨by show s.offset ≤ _; omega, Nat.le_of_eq hstop⟩
    · simpa [Node.children] using Nat.le_of_lt hapart
  | _ => exact ⟨by simp [Node.children], by simp [Node.children]⟩

/-- The trees that are read from texts are well formed. -/
theorem parse_wellFormed {cs : List Char} {t : Tree} (h : parse cs = .ok t) : WellFormed cs t := by
  have htext := text_of_parse h
  refine ⟨?root, ?piece, htext.isValue.kind_ne, fun _ _ => bracketed_object h,
    fun _ _ => bracketed_array h, fun _ _ _ => exists_key_value h, ?nesting,
    (t.ascending_of_nests fun n hn => nests_of_parse h hn).2, htext.inOrder.sorted⟩
  case root =>
    cases htext with
    | @mk before piece after _ hbefore hvalue hafter =>
      obtain ⟨first, rest, rfl, hfirst, -⟩ := Grammar.begins_value hvalue
      have hlast := List.getLast?_eq_some_getLast (List.cons_ne_nil first rest)
      exact ⟨before, first, first :: rest, after, _, rfl, hvalue.span, hbefore, hafter, rfl, hfirst,
        hlast, hvalue.getLast_not_blank _ hlast⟩
  case piece =>
    intro n hn
    obtain ⟨before, piece, after, hcs, hpiece⟩ := exists_piece h hn
    exact ⟨before, piece, after, hcs, hpiece.ne_nil, hpiece.span⟩
  case nesting => exact depth_le_of_verdict ((parse_eq_verdict htext).symm.trans h)

theorem parse_wellFormed_array :
    let text := [' ', '{', '"', 'é', '"', ':', '[', 'n', 'u', 'l', 'l', ']', '}']
    let items : Tree := .array ⟨7, 6⟩ [.null ⟨8, 4⟩]
    let t : Tree := .object ⟨1, 13⟩ [.property ⟨2, 11⟩ (.string ⟨2, 4⟩ "é") (some items)]
    parse text = .ok t ∧ WellFormed text t := by
  intro text items t
  have h : parse text = .ok t := by
    subst t items text
    decide +kernel
  exact ⟨h, parse_wellFormed h⟩

end Tree

end JsonNav
