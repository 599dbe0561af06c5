import JsonNav.Proofs.Pointer.Token
import JsonNav.Proofs.Tree.Decidable
import JsonNav.Proofs.Tree.Parse
import JsonNav.Proofs.Tree.Place
import JsonNav.Proofs.Tree.Shape

/-! Which places pointers lead to.  `Place.Path` says how one gets from a place down to another: to
items by their numbers, and to values by their keys, always at the first property with a key.  In a
tree that was read from a text a pointer leads to a place exactly if the pointer has the tokens of a
path from the root to that place, and no place has two paths. -/

namespace JsonNav

open Text (byteLength)

namespace Place

/-- One token leads down from an array to the item that it numbers, and from an object to the value
of the first property that has it as its key. -/
inductive Leads (p : Place) : String → Place → Prop
  | item {q : Place} {s : Span} {items : List Tree} {i : Nat} :
      p.node = .array s items → p.children[i]? = some q → Leads p (toString i) q
  | value {property q : Place} {s : Span} {ps : List Tree} {before after : List Place}
      {key : String} :
      p.node = .object s ps → p.children = before ++ property :: after →
      (∀ earlier ∈ before, earlier.node.key? ≠ some key) → property.node.key? = some key →
      property.value? = some q → Leads p key q

/-- The tokens on the way from one place down to another. -/
inductive Path : Place → List String → Place → Prop
  | here (p : Place) : Path p [] p
  | down {p q r : Place} {token : String} {tokens : List String} :
      p.Leads token q → Path q tokens r → Path p (token :: tokens) r

/-- The places of a tree that no path leads to: properties, their keys, and all that belongs to a
property whose key an earlier property of the same object has. -/
inductive Hidden (t : Tree) : Place → Prop
  | property {p : Place} : p ∈ all t → p.node.kind = .property → Hidden t p
  | key {p : Place} {s : Span} {k : Tree} {v : Option Tree} : p ∈ all t →
      p.node = .property s k v → Hidden t ⟨p.index + 1, k⟩
  | repeated {p earlier property q : Place} {s : Span} {ps : List Tree} {before after : List Place}
      {key : String} : p ∈ all t → p.node = .object s ps →
      p.children = before ++ property :: after → earlier ∈ before →
      earlier.node.key? = some key → property.node.key? = some key → property.Covers q → Hidden t q

variable {p q q' r : Place} {token token' : String} {tokens tokens' : List String}

theorem node_mem_children (h : q ∈ p.children) : q.node ∈ p.node.children := by
  have hmap : p.children.map node = p.node.children := node_row ..
  rw [← hmap]
  exact List.mem_map_of_mem h

theorem mem_of_split {before after : List Place} (h : p.children = before ++ q :: after) :
    q ∈ p.children := by
  rw [h]
  exact List.mem_append_right _ (List.mem_cons_self ..)

/-- The children before a child are those with smaller indices. -/
theorem mem_before_iff {c : Place} {before after : List Place}
    (h : p.children = before ++ q :: after) : c ∈ before ↔ c ∈ p.children ∧ c.index < q.index := by
  have hpairwise := p.pairwise_children
  rw [h, List.pairwise_append, List.pairwise_cons] at hpairwise
  obtain ⟨-, ⟨hafter, -⟩, hbefore⟩ := hpairwise
  constructor
  · intro hc
    have hprecedes := hbefore c hc q (List.mem_cons_self ..)
    have := c.node.size_pos
    unfold Precedes at hprecedes
    exact ⟨by simp [h, hc], by omega⟩
  · rintro ⟨hmem, hlt⟩
    rw [h, List.mem_append, List.mem_cons] at hmem
    rcases hmem with hc | rfl | hc
    · exact hc
    · omega
    · have hprecedes := hafter c hc
      unfold Precedes at hprecedes
      omega

theorem index_of_value? {s : Span} {k : Tree} {v : Option Tree} (hp : p.node = .property s k v)
    (h : p.value? = some q) : q.index = p.index + 1 + k.size := by
  unfold value? at h
  rw [hp] at h
  cases v with
  | none => exact nomatch h
  | some v =>
    obtain rfl := Option.some.inj h
    rfl

theorem length_children_lt (p : Place) : p.children.length < p.node.size := by
  have hlength (ns : List Tree) : ns.length ≤ Node.sizeAll ns := by
    induction ns with
    | nil => exact Nat.le_refl _
    | cons n ns ih =>
      have := n.size_pos
      rw [List.length_cons, Node.sizeAll]
      omega
  have hmap : p.children.map node = p.node.children := node_row ..
  have hrow : p.children.length = p.node.children.length := by rw [← hmap, List.length_map]
  have := hlength p.node.children
  rw [hrow, p.node.size_eq]
  omega

namespace Leads

theorem below (h : p.Leads token q) : p.Covers q ∧ p.index < q.index := by
  cases h with
  | item _ hq =>
    have hmem := List.mem_of_getElem? hq
    exact ⟨.child hmem, (mem_children hmem).1⟩
  | value _ hsplit _ _ hvalue =>
    have hproperty := mem_of_split hsplit
    have hmem := mem_children_of_value? hvalue
    exact ⟨.step hproperty (.child hmem),
      Nat.lt_trans (mem_children hproperty).1 (mem_children hmem).1⟩

/-- Steps towards one place are the same step. -/
theorem unique (h : p.Leads token q) (h' : p.Leads token' q') (hr : q.Covers r)
    (hr' : q'.Covers r) : token = token' ∧ q = q' := by
  cases h with
  | @item _ _ _ i hp hq =>
    cases h' with
    | @item _ _ _ j _ hq' =>
      obtain rfl := Covers.eq_of_mem_children (List.mem_of_getElem? hq) (List.mem_of_getElem? hq')
        hr hr'
      obtain ⟨hi, -⟩ := List.getElem?_eq_some_iff.mp hq
      obtain rfl := (List.getElem?_inj hi p.nodup_children).mp (hq.trans hq'.symm)
      exact ⟨rfl, rfl⟩
    | value hp' => exact nomatch hp.symm.trans hp'
  | value hp hsplit _ hkey hvalue =>
    cases h' with
    | item hp' => exact nomatch hp.symm.trans hp'
    | value _ hsplit' _ hkey' hvalue' =>
      obtain rfl := Covers.eq_of_mem_children (mem_of_split hsplit) (mem_of_split hsplit')
        (.step (mem_children_of_value? hvalue) hr) (.step (mem_children_of_value? hvalue') hr')
      exact ⟨Option.some.inj (hkey.symm.trans hkey'), Option.some.inj (hvalue.symm.trans hvalue')⟩

theorem isValue (h : p.Leads token q) (hp : Grammar.IsValue .standard p.node) :
    Grammar.IsValue .standard q.node := by
  cases h with
  | item hnode hq =>
    have hmem := node_mem_children (List.mem_of_getElem? hq)
    rw [hnode] at hp hmem
    exact hp.of_array _ hmem
  | @value property _ _ _ _ _ _ hnode hsplit _ _ hvalue =>
    have hmem := node_mem_children (mem_of_split hsplit)
    rw [hnode] at hp hmem
    obtain ⟨s, k, v, hproperty, hv⟩ := hp.of_object _ hmem
    have hnode : property.value?.map node = some v := by
      rw [node_value?, hproperty]
      rfl
    rw [hvalue] at hnode
    obtain rfl := Option.some.inj hnode
    exact hv

end Leads

theorem leads_of_step (h : p.step token = .ok q) : p.Leads token q := by
  unfold step at h
  split at h
  next s ps hp =>
    simp only at h
    split at h
    next q' hq =>
      obtain rfl := Except.ok.inj h
      obtain ⟨property, hfind, hvalue⟩ := Option.bind_eq_some_iff.mp hq
      obtain ⟨hkey, before, after, hsplit, hbefore⟩ := List.find?_eq_some_iff_append.mp hfind
      exact .value hp hsplit (fun earlier hmem => by simpa using hbefore earlier hmem)
        (by simpa using hkey) hvalue
    next => exact nomatch h
  next s items hp =>
    split at h
    next => exact nomatch h
    next i hi =>
      split at h
      next q' hq =>
        obtain rfl := Except.ok.inj h
        rw [(Token.index?_eq_some_iff.mp hi).1]
        exact .item hp hq
      next => exact nomatch h
  next => exact nomatch h

/-- The items of an array have numbers if there are not too many of them. -/
theorem step_of_leads (h : p.Leads token q) (hsize : p.node.size ≤ UInt64.size) :
    p.step token = .ok q := by
  cases h with
  | @item _ _ _ i hp hq =>
    have hi : Token.index? (toString i) = some i := by
      refine Token.index?_eq_some_iff.mpr ⟨rfl, ?_⟩
      obtain ⟨hlt, -⟩ := List.getElem?_eq_some_iff.mp hq
      have := p.length_children_lt
      omega
    simp only [step, hp, hi, hq]
  | @value property _ _ _ before after _ hp hsplit hfirst hkey hvalue =>
    have hfind : (p.children.find? fun q => q.node.key? = some token) = some property :=
      List.find?_eq_some_iff_append.mpr
        ⟨by simpa using hkey, before, after, hsplit, fun earlier hmem => by
          simpa using hfirst earlier hmem⟩
    simp only [step, hp, hfind, Option.bind_some, hvalue]

namespace Path

theorem covers (h : p.Path tokens r) : p.Covers r := by
  induction h with
  | here p => exact .refl p
  | down hstep _ ih => exact hstep.below.1.trans ih

/-- A place has one path only. -/
theorem unique (h : p.Path tokens r) (h' : p.Path tokens' r) : tokens = tokens' := by
  induction h generalizing tokens' with
  | here p =>
    cases h' with
    | here => rfl
    | down hstep hpath =>
      have := hstep.below.2
      have := hpath.covers.le
      omega
  | down hstep hpath ih =>
    cases h' with
    | here =>
      have := hstep.below.2
      have := hpath.covers.le
      omega
    | down hstep' hpath' =>
      obtain ⟨rfl, rfl⟩ := hstep.unique hstep' hpath.covers hpath'.covers
      rw [ih hpath']

theorem isValue (h : p.Path tokens r) (hp : Grammar.IsValue .standard p.node) :
    Grammar.IsValue .standard r.node := by
  induction h with
  | here => exact hp
  | down hstep _ ih => exact ih (hstep.isValue hp)

/-- A path that is not empty ends with a step. -/
theorem exists_last (h : p.Path tokens r) :
    r = p ∨ ∃ q token, p.Covers q ∧ q.Leads token r := by
  induction h with
  | here p => exact .inl rfl
  | @down p q r token tokens hstep _ ih =>
    rcases ih with rfl | ⟨x, token', hx, hlast⟩
    · exact .inr ⟨p, token, .refl p, hstep⟩
    · exact .inr ⟨x, token', hstep.below.1.trans hx, hlast⟩

/-- A step towards a place below `o` is a step towards `o`, unless it begins there. -/
theorem covers_of_leads {o : Place} (hstep : p.Leads token q) (hq : q.Covers r) (ho : p.Covers o)
    (hr : o.Covers r) (hobject : o.node.kind = .object) : o = p ∨ q.Covers o := by
  cases ho with
  | refl => exact .inl rfl
  | step hc hco =>
    right
    cases hstep with
    | item _ hmem =>
      obtain rfl := Covers.eq_of_mem_children (List.mem_of_getElem? hmem) hc hq (hco.trans hr)
      exact hco
    | value _ hsplit _ hkey hvalue =>
      have hmem := mem_children_of_value? hvalue
      obtain rfl := Covers.eq_of_mem_children (mem_of_split hsplit) hc (.step hmem hq)
        (hco.trans hr)
      cases hco with
      | refl =>
        -- A property has a key, and an object has none.
        cases hnode : o.node <;> simp [hnode, Node.kind, Node.key?] at hobject hkey
      | step hd hdo =>
        obtain rfl := Covers.eq_of_mem_children hmem hd hq (hdo.trans hr)
        exact hdo

/-- No path leads to what belongs to a property that repeats a key. -/
theorem not_covers {o earlier property : Place} {s : Span} {ps : List Tree}
    {before after : List Place} {key : String} (h : p.Path tokens r) (ho : p.Covers o)
    (hnode : o.node = .object s ps) (hsplit : o.children = before ++ property :: after)
    (hearlier : earlier ∈ before) (hkey : earlier.node.key? = some key)
    (hrepeat : property.node.key? = some key) : ¬property.Covers r := by
  intro hr
  have hmem := mem_of_split hsplit
  induction h with
  | here p =>
    have := ho.le
    have := mem_children hmem
    have := hr.le
    omega
  | @down p q r token tokens hstep hpath ih =>
    rcases covers_of_leads hstep hpath.covers ho (.step hmem hr) (by rw [hnode]; rfl) with
      rfl | hq
    · cases hstep with
      | item hp => exact nomatch hnode.symm.trans hp
      | @value first _ _ _ before' after' _ _ hsplit' hfirst hkey' hvalue =>
        -- The step goes through the same property, which then is no first one.
        obtain rfl := Covers.eq_of_mem_children (mem_of_split hsplit') hmem
          (.step (mem_children_of_value? hvalue) hpath.covers) hr
        have hbefore := (mem_before_iff hsplit').mpr ((mem_before_iff hsplit).mp hearlier)
        rw [Option.some.inj (hrepeat.symm.trans hkey')] at hkey
        exact hfirst earlier hbefore hkey
    · exact ih hq hr

end Path

theorem path_of_descend (h : p.descend tokens = .ok q) : p.Path tokens q := by
  induction tokens generalizing p with
  | nil =>
    obtain rfl := Except.ok.inj h
    exact .here p
  | cons token tokens ih =>
    rw [descend, List.foldlM_cons] at h
    obtain ⟨mid, hmid, h⟩ := bind_eq_ok_iff.mp h
    exact .down (leads_of_step hmid) (ih h)

theorem descend_of_path (h : p.Path tokens q) (hsize : p.node.size ≤ UInt64.size) :
    p.descend tokens = .ok q := by
  induction h with
  | here => rfl
  | down hstep _ ih =>
    have := hstep.below.1.le
    have := hstep.below.2
    rw [descend, List.foldlM_cons]
    exact bind_eq_ok_iff.mpr ⟨_, step_of_leads hstep hsize, ih (by omega)⟩

theorem Path.not_hidden {t : Tree} (h : (root t).Path tokens q)
    (ht : Grammar.IsValue .standard t) : ¬Hidden t q := by
  intro hhidden
  cases hhidden with
  | property _ hkind => exact (h.isValue ht).kind_ne hkind
  | @key p s k v hp hnode =>
    have hcovers := mem_all_iff.mp hp
    have hkey : (⟨p.index + 1, k⟩ : Place) ∈ p.children := by
      simp [children, hnode, Node.children, row]
    rcases h.exists_last with heq | ⟨x, token, hx, hlast⟩
    · have hindex : p.index + 1 = 0 := congrArg index heq
      omega
    · cases hlast with
      | item hitems hmem =>
        obtain rfl := hx.eq_of_child hcovers (List.mem_of_getElem? hmem) hkey
        cases hnode.symm.trans hitems
      | @value property _ _ _ _ _ _ _ hsplit _ _ hvalue =>
        have hproperty := hx.trans (.child (mem_of_split hsplit))
        obtain rfl := hproperty.eq_of_child hcovers (mem_children_of_value? hvalue) hkey
        -- The value comes after the key.
        have hindex := index_of_value? hnode hvalue
        have := k.size_pos
        simp only at hindex
        omega
  | repeated hp hnode hsplit hearlier hkey hrepeat hcovers =>
    exact h.not_covers (mem_all_iff.mp hp) hnode hsplit hearlier hkey hrepeat hcovers

end Place

namespace Tree

theorem follow?_eq_some_iff {t : Tree} {pointer : String} {p : Place} :
    t.follow? pointer = some p ↔
      ∃ tokens, Pointer.parse pointer = .ok tokens ∧ (Place.root t).descend tokens = .ok p := by
  rw [← bind_eq_ok_iff]
  unfold follow?
  cases Pointer.parse pointer >>= (Place.root t).descend <;> simp [Except.toOption]

/-- In the tree of a text a pointer leads to a place exactly if its tokens are a path to that place
from the root.  The place is a value, and two pointers with different tokens lead to different
places.  None leads to a property, to a key, or to what belongs to a property that repeats a key.
In a text below `2 ^ 64` bytes every item has a number, so there the pointer that is written from a
path leads to its end. -/
theorem follow?_exact {cs : List Char} {t : Tree} (h : parse cs = .ok t) :
    (byteLength cs < 2 ^ 64 →
      ∀ tokens p, (Place.root t).Path tokens p → t.follow? (Pointer.text tokens) = some p) ∧
    (∀ pointer p, t.follow? pointer = some p →
      p ∈ Place.all t ∧ p.node.kind ≠ .property ∧ ¬Place.Hidden t p ∧
      ∃ tokens, Pointer.parse pointer = .ok tokens ∧ (Place.root t).Path tokens p ∧
        ∀ tokens', (Place.root t).Path tokens' p → tokens' = tokens) ∧
    (∀ pointer pointer' p p', t.follow? pointer = some p → t.follow? pointer' = some p' →
      Pointer.parse pointer ≠ Pointer.parse pointer' → p.index ≠ p'.index) := by
  have htext := text_of_parse h
  refine ⟨?text, ?path, ?apart⟩
  case text =>
    intro hsize tokens p hpath
    have htree := htext.size_le
    refine follow?_eq_some_iff.mpr ⟨tokens, Pointer.parse_text tokens, ?_⟩
    exact Place.descend_of_path hpath (Nat.le_trans htree (Nat.le_of_lt hsize))
  case path =>
    intro pointer p hp
    obtain ⟨tokens, hparse, hdescend⟩ := follow?_eq_some_iff.mp hp
    have hpath := Place.path_of_descend hdescend
    exact ⟨Place.mem_all_iff.mpr hpath.covers, (hpath.isValue htext.isValue).kind_ne,
      hpath.not_hidden htext.isValue, tokens, hparse, hpath, fun _ h => h.unique hpath⟩
  case apart =>
    intro pointer pointer' p p' hp hp' hne heq
    obtain ⟨tokens, hparse, hdescend⟩ := follow?_eq_some_iff.mp hp
    obtain ⟨tokens', hparse', hdescend'⟩ := follow?_eq_some_iff.mp hp'
    have hpath := Place.path_of_descend hdescend
    have hpath' := Place.path_of_descend hdescend'
    obtain rfl := hpath.covers.eq_of_index hpath'.covers heq
    obtain rfl := hpath.unique hpath'
    exact hne (hparse.trans hparse'.symm)

theorem follow?_exact_slash :
    ∃ t, parse ['{', '"', '/', '"', ':', 'n', 'u', 'l', 'l', '}'] = .ok t ∧
      (Place.root t).Path ["/"] ⟨3, .null ⟨5, 4⟩⟩ ∧
      t.follow? (Pointer.text ["/"]) = some ⟨3, .null ⟨5, 4⟩⟩ := by
  let key : Tree := .string ⟨1, 3⟩ "/"
  let property : Tree := .property ⟨1, 8⟩ key (some (.null ⟨5, 4⟩))
  have h : parse ['{', '"', '/', '"', ':', 'n', 'u', 'l', 'l', '}'] =
      .ok (.object ⟨0, 10⟩ [property]) := by decide +kernel
  have hpath : (Place.root (.object ⟨0, 10⟩ [property])).Path ["/"] ⟨3, .null ⟨5, 4⟩⟩ :=
    .down (@Place.Leads.value _ ⟨1, property⟩ _ _ _ [] [] _ rfl rfl (by simp) rfl rfl) (.here _)
  exact ⟨_, h, hpath, (follow?_exact h).1 (by decide) _ _ hpath⟩

end Tree

end JsonNav
