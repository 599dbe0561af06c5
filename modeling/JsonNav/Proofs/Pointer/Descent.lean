import JsonNav.Proofs.Pointer.Token
import JsonNav.Proofs.Tree.Run

/-! How tokens lead down a tree, step by step.  A descent along two lists of tokens is the descent
along the first and then the descent along the second from the node that it has reached, and a
descent fails for the reason that the first node that has no place for its token gives.  Trees of
any shape are allowed, also such that no text is read as. -/

namespace JsonNav

namespace Node

/-- Why a token leads nowhere from a node.  A token of an array that is not the decimal text of a
number below `2 ^ 64` is no index, and whatever else may be missing is absent. -/
inductive Refuses (n : Tree) : String → PointerError → Prop
  | notAnIndex {token : String} : n.kind = .array → (∀ i < 2 ^ 64, token ≠ toString i) →
      Refuses n token .notAnIndex
  | noItem {i : Nat} : n.kind = .array → i < 2 ^ 64 → n.children.length ≤ i →
      Refuses n (toString i) .absent
  | noProperty {token : String} : n.kind = .object → (∀ p ∈ n.children, p.key? ≠ some token) →
      Refuses n token .absent
  | noValue {token : String} {before after : List Tree} {p : Tree} : n.kind = .object →
      n.children = before ++ p :: after → (∀ earlier ∈ before, earlier.key? ≠ some token) →
      p.key? = some token → p.value? = none → Refuses n token .absent
  | noContainer {token : String} : n.kind ≠ .object → n.kind ≠ .array → Refuses n token .absent

variable {n : Tree} {token : String} {e : PointerError}

theorem lookup?_eq_find? (h : n.kind = .object) (token : String) :
    n.lookup? token = n.children.find? fun p => p.key? = some token := by
  cases n with
  | object => rfl
  | _ => exact nomatch h

theorem refuses_object_iff (h : n.kind = .object) :
    n.Refuses token e ↔ e = .absent ∧ (n.lookup? token).bind value? = none := by
  rw [lookup?_eq_find? h]
  constructor
  · rintro (⟨harray, -⟩ | ⟨harray, -⟩ | ⟨-, hkey⟩ | ⟨-, hsplit, hfirst, hkey, hvalue⟩ | ⟨hne, -⟩)
    · exact nomatch h.symm.trans harray
    · exact nomatch h.symm.trans harray
    · have hnone : (n.children.find? fun p => p.key? = some token) = none :=
        List.find?_eq_none.mpr fun p hp => by simpa using hkey p hp
      rw [hnone]
      exact ⟨rfl, rfl⟩
    · have hfind : (n.children.find? fun p => p.key? = some token) = some _ :=
        List.find?_eq_some_iff_append.mpr
          ⟨by simpa using hkey, _, _, hsplit, fun p hp => by simpa using hfirst p hp⟩
      rw [hfind]
      exact ⟨rfl, hvalue⟩
    · exact absurd h hne
  · rintro ⟨rfl, hnone⟩
    cases hfind : n.children.find? fun p => p.key? = some token with
    | none =>
      refine .noProperty h fun p hp => ?_
      simpa using List.find?_eq_none.mp hfind p hp
    | some p =>
      rw [hfind] at hnone
      obtain ⟨hkey, before, after, hsplit, hfirst⟩ := List.find?_eq_some_iff_append.mp hfind
      exact .noValue h hsplit (fun earlier hmem => by simpa using hfirst earlier hmem)
        (by simpa using hkey) hnone

/-- A token of an array is no index, or the index of an item that there is not. -/
theorem refuses_array_iff (h : n.kind = .array) :
    n.Refuses token e ↔ e = .notAnIndex ∧ Token.index? token = none ∨
      e = .absent ∧ ∃ i, Token.index? token = some i ∧ n.children.length ≤ i := by
  constructor
  · rintro (⟨-, htoken⟩ | ⟨-, hi, hlength⟩ | ⟨hobject, -⟩ | ⟨hobject, -⟩ | ⟨-, hne⟩)
    · refine .inl ⟨rfl, Option.eq_none_iff_forall_ne_some.mpr fun i hindex => ?_⟩
      obtain ⟨heq, hlt⟩ := Token.index?_eq_some_iff.mp hindex
      exact htoken i hlt heq
    · exact .inr ⟨rfl, _, Token.index?_eq_some_iff.mpr ⟨rfl, hi⟩, hlength⟩
    · exact nomatch h.symm.trans hobject
    · exact nomatch h.symm.trans hobject
    · exact absurd h hne
  · rintro (⟨rfl, hnone⟩ | ⟨rfl, i, hindex, hlength⟩)
    · refine .notAnIndex h fun i hlt heq => ?_
      have hindex := Token.index?_eq_some_iff.mpr ⟨heq, hlt⟩
      exact nomatch hnone.symm.trans hindex
    · obtain ⟨rfl, hlt⟩ := Token.index?_eq_some_iff.mp hindex
      exact .noItem h hlt hlength

theorem refuses_other_iff (hobject : n.kind ≠ .object) (harray : n.kind ≠ .array) :
    n.Refuses token e ↔ e = .absent := by
  constructor
  · rintro (⟨h, -⟩ | ⟨h, -⟩ | ⟨h, -⟩ | ⟨h, -⟩ | -)
    · exact absurd h harray
    · exact absurd h harray
    · exact absurd h hobject
    · exact absurd h hobject
    · rfl
  · rintro rfl
    exact .noContainer hobject harray

end Node

namespace Place

variable {p q : Place} {token : String} {tokens : List String} {e : PointerError}

/-! ### One step -/

theorem step_of_object (h : p.node.kind = .object) (token : String) :
    p.step token = ((p.children.find? fun q => q.node.key? = some token).bind value?).elim
      (.error .absent) .ok := by
  cases hn : p.node with
  | object s ps =>
    simp only [step, hn]
    cases (p.children.find? fun q => q.node.key? = some token).bind value? <;> rfl
  | _ => simp [hn, Node.kind] at h

theorem step_of_array (h : p.node.kind = .array) (token : String) :
    p.step token = (Token.index? token).elim (.error .notAnIndex) fun k =>
      p.children[k]?.elim (.error .absent) .ok := by
  cases hn : p.node with
  | array s items =>
    simp only [step, hn]
    cases Token.index? token with
    | none => rfl
    | some k => cases h : p.children[k]? <;> simp [h]
  | _ => simp [hn, Node.kind] at h

theorem step_of_other (hobject : p.node.kind ≠ .object) (harray : p.node.kind ≠ .array)
    (token : String) : p.step token = .error .absent := by
  cases hn : p.node with
  | object s ps => simp [hn, Node.kind] at hobject
  | array s items => simp [hn, Node.kind] at harray
  | _ => simp only [step, hn]

/-- What a map of places must keep for tokens to lead to the same places after it. -/
structure Steady (g : Place → Place) : Prop where
  kind : ∀ p, (g p).node.kind = p.node.kind
  key : ∀ p, (g p).node.key? = p.node.key?
  children : ∀ p, (g p).children = p.children.map g
  value : ∀ p, (g p).value? = p.value?.map g

theorem Steady.step {g : Place → Place} (hg : Steady g) (p : Place) (token : String) :
    (g p).step token = (p.step token).map g := by
  have helim {e : PointerError} (x : Option Place) :
      (x.map g).elim (.error e) .ok = (x.elim (.error e) Except.ok).map g := by
    cases x <;> rfl
  by_cases hobject : p.node.kind = .object
  · rw [step_of_object ((hg.kind p).trans hobject), step_of_object hobject, hg.children,
      List.find?_map, Option.bind_map, ← helim, Option.map_bind]
    simp only [Function.comp_def, hg.value, hg.key]
  · by_cases harray : p.node.kind = .array
    · rw [step_of_array ((hg.kind p).trans harray), step_of_array harray]
      cases Token.index? token with
      | none => rfl
      | some k =>
        simp only [Option.elim_some]
        rw [hg.children, List.getElem?_map, helim]
    · rw [step_of_other (by rwa [hg.kind]) (by rwa [hg.kind]), step_of_other hobject harray]
      rfl

theorem Steady.descend {g : Place → Place} (hg : Steady g) (p : Place) (tokens : List String) :
    (g p).descend tokens = (p.descend tokens).map g := by
  induction tokens generalizing p with
  | nil => rfl
  | cons token tokens ih =>
    rw [Place.descend, Place.descend, List.foldlM_cons, List.foldlM_cons, hg.step]
    cases p.step token with
    | error e => rfl
    | ok q => exact ih q

/-! ### Descents from a node on the way -/

/-- The place `q` of the tree at `p`, as a place of the tree that `p` is in. -/
def nested (p q : Place) : Place :=
  ⟨p.index + q.index, q.node⟩

theorem row_nested (p : Place) (i : Nat) (ns : List Tree) :
    row (p.index + i) ns = (row i ns).map p.nested := by
  induction ns generalizing i with
  | nil => rfl
  | cons n ns ih => rw [row, Nat.add_assoc, ih, row, List.map_cons, nested]

theorem steady_nested (p : Place) : Steady p.nested where
  kind _ := rfl
  key _ := rfl
  children q := by
    rw [children, children, nested, Nat.add_assoc, row_nested]
  value q := by
    obtain ⟨i, n⟩ := q
    cases n with
    | property s k v => cases v <;> simp [value?, nested, Nat.add_assoc]
    | _ => rfl

/-- The descent from a place is the descent from its node, as the root of a tree of its own. -/
theorem descend_eq_nested (p : Place) (tokens : List String) :
    p.descend tokens = ((root p.node).descend tokens).map p.nested :=
  (steady_nested p).descend (root p.node) tokens

theorem descend_append (p : Place) (tokens tokens' : List String) :
    p.descend (tokens ++ tokens') = p.descend tokens >>= fun q => q.descend tokens' :=
  List.foldlM_append ..

/-! ### Failures -/

/-- From an object a token leads to the value of the property that is looked up. -/
theorem map_node_step (h : p.node.kind = .object) (token : String) :
    (p.step token).map node =
      ((p.node.lookup? token).bind Node.value?).elim (.error .absent) .ok := by
  have hlookup : p.node.lookup? token =
      (p.children.find? fun q => q.node.key? = some token).map node := by
    rw [Node.lookup?_eq_find? h, ← node_row (p.index + 1) p.node.children, List.find?_map, children]
    rfl
  rw [step_of_object h, hlookup]
  cases p.children.find? fun q => q.node.key? = some token with
  | none => rfl
  | some q =>
    rw [Option.map_some, Option.bind_some, Option.bind_some, ← node_value?]
    cases q.value? <;> rfl

theorem length_children (p : Place) : p.children.length = p.node.children.length := by
  rw [← node_row (p.index + 1) p.node.children, List.length_map, children]

theorem step_eq_error_iff : p.step token = .error e ↔ p.node.Refuses token e := by
  by_cases hobject : p.node.kind = .object
  · have hmap : p.step token = .error e ↔ (p.step token).map node = .error e := by
      cases p.step token <;> simp [Except.map]
    rw [hmap, map_node_step hobject, Node.refuses_object_iff hobject]
    cases (p.node.lookup? token).bind Node.value? <;> simp [eq_comm]
  · by_cases harray : p.node.kind = .array
    · rw [step_of_array harray, Node.refuses_array_iff harray]
      cases Token.index? token with
      | none => simp [eq_comm]
      | some i =>
        rw [← length_children]
        by_cases hlt : i < p.children.length
        · simp [hlt]
        · simp [Nat.le_of_not_lt hlt, eq_comm]
    · rw [step_of_other hobject harray, Node.refuses_other_iff hobject harray, Except.error.injEq,
        eq_comm]

/-- A descent fails at the first token that leads nowhere, for the reason that the node there gives.
-/
theorem descend_eq_error_iff : p.descend tokens = .error e ↔
    ∃ before token after q, tokens = before ++ token :: after ∧ p.descend before = .ok q ∧
      q.node.Refuses token e := by
  induction tokens generalizing p with
  | nil => simp [descend, pure, Except.pure]
  | cons token tokens ih =>
    rw [descend, List.foldlM_cons, bind_eq_error_iff, step_eq_error_iff]
    constructor
    · rintro (h | ⟨q, hq, h⟩)
      · exact ⟨[], token, tokens, p, rfl, rfl, h⟩
      · obtain ⟨before, token', after, r, rfl, hr, h⟩ := ih.mp h
        refine ⟨token :: before, token', after, r, rfl, ?_, h⟩
        rw [descend, List.foldlM_cons]
        exact bind_eq_ok_iff.mpr ⟨q, hq, hr⟩
    · rintro ⟨before, token', after, r, heq, hr, h⟩
      cases before with
      | nil =>
        obtain ⟨rfl, rfl⟩ := List.cons.inj heq
        obtain rfl := Except.ok.inj hr
        exact .inl h
      | cons first before =>
        obtain ⟨rfl, rfl⟩ := List.cons.inj heq
        rw [descend, List.foldlM_cons] at hr
        obtain ⟨q, hq, hr⟩ := bind_eq_ok_iff.mp hr
        exact .inr ⟨q, hq, ih.mpr ⟨before, token', after, r, rfl, hr, h⟩⟩

/-- A descent goes on from the node that it has reached as from the root of a tree.  It fails at the
first token that leads nowhere, for the reason that the node there gives: the token is no index
exactly if the node is an array and the token is not the decimal text of a number below `2 ^ 64`.
From an object a token leads to the value of the property that is looked up, if it has one. -/
theorem descend_by_steps (t : Tree) :
    (∀ tokens tokens', (root t).descend (tokens ++ tokens') =
      (root t).descend tokens >>= fun p => ((root p.node).descend tokens').map p.nested) ∧
    (∀ tokens e, (root t).descend tokens = .error e ↔
      ∃ before token after p, tokens = before ++ token :: after ∧
        (root t).descend before = .ok p ∧ p.node.Refuses token e) ∧
    (∀ tokens, (root t).descend tokens = .error .notAnIndex ↔
      ∃ before token after p, tokens = before ++ token :: after ∧
        (root t).descend before = .ok p ∧ p.node.kind = .array ∧
          ∀ i < 2 ^ 64, token ≠ toString i) ∧
    (∀ token, t.kind = .object → ((root t).descend [token]).map node =
      ((t.lookup? token).bind Node.value?).elim (.error .absent) .ok) := by
  refine ⟨?append, fun _ _ => descend_eq_error_iff, ?index, ?object⟩
  case append =>
    intro tokens tokens'
    rw [descend_append]
    exact congrArg _ (funext fun p => p.descend_eq_nested tokens')
  case index =>
    intro tokens
    rw [descend_eq_error_iff]
    constructor
    · rintro ⟨before, token, after, p, hsplit, hp, harray, htoken⟩
      exact ⟨before, token, after, p, hsplit, hp, harray, htoken⟩
    · rintro ⟨before, token, after, p, hsplit, hp, harray, htoken⟩
      exact ⟨before, token, after, p, hsplit, hp, .notAnIndex harray htoken⟩
  case object =>
    intro token hobject
    have hstep : (root t).descend [token] = (root t).step token := by
      rw [descend, List.foldlM_cons]
      cases (root t).step token <;> rfl
    rw [hstep]
    exact map_node_step hobject token

/-- Only the first property with a key counts, even if it has no value. -/
theorem descend_by_steps_repeated :
    let key : Tree := .string ⟨1, 3⟩ "a"
    let t : Tree := .object ⟨0, 0⟩ [.property ⟨1, 3⟩ key none, .property ⟨1, 8⟩ key (some key)]
    t.kind = .object ∧ ((root t).descend ["a"]).map node = .error .absent := by
  intro key t
  exact ⟨rfl, (descend_by_steps t).2.2.2 "a" rfl⟩

end Place

end JsonNav
