import JsonNav.Proofs.Linker.Inside
import JsonNav.Proofs.Lists
import JsonNav.Proofs.Store.History
import JsonNav.Proofs.Tree.Decidable

/-! Linking to stored documents.  The references that lead out of a document are listed, looked up
in a store and linked to the documents found there: each step keeps the order and drops just what it
cannot place, so the links are the local ones and then one for each property that refers to a stored
node. -/

namespace JsonNav

open Text (byteLength)

namespace Reference

/-- The link of a reference to a stored document: the file part is not empty, its address is not
empty and has a document in the store, and the fragment leads to a node of that document. -/
def storedLink? (d : Document) (s : Store) (r : Resolver) (x : Reference) : Option Link :=
  if x.parts.file = "" then none
  else do
    let u ← r x.parts.file d.uri
    if u = "" then none
    else do
      let destination ← s.get? u
      let target ← destination.root.follow? x.parts.fragment
      return ⟨Link.interior d x.value.node,
        some (Link.locator u (destination.position target.node.offset))⟩

theorem storedLink?_eq {d : Document} {s : Store} (hs : s.Keyed) (r : Resolver) (x : Reference) :
    x.storedLink? d s r = (x.outbound? d r).bind fun o =>
      (s.get? o.uri).bind fun destination => (x.outcomeIn d destination).link? := by
  unfold storedLink? outbound?
  by_cases hfile : x.parts.file = ""
  · rw [if_pos hfile, if_pos (by simp [FilePointer.isLocal, hfile])]
    rfl
  · rw [if_neg hfile, if_neg (by simp [FilePointer.isLocal, hfile]), Resolver.address?]
    cases r x.parts.file d.uri with
    | none => rfl
    | some u =>
      by_cases hu : u = ""
      · simp [hu, Option.filter]
      · simp only [hu, Option.filter, ne_eq, not_false_eq_true, decide_true, if_true, if_false,
          Option.map_some, Option.bind_some, Option.bind_eq_bind, Option.pure_def]
        cases hget : s.get? u with
        | none => rfl
        | some destination =>
          simp only [Option.bind_some, outcomeIn]
          cases destination.root.follow? x.parts.fragment with
          | none => rfl
          | some target => rw [← hs u destination hget]; rfl

theorem reference_of_outbound? {d : Document} {r : Resolver} {x : Reference} {o : Outbound}
    (h : x.outbound? d r = some o) : o.reference = x := by
  unfold outbound? at h
  split at h
  next => exact nomatch h
  next =>
    obtain ⟨uri, -, rfl⟩ := Option.map_eq_some_iff.mp h
    rfl

/-- A reference has a link inside its document or to a stored document, but not both. -/
theorem localOutcome_or_storedLink? (d : Document) (s : Store) (r : Resolver) (x : Reference) :
    (x.localOutcome d).link? = none ∨ x.storedLink? d s r = none := by
  cases hlocal : x.parts.isLocal with
  | false => exact .inl (link?_localOutcome_of_not_isLocal hlocal)
  | true =>
    right
    have hfile : x.parts.file = "" := by
      simpa [FilePointer.isLocal] using hlocal
    rw [storedLink?, if_pos hfile]

theorem range_of_localOutcome {d : Document} {x : Reference} {k : Link}
    (h : (x.localOutcome d).link? = some k) : k.range = Link.interior d x.value.node := by
  unfold localOutcome at h
  split at h
  next => rw [← Option.some.inj h]; rfl
  next => exact nomatch h

theorem storedLink?_eq_some_iff {d : Document} {s : Store} {r : Resolver} {x : Reference}
    {k : Link} : x.storedLink? d s r = some k ↔ x.parts.file ≠ "" ∧ ∃ u destination target,
      r x.parts.file d.uri = some u ∧ u ≠ "" ∧ s.get? u = some destination ∧
        destination.root.follow? x.parts.fragment = some target ∧
        k = ⟨Link.interior d x.value.node,
          some (Link.locator u (destination.position target.node.offset))⟩ := by
  unfold storedLink?
  split
  next hfile => simp [hfile]
  next hfile =>
    simp only [Option.bind_eq_bind, Option.bind_eq_some_iff, Option.ite_none_left_eq_some,
      Option.pure_def, Option.some.injEq, ne_eq, hfile, not_false_eq_true, true_and]
    constructor
    · rintro ⟨u, hu, hne, destination, hget, target, hfollow, rfl⟩
      exact ⟨u, destination, target, hu, hne, hget, hfollow, rfl⟩
    · rintro ⟨u, destination, target, hu, hne, hget, hfollow, rfl⟩
      exact ⟨u, hu, hne, destination, hget, target, hfollow, rfl⟩

theorem range_of_storedLink? {d : Document} {s : Store} {r : Resolver} {x : Reference} {k : Link}
    (h : x.storedLink? d s r = some k) : k.range = Link.interior d x.value.node := by
  obtain ⟨-, u, destination, target, -, -, -, -, rfl⟩ := storedLink?_eq_some_iff.mp h
  rfl

end Reference

namespace Linker

variable {l : Linker} {d : Document} {s : Store} {r : Resolver}

theorem links_outcomesAt (hs : s.Keyed) :
    Outcome.links (l.outcomesAt d (s.destinations (l.outbound d r))) =
      (l.references d).filterMap (Reference.storedLink? d s r) := by
  rw [Outcome.links, outcomesAt, Store.destinations, outbound, List.filterMap_filterMap,
    List.filterMap_filterMap, List.filterMap_filterMap]
  refine List.filterMap_congr ?_
  intro x hx
  rw [Reference.storedLink?_eq hs]
  cases hout : x.outbound? d r with
  | none => rfl
  | some o =>
    obtain rfl := Reference.reference_of_outbound? hout
    simp only [Option.bind_some]
    cases s.get? o.uri with
    | none => rfl
    | some destination =>
      simp only [Option.map_some, Option.bind_some, reference?_of_mem hx]

theorem localLinks_eq (l : Linker) (d : Document) :
    l.localLinks d = (l.references d).filterMap fun x => (x.localOutcome d).link? := by
  rw [localLinks, localOutcomes, Outcome.links, List.filterMap_map]
  rfl

theorem linksWith_eq (hs : s.Keyed) :
    l.linksWith d (s.destinations (l.outbound d r)) =
      l.localLinks d ++ (l.references d).filterMap (Reference.storedLink? d s r) := by
  rw [linksWith, outcomesWith, Outcome.links, List.filterMap_append, ← links_outcomesAt hs]
  rfl

/-! ### The properties that are linked -/

/-- The property at `p` has the marking key, and for its value a string that names a file with a
document in the store and leads to a place of that document, and `k` is the link from that value to
that place, under the address of the file. -/
def LinksStored (l : Linker) (d : Document) (s : Store) (r : Resolver) (p : Place) (k : Link) :
    Prop :=
  ∃ span ks vs text u destination target,
    p.node = .property span (.string ks l.key) (some (.string vs text)) ∧
    (FilePointer.ofString text).file ≠ "" ∧
    r (FilePointer.ofString text).file d.uri = some u ∧ u ≠ "" ∧ s.get? u = some destination ∧
    destination.root.follow? (FilePointer.ofString text).fragment = some target ∧
    k = ⟨Link.interior d (.string vs text),
      some (Link.locator u (destination.position target.node.offset))⟩

/-- A property with a link inside its document has none to a stored document. -/
theorem Links.not_linksStored {p : Place} {k k' : Link} (h : l.Links d p k) :
    ¬ l.LinksStored d s r p k' := by
  obtain ⟨_, _, _, text, _, hnode, hfollow, -⟩ := h
  rintro ⟨_, _, _, text', _, _, _, hnode', hfile, -⟩
  rw [hnode] at hnode'
  obtain ⟨-, -, hvalue⟩ := Node.property.inj hnode'
  obtain ⟨-, rfl⟩ := Node.string.inj (Option.some.inj hvalue)
  exact hfile (String.isEmpty_iff.mp (Tree.isLocal_of_follow? hfollow))

/-- The references to stored documents, each with its link. -/
def storedPairs (l : Linker) (d : Document) (s : Store) (r : Resolver) : List (Reference × Link) :=
  (l.references d).filterMap fun x => (x.storedLink? d s r).map fun k => (x, k)

theorem mem_storedPairs_iff {x : Reference} {k : Link} :
    (x, k) ∈ l.storedPairs d s r ↔ x ∈ l.references d ∧ x.storedLink? d s r = some k := by
  simp only [storedPairs, List.mem_filterMap, Option.map_eq_some_iff, Prod.mk.injEq]
  constructor
  · rintro ⟨_, hx, _, hk, rfl, rfl⟩
    exact ⟨hx, hk⟩
  · rintro ⟨hx, hk⟩
    exact ⟨x, hx, k, hk, rfl, rfl⟩

theorem map_snd_storedPairs (l : Linker) (d : Document) (s : Store) (r : Resolver) :
    (l.storedPairs d s r).map (·.2) =
      (l.references d).filterMap (Reference.storedLink? d s r) := by
  rw [storedPairs, List.map_filterMap]
  refine List.filterMap_congr fun x _ => ?_
  rw [Option.map_map]
  exact Option.map_id'

/-- The property of a reference to a stored document has the link of that reference. -/
theorem linksStored_of_mem_storedPairs {x : Reference} {k : Link}
    (h : (x, k) ∈ l.storedPairs d s r) : l.LinksStored d s r x.property k := by
  obtain ⟨hx, hk⟩ := mem_storedPairs_iff.mp h
  obtain ⟨span, ks, vs, hnode, -, hvalue⟩ := node_of_reference? (reference?_of_mem hx)
  obtain ⟨hfile, u, destination, target, hu, hne, hget, hfollow, rfl⟩ :=
    Reference.storedLink?_eq_some_iff.mp hk
  exact ⟨span, ks, vs, x.text, u, destination, target, hnode, hfile, hu, hne, hget, hfollow,
    by rw [hvalue]⟩

/-- The places that are linked to stored documents are those of the references with such a link. -/
theorem exists_mem_storedPairs_iff {p : Place} :
    (∃ a ∈ l.storedPairs d s r, a.1.property = p) ↔
      p ∈ Place.all d.root ∧ ∃ k, l.LinksStored d s r p k := by
  constructor
  · rintro ⟨⟨x, k⟩, ha, rfl⟩
    obtain ⟨q, hq, hreference⟩ := List.mem_filterMap.mp (mem_storedPairs_iff.mp ha).1
    refine ⟨?_, k, linksStored_of_mem_storedPairs ha⟩
    rwa [(reference?_eq_some hreference).1]
  · rintro ⟨hp, k, span, ks, vs, text, u, destination, target, hnode, hfile, hu, hne, hget,
      hfollow, -⟩
    obtain ⟨x, hx, rfl⟩ := exists_reference? hnode
    have hlink := Reference.storedLink?_eq_some_iff.mpr
      ⟨hfile, u, destination, target, hu, hne, hget, hfollow, rfl⟩
    exact ⟨_, mem_storedPairs_iff.mpr ⟨List.mem_filterMap.mpr ⟨p, hp, hx⟩, hlink⟩,
      (reference?_eq_some hx).1⟩

/-- Listing the outbound references of a document, looking them up in a store and linking them
yields the links inside the document and then one link for each property that refers to a stored
node, and for no other, in the order of the text.  No property has a link of both kinds, and the
links of a parsed document that is not too large have different ranges. -/
theorem linksWith_stored (l : Linker) (d : Document) (ds : List Document) (r : Resolver) :
    let s := Store.ofList ds
    let links := l.linksWith d (s.destinations (l.outbound d r))
    ∃ (inside stored : List Place) (ks : List Link),
      (∀ p, p ∈ inside ↔ p ∈ Place.all d.root ∧ ∃ k, l.Links d p k) ∧
      inside.Pairwise (·.index < ·.index) ∧
      List.Forall₂ (l.Links d) inside (l.localLinks d) ∧
      (∀ p, p ∈ stored ↔ p ∈ Place.all d.root ∧ ∃ k, l.LinksStored d s r p k) ∧
      stored.Pairwise (·.index < ·.index) ∧
      List.Forall₂ (l.LinksStored d s r) stored ks ∧
      links = l.localLinks d ++ ks ∧
      (∀ p ∈ inside, p ∉ stored) ∧
      ∀ uri text, Document.parse uri text = .ok d → byteLength text.toList < 2 ^ 32 →
        (links.map (·.range)).Nodup := by
  intro s links
  have hlinks : links = l.localLinks d ++ (l.storedPairs d s r).map (·.2) := by
    rw [map_snd_storedPairs]
    exact linksWith_eq (Store.keyed_ofList ds)
  have hinside (p : Place) : p ∈ (l.resolved d).map (·.1.property) ↔
      p ∈ Place.all d.root ∧ ∃ k, l.Links d p k := by
    rw [List.mem_map, exists_mem_resolved_iff]
  have hstored (p : Place) : p ∈ (l.storedPairs d s r).map (·.1.property) ↔
      p ∈ Place.all d.root ∧ ∃ k, l.LinksStored d s r p k := by
    rw [List.mem_map, exists_mem_storedPairs_iff]
  refine ⟨_, _, _, hinside, ?order, l.forall₂_links_resolved d, hstored, ?storedOrder, ?storedLinks,
    hlinks, ?apart, ?ranges⟩
  case order => exact List.pairwise_map.mpr (l.pairwise_selected d _)
  case storedOrder => exact List.pairwise_map.mpr (l.pairwise_selected d _)
  case storedLinks =>
    rw [List.forall₂_map_left_iff, List.forall₂_map_right_iff, List.forall₂_same]
    exact fun a ha => linksStored_of_mem_storedPairs ha
  case apart =>
    intro p hp hp'
    obtain ⟨-, k, hk⟩ := (hinside p).mp hp
    obtain ⟨-, k', hk'⟩ := (hstored p).mp hp'
    exact hk.not_linksStored hk'
  case ranges =>
    intro uri text hd hsize
    rw [hlinks, map_snd_storedPairs, localLinks_eq]
    exact nodup_map_filterMap_append (fun _ _ h => Reference.range_of_localOutcome h)
      (fun _ _ h => Reference.range_of_storedLink? h)
      (fun x _ => x.localOutcome_or_storedLink? d s r)
      (Document.nodup_interior_references l hd hsize)

/-- One reference stays inside the document, one leads to a stored document, and the file of the
last one is not in the store. -/
theorem linksWith_stored_kinds :
    let text := "[\x7b\"$ref\":\"#\"\x7d,\x7b\"$ref\":\"x#/k\"\x7d,\x7b\"$ref\":\"y\"\x7d]"
    let e : Document := ⟨.ofString "x" "\x7b\"k\":1\x7d", .object ⟨0, 7⟩
      [.property ⟨1, 5⟩ (.string ⟨1, 3⟩ "k") (some (.number ⟨5, 1⟩ ⟨0x3ff0000000000000⟩))]⟩
    let s : Store := .ofList [e]
    let r : Resolver := fun file _ => some file
    let k : Link := ⟨⟨⟨0, 10⟩, ⟨0, 11⟩⟩, some "m#1,1"⟩
    let k' : Link := ⟨⟨⟨0, 23⟩, ⟨0, 27⟩⟩, some "x#1,6"⟩
    ∃ d, Document.parse "m" text = .ok d ∧ byteLength text.toList < 2 ^ 32 ∧
      ({} : Linker).linksWith d (s.destinations (({} : Linker).outbound d r)) = [k, k'] ∧
      ([k, k'].map (·.range)).Nodup ∧
      ∃ p q, ({} : Linker).Links d p k ∧ ({} : Linker).LinksStored d s r q k' ∧ p ≠ q ∧
        ∀ o ∈ Place.all d.root, (∃ k, ({} : Linker).LinksStored d s r o k) → o = q := by
  intro text e s r k k'
  let x : Tree := .property ⟨15, 13⟩ (.string ⟨15, 6⟩ "$ref") (some (.string ⟨22, 6⟩ "x#/k"))
  let y : Tree := .property ⟨31, 10⟩ (.string ⟨31, 6⟩ "$ref") (some (.string ⟨38, 3⟩ "y"))
  let d : Document := ⟨.ofString "m" text, .array ⟨0, 43⟩ [
    .object ⟨1, 12⟩ [
      .property ⟨2, 10⟩ (.string ⟨2, 6⟩ "$ref") (some (.string ⟨9, 3⟩ "#"))],
    .object ⟨14, 15⟩ [x],
    .object ⟨30, 12⟩ [y]]⟩
  have hd : Document.parse "m" text = .ok d := by
    subst d x y text
    decide +kernel
  have hsize : byteLength text.toList < 2 ^ 32 := by decide
  have hdestinations : s.destinations (({} : Linker).outbound d r) = [⟨⟨6, x⟩, e⟩] := by
    have hout : ({} : Linker).outbound d r =
        [⟨⟨⟨6, x⟩, ⟨8, .string ⟨22, 6⟩ "x#/k"⟩, "x#/k"⟩, "x"⟩,
          ⟨⟨⟨10, y⟩, ⟨12, .string ⟨38, 3⟩ "y"⟩, "y"⟩, "y"⟩] := rfl
    have hget (uri : String) : s.get? uri = if "x" = uri then some e else none :=
      Store.get?_ofList_singleton e uri
    rw [hout]
    simp [Store.destinations, hget]
  have hlinks : ({} : Linker).linksWith d (s.destinations (({} : Linker).outbound d r)) = [k, k'] := by
    rw [hdestinations]
    decide
  have hlocal : ({} : Linker).localLinks d = [k] := by decide
  obtain ⟨inside, stored, ks, -, -, hinside, hmem, -, hstored, happend, hapart, hranges⟩ :=
    linksWith_stored {} d [e] r
  have hnodup := hranges "m" text hd hsize
  rw [hlinks] at happend hnodup
  rw [hlocal] at happend hinside
  obtain rfl : ks = [k'] := (List.cons.inj happend).2.symm
  obtain ⟨p, _, hp, hnil, rfl⟩ := List.forall₂_cons_right_iff.mp hinside
  obtain rfl := List.forall₂_nil_right_iff.mp hnil
  obtain ⟨q, _, hq, hnil, rfl⟩ := List.forall₂_cons_right_iff.mp hstored
  obtain rfl := List.forall₂_nil_right_iff.mp hnil
  refine ⟨d, hd, hsize, hlinks, hnodup, p, q, hp, hq, ?_, fun o ho hk => ?_⟩
  · rintro rfl
    exact hapart p (List.mem_singleton_self p) (List.mem_singleton_self p)
  · exact List.mem_singleton.mp ((hmem o).mpr ⟨ho, hk⟩)

end Linker

end JsonNav
