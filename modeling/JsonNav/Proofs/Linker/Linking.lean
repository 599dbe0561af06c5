import JsonNav.Proofs.Linker.Fetched
import JsonNav.Proofs.Linker.Pipeline

/-! The ways to link the references of a document, and which link was made for which reference.
Each link has the range of the value of its reference, whichever way it was made. -/

namespace JsonNav

open FetchEvent (settledTasks)

/-- A way to link the references of a document: inside it, also to given destinations, or by
fetching while events happen. -/
inductive Linking where
  | inside
  | given (destinations : List Destination)
  | fetching (r : Resolver) (service : Service) (events : List FetchEvent)

/-- The reference with its link, if it has one. -/
def Reference.withLink? (x : Reference) (o : Outcome) : Option (Reference × Link) :=
  o.link?.map fun k => (x, k)

/-- The links inside a document, each with its reference. -/
def Linker.localPairs (l : Linker) (d : Document) : List (Reference × Link) :=
  (l.references d).filterMap fun x => x.withLink? (x.localOutcome d)

/-- The links to given destinations, each with the reference that stands there. -/
def Linker.pairsAt (l : Linker) (d : Document) (destinations : List Destination) :
    List (Reference × Link) :=
  destinations.filterMap fun t =>
    (l.reference? t.source).bind fun x => x.withLink? (x.outcomeIn d t.document)

namespace Linking

/-- The places beside those of the document where references are looked for. -/
def destinations : Linking → List Destination
  | given destinations => destinations
  | _ => []

/-- The links of a document. -/
def links (l : Linker) (d : Document) : Linking → List Link
  | inside => l.localLinks d
  | given destinations => l.linksWith d destinations
  | fetching r service events => l.fetchedLinks d r service events

/-- The links of a document, each with the reference that it was made for. -/
def pairs (l : Linker) (d : Document) : Linking → List (Reference × Link)
  | inside => l.localPairs d
  | given destinations => l.localPairs d ++ l.pairsAt d destinations
  | fetching r service events =>
    ((l.references d).filterMap fun x => (x.treatment d r).outcome?.bind x.withLink?) ++
      (settledTasks events).filterMap fun i =>
        (l.requests d r)[i]?.bind fun o =>
          o.reference.withLink? (o.outcome d (service i o.uri))

end Linking

namespace Reference

variable {d e : Document} {x y : Reference} {o : Outcome} {k : Link}

theorem map_snd_withLink? (x : Reference) (o : Outcome) :
    (x.withLink? o).map (·.2) = o.link? := by
  rw [withLink?, Option.map_map]
  exact Option.map_id'

theorem withLink?_eq_some (h : x.withLink? o = some (y, k)) : y = x ∧ o.link? = some k := by
  obtain ⟨k', hk, heq⟩ := Option.map_eq_some_iff.mp h
  obtain ⟨rfl, rfl⟩ := Prod.mk.inj heq
  exact ⟨rfl, hk⟩

theorem range_of_outcomeIn (h : (x.outcomeIn d e).link? = some k) :
    k.range = Link.interior d x.value.node := by
  unfold outcomeIn at h
  split at h
  next => rw [← Option.some.inj h]; rfl
  next => exact nomatch h

theorem bind_withLink?_treatment (d : Document) (r : Resolver) (x : Reference) :
    (x.treatment d r).outcome?.bind x.withLink? = x.withLink? (x.localOutcome d) := by
  rw [withLink?, ← x.link?_treatment d r]
  cases (x.treatment d r).outcome? <;> rfl

end Reference

theorem Outbound.range_of_outcome {d : Document} {x : Outbound} {result : FetchResult} {k : Link}
    (h : (x.outcome d result).link? = some k) :
    k.range = Link.interior d x.reference.value.node := by
  rw [link?_outcome] at h
  split at h
  next => rw [← Option.some.inj h]; rfl
  next => exact nomatch h

namespace Linking

variable {l : Linker} {d : Document}

theorem map_snd_localPairs (l : Linker) (d : Document) :
    (l.localPairs d).map (·.2) = l.localLinks d := by
  rw [Linker.localPairs, List.map_filterMap, Linker.localLinks_eq]
  exact List.filterMap_congr fun x _ => x.map_snd_withLink? _

/-- A reference that needs no fetch has the link that it has inside the document. -/
theorem decidedPairs_eq (l : Linker) (d : Document) (r : Resolver) :
    ((l.references d).filterMap fun x => (x.treatment d r).outcome?.bind x.withLink?) =
      l.localPairs d :=
  List.filterMap_congr fun x _ => x.bind_withLink?_treatment d r

theorem links_eq_map_pairs (l : Linker) (d : Document) (w : Linking) :
    w.links l d = (w.pairs l d).map (·.2) := by
  cases w with
  | inside => exact (map_snd_localPairs l d).symm
  | given destinations =>
    have hsplit : l.linksWith d destinations =
        l.localLinks d ++ Outcome.links (l.outcomesAt d destinations) := List.filterMap_append
    rw [links, pairs, hsplit, List.map_append, map_snd_localPairs, Outcome.links,
      Linker.outcomesAt, Linker.pairsAt, List.filterMap_filterMap, List.map_filterMap]
    refine congrArg _ (List.filterMap_congr fun t _ => ?_)
    cases l.reference? t.source with
    | none => rfl
    | some x => exact (x.map_snd_withLink? _).symm
  | fetching r service events =>
    have hsplit : l.fetchedLinks d r service events =
        l.localLinks d ++ Outcome.links ((settledTasks events).filterMap fun i =>
          (l.requests d r)[i]?.map fun x => x.outcome d (service i x.uri)) := by
      rw [← Linker.links_decided l d r]
      exact List.filterMap_append
    rw [links, pairs, hsplit, decidedPairs_eq, List.map_append, map_snd_localPairs,
      Outcome.links, List.filterMap_filterMap, List.map_filterMap]
    refine congrArg _ (List.filterMap_congr fun i _ => ?_)
    cases (l.requests d r)[i]? with
    | none => rfl
    | some o => exact (o.reference.map_snd_withLink? _).symm

/-- A link is made for a reference of the document, or for one at a destination, and has the range
of its value. -/
theorem reference_of_mem_pairs {w : Linking} {x : Reference} {k : Link} (h : (x, k) ∈ w.pairs l d) :
    (x ∈ l.references d ∨ ∃ t ∈ w.destinations, l.reference? t.source = some x) ∧
      k.range = Link.interior d x.value.node := by
  have hinside (h : (x, k) ∈ l.localPairs d) :
      x ∈ l.references d ∧ k.range = Link.interior d x.value.node := by
    obtain ⟨y, hy, h⟩ := List.mem_filterMap.mp h
    obtain ⟨rfl, hk⟩ := Reference.withLink?_eq_some h
    exact ⟨hy, Reference.range_of_localOutcome hk⟩
  cases w with
  | inside => exact (hinside h).imp_left .inl
  | given destinations =>
    rcases List.mem_append.mp h with h | h
    · exact (hinside h).imp_left .inl
    · obtain ⟨t, ht, h⟩ := List.mem_filterMap.mp h
      obtain ⟨y, hy, h⟩ := Option.bind_eq_some_iff.mp h
      obtain ⟨rfl, hk⟩ := Reference.withLink?_eq_some h
      exact ⟨.inr ⟨t, ht, hy⟩, Reference.range_of_outcomeIn hk⟩
  | fetching r service events =>
    rw [pairs, decidedPairs_eq] at h
    rcases List.mem_append.mp h with h | h
    · exact (hinside h).imp_left .inl
    · obtain ⟨i, -, h⟩ := List.mem_filterMap.mp h
      obtain ⟨o, ho, h⟩ := Option.bind_eq_some_iff.mp h
      obtain ⟨rfl, hk⟩ := Reference.withLink?_eq_some h
      refine ⟨.inl ?_, Outbound.range_of_outcome hk⟩
      have hmem := List.mem_of_getElem? ho
      rw [Linker.requests_eq_outbound] at hmem
      obtain ⟨y, hy, hout⟩ := List.mem_filterMap.mp hmem
      rwa [Reference.reference_of_outbound? hout]

end Linking

end JsonNav
