import JsonNav.Proofs.Linker.Linking
import JsonNav.Proofs.Lists
import JsonNav.Proofs.Tree.Decidable

/-! Linking to stored documents and linking by fetching agree.  If the files of the stored documents
are fetched without errors, fetching makes a link for each reference that has one to a stored
document, and it makes the same links inside the document. -/

namespace JsonNav

/-- What fetching has in place of a link: the same link if the reference names no file, and
otherwise a link without target. -/
def Linking.counterpart : Reference × Link → Reference × Link
  | (x, k) => (x, if x.parts.isLocal then k else ⟨k.range, none⟩)

namespace Reference

variable {d : Document} {x : Reference} {k : Link}

theorem isLocal_of_localOutcome (h : (x.localOutcome d).link? = some k) :
    x.parts.isLocal = true := by
  cases hlocal : x.parts.isLocal with
  | true => rfl
  | false =>
    rw [link?_localOutcome_of_not_isLocal hlocal] at h
    exact nomatch h

theorem isLocal_of_outbound? {r : Resolver} {o : Outbound} (h : x.outbound? d r = some o) :
    x.parts.isLocal = false := by
  unfold outbound? at h
  split at h
  next => exact nomatch h
  next hlocal => exact Bool.eq_false_iff.mpr hlocal

end Reference

namespace Linker

variable {l : Linker} {d : Document} {r : Resolver}

theorem isLocal_of_mem_outbound {o : Outbound} (h : o ∈ l.outbound d r) :
    o.reference.parts.isLocal = false := by
  obtain ⟨x, -, hout⟩ := List.mem_filterMap.mp h
  rw [Reference.reference_of_outbound? hout]
  exact Reference.isLocal_of_outbound? hout

/-- The links that stay inside a document are their own counterparts. -/
theorem map_counterpart_localPairs (l : Linker) (d : Document) :
    (l.localPairs d).map Linking.counterpart = l.localPairs d := by
  rw [localPairs, List.map_filterMap]
  refine List.filterMap_congr fun x _ => ?_
  cases hk : (x.localOutcome d).link? with
  | none => rw [Reference.withLink?, hk]; rfl
  | some k =>
    rw [Reference.withLink?, hk, Option.map_some, Option.map_some, Linking.counterpart,
      if_pos (Reference.isLocal_of_localOutcome hk)]

/-- The links of the outbound references to stored documents. -/
theorem pairsAt_destinations (l : Linker) (d : Document) (s : Store) (r : Resolver) :
    l.pairsAt d (s.destinations (l.outbound d r)) =
      (l.outbound d r).filterMap fun o => (s.get? o.uri).bind fun e =>
        o.reference.withLink? (o.reference.outcomeIn d e) := by
  rw [pairsAt, Store.destinations, List.filterMap_filterMap]
  refine List.filterMap_congr fun o ho => ?_
  obtain ⟨x, hx, hout⟩ := List.mem_filterMap.mp ho
  obtain rfl := Reference.reference_of_outbound? hout
  cases s.get? o.uri with
  | none => rfl
  | some e =>
    rw [Option.map_some, Option.bind_some, Option.bind_some, reference?_of_mem hx,
      Option.bind_some]

/-- When all fetches have settled, the links are those inside the document and those of the outbound
references whose own calls reported no errors. -/
theorem pairs_fetching_perm {events : List FetchEvent} {p : Pool}
    (hrun : (l.pool d r).run? events = some p) (hsettled : p.isSettled = true) (service : Service) :
    ((Linking.fetching r service events).pairs l d).Perm
      (l.localPairs d ++ (l.outbound d r).zipIdx.filterMap fun (o, i) =>
        o.reference.withLink? (o.outcome d (service i o.uri))) := by
  have hperm := (reached_pool hrun).perm_range hsettled
  rw [Linking.pairs, Linking.decidedPairs_eq, requests_eq_outbound,
    ← filterMap_range_eq (l.outbound d r) fun i o =>
      o.reference.withLink? (o.outcome d (service i o.uri))]
  exact (hperm.filterMap _).append_left _

end Linker

namespace Outbound

theorem link?_outcome_report (d : Document) (o : Outbound) :
    (o.outcome d (.report [])).link? = some ⟨Link.interior d o.reference.value.node, none⟩ := by
  rw [link?_outcome, if_pos rfl]
  rfl

/-- A link to a stored document has its counterpart if the file is fetched without errors. -/
theorem counterpart_of_stored {d e : Document} {o : Outbound} {x : Reference} {k : Link}
    (hlocal : o.reference.parts.isLocal = false)
    (h : o.reference.withLink? (o.reference.outcomeIn d e) = some (x, k)) :
    o.reference.withLink? (o.outcome d (.report [])) = some (Linking.counterpart (x, k)) := by
  obtain ⟨rfl, hk⟩ := Reference.withLink?_eq_some h
  have hfile : ¬ o.reference.parts.isLocal = true := by simp [hlocal]
  rw [Reference.withLink?, link?_outcome_report, Linking.counterpart, if_neg hfile,
    Reference.range_of_outcomeIn hk]
  rfl

end Outbound

namespace Linking

/-- The counterparts of the links to stored documents are among the links that fetching makes, each
as often as it is a counterpart. -/
theorem counterparts_subperm {l : Linker} {d : Document} {r : Resolver} {s : Store}
    {service : Service} {events : List FetchEvent} {p : Pool}
    (hservice : ∀ i u, s.contains u = true → service i u = .report [])
    (hrun : (l.pool d r).run? events = some p) (hsettled : p.isSettled = true) :
    (((given (s.destinations (l.outbound d r))).pairs l d).map counterpart).Subperm
      ((fetching r service events).pairs l d) := by
  refine List.Subperm.trans ?_ (Linker.pairs_fetching_perm hrun hsettled service).symm.subperm
  rw [pairs, List.map_append, Linker.map_counterpart_localPairs, Linker.pairsAt_destinations,
    List.map_filterMap, ← filterMap_zipIdx_fst]
  refine ((filterMap_sublist_filterMap ?_).append_left _).subperm
  rintro ⟨o, i⟩ ho pair hpair
  obtain ⟨⟨x, k⟩, hstored, rfl⟩ := Option.map_eq_some_iff.mp hpair
  obtain ⟨e, hget, hlink⟩ := Option.bind_eq_some_iff.mp hstored
  have hcontains : s.contains o.uri = true := by
    rw [Store.contains_eq_isSome_get?]
    exact Option.isSome_of_eq_some hget
  show o.reference.withLink? (o.outcome d (service i o.uri)) = _
  rw [hservice i o.uri hcontains]
  exact o.counterpart_of_stored
    (Linker.isLocal_of_mem_outbound (List.fst_mem_of_mem_zipIdx ho)) hlink

/-- Fetching makes all links that linking to stored documents makes.  Fetches can always settle, and
when they have, each link to a stored document or inside the document has its counterpart, made for
the same reference, and no two have the same one. -/
theorem stored_matched (l : Linker) (d : Document) (r : Resolver) (s : Store) (service : Service)
    (hservice : ∀ i u, s.contains u = true → service i u = .report []) :
    let stored := given (s.destinations (l.outbound d r))
    (∃ events p, (l.pool d r).run? events = some p ∧ p.isSettled = true) ∧
    ∀ events p, (l.pool d r).run? events = some p → p.isSettled = true →
      let fetched := fetching r service events
      stored.links l d = (stored.pairs l d).map (·.2) ∧
      fetched.links l d = (fetched.pairs l d).map (·.2) ∧
      (∃ place : Fin (stored.pairs l d).length → Fin (fetched.pairs l d).length,
        Function.Injective place ∧
        ∀ i, (fetched.pairs l d)[place i] = counterpart (stored.pairs l d)[i]) ∧
      (stored.links l d).length ≤ (fetched.links l d).length := by
  intro stored
  refine ⟨(Linker.reached_pool (Pool.run?_nil (l.pool d r))).exists_run, ?_⟩
  intro events p hrun hsettled fetched
  have hmatched := counterparts_subperm hservice hrun hsettled
  have hlength := hmatched.length_le
  refine ⟨links_eq_map_pairs l d stored, links_eq_map_pairs l d fetched,
    exists_injective_of_map_subperm hmatched, ?_⟩
  rwa [links_eq_map_pairs, links_eq_map_pairs, List.length_map, List.length_map,
    ← List.length_map counterpart]

/-- One reference stays inside the document.  Two lead to one stored document, and the fragment of
one of them leads to no node of it. -/
theorem stored_matched_fragment :
    let text := "[0,\x7b\"$ref\":\"#/0\"\x7d,\x7b\"$ref\":\"x#/0\"\x7d,\x7b\"$ref\":\"x\"\x7d]"
    let e : Document := ⟨.ofString "x" "[]", .array ⟨0, 2⟩ []⟩
    let s : Store := .ofList [e]
    let r : Resolver := fun file _ => some file
    let service : Service := fun _ u => if u = "x" then .report [] else .aborted
    let events : List FetchEvent := [.start 0, .start 1, .settle 1, .settle 0]
    let fetched := fetching r service events
    ∃ d, Document.parse "" text = .ok d ∧
      let stored := given (s.destinations (({} : Linker).outbound d r))
      stored.links {} d =
        [⟨⟨⟨0, 12⟩, ⟨0, 15⟩⟩, some "#1,2"⟩, ⟨⟨⟨0, 43⟩, ⟨0, 44⟩⟩, some "x#1,1"⟩] ∧
      fetched.links {} d =
        [⟨⟨⟨0, 12⟩, ⟨0, 15⟩⟩, some "#1,2"⟩, ⟨⟨⟨0, 43⟩, ⟨0, 44⟩⟩, none⟩,
          ⟨⟨⟨0, 27⟩, ⟨0, 31⟩⟩, none⟩] ∧
      ∃ place : Fin (stored.pairs {} d).length → Fin (fetched.pairs {} d).length,
        Function.Injective place ∧
        ∀ i, (fetched.pairs {} d)[place i] = counterpart (stored.pairs {} d)[i] := by
  intro text e s r service events fetched
  let x : Tree := .property ⟨19, 13⟩ (.string ⟨19, 6⟩ "$ref") (some (.string ⟨26, 6⟩ "x#/0"))
  let y : Tree := .property ⟨35, 10⟩ (.string ⟨35, 6⟩ "$ref") (some (.string ⟨42, 3⟩ "x"))
  let d : Document := ⟨.ofString "" text, .array ⟨0, 47⟩ [
    .number ⟨1, 1⟩ ⟨0⟩,
    .object ⟨3, 14⟩ [
      .property ⟨4, 12⟩ (.string ⟨4, 6⟩ "$ref") (some (.string ⟨11, 5⟩ "#/0"))],
    .object ⟨18, 15⟩ [x],
    .object ⟨34, 12⟩ [y]]⟩
  have hd : Document.parse "" text = .ok d := by
    subst d x y text
    decide +kernel
  have hget (uri : String) : s.get? uri = if "x" = uri then some e else none :=
    Store.get?_ofList_singleton e uri
  have hservice (i : Nat) (uri : String) (h : s.contains uri = true) :
      service i uri = .report [] := by
    rw [Store.contains_eq_isSome_get?, hget] at h
    split at h
    next huri => exact if_pos huri.symm
    next => exact absurd h Bool.false_ne_true
  have hdestinations : s.destinations (({} : Linker).outbound d r) =
      [⟨⟨7, x⟩, e⟩, ⟨⟨11, y⟩, e⟩] := by
    have hout : ({} : Linker).outbound d r =
        [⟨⟨⟨7, x⟩, ⟨9, .string ⟨26, 6⟩ "x#/0"⟩, "x#/0"⟩, "x"⟩,
          ⟨⟨⟨11, y⟩, ⟨13, .string ⟨42, 3⟩ "x"⟩, "x"⟩, "x"⟩] := rfl
    rw [hout]
    simp [Store.destinations, hget]
  have hrun : (({} : Linker).pool d r).run? events = some ⟨none, [.settled, .settled]⟩ := by decide
  refine ⟨d, hd, ?stored, ?fetched, ?matched⟩
  case stored =>
    rw [hdestinations]
    decide
  case fetched => decide
  case matched => exact ((stored_matched {} d r s service hservice).2 events _ hrun rfl).2.2.1

end Linking

end JsonNav
