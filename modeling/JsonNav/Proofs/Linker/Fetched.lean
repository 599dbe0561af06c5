import JsonNav.Linker.Fetched
import JsonNav.Proofs.Fetch.Pool
import JsonNav.Proofs.Linker.References
import JsonNav.Proofs.Lists

/-! Linking by fetching yields the same links in whatever order the fetches settle: the links that
stay inside the document, and one for each reference whose file is loaded without errors. -/

namespace JsonNav

open FetchEvent (settledTasks)

/-- The calls are made for the references that lead out of the document. -/
theorem Reference.request?_treatment (d : Document) (r : Resolver) (x : Reference) :
    (x.treatment d r).request? = x.outbound? d r := by
  unfold Reference.treatment Reference.outbound?
  split
  next => rfl
  next =>
    cases r.address? x.parts.file d.uri with
    | none => rfl
    | some uri => rfl

theorem Reference.link?_treatment (d : Document) (r : Resolver) (x : Reference) :
    (x.treatment d r).outcome?.bind Outcome.link? = (x.localOutcome d).link? := by
  unfold Reference.treatment
  cases hlocal : x.parts.isLocal with
  | true => rfl
  | false =>
    rw [link?_localOutcome_of_not_isLocal hlocal]
    cases r.address? x.parts.file d.uri with
    | none => rfl
    | some uri => rfl

theorem Outbound.link?_outcome (d : Document) (x : Outbound) (result : FetchResult) :
    (x.outcome d result).link? =
      if result = .report [] then some (.unlocated d x.reference.value.node) else none := by
  cases result with
  | aborted => rfl
  | report errors =>
    cases errors with
    | nil => rfl
    | cons e errors => rfl

namespace Linker

theorem requests_eq_outbound (l : Linker) (d : Document) (r : Resolver) :
    l.requests d r = l.outbound d r := by
  rw [requests, treatments, outbound, List.filterMap_map]
  exact congrArg (List.filterMap · (l.references d)) (funext fun x => x.request?_treatment d r)

theorem links_decided (l : Linker) (d : Document) (r : Resolver) :
    Outcome.links ((l.treatments d r).filterMap Treatment.outcome?) = l.localLinks d := by
  rw [localLinks, localOutcomes, Outcome.links, Outcome.links, treatments, List.filterMap_filterMap,
    List.filterMap_map, List.filterMap_map]
  exact congrArg (List.filterMap · (l.references d)) (funext fun x => x.link?_treatment d r)

/-- The links of the references that are fetched, in the order in which the fetches settle. -/
theorem fetchedLinks_eq (l : Linker) (d : Document) (r : Resolver) (service : Service)
    (events : List FetchEvent) :
    l.fetchedLinks d r service events = l.localLinks d ++
      (settledTasks events).filterMap fun i => (l.outbound d r)[i]?.bind fun x =>
        if service i x.uri = .report [] then some (.unlocated d x.reference.value.node)
        else none := by
  rw [fetchedLinks, fetchedOutcomes, requests_eq_outbound]
  simp only [Outcome.links, List.filterMap_append, List.filterMap_filterMap]
  rw [← links_decided l d r, Outcome.links, List.filterMap_filterMap]
  congr
  funext i
  cases (l.outbound d r)[i]? with
  | none => rfl
  | some x => exact x.link?_outcome d (service i x.uri)

theorem reached_pool {l : Linker} {d : Document} {r : Resolver} {events : List FetchEvent}
    {p : Pool} (h : (l.pool d r).run? events = some p) :
    Pool.Reached l.fetchLimit (l.outbound d r).length events p := by
  rw [pool, requests_eq_outbound] at h
  exact (Pool.reached_initial l.fetchLimit (l.outbound d r).length).run h

/-- Linking by fetching does not depend on the schedule.  The calls are made for the outbound
references in order.  Whatever tasks have done so far, they can all settle.  And when they have, the
links are those that stay inside the document, and one without target for each outbound reference
whose own call reported no errors. -/
theorem fetchedLinks_spec (l : Linker) (d : Document) (r : Resolver) (service : Service) :
    (l.requests d r).map (·.uri) = (l.outbound d r).map (·.uri) ∧
    (∀ events p, (l.pool d r).run? events = some p →
      ∃ more q, p.run? more = some q ∧ q.isSettled = true) ∧
    (∀ events p, (l.pool d r).run? events = some p → p.isSettled = true →
      (l.fetchedLinks d r service events).Perm
        (l.localLinks d ++ (l.outbound d r).zipIdx.filterMap fun (x, i) =>
          if service i x.uri = .report [] then
            some ⟨Link.interior d x.reference.value.node, none⟩
          else none)) := by
  refine ⟨?calls, ?completes, ?links⟩
  case calls => rw [requests_eq_outbound]
  case completes =>
    intro events p hrun
    exact (reached_pool hrun).exists_run
  case links =>
    intro events p hrun hsettled
    have hperm := (reached_pool hrun).perm_range hsettled
    rw [fetchedLinks_eq]
    refine ((hperm.filterMap _).append_left _).trans ?_
    rw [filterMap_range_eq]
    rfl

end Linker

end JsonNav
