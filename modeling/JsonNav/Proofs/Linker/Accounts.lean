import JsonNav.Proofs.Linker.Fetched
import JsonNav.Proofs.Linker.Ranges

/-! Each reference is accounted for once: by a link, or by a notice that says why it has none.  This
holds of links inside a document, of links to given destinations, and of links by fetching in
whatever order the fetches settle, where only a fetch without a report is worth a warning. -/

namespace JsonNav

open FetchEvent (settledTasks)

namespace Linker

/-- A property that has the marking key and a string for its value. -/
def isReference (l : Linker) : Tree → Bool
  | .property _ (.string _ key) (some (.string _ _)) => key = l.key
  | _ => false

theorem isSome_referenceValue? (l : Linker) (n : Tree) :
    (l.referenceValue? n).isSome = l.isReference n := by
  cases h : l.referenceValue? n with
  | some w =>
    obtain ⟨s, ks, key, vs, text, rfl, -⟩ := eq_property_of_referenceValue? h
    have hkey : key = l.key := by
      unfold referenceValue? at h
      split at h
      next hkey => exact Option.some.inj hkey
      next => exact nomatch h
    simp [isReference, hkey]
  | none =>
    unfold isReference
    split
    next s ks key vs text =>
      have hkey : key ≠ l.key := by
        rintro rfl
        simp [referenceValue?, Node.key?, Node.value?, Node.string?, Option.filter] at h
      simp [hkey]
    next => rfl

theorem isSome_reference? (l : Linker) (p : Place) :
    (l.reference? p).isSome = l.isReference p.node := by
  rw [← isSome_referenceValue?, ← map_node_reference?, Option.isSome_map]

theorem length_references (l : Linker) (d : Document) :
    (l.references d).length = d.root.preorder.countP l.isReference := by
  have hvalues := congrArg List.length (l.map_value_references d)
  rw [List.length_map, List.length_filterMap_eq_countP] at hvalues
  rw [hvalues]
  exact List.countP_congr fun n _ => by rw [isSome_referenceValue?]

end Linker

/-! ### Treatments -/

/-- A treatment either decides or calls. -/
theorem Treatment.length_outcomes_add_length_requests (ts : List Treatment) :
    (ts.filterMap outcome?).length + (ts.filterMap request?).length = ts.length := by
  induction ts with
  | nil => rfl
  | cons t ts ih =>
    cases t with
    | decided o =>
      simp only [List.filterMap_cons, outcome?, request?, List.length_cons]
      omega
    | fetch x =>
      simp only [List.filterMap_cons, outcome?, request?, List.length_cons]
      omega

namespace Outcome

/-- How many of the notices are warnings. -/
def warnings (os : List Outcome) : Nat :=
  (notices os).countP (·.severity = .warning)

theorem warnings_append (os os' : List Outcome) :
    warnings (os ++ os') = warnings os + warnings os' := by
  rw [warnings, notices, List.filterMap_append, List.countP_append]
  rfl

/-- A notice that is no warning is there for whoever looks for it. -/
theorem length_notices (os : List Outcome) :
    (notices os).countP (·.severity = .debug) + warnings os = (notices os).length := by
  have hwarning : ∀ n : Notice, decide (¬n.severity = .debug) = decide (n.severity = .warning) := by
    intro n
    cases n.severity <;> rfl
  have hall := List.length_eq_countP_add_countP (fun n : Notice => n.severity = .debug)
    (l := notices os)
  simp only [decide_eq_true_eq, hwarning] at hall
  exact hall.symm

theorem warnings_eq_zero {os : List Outcome}
    (h : ∀ o ∈ os, ∀ n, o.notice? = some n → n.severity = .debug) : warnings os = 0 := by
  rw [warnings, List.countP_eq_zero]
  intro n hn
  obtain ⟨o, ho, hnotice⟩ := List.mem_filterMap.mp hn
  simp [h o ho n hnotice]

end Outcome

theorem Reference.severity_treatment {d : Document} {r : Resolver} {x : Reference} {o : Outcome}
    {n : Notice} (ho : (x.treatment d r).outcome? = some o) (hn : o.notice? = some n) :
    n.severity = .debug := by
  have hlocal : (x.localOutcome d).notice? = some n → n.severity = .debug := by
    unfold localOutcome
    split
    next => exact fun h => nomatch h
    next =>
      intro h
      rw [← Option.some.inj h]
      rfl
  unfold treatment at ho
  split at ho
  next =>
    obtain rfl := Option.some.inj ho
    exact hlocal hn
  next =>
    split at ho
    next =>
      obtain rfl := Option.some.inj ho
      rw [← Option.some.inj hn]
      rfl
    next => exact nomatch ho

theorem Outbound.isWarning_outcome (d : Document) (x : Outbound) (result : FetchResult) :
    (((x.outcome d result).notice?.map fun n => decide (n.severity = .warning)).getD false) =
      decide (result = .aborted) := by
  cases result with
  | aborted => rfl
  | report errors =>
    cases errors with
    | nil => rfl
    | cons e errors => rfl

namespace Linker

variable {l : Linker} {d : Document} {r : Resolver}

/-- What becomes of the references whose files are fetched, in the order of the calls. -/
def calledOutcomes (l : Linker) (d : Document) (r : Resolver) (service : Service) : List Outcome :=
  (l.requests d r).zipIdx.map fun (x, i) => x.outcome d (service i x.uri)

/-- When all fetches have settled, each reference has been decided or its fetch has ended. -/
theorem fetchedOutcomes_perm {events : List FetchEvent} {p : Pool}
    (hrun : (l.pool d r).run? events = some p) (hsettled : p.isSettled = true) (service : Service) :
    (l.fetchedOutcomes d r service events).Perm
      ((l.treatments d r).filterMap Treatment.outcome? ++ l.calledOutcomes d r service) := by
  have hperm := (reached_pool hrun).perm_range hsettled
  rw [← requests_eq_outbound] at hperm
  have hcalls : ((List.range (l.requests d r).length).filterMap fun i =>
      (l.requests d r)[i]?.map fun x => x.outcome d (service i x.uri)) =
      l.calledOutcomes d r service := by
    simp only [Option.map_eq_bind, Function.comp_def]
    rw [filterMap_range_eq (l.requests d r) fun i x => some (x.outcome d (service i x.uri)),
      calledOutcomes, ← List.filterMap_eq_map]
    rfl
  rw [← hcalls]
  exact (hperm.filterMap _).append_left _

theorem length_treatments (l : Linker) (d : Document) (r : Resolver) :
    ((l.treatments d r).filterMap Treatment.outcome?).length +
      (l.requests d r).length = (l.references d).length := by
  rw [requests, Treatment.length_outcomes_add_length_requests, treatments, List.length_map]

theorem length_fetchedOutcomes {events : List FetchEvent} {p : Pool}
    (hrun : (l.pool d r).run? events = some p) (hsettled : p.isSettled = true) (service : Service) :
    (l.fetchedOutcomes d r service events).length = d.root.preorder.countP l.isReference := by
  have hlength := (fetchedOutcomes_perm hrun hsettled service).length_eq
  rw [List.length_append, calledOutcomes, List.length_map, List.length_zipIdx,
    length_treatments] at hlength
  rw [hlength, length_references]

theorem warnings_calledOutcomes (service : Service) :
    Outcome.warnings (l.calledOutcomes d r service) =
      (l.requests d r).zipIdx.countP fun (x, i) => service i x.uri = .aborted := by
  rw [Outcome.warnings, Outcome.notices, calledOutcomes, List.filterMap_map, List.countP_filterMap]
  exact List.countP_congr fun call _ => by rw [Function.comp_apply, call.1.isWarning_outcome]

/-- Only a fetch that ends without a report is worth a warning. -/
theorem warnings_fetchedOutcomes {events : List FetchEvent} {p : Pool}
    (hrun : (l.pool d r).run? events = some p) (hsettled : p.isSettled = true) (service : Service) :
    Outcome.warnings (l.fetchedOutcomes d r service events) =
      (l.requests d r).zipIdx.countP fun (x, i) => service i x.uri = .aborted := by
  have hdecided : Outcome.warnings ((l.treatments d r).filterMap Treatment.outcome?) = 0 := by
    refine Outcome.warnings_eq_zero ?_
    intro o ho n hn
    obtain ⟨t, ht, hto⟩ := List.mem_filterMap.mp ho
    obtain ⟨x, -, rfl⟩ := List.mem_map.mp ht
    exact Reference.severity_treatment hto hn
  have hperm := (fetchedOutcomes_perm hrun hsettled service).filterMap Outcome.notice?
  rw [Outcome.warnings, Outcome.notices, hperm.countP_eq, ← Outcome.notices, ← Outcome.warnings,
    Outcome.warnings_append, hdecided, Nat.zero_add, warnings_calledOutcomes]

/-! ### Destinations -/

theorem length_outcomesAt (l : Linker) (d : Document) (destinations : List Destination) :
    (l.outcomesAt d destinations).length =
      destinations.countP (l.isReference ·.source.node) := by
  rw [outcomesAt, List.length_filterMap_eq_countP]
  exact List.countP_congr fun t _ => by rw [Option.isSome_map, isSome_reference?]

theorem outcomesAt_filter (l : Linker) (d : Document) (destinations : List Destination) :
    l.outcomesAt d destinations =
      l.outcomesAt d (destinations.filter (l.isReference ·.source.node)) := by
  rw [outcomesAt, outcomesAt, List.filterMap_filter]
  refine List.filterMap_congr fun t _ => ?_
  cases hsome : l.isReference t.source.node with
  | true => rfl
  | false =>
    rw [← isSome_reference?, Option.isSome_eq_false_iff, Option.isNone_iff_eq_none] at hsome
    rw [hsome]
    rfl

/-- Each reference of a document is accounted for once.  Links and notices add up to the number of
references, which may stand anywhere in the tree.  With given destinations they add up to that
number and the number of destinations whose place holds a reference, and the other destinations
change nothing.  By fetching they add up too, whenever all fetches have settled: there is a warning
for each call that ended without a report, and one other notice for each other reference that has
no link. -/
theorem links_and_notices (l : Linker) (d : Document) :
    (l.localLinks d).length + (Outcome.notices (l.localOutcomes d)).length =
      d.root.preorder.countP l.isReference ∧
    (∀ destinations,
      (l.linksWith d destinations).length +
          (Outcome.notices (l.outcomesWith d destinations)).length =
        d.root.preorder.countP l.isReference +
          destinations.countP (l.isReference ·.source.node) ∧
      l.outcomesWith d destinations =
        l.outcomesWith d (destinations.filter (l.isReference ·.source.node))) ∧
    ∀ (r : Resolver) (service : Service),
      (∃ events p, (l.pool d r).run? events = some p ∧ p.isSettled = true) ∧
      ∀ events p, (l.pool d r).run? events = some p → p.isSettled = true →
        let links := l.fetchedLinks d r service events
        let notices := Outcome.notices (l.fetchedOutcomes d r service events)
        let aborted := (l.requests d r).zipIdx.countP fun (x, i) => service i x.uri = .aborted
        links.length + notices.length = d.root.preorder.countP l.isReference ∧
        notices.countP (·.severity = .warning) = aborted ∧
        links.length + notices.countP (·.severity = .debug) + aborted =
          d.root.preorder.countP l.isReference := by
  have hlocal : (l.localOutcomes d).length = d.root.preorder.countP l.isReference := by
    rw [localOutcomes, List.length_map, length_references]
  refine ⟨?inside, fun destinations => ⟨?count, ?others⟩, fun r service => ⟨?settles, ?fetched⟩⟩
  case inside => rw [localLinks, Outcome.length_links_add_length_notices, hlocal]
  case count =>
    rw [linksWith, Outcome.length_links_add_length_notices, outcomesWith, List.length_append,
      hlocal, length_outcomesAt]
  case others => rw [outcomesWith, outcomesWith, outcomesAt_filter]
  case settles =>
    obtain ⟨events, p, hrun, hsettled⟩ :=
      (reached_pool (Pool.run?_nil (l.pool d r))).exists_run
    exact ⟨events, p, hrun, hsettled⟩
  case fetched =>
    intro events p hrun hsettled
    have htotal := length_fetchedOutcomes hrun hsettled service
    have hwarnings := warnings_fetchedOutcomes hrun hsettled service
    have hsplit := Outcome.length_notices (l.fetchedOutcomes d r service events)
    have hsum : (l.fetchedLinks d r service events).length +
        (Outcome.notices (l.fetchedOutcomes d r service events)).length =
        d.root.preorder.countP l.isReference :=
      (Outcome.length_links_add_length_notices _).trans htotal
    refine ⟨hsum, hwarnings, ?_⟩
    rw [← hwarnings, ← hsum, ← hsplit, Nat.add_assoc]

end Linker

end JsonNav
