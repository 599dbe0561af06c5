import JsonNav.Proofs.Fetch.Limit
import JsonNav.Proofs.Linker.Fetched

/-! The limit to the fetches of a linker.  It holds in whatever order tasks take their steps and
however fetches end, it never keeps a fetch from settling, and it is reached if there are enough
fetches. -/

namespace JsonNav

open FetchEvent (settledTasks)

namespace Linker

variable {l : Linker} {d : Document} {r : Resolver} {events : List FetchEvent} {p : Pool}

/-- How many calls have settled with a result of a given kind. -/
def settledCalls (l : Linker) (d : Document) (r : Resolver) (service : Service)
    (events : List FetchEvent) (kind : FetchResult → Bool) : Nat :=
  (settledTasks events).countP fun i =>
    (l.requests d r)[i]?.any fun x => kind (service i x.uri)

theorem reached_requests (h : (l.pool d r).run? events = some p) :
    Pool.Reached l.fetchLimit (l.requests d r).length events p :=
  (Pool.reached_initial l.fetchLimit (l.requests d r).length).run h

/-- Each call that has settled ended without a report, or with one. -/
theorem settledCalls_add_settledCalls (h : (l.pool d r).run? events = some p) (service : Service) :
    l.settledCalls d r service events (· = .aborted) +
      l.settledCalls d r service events (· ≠ .aborted) = (settledTasks events).length := by
  have hreached := reached_requests h
  rw [List.length_eq_countP_add_countP fun i =>
    (l.requests d r)[i]?.any fun x => decide (service i x.uri = .aborted)]
  refine congrArg _ (List.countP_congr fun i hi => ?_)
  obtain ⟨hlt, -⟩ := List.getElem?_eq_some_iff.mp ((hreached.settled i).mp hi)
  rw [hreached.length] at hlt
  simp [List.getElem?_eq_getElem hlt]

/-- The limit to fetches is kept.  Each call waits, is in flight, or has settled without a report or
with one, and however many there are of each, at most as many are in flight as there are permits,
and the permits that are not held are free.  A run cannot go on for ever, and it is over exactly
when all tasks have settled, with no fetch in flight.  If all tasks that may start do so before the
first fetch settles, there are as many fetches in flight at some time as limit and number of
references allow, and there are such runs. -/
theorem fetchLimit_kept (l : Linker) (d : Document) (r : Resolver) :
    let tasks := (l.requests d r).length
    (∀ events p, (l.pool d r).run? events = some p →
      (∀ service : Service,
        p.phases.count .waiting + p.inFlight +
          l.settledCalls d r service events (· = .aborted) +
          l.settledCalls d r service events (· ≠ .aborted) = tasks) ∧
      (∀ n, l.fetchLimit = some n →
        p.inFlight ≤ max 1 n ∧ p.free.map (p.inFlight + ·) = some (max 1 n)) ∧
      events.length ≤ 2 * tasks ∧
      (p.isSettled = false → ∃ e q, p.step? e = some q) ∧
      ((∀ e, p.step? e = none) → p.isSettled = true) ∧
      (p.isSettled = true → p.inFlight = 0)) ∧
    (∀ events p, (l.pool d r).run? events = some p → p.isSettled = true →
      (l.pool d r).Eager events →
      (∀ n, l.fetchLimit = some n → (l.pool d r).peak events = min tasks (max 1 n)) ∧
      (l.fetchLimit = none → (l.pool d r).peak events = tasks)) ∧
    ∃ p, (l.pool d r).run? (Pool.greedy l.fetchLimit tasks) = some p ∧ p.isSettled = true ∧
      (l.pool d r).Eager (Pool.greedy l.fetchLimit tasks) := by
  intro tasks
  have hinitial := Pool.reached_initial l.fetchLimit tasks
  have hremaining := Pool.remaining_initial l.fetchLimit tasks
  refine ⟨fun events p hrun => ?kept, fun events p hrun hsettled heager => ?peak, ?greedy⟩
  case kept =>
    have h := reached_requests hrun
    refine ⟨fun service => ?calls, fun n hn => ?permits, ?length, h.exists_step,
      h.isSettled_iff_final.mpr, fun hsettled => ?flight⟩
    case calls =>
      have hcalls := settledCalls_add_settledCalls hrun service
      have hcounts := Pool.length_eq_counts p.phases
      rw [h.length, ← h.length_settledTasks, ← hcalls] at hcounts
      rw [Pool.inFlight]
      omega
    case permits =>
      rw [hn] at h
      exact ⟨h.inFlight_le_limit, h.inFlight_add_free⟩
    case length =>
      have := Pool.remaining_run hrun
      rw [pool, hremaining] at this
      omega
    case flight =>
      have hzero := Pool.isSettled_iff_remaining.mp hsettled
      have := p.inFlight_le_remaining
      omega
  case peak =>
    have hpeak : (l.pool d r).peak events = Pool.capacity l.fetchLimit tasks :=
      Pool.peak_of_eager heager hrun hsettled
    rw [hpeak]
    refine ⟨fun n hn => ?_, fun hnone => ?_⟩
    · rw [hn]
      rfl
    · rw [hnone]
      rfl
  case greedy =>
    exact hinitial.run_eventsFrom (Nat.le_of_eq hremaining)

end Linker

end JsonNav
