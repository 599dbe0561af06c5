import JsonNav.Proofs.Fetch.Pool

/-! How many fetches of a pool are in flight.  The permits that are held and those that are free add
up to the limit in every pool that events lead to, so the limit is never exceeded, and a run is over
exactly when every task has settled.  The peak of a run in which all tasks that may start do so
before the first fetch settles is as high as limit and number of tasks allow. -/

namespace JsonNav

open FetchEvent (settledTasks)

namespace Pool

variable {limit : Option Nat} {tasks n : Nat} {es more : List FetchEvent} {p q : Pool}
  {e : FetchEvent}

theorem length_eq_counts (phases : List Phase) :
    phases.length = phases.count .waiting + phases.count .fetching + phases.count .settled := by
  induction phases with
  | nil => rfl
  | cons a phases ih =>
    cases a with
    | waiting => simp; omega
    | fetching => simp; omega
    | settled => simp; omega

/-! ### Permits -/

theorem Reached.inFlight_add_free (h : Reached (some n) tasks es p) :
    p.free.map (p.inFlight + ·) = some (max 1 n) := by
  rw [show some (max 1 n) = Pool.permits (some n) from rfl, ← h.permits]
  cases p.free with
  | none => rfl
  | some k => rw [Option.map_some, Option.map_some, Nat.add_comm]

theorem Reached.inFlight_le_limit (h : Reached (some n) tasks es p) : p.inFlight ≤ max 1 n := by
  obtain ⟨k, -, hk⟩ := Option.map_eq_some_iff.mp h.inFlight_add_free
  omega

theorem Reached.inFlight_le_tasks (h : Reached limit tasks es p) : p.inFlight ≤ tasks := by
  rw [← h.length]
  exact List.count_le_length

/-! ### The end of a run -/

theorem remaining_initial (limit : Option Nat) (tasks : Nat) :
    (initial limit tasks).remaining = 2 * tasks := by
  simp [remaining, initial, List.count_replicate]

/-- Each event is one of the steps that were left to take. -/
theorem remaining_run (h : p.run? es = some q) : q.remaining + es.length = p.remaining := by
  induction es generalizing p with
  | nil =>
    obtain rfl := Option.some.inj h
    rfl
  | cons e es ih =>
    rw [run?_cons] at h
    obtain ⟨mid, hstep, hrest⟩ := Option.bind_eq_some_iff.mp h
    have hone := remaining_step hstep
    have hothers := ih hrest
    rw [List.length_cons]
    omega

theorem isSettled_iff_remaining : p.isSettled = true ↔ p.remaining = 0 := by
  have hcounts := length_eq_counts p.phases
  have hsettled : p.isSettled = true ↔ p.phases.count .settled = p.phases.length := by
    rw [List.count_eq_length, isSettled, List.all_eq_true]
    simp [eq_comm]
  rw [hsettled, remaining]
  omega

theorem inFlight_le_remaining (p : Pool) : p.inFlight ≤ p.remaining :=
  Nat.le_add_left ..

/-- A run is over exactly when every task has settled. -/
theorem Reached.isSettled_iff_final (h : Reached limit tasks es p) :
    p.isSettled = true ↔ ∀ e, p.step? e = none := by
  constructor
  · intro hsettled e
    rw [isSettled_iff_remaining] at hsettled
    cases hstep : p.step? e with
    | none => rfl
    | some q =>
      have := remaining_step hstep
      omega
  · intro hfinal
    cases hsettled : p.isSettled with
    | true => rfl
    | false =>
      obtain ⟨e, q, hstep⟩ := h.exists_step hsettled
      rw [hfinal e] at hstep
      exact nomatch hstep

/-- As many tasks have settled as events say. -/
theorem Reached.length_settledTasks (h : Reached limit tasks es p) :
    (settledTasks es).length = p.phases.count .settled := by
  have hperm : (settledTasks es).Perm
      ((List.range p.phases.length).filter fun i => p.phases[i]? = some .settled) := by
    rw [List.perm_ext_iff_of_nodup h.nodup (List.nodup_range.filter _)]
    intro i
    rw [h.settled, List.mem_filter, List.mem_range]
    constructor
    · intro hi
      exact ⟨(List.getElem?_eq_some_iff.mp hi).1, by simpa using hi⟩
    · rintro ⟨-, hi⟩
      simpa using hi
  have hcount (phases : List Phase) : ((List.range phases.length).filter fun i =>
      phases[i]? = some .settled).length = phases.count .settled := by
    induction phases with
    | nil => rfl
    | cons a phases ih =>
      rw [List.length_cons, List.range_succ_eq_map, List.filter_cons, List.filter_map]
      cases a <;> simpa [Function.comp_def] using ih
  rw [hperm.length_eq, hcount]

/-! ### The peak of a run -/

theorem inFlight_le_peak (p : Pool) (es : List FetchEvent) : p.inFlight ≤ p.peak es := by
  cases es with
  | nil => exact Nat.le_refl _
  | cons e es =>
    rw [peak]
    split
    next => exact Nat.le_refl _
    next => exact Nat.le_max_left ..

theorem peak_cons_of_step (h : p.step? e = some q) (es : List FetchEvent) :
    p.peak (e :: es) = max p.inFlight (q.peak es) := by
  rw [peak, h]

/-- What bounds the fetches in flight in every pool bounds the peak of every run. -/
theorem Reached.peak_le {bound : Nat} (h : Reached limit tasks es p)
    (hbound : ∀ es q, Reached limit tasks es q → q.inFlight ≤ bound) (more : List FetchEvent) :
    p.peak more ≤ bound := by
  induction more generalizing es p with
  | nil => exact hbound es p h
  | cons e more ih =>
    cases hstep : p.step? e with
    | none =>
      rw [peak, hstep]
      exact hbound es p h
    | some q =>
      rw [peak_cons_of_step hstep]
      exact Nat.max_le.mpr ⟨hbound es p h, ih (h.step hstep)⟩

/-- The fetches that limit and number of tasks allow to be in flight at once. -/
def capacity (limit : Option Nat) (tasks : Nat) : Nat :=
  (permits limit).elim tasks (min tasks)

theorem Reached.inFlight_le_capacity (h : Reached limit tasks es p) :
    p.inFlight ≤ capacity limit tasks := by
  cases limit with
  | none => exact h.inFlight_le_tasks
  | some n => exact Nat.le_min.mpr ⟨h.inFlight_le_tasks, h.inFlight_le_limit⟩

/-- No task may start, because none waits or no permit is free. -/
def IsFull (p : Pool) : Prop :=
  ∀ i, p.step? (.start i) = none

/-- Every task that may start does so before the first fetch settles.  Nothing is asked of the
events after that. -/
def Eager (p : Pool) : List FetchEvent → Prop
  | [] => True
  | .start i :: es => ∀ q, p.step? (.start i) = some q → q.Eager es
  | .settle _ :: _ => p.IsFull

/-- A pool that is full and in which nothing has settled has all fetches in flight that there may
be. -/
theorem Reached.capacity_le_inFlight (h : Reached limit tasks es p) (hnone : settledTasks es = [])
    (hfull : p.IsFull) : capacity limit tasks ≤ p.inFlight := by
  have hsettled := h.length_settledTasks
  have hcounts := length_eq_counts p.phases
  rw [hnone, List.length_nil] at hsettled
  rw [h.length, ← hsettled] at hcounts
  by_cases hwaiting : .waiting ∈ p.phases
  · obtain ⟨i, hi⟩ := List.mem_iff_getElem?.mp hwaiting
    have hfree : p.free = some 0 := by
      apply Decidable.byContradiction
      intro hfree
      have hstep := step?_eq_some_iff.mpr (.inl ⟨i, rfl, hi, hfree, rfl⟩)
      rw [hfull i] at hstep
      exact nomatch hstep
    have hpermits := h.permits
    rw [hfree, Option.map_some, Nat.zero_add] at hpermits
    rw [capacity, ← hpermits]
    exact Nat.min_le_right ..
  · have hzero : p.phases.count .waiting = 0 := List.count_eq_zero.mpr hwaiting
    have hall : tasks = p.inFlight := by
      rw [inFlight]
      omega
    rw [capacity, ← hall]
    cases Pool.permits limit with
    | none => exact Nat.le_refl _
    | some n => exact Nat.min_le_left ..

theorem Reached.capacity_le_peak (h : Reached limit tasks es p) (hnone : settledTasks es = [])
    (heager : p.Eager more) (hrun : p.run? more = some q) (hsettled : q.isSettled = true) :
    capacity limit tasks ≤ p.peak more := by
  -- The run is followed up to the first fetch that settles, where the pool is full.
  induction more generalizing es p with
  | nil =>
    obtain rfl := Option.some.inj hrun
    refine h.capacity_le_inFlight hnone fun i => ?_
    exact h.isSettled_iff_final.mp hsettled (.start i)
  | cons e more ih =>
    cases e with
    | settle i => exact Nat.le_trans (h.capacity_le_inFlight hnone heager) (inFlight_le_peak ..)
    | start i =>
      rw [run?_cons] at hrun
      obtain ⟨mid, hstep, hrest⟩ := Option.bind_eq_some_iff.mp hrun
      have hnone' : settledTasks (es ++ [.start i]) = [] := by
        rw [FetchEvent.settledTasks_append, hnone]
        rfl
      rw [peak_cons_of_step hstep]
      exact Nat.le_trans (ih (h.step hstep) hnone' (heager mid hstep) hrest) (Nat.le_max_right ..)

theorem peak_of_eager (heager : (initial limit tasks).Eager es)
    (hrun : (initial limit tasks).run? es = some q) (hsettled : q.isSettled = true) :
    (initial limit tasks).peak es = capacity limit tasks := by
  have h := reached_initial limit tasks
  apply Nat.le_antisymm
  · exact h.peak_le (fun _ _ h => h.inFlight_le_capacity) es
  · exact h.capacity_le_peak rfl heager hrun hsettled

/-! ### Greedy runs -/

theorem getElem?_of_idxOf? {phases : List Phase} {a : Phase} {i : Nat}
    (h : phases.idxOf? a = some i) : phases[i]? = some a := by
  obtain ⟨hi, ha, -⟩ := List.findIdx?_eq_some_iff_getElem.mp h
  rw [List.getElem?_eq_getElem hi, eq_of_beq ha]

theorem isFull_of_next? (h : (if p.free = some 0 then none else p.phases.idxOf? .waiting) = none) :
    p.IsFull := by
  intro i
  cases hstep : p.step? (.start i) with
  | none => rfl
  | some q =>
    rcases step?_eq_some_iff.mp hstep with ⟨j, hj, hwaiting, hfree, -⟩ | ⟨j, hj, -⟩
    · rw [if_neg hfree, List.idxOf?_eq_none_iff] at h
      exact absurd (List.mem_of_getElem? hwaiting) h
    · exact nomatch hj

theorem step?_settle_eq_none (h : .fetching ∉ p.phases) (i : Nat) : p.step? (.settle i) = none := by
  cases hstep : p.step? (.settle i) with
  | none => rfl
  | some q =>
    rcases step?_eq_some_iff.mp hstep with ⟨j, hj, -⟩ | ⟨j, hj, hphase, -⟩
    · exact nomatch hj
    · exact absurd (List.mem_of_getElem? hphase) h

/-- What comes next: a task starts, or none may and a fetch settles, or nothing can happen. -/
theorem next?_cases (p : Pool) :
    (∃ i q, p.next? = some (.start i) ∧ p.step? (.start i) = some q) ∨
    (p.IsFull ∧ ∃ i q, p.next? = some (.settle i) ∧ p.step? (.settle i) = some q) ∨
    (p.next? = none ∧ ∀ e, p.step? e = none) := by
  unfold next?
  split
  next i hi =>
    left
    split at hi
    next => exact nomatch hi
    next hfree =>
      exact ⟨i, _, rfl, step?_eq_some_iff.mpr (.inl ⟨i, rfl, getElem?_of_idxOf? hi, hfree, rfl⟩)⟩
  next hfull =>
    right
    have hfull := isFull_of_next? hfull
    cases hfetching : p.phases.idxOf? .fetching with
    | none =>
      refine .inr ⟨rfl, fun e => ?_⟩
      cases e with
      | start i => exact hfull i
      | settle i => exact step?_settle_eq_none (List.idxOf?_eq_none_iff.mp hfetching) i
    | some i =>
      exact .inl ⟨hfull, i, _, rfl,
        step?_eq_some_iff.mpr (.inr ⟨i, rfl, getElem?_of_idxOf? hfetching, rfl⟩)⟩

theorem eventsFrom_succ (hnext : p.next? = some e) (hstep : p.step? e = some q) (n : Nat) :
    p.eventsFrom (n + 1) = e :: q.eventsFrom n := by
  rw [eventsFrom, hnext]
  simp only [hstep]

/-- Taking the next event over and over settles every task, and each task starts as soon as it may.
-/
theorem Reached.run_eventsFrom (h : Reached limit tasks es p) (hn : p.remaining ≤ n) :
    ∃ q, p.run? (p.eventsFrom n) = some q ∧ q.isSettled = true ∧ p.Eager (p.eventsFrom n) := by
  induction n generalizing es p with
  | zero => exact ⟨p, rfl, isSettled_iff_remaining.mpr (by omega), trivial⟩
  | succ n ih =>
    rcases p.next?_cases with ⟨i, mid, hnext, hstep⟩ | ⟨hfull, i, mid, hnext, hstep⟩ |
      ⟨hnext, hfinal⟩
    · have hone := remaining_step hstep
      obtain ⟨q, hrun, hq, heager⟩ := ih (h.step hstep) (by omega)
      rw [eventsFrom_succ hnext hstep]
      refine ⟨q, ?_, hq, ?_⟩
      · rw [run?_cons, hstep]
        exact hrun
      · intro mid' hstep'
        obtain rfl := Option.some.inj (hstep.symm.trans hstep')
        exact heager
    · have hone := remaining_step hstep
      obtain ⟨q, hrun, hq, -⟩ := ih (h.step hstep) (by omega)
      rw [eventsFrom_succ hnext hstep]
      refine ⟨q, ?_, hq, hfull⟩
      rw [run?_cons, hstep]
      exact hrun
    · rw [eventsFrom, hnext]
      exact ⟨p, rfl, h.isSettled_iff_final.mpr hfinal, trivial⟩

end Pool

end JsonNav
