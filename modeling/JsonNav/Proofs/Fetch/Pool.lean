import JsonNav.Fetch.Pool

/-! What holds of a pool in whatever order its tasks take their steps.  `Pool.Reached` says how a
pool is related to the events that led to it.  Every step preserves it, and a pool in which some
task has not settled has a step to take, so each run can be completed, and a complete run settles
every task just once. -/

namespace JsonNav

open FetchEvent (settledTasks)

theorem FetchEvent.settledTasks_append (es es' : List FetchEvent) :
    settledTasks (es ++ es') = settledTasks es ++ settledTasks es' :=
  List.filterMap_append

namespace Pool

variable {limit : Option Nat} {tasks : Nat} {es : List FetchEvent} {p q : Pool} {e : FetchEvent}

/-- All that a step can do. -/
theorem step?_eq_some_iff : p.step? e = some q ↔
    (∃ i, e = .start i ∧ p.phases[i]? = some .waiting ∧ p.free ≠ some 0 ∧
      q = ⟨p.free.map (· - 1), p.phases.set i .fetching⟩) ∨
    (∃ i, e = .settle i ∧ p.phases[i]? = some .fetching ∧
      q = ⟨p.free.map (· + 1), p.phases.set i .settled⟩) := by
  cases e with
  | start i =>
    simp only [step?]
    split
    next h => simp [h, eq_comm]
    next h =>
      simp only [reduceCtorEq, false_iff]
      rintro (⟨j, hj, hwaiting, hfree, -⟩ | ⟨j, hj, -⟩)
      · cases hj
        exact h ⟨hwaiting, hfree⟩
      · exact nomatch hj
  | settle i =>
    simp only [step?]
    split
    next h => simp [h, eq_comm]
    next h =>
      simp only [reduceCtorEq, false_iff]
      rintro (⟨j, hj, -⟩ | ⟨j, hj, hfetching, -⟩)
      · exact nomatch hj
      · cases hj
        exact h hfetching

theorem run?_nil (p : Pool) : p.run? [] = some p := rfl

theorem run?_cons (p : Pool) (e : FetchEvent) (es : List FetchEvent) :
    p.run? (e :: es) = (p.step? e).bind fun q => q.run? es := by
  rw [run?, List.foldlM_cons]
  rfl

/-- A pool that events have led to: the permits that are free and those that are held are all the
permits there are, and each task that was settled was settled once. -/
structure Reached (limit : Option Nat) (tasks : Nat) (es : List FetchEvent) (p : Pool) : Prop where
  length : p.phases.length = tasks
  permits : p.free.map (· + p.inFlight) = permits limit
  settled : ∀ i, i ∈ settledTasks es ↔ p.phases[i]? = some .settled
  nodup : (settledTasks es).Nodup

theorem reached_initial (limit : Option Nat) (tasks : Nat) :
    Reached limit tasks [] (initial limit tasks) where
  length := List.length_replicate
  permits := by
    have hcount : (List.replicate tasks Phase.waiting).count .fetching = 0 := by
      simp [List.count_replicate]
    cases h : Pool.permits limit with
    | none => simp [initial, h]
    | some n => simp [initial, inFlight, h, hcount]
  settled i := by
    simp only [settledTasks, List.filterMap_nil, List.not_mem_nil, false_iff, initial,
      List.getElem?_replicate]
    split <;> simp
  nodup := List.nodup_nil

/-- A task that is at one phase is at another after it moved on, and all others stay where they are.
-/
theorem getElem?_set_settled {phases : List Phase} {i j : Nat} {a : Phase}
    (hi : i < phases.length) :
    (phases.set i a)[j]? = some .settled ↔
      if i = j then a = .settled else phases[j]? = some .settled := by
  rw [List.getElem?_set]
  split
  next h =>
    subst h
    exact Option.some_inj
  next => rfl

theorem Reached.step (h : Reached limit tasks es p) (hstep : p.step? e = some q) :
    Reached limit tasks (es ++ [e]) q := by
  rcases step?_eq_some_iff.mp hstep with ⟨i, rfl, hphase, hfree, rfl⟩ | ⟨i, rfl, hphase, rfl⟩
  · obtain ⟨hi, hget⟩ := List.getElem?_eq_some_iff.mp hphase
    have hevents : settledTasks (es ++ [.start i]) = settledTasks es := by
      rw [FetchEvent.settledTasks_append]
      exact List.append_nil _
    refine ⟨?length, ?permits, ?settled, ?nodup⟩
    case length => simpa using h.length
    case permits =>
      have hpermits := h.permits
      have hcount : (p.phases.set i .fetching).count .fetching = p.inFlight + 1 := by
        rw [List.count_set hi, hget]
        simp [inFlight]
      cases hp : p.free with
      | none => simpa [hp] using hpermits
      | some n =>
        have hpos : n ≠ 0 := fun hzero => hfree (by rw [hp, hzero])
        rw [hp] at hpermits
        rw [← hpermits]
        simp only [Option.map_some, inFlight, hcount, Option.some.injEq]
        omega
    case settled =>
      intro j
      rw [hevents, h.settled, getElem?_set_settled hi]
      split
      next hij =>
        subst hij
        simp [hphase]
      next => rfl
    case nodup =>
      rw [hevents]
      exact h.nodup
  · obtain ⟨hi, hget⟩ := List.getElem?_eq_some_iff.mp hphase
    have hevents : settledTasks (es ++ [.settle i]) = settledTasks es ++ [i] :=
      FetchEvent.settledTasks_append ..
    refine ⟨?length, ?permits, ?settled, ?nodup⟩
    case length => simpa using h.length
    case permits =>
      have hpermits := h.permits
      have hcount : (p.phases.set i .settled).count .fetching + 1 = p.inFlight := by
        have hpos : 0 < p.phases.count .fetching :=
          List.count_pos_iff.mpr (List.mem_of_getElem? hphase)
        rw [List.count_set hi, hget]
        simp only [inFlight, beq_self_eq_true, if_true]
        simp
        omega
      cases hp : p.free with
      | none => simpa [hp] using hpermits
      | some n =>
        rw [hp] at hpermits
        rw [← hpermits, ← hcount]
        simp only [Option.map_some, inFlight, Option.some.injEq]
        omega
    case settled =>
      intro j
      rw [hevents, List.mem_append, h.settled, getElem?_set_settled hi]
      split
      next hij =>
        subst hij
        simp
      next hij => simp [Ne.symm hij]
    case nodup =>
      rw [hevents, List.nodup_append]
      refine ⟨h.nodup, by simp, ?_⟩
      rintro j hj _ hk rfl
      obtain rfl := List.mem_singleton.mp hk
      rw [h.settled, hphase] at hj
      exact nomatch hj

theorem Reached.run (h : Reached limit tasks es p) {more : List FetchEvent}
    (hrun : p.run? more = some q) : Reached limit tasks (es ++ more) q := by
  induction more generalizing es p with
  | nil =>
    obtain rfl := Option.some.inj hrun
    rwa [List.append_nil]
  | cons e more ih =>
    rw [run?_cons] at hrun
    obtain ⟨mid, hstep, hrest⟩ := Option.bind_eq_some_iff.mp hrun
    have hall := ih (h.step hstep) hrest
    rwa [List.append_assoc, List.singleton_append] at hall

/-- The steps that the tasks still have to take. -/
def remaining (p : Pool) : Nat :=
  2 * p.phases.count .waiting + p.phases.count .fetching

theorem remaining_step (hstep : p.step? e = some q) : q.remaining + 1 = p.remaining := by
  rcases step?_eq_some_iff.mp hstep with ⟨i, rfl, hphase, -, rfl⟩ | ⟨i, rfl, hphase, rfl⟩
  · obtain ⟨hi, hget⟩ := List.getElem?_eq_some_iff.mp hphase
    have hpos : 0 < p.phases.count .waiting :=
      List.count_pos_iff.mpr (List.mem_of_getElem? hphase)
    simp only [remaining, List.count_set hi, hget]
    simp
    omega
  · obtain ⟨hi, hget⟩ := List.getElem?_eq_some_iff.mp hphase
    have hpos : 0 < p.phases.count .fetching :=
      List.count_pos_iff.mpr (List.mem_of_getElem? hphase)
    simp only [remaining, List.count_set hi, hget]
    simp
    omega

/-- A pool never comes to a standstill before every task has settled. -/
theorem Reached.exists_step (h : Reached limit tasks es p) (hsettled : p.isSettled = false) :
    ∃ e q, p.step? e = some q := by
  by_cases hfetching : .fetching ∈ p.phases
  · obtain ⟨i, hi⟩ := List.mem_iff_getElem?.mp hfetching
    exact ⟨.settle i, _, step?_eq_some_iff.mpr (.inr ⟨i, rfl, hi, rfl⟩)⟩
  · -- No task holds a permit, so there is one for a task that waits.
    have hfree : p.free ≠ some 0 := by
      intro hzero
      have hpermits := h.permits
      have hcount : p.inFlight = 0 := List.count_eq_zero.mpr hfetching
      rw [hzero, hcount, Option.map_some, Pool.permits] at hpermits
      obtain ⟨n, -, hn⟩ := Option.map_eq_some_iff.mp hpermits.symm
      omega
    obtain ⟨a, ha, hne⟩ : ∃ a ∈ p.phases, a ≠ .settled := by
      simpa [isSettled] using hsettled
    have hwaiting : a = .waiting := by
      cases a with
      | waiting => rfl
      | fetching => exact absurd ha hfetching
      | settled => exact absurd rfl hne
    obtain ⟨i, hi⟩ := List.mem_iff_getElem?.mp (hwaiting ▸ ha)
    exact ⟨.start i, _, step?_eq_some_iff.mpr (.inl ⟨i, rfl, hi, hfree, rfl⟩)⟩

theorem Reached.exists_run (h : Reached limit tasks es p) :
    ∃ more q, p.run? more = some q ∧ q.isSettled = true := by
  induction hremaining : p.remaining using Nat.strongRecOn generalizing es p with
  | ind n ih =>
    cases hsettled : p.isSettled with
    | true => exact ⟨[], p, run?_nil p, hsettled⟩
    | false =>
      obtain ⟨e, mid, hstep⟩ := h.exists_step hsettled
      have hless := remaining_step hstep
      obtain ⟨more, q, hrun, hq⟩ := ih mid.remaining (by omega) (h.step hstep) rfl
      refine ⟨e :: more, q, ?_, hq⟩
      rw [run?_cons, hstep]
      exact hrun

/-- A complete run settles each task once, in some order. -/
theorem Reached.perm_range (h : Reached limit tasks es p) (hsettled : p.isSettled = true) :
    (settledTasks es).Perm (List.range tasks) := by
  rw [List.perm_ext_iff_of_nodup h.nodup List.nodup_range]
  intro i
  rw [h.settled, List.mem_range, ← h.length]
  constructor
  · intro hi
    exact (List.getElem?_eq_some_iff.mp hi).1
  · intro hi
    rw [List.getElem?_eq_getElem hi, Option.some.injEq]
    simpa using List.all_eq_true.mp hsettled _ (List.getElem_mem hi)

end Pool

end JsonNav
