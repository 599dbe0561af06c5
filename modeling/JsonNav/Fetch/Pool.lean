/-! A pool of fetches.  A task waits until it may start, holds a permit while its fetch is in
flight, and gives the permit back when the fetch settles.  Tasks take their steps in any order. -/

namespace JsonNav

/-- How far a task has come. -/
inductive Phase where
  | waiting
  | fetching
  | settled
  deriving DecidableEq, Repr

/-- A step of one task, named by its number. -/
inductive FetchEvent where
  | start (task : Nat)
  | settle (task : Nat)
  deriving DecidableEq, Repr

namespace FetchEvent

def settled? : FetchEvent → Option Nat
  | start _ => none
  | settle i => some i

def settledTasks (es : List FetchEvent) : List Nat :=
  es.filterMap settled?

end FetchEvent

/-- The permits that no task holds, unlimited if there is no number of them, and the phase of each
task. -/
structure Pool where
  free : Option Nat
  phases : List Phase
  deriving DecidableEq, Repr

namespace Pool

/-- The permits that a limit grants: there is at least one. -/
def permits (limit : Option Nat) : Option Nat :=
  limit.map (max 1)

/-- A pool whose tasks all wait. -/
def initial (limit : Option Nat) (tasks : Nat) : Pool where
  free := permits limit
  phases := List.replicate tasks .waiting

/-- The pool after an event, if the event can happen. -/
def step? (p : Pool) : FetchEvent → Option Pool
  | .start i =>
    if p.phases[i]? = some .waiting ∧ p.free ≠ some 0 then
      some ⟨p.free.map (· - 1), p.phases.set i .fetching⟩
    else none
  | .settle i =>
    if p.phases[i]? = some .fetching then some ⟨p.free.map (· + 1), p.phases.set i .settled⟩
    else none

def run? (p : Pool) (es : List FetchEvent) : Option Pool :=
  es.foldlM step? p

/-- The number of fetches that have started and not settled. -/
def inFlight (p : Pool) : Nat :=
  p.phases.count .fetching

def isSettled (p : Pool) : Bool :=
  p.phases.all (· = .settled)

/-- The event that happens next if every task starts as soon as it may, and otherwise the earliest
fetch settles. -/
def next? (p : Pool) : Option FetchEvent :=
  match if p.free = some 0 then none else p.phases.idxOf? .waiting with
  | some i => some (.start i)
  | none => (p.phases.idxOf? .fetching).map .settle

/-- The next `n` events of the pool. -/
def eventsFrom (p : Pool) : Nat → List FetchEvent
  | 0 => []
  | n + 1 =>
    match p.next? with
    | none => []
    | some e =>
      match p.step? e with
      | none => []
      | some q => e :: eventsFrom q n

/-- The events of a pool in which every task starts as soon as it may.  Each task takes two. -/
def greedy (limit : Option Nat) (tasks : Nat) : List FetchEvent :=
  (initial limit tasks).eventsFrom (2 * tasks)

/-- The most fetches that are in flight at once while events happen. -/
def peak (p : Pool) : List FetchEvent → Nat
  | [] => p.inFlight
  | e :: es =>
    match p.step? e with
    | none => p.inFlight
    | some q => max p.inFlight (q.peak es)

end Pool

end JsonNav
