import JsonNav.Fetch.Pool
import JsonNav.Linker.Outbound

/-! Linking references by fetching the files that they lead to.  A reference whose file was fetched
without errors has a link without target. -/

namespace JsonNav

/-- How a fetch ends: with the errors of loading the file, perhaps none, or without a report. -/
inductive FetchResult where
  | report (errors : List String)
  | aborted
  deriving DecidableEq, Repr

/-- How the call of a given number ends, which fetches the file with a given address. -/
abbrev Service := (call : Nat) → (uri : String) → FetchResult

/-- How a reference is treated: it is decided at once, or its file is fetched. -/
inductive Treatment where
  | decided (outcome : Outcome)
  | fetch (request : Outbound)

namespace Treatment

def outcome? : Treatment → Option Outcome
  | decided o => some o
  | fetch _ => none

def request? : Treatment → Option Outbound
  | decided _ => none
  | fetch x => some x

end Treatment

/-- A reference without a file is followed in its document, and any other is fetched if its file can
be placed. -/
def Reference.treatment (d : Document) (r : Resolver) (x : Reference) : Treatment :=
  if x.parts.isLocal then .decided (x.localOutcome d)
  else
    match r.address? x.parts.file d.uri with
    | none => .decided (.error (.cannotResolve x.parts.file d.uri))
    | some uri => .fetch ⟨x, uri⟩

/-- What becomes of a reference whose fetch has ended. -/
def Outbound.outcome (d : Document) (x : Outbound) : FetchResult → Outcome
  | .report [] => .ok (.unlocated d x.reference.value.node)
  | .report errors => .error (.failedToLoad x.uri errors)
  | .aborted => .error .fetchAborted

namespace Linker

def treatments (l : Linker) (d : Document) (r : Resolver) : List Treatment :=
  (l.references d).map (Reference.treatment d r)

/-- The references whose files are fetched, in the order of the calls. -/
def requests (l : Linker) (d : Document) (r : Resolver) : List Outbound :=
  (l.treatments d r).filterMap Treatment.request?

def pool (l : Linker) (d : Document) (r : Resolver) : Pool :=
  .initial l.fetchLimit (l.requests d r).length

/-- What becomes of the references of a document while events happen in the pool: first of those
that need no fetch, in the order of the text, and then of the others, in the order in which their
fetches settle. -/
def fetchedOutcomes (l : Linker) (d : Document) (r : Resolver) (service : Service)
    (events : List FetchEvent) : List Outcome :=
  let requests := l.requests d r
  (l.treatments d r).filterMap Treatment.outcome? ++
    (FetchEvent.settledTasks events).filterMap fun i =>
      requests[i]?.map fun x => x.outcome d (service i x.uri)

def fetchedLinks (l : Linker) (d : Document) (r : Resolver) (service : Service)
    (events : List FetchEvent) : List Link :=
  Outcome.links (l.fetchedOutcomes d r service events)

end Linker

end JsonNav
