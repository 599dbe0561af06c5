import JsonNav.Linker.Basic

/-! References that lead out of their document: listing them with the addresses of their files, and
linking those whose files are at hand. -/

namespace JsonNav

/-- Places a file, which a reference names, relative to the address of the document that holds the
reference. -/
abbrev Resolver := (file base : String) → Option String

/-- The address of a file.  An empty address is none. -/
def Resolver.address? (r : Resolver) (file base : String) : Option String :=
  (r file base).filter (· ≠ "")

/-- A reference to a file, and the address of the file. -/
structure Outbound where
  reference : Reference
  uri : String

/-- A place that may hold a reference, and the document that the reference leads to. -/
structure Destination where
  source : Place
  document : Document

namespace Reference

/-- The reference with the address of its file, if it names a file that can be placed. -/
def outbound? (d : Document) (r : Resolver) (x : Reference) : Option Outbound :=
  if x.parts.isLocal then none
  else (r.address? x.parts.file d.uri).map fun uri => ⟨x, uri⟩

/-- Follows the fragment of a reference in the document that its file is. -/
def outcomeIn (d destination : Document) (x : Reference) : Outcome :=
  match destination.root.follow? x.parts.fragment with
  | some target => .ok (.between d x.value.node destination target.node)
  | none => .error (.unresolvedFragment x.parts.fragment destination.uri)

end Reference

namespace Linker

/-- The references of a document that lead to files, in the order of the text.  Those whose files
cannot be placed are left out. -/
def outbound (l : Linker) (d : Document) (r : Resolver) : List Outbound :=
  (l.references d).filterMap (Reference.outbound? d r)

/-- What becomes of the references at given destinations.  A place without a reference is passed
over. -/
def outcomesAt (l : Linker) (d : Document) (destinations : List Destination) : List Outcome :=
  destinations.filterMap fun t =>
    (l.reference? t.source).map (Reference.outcomeIn d t.document)

/-- What becomes of the references of a document, first inside it and then at given destinations. -/
def outcomesWith (l : Linker) (d : Document) (destinations : List Destination) : List Outcome :=
  l.localOutcomes d ++ l.outcomesAt d destinations

/-- The links that stay inside a document, and then those to given destinations. -/
def linksWith (l : Linker) (d : Document) (destinations : List Destination) : List Link :=
  Outcome.links (l.outcomesWith d destinations)

end Linker

end JsonNav
