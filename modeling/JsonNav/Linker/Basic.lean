import JsonNav.Link.Notice
import JsonNav.Pointer.FilePointer
import JsonNav.Pointer.Lookup

/-! The references of a document, and the links of those that lead to a node of the same document.
A reference is a property that has the marking key and a string for its value. -/

namespace JsonNav

/-- The key that marks references, and how many files may be fetched at a time. -/
structure Linker where
  key : String := "$ref"
  fetchLimit : Option Nat := none
  deriving DecidableEq, Repr, Inhabited

/-- A reference in a document: the property, its value, and the text of the value. -/
structure Reference where
  property : Place
  value : Place
  text : String

namespace Reference

/-- The file that the reference names, and the pointer into it. -/
def parts (x : Reference) : FilePointer :=
  .ofString x.text

/-- Follows the whole text as a pointer into its own document.  A text that names a file is no
pointer. -/
def localOutcome (d : Document) (x : Reference) : Outcome :=
  match d.root.follow? x.text with
  | some target => .ok (.between d x.value.node d target.node)
  | none => .error (.noLocalTarget x.text d.uri)

end Reference

namespace Linker

def reference? (l : Linker) (p : Place) : Option Reference :=
  if p.node.key? = some l.key then do
    let value ← p.value?
    let text ← value.node.string?
    return ⟨p, value, text⟩
  else none

def references (l : Linker) (d : Document) : List Reference :=
  (Place.all d.root).filterMap l.reference?

/-- What becomes of each reference of a document, followed inside the document. -/
def localOutcomes (l : Linker) (d : Document) : List Outcome :=
  (l.references d).map (Reference.localOutcome d)

def localLinks (l : Linker) (d : Document) : List Link :=
  Outcome.links (l.localOutcomes d)

end Linker

end JsonNav
