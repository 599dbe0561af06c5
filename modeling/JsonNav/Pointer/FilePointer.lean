/-! Pointers into files: the address of a file, which may be empty, and a pointer into that file. -/

namespace JsonNav

structure FilePointer where
  file : String
  fragment : String
  deriving DecidableEq, Repr

namespace FilePointer

/-- The parts of a text: what comes before the first `#`, and the rest.  A text without a `#` points
at the root of its file. -/
def ofString (s : String) : FilePointer :=
  let cs := s.toList
  let file := cs.takeWhile (· ≠ '#')
  let fragment := cs.dropWhile (· ≠ '#')
  ⟨String.ofList file, if fragment = [] then "#" else String.ofList fragment⟩

/-- Whether no file is named, so that the pointer stays in the document that holds it. -/
def isLocal (p : FilePointer) : Bool :=
  p.file.isEmpty

end FilePointer

end JsonNav
