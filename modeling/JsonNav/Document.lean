import JsonNav.Text.Source
import JsonNav.Tree.Reader

/-! Documents: a text with its address, and the tree of the text. -/

namespace JsonNav

/-- A source and a tree, which need not be the tree of that source. -/
structure Document where
  source : Source
  root : Tree

namespace Document

/-- The document of a text that is read. -/
def parse (uri text : String) : Except ParseError Document := do
  let root ← Tree.parse text.toList
  return ⟨.ofString uri text, root⟩

def uri (d : Document) : String :=
  d.source.uri

def position (d : Document) (offset : Nat) : Position :=
  d.source.position offset

end Document

end JsonNav
