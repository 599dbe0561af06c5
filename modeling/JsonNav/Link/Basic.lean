import JsonNav.Document

/-! Links from a range of one text to a place in the same text or in another. -/

namespace JsonNav

/-- A range, and the locator of what it leads to, if that is known. -/
structure Link where
  range : Range
  target : Option String
  deriving DecidableEq, Repr

namespace Link

/-- The locator of a position: the address of the text, then line and column counted from one, with
no bound. -/
def locator (uri : String) (p : Position) : String :=
  uri ++ "#" ++ Nat.repr (p.line.toNat + 1) ++ "," ++ Nat.repr (p.column.toNat + 1)

/-- The range of a string between its quotes.  A node too short to have two quotes has an empty
range. -/
def interior (d : Document) (value : Tree) : Range :=
  let start := value.offset + 1
  let stop := max (value.stop - 1) start
  ⟨d.position start, d.position stop⟩

/-- The link from a string of one document to a node of another. -/
def between (d : Document) (value : Tree) (destination : Document) (target : Tree) : Link where
  range := interior d value
  target := some (locator destination.uri (destination.position target.offset))

/-- The link of a string whose target is not located. -/
def unlocated (d : Document) (value : Tree) : Link where
  range := interior d value
  target := none

/-- The order by range, where a link without target comes before one with a target. -/
def precedes (a b : Link) : Bool :=
  a.range < b.range ||
    a.range = b.range &&
      match a.target, b.target with
      | none, _ => true
      | some _, none => false
      | some s, some t => s ≤ t

def sort (links : List Link) : List Link :=
  links.mergeSort precedes

end Link

end JsonNav
