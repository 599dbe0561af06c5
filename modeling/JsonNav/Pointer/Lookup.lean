import JsonNav.Pointer.Basic
import JsonNav.Tree.Place

/-! Following a pointer from the root of a tree.  A token leads from an object to the value of the
first property that has it as its key, and from an array to the item that it numbers. -/

namespace JsonNav

/-- The number of an item.  Only the canonical decimal text of a number below `2 ^ 64` is one. -/
def Token.index? (token : String) : Option Nat := do
  let w ← Whole.ofText? token.toList
  if w.value < UInt64.size then some w.value else none

/-- Whether a token is the canonical decimal text of some number. -/
def Token.isWhole (token : String) : Bool :=
  (Whole.ofText? token.toList).isSome

namespace Place

/-- The place that one token leads to. -/
def step (p : Place) (token : String) : Except PointerError Place :=
  match p.node with
  | .object .. =>
    let property := p.children.find? fun q => q.node.key? = some token
    match property.bind value? with
    | some q => .ok q
    | none => .error .absent
  | .array .. =>
    match Token.index? token with
    | none => .error .notAnIndex
    | some i =>
      match p.children[i]? with
      | some q => .ok q
      | none => .error .absent
  | _ => .error .absent

def descend (p : Place) (tokens : List String) : Except PointerError Place :=
  tokens.foldlM step p

end Place

namespace Tree

def follow? (t : Tree) (pointer : String) : Option Place :=
  (Pointer.parse pointer >>= (Place.root t).descend).toOption

end Tree

end JsonNav
