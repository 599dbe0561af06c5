import JsonNav.Tree.Node

/-! Equality of trees: equal spans, equal strings, and numbers that are equal as numbers, so that a
zero equals a negative zero. -/

namespace JsonNav.Node

mutual

def equal : Tree → Tree → Bool
  | object s ps, object t qs => s = t && equalAll ps qs
  | array s items, array t jtems => s = t && equalAll items jtems
  | property s k none, property t l none => s = t && equal k l
  | property s k (some v), property t l (some w) => s = t && equal k l && equal v w
  | string s x, string t y => s = t && x = y
  | number s x, number t y => s = t && x.equal y
  | boolean s a, boolean t b => s = t && a = b
  | null s, null t => s = t
  | _, _ => false

def equalAll : List Tree → List Tree → Bool
  | [], [] => true
  | m :: ms, n :: ns => equal m n && equalAll ms ns
  | _, _ => false

end

/-- The same tree with another span at its root. -/
def withSpan (s : Span) : Tree → Tree
  | object _ ps => object s ps
  | array _ items => array s items
  | property _ k v => property s k v
  | string _ x => string s x
  | number _ x => number s x
  | boolean _ b => boolean s b
  | null _ => null s

/-- Whether two trees agree in every node, the spans of their roots apart. -/
def kindEqual (m n : Tree) : Bool :=
  equal (m.withSpan n.span) n

end JsonNav.Node
