import JsonNav.Number.Binary64

/-! Trees of a text: what stands where.  Every node has the span of the text that it was read from.
A tree that was not read from a text may have any spans and any nodes below an object, and a
property may lack its value. -/

namespace JsonNav

/-- A piece of a text, by the byte offset of its beginning and its length in bytes. -/
structure Span where
  offset : Nat
  length : Nat
  deriving DecidableEq, Repr, Inhabited

def Span.stop (s : Span) : Nat :=
  s.offset + s.length

/-- The nodes of a tree whose strings hold values of `σ` and whose numbers hold values of `ν`. -/
inductive Node (σ ν : Type) where
  | object (span : Span) (properties : List (Node σ ν))
  | array (span : Span) (items : List (Node σ ν))
  | property (span : Span) (key : Node σ ν) (value : Option (Node σ ν))
  | string (span : Span) (value : σ)
  | number (span : Span) (value : ν)
  | boolean (span : Span) (value : Bool)
  | null (span : Span)
  deriving Repr

/-- What a node is, apart from what it holds. -/
inductive Kind where
  | object
  | array
  | property
  | string
  | number
  | boolean
  | null
  deriving DecidableEq, Repr

def Kind.name : Kind → String
  | object => "object"
  | array => "array"
  | property => "property"
  | string => "string"
  | number => "number"
  | boolean => "boolean"
  | null => "null"

/-- A tree whose strings are decoded and whose numbers are rounded. -/
abbrev Tree := Node String Binary64

namespace Node

variable {σ ν : Type}

def span : Node σ ν → Span
  | object s _ | array s _ | property s _ _ | string s _ | number s _ | boolean s _ | null s => s

def offset (n : Node σ ν) : Nat :=
  n.span.offset

def stop (n : Node σ ν) : Nat :=
  n.span.stop

def kind : Node σ ν → Kind
  | object .. => .object
  | array .. => .array
  | property .. => .property
  | string .. => .string
  | number .. => .number
  | boolean .. => .boolean
  | null .. => .null

def string? : Node σ ν → Option σ
  | string _ s => some s
  | _ => none

/-- The text of a property's key, if its key is a string. -/
def key? : Node σ ν → Option σ
  | property _ k _ => k.string?
  | _ => none

/-- The value of a property, if it has one. -/
def value? : Node σ ν → Option (Node σ ν)
  | property _ _ v => v
  | _ => none

/-- The first property of an object that has a given key. -/
def lookup? [DecidableEq σ] (key : σ) : Node σ ν → Option (Node σ ν)
  | object _ ps => ps.find? fun p => p.key? = some key
  | _ => none

/-- The nodes directly below a node.  Those of a property are its key and then its value. -/
def children : Node σ ν → List (Node σ ν)
  | object _ ps => ps
  | array _ items => items
  | property _ k v => k :: v.toList
  | _ => []

end Node

end JsonNav
