import JsonNav.Linker.Outbound
import Std.Data.HashMap

/-! Documents that have been loaded, each under its own address. -/

namespace JsonNav

structure Store where
  documents : Std.HashMap String Document

namespace Store

def empty : Store :=
  ⟨∅⟩

/-- Puts a document under its address, and hands back the document that was there before. -/
def insert (s : Store) (d : Document) : Option Document × Store :=
  (s.documents[d.uri]?, ⟨s.documents.insert d.uri d⟩)

def ofList (ds : List Document) : Store :=
  ds.foldl (fun s d => (s.insert d).2) empty

def get? (s : Store) (uri : String) : Option Document :=
  s.documents[uri]?

def contains (s : Store) (uri : String) : Bool :=
  s.documents.contains uri

def size (s : Store) : Nat :=
  s.documents.size

def isEmpty (s : Store) : Bool :=
  s.documents.isEmpty

/-- The documents that references lead to.  References to files that are not in the store are left
out. -/
def destinations (s : Store) (references : List Outbound) : List Destination :=
  references.filterMap fun x => (s.get? x.uri).map fun d => ⟨x.reference.property, d⟩

end Store

end JsonNav
