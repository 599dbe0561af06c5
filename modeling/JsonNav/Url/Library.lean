import JsonNav.Linker.Outbound

/-! Placing files relative to the addresses of documents.  What an address is and how a text is read
as one is left to a library, of which a resolver needs to know nothing else. -/

namespace JsonNav

/-- A library for addresses: it reads a text as an absolute address or relative to another address,
and it tells the text, the scheme and the fragment of an address. -/
structure UrlLibrary where
  Address : Type
  parse? : String → Option Address
  join? : (base : Address) → String → Option Address
  text : Address → String
  scheme : Address → String
  fragment : Address → Option String

/-- Takes a file for an address that is absolute or relative to the base, which must be absolute.
An empty file has no address. -/
def UrlLibrary.resolver (a : UrlLibrary) : Resolver := fun file base =>
  if file.isEmpty then none
  else do
    let base ← a.parse? base
    let url ← a.join? base file
    return a.text url

end JsonNav
