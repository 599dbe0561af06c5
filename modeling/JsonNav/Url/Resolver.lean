import JsonNav.Url.Library
import JsonNav.Url.Parse

/-! The addresses of this library as a library for resolvers. -/

namespace JsonNav

/-- The addresses that `Url.parse?` and `Url.resolve?` read.  They are a part of those of the common
rules: no user is named in them, a host has no brackets, no percent sign in a file or network
address and no character beyond ASCII there, and the letter of a drive is a segment like any
other. -/
def Url.library : UrlLibrary where
  Address := Url
  parse? s := parse? s.toList
  join? base s := base.resolve? s.toList
  text u := String.ofList u.text
  scheme u := String.ofList u.scheme
  fragment u := u.fragment.map String.ofList

/-- Places files by these addresses. -/
def Resolver.relative : Resolver :=
  Url.library.resolver

end JsonNav
