import JsonNav.Proofs.Tree.Decidable
import JsonNav.Proofs.Url.Library

/-! The addresses of the files that a document refers to, as a library for addresses places them.
Each of them is the text of an address without a fragment, so it is its own address, whatever it is
placed relative to. -/

namespace JsonNav

namespace UrlLibrary

variable {a : UrlLibrary} {file base uri : String}

end UrlLibrary

namespace Linker

variable {l : Linker} {d : Document} {x : Outbound}

end Linker

end JsonNav
