import JsonNav.Pointer.Token
import JsonNav.Text.Segments

/-! Pointers: `#` alone for the root of a tree, or `#` and tokens that lead down from the root, each
after a slash. -/

namespace JsonNav

/-- Why a pointer leads nowhere: it is malformed, there is no such node, or an item of an array is
asked for by something else than its number. -/
inductive PointerError where
  | malformed
  | absent
  | notAnIndex
  deriving DecidableEq, Repr

def PointerError.message : PointerError → String
  | malformed => "POINTER_INVALID"
  | absent => "NOT_FOUND"
  | notAnIndex => "INVALID_INDEX"

namespace Pointer

def parse (s : String) : Except PointerError (List String) :=
  match s.toList with
  | ['#'] => .ok []
  | '#' :: '/' :: cs =>
    .ok ((Text.segments (· = '/') cs).map fun t => String.ofList (Token.unescape t))
  | _ => .error .malformed

def text (tokens : List String) : String :=
  String.ofList ('#' :: tokens.flatMap fun t => '/' :: Token.escape t.toList)

end Pointer

end JsonNav
