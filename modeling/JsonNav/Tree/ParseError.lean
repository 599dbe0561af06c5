/-! The ways in which a text can fail to be read. -/

namespace JsonNav

/-- Why a text is refused.  Every cause but the end of the text names the byte offset of the
mistake: of a misplaced character, of the first character of a malformed number, of the opening
quote of a malformed string or of a control character in it, of the first character after a complete
value, and of the first bracket that is nested too deep. -/
inductive ParseError where
  | unfinished
  | misplaced (offset : Nat)
  | malformedNumber (offset : Nat)
  | malformedString (offset : Nat)
  | trailing (offset : Nat)
  | tooDeep (offset : Nat)
  deriving DecidableEq, Repr

namespace ParseError

def message : ParseError → String
  | unfinished => "unexpected end of input"
  | misplaced offset => s!"unexpected character at offset {offset}"
  | malformedNumber offset => s!"invalid number at offset {offset}"
  | malformedString offset => s!"invalid string at offset {offset}"
  | trailing offset => s!"trailing content at offset {offset}"
  | tooDeep offset => s!"nesting depth exceeded at offset {offset}"

/-- The offset of the mistake. -/
def offset? : ParseError → Option Nat
  | unfinished => none
  | misplaced o | malformedNumber o | malformedString o | trailing o
  | tooDeep o => some o

end ParseError

end JsonNav
