/-! Tokens of a pointer as they are written: a tilde is written `~0` and a slash `~1`. -/

namespace JsonNav.Token

/-- Puts `c` for every two characters `a` and `b` in a row, from left to right. -/
def replacePair (a b c : Char) : List Char → List Char
  | x :: y :: cs =>
    if x = a ∧ y = b then c :: replacePair a b c cs else x :: replacePair a b c (y :: cs)
  | cs => cs

/-- The token that a text denotes: first every `~1` becomes a slash, then every `~0` a tilde.  A
tilde before anything else stays. -/
def unescape (cs : List Char) : List Char :=
  replacePair '~' '0' '~' (replacePair '~' '1' '/' cs)

def escapeChar (c : Char) : List Char :=
  if c = '~' then ['~', '0'] else if c = '/' then ['~', '1'] else [c]

def escape (cs : List Char) : List Char :=
  cs.flatMap escapeChar

end JsonNav.Token
