/-! The bodies of string literals, the text between the quotes.  A body is read in two steps: into
pieces, each a character or a 16-bit unit, and from pieces into characters, where two units that
form a surrogate pair are one character.  A body whose pieces are sound may still hold a lone
surrogate, which stands for no character. -/

namespace JsonNav.Text.Quoted

/-- What one item of a body denotes: a character, written as itself or by a letter after a
backslash, or the unit written by four hexadecimal digits. -/
inductive Piece where
  | char (c : Char)
  | unit (u : UInt16)
  deriving DecidableEq, Repr

/-- The characters that must not stand in a body as themselves, quote and backslash apart. -/
def isControl (c : Char) : Bool :=
  c.toNat < 0x20

/-- The value of a hexadecimal digit, of either case. -/
def hexDigit? (c : Char) : Option Nat :=
  if '0' ≤ c ∧ c ≤ '9' then some (c.toNat - 48)
  else if 'a' ≤ c ∧ c ≤ 'f' then some (c.toNat - 87)
  else if 'A' ≤ c ∧ c ≤ 'F' then some (c.toNat - 55)
  else none

/-- The unit that four hexadecimal digits denote. -/
def unit? (a b c d : Char) : Option UInt16 := do
  let a ← hexDigit? a
  let b ← hexDigit? b
  let c ← hexDigit? c
  let d ← hexDigit? d
  return (((a * 16 + b) * 16 + c) * 16 + d).toUInt16

/-- The character that a letter after a backslash denotes. -/
def short? : Char → Option Char
  | '"' => some '"'
  | '\\' => some '\\'
  | '/' => some '/'
  | 'b' => some '\x08'
  | 'f' => some '\x0c'
  | 'n' => some '\n'
  | 'r' => some '\r'
  | 't' => some '\t'
  | _ => none

/-- The pieces of a body.  There are none for a body with an unknown escape, with a control
character, or with a quote that no backslash precedes. -/
def pieces? : List Char → Option (List Piece)
  | [] => some []
  | '\\' :: 'u' :: a :: b :: c :: d :: cs => do
    let u ← unit? a b c d
    let ps ← pieces? cs
    return .unit u :: ps
  | '\\' :: e :: cs => do
    let c ← short? e
    let ps ← pieces? cs
    return .char c :: ps
  | '\\' :: [] => none
  | c :: cs =>
    if c = '"' ∨ isControl c then none
    else do
      let ps ← pieces? cs
      return .char c :: ps

/-- The units that begin a surrogate pair. -/
def isHigh (u : UInt16) : Bool :=
  0xd800 ≤ u.toNat ∧ u.toNat < 0xdc00

/-- The units that end a surrogate pair. -/
def isLow (u : UInt16) : Bool :=
  0xdc00 ≤ u.toNat ∧ u.toNat < 0xe000

/-- The character above U+FFFF that a surrogate pair denotes. -/
def pair (high low : UInt16) : Char :=
  Char.ofNat (0x10000 + (high.toNat - 0xd800) * 0x400 + (low.toNat - 0xdc00))

/-- The characters that pieces denote.  There are none if a surrogate stands alone. -/
def join? : List Piece → Option (List Char)
  | [] => some []
  | .char c :: ps => do
    let cs ← join? ps
    return c :: cs
  | .unit u :: ps =>
    if isLow u then none
    else if isHigh u then
      match ps with
      | .unit v :: qs =>
        if isLow v then do
          let cs ← join? qs
          return pair u v :: cs
        else none
      | _ => none
    else do
      let cs ← join? ps
      return Char.ofNat u.toNat :: cs

def decode? (body : List Char) : Option (List Char) := do
  let ps ← pieces? body
  join? ps

/-- The lower-case hexadecimal digit of a value below sixteen. -/
def hexChar (n : Nat) : Char :=
  if n < 10 then Char.ofNat (48 + n) else Char.ofNat (87 + n)

/-- A character as it is written in a body: by its letter if it has one, by four digits if it is
another control character, and as itself otherwise. -/
def escape (c : Char) : List Char :=
  match c with
  | '"' => ['\\', '"']
  | '\\' => ['\\', '\\']
  | '\x08' => ['\\', 'b']
  | '\x0c' => ['\\', 'f']
  | '\n' => ['\\', 'n']
  | '\r' => ['\\', 'r']
  | '\t' => ['\\', 't']
  | c =>
    if isControl c then ['\\', 'u', '0', '0', hexChar (c.toNat / 16), hexChar (c.toNat % 16)]
    else [c]

def encode (cs : List Char) : List Char :=
  cs.flatMap escape

def quote (s : String) : List Char :=
  '"' :: encode s.toList ++ ['"']

end JsonNav.Text.Quoted
