/-! Percent-encoding: a character that must not stand in a part of an address is written as the
bytes of its UTF-8 form, each as a percent sign and two hexadecimal digits.  A percent sign stands
as it is. -/

namespace JsonNav.Percent

/-- The upper-case hexadecimal digit of a value below sixteen. -/
def digit (n : Nat) : Char :=
  if n < 10 then Char.ofNat (48 + n) else Char.ofNat (55 + n)

def encodeByte (b : UInt8) : List Char :=
  ['%', digit (b.toNat / 16), digit (b.toNat % 16)]

/-- A text with each character encoded that may not stand as it is. -/
def encode (stands : Char → Bool) (cs : List Char) : List Char :=
  cs.flatMap fun c => if stands c then [c] else (String.utf8EncodeChar c).flatMap encodeByte

/-- Control characters and characters that are not ASCII stand nowhere. -/
def isPrintable (c : Char) : Bool :=
  0x20 ≤ c.toNat && c.toNat < 0x7f

/-- The characters that stand in a segment of a path. -/
def standsInPath (c : Char) : Bool :=
  isPrintable c && !([' ', '"', '<', '>', '\x60', '{', '}'].contains c)

/-- The characters that stand in a query.  An apostrophe does not stand in that of a file or a
network host. -/
def standsInQuery (special : Bool) (c : Char) : Bool :=
  isPrintable c && !([' ', '"', '<', '>'].contains c) && !(special && c = '\x27')

/-- The characters that stand in a fragment. -/
def standsInFragment (c : Char) : Bool :=
  isPrintable c && !([' ', '"', '<', '>', '\x60'].contains c)

end JsonNav.Percent
