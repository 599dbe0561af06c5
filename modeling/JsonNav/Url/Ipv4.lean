import JsonNav.Text.Quoted
import JsonNav.Text.Segments

/-! Hosts that are given by number.  A number of 32 bits is written in four parts of one byte, or in
fewer, of which the last takes the place of those that are left out. -/

namespace JsonNav.Ipv4

/-- The value of a digit to a base of at most sixteen. -/
def digit? (base : Nat) (c : Char) : Option Nat :=
  (Text.Quoted.hexDigit? c).filter (· < base)

/-- The number that digits to a base denote, which is zero if there are none. -/
def number? (base : Nat) (cs : List Char) : Option Nat :=
  (cs.mapM (digit? base)).map (·.foldl (fun n d => base * n + d) 0)

/-- The number that a part denotes: to the base 16 after `0x`, to the base 8 after another zero, and
to the base 10 otherwise. -/
def part? : List Char → Option Nat
  | [] => none
  | '0' :: 'x' :: cs => number? 16 cs
  | '0' :: c :: cs => number? 8 (c :: cs)
  | cs => number? 10 cs

/-- The parts of a name.  A dot may stand after the last one. -/
def parts (name : List Char) : List (List Char) :=
  let ps := Text.segments (· = '.') name
  if ps.getLast? = some [] then ps.dropLast else ps

/-- Whether a name in lower case is that of a host given by number, perhaps in a wrong way. -/
def isNumbered (name : List Char) : Bool :=
  match (parts name).getLast? with
  | none => false
  | some p => p ≠ [] && p.all Char.isDigit || (part? p).isSome

/-- The number that parts denote together, where `weight` numbers can be written in them. -/
def combine? : (weight : Nat) → List Nat → Option Nat
  | _, [] => none
  | weight, [n] => if n < weight then some n else none
  | weight, n :: ns =>
    if n < 256 then (combine? (weight / 256) ns).map (n * (weight / 256) + ·) else none

/-- The number of a host.  There are no more than four parts. -/
def address? (name : List Char) : Option Nat := do
  let ns ← (parts name).mapM part?
  if ns.length ≤ 4 then combine? UInt32.size ns else none

def text (address : Nat) : List Char :=
  let byte (i : Nat) := (Nat.repr (address >>> (8 * i) % 256)).toList
  byte 3 ++ '.' :: byte 2 ++ '.' :: byte 1 ++ '.' :: byte 0

end JsonNav.Ipv4
