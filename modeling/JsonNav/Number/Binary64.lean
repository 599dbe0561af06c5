import JsonNav.Number.Numeral

/-! Numbers in the 64-bit binary format: one sign bit, eleven bits of exponent and fifty-two of
significand.  A decimal is rounded to the nearest number, and halfway between two of them to the
one with the even significand; past the largest number it becomes infinite. -/

namespace JsonNav

/-- The bits of a number. -/
structure Binary64 where
  bits : UInt64
  deriving DecidableEq, Repr

namespace Binary64

/-- `num / den` to the nearest natural number, and a half to the even one. -/
def divideNearest (num den : Nat) : Nat :=
  let q := num / den
  let twice := 2 * (num % den)
  if twice < den ∨ twice = den ∧ q % 2 = 0 then q else q + 1

/-- The exponent of the power of two at or just below `num / den`, both positive. -/
def binaryLog (num den : Nat) : Int :=
  let e : Int := (Nat.log2 num : Int) - Nat.log2 den
  if den <<< e.toNat ≤ num <<< (-e).toNat then e else e - 1

/-- The exponent of the least place value that the last bit of a significand can have. -/
def leastExponent : Int := -1074

/-- The value of the sign bit, which is the first of the sixty-four. -/
def signBit : Nat := 0x8000000000000000

def infinityBits : Nat := 0x7ff0000000000000

/-- The bits of the nearest number to `num / den`, both positive, without the sign.  With `q` as the
place value of the last bit of the significand and `m` as the significand, the bits are
`m + (q + 1074) * 2 ^ 52`: a significand that rounds up to `2 ^ 53` carries into the exponent, and
one below `2 ^ 52` occurs only at the least exponent, where its number is subnormal. -/
def magnitudeBits (num den : Nat) : Nat :=
  let q := max (binaryLog num den - 52) leastExponent
  let m := divideNearest (num <<< (-q).toNat) (den <<< q.toNat)
  min (m + (q - leastExponent).toNat <<< 52) infinityBits

/-- The bits of the nearest number to `d * 10 ^ e`, without the sign.  `count` is the number of
decimal digits of `d`, and where it shows that the product is past the largest number or below half
of the least one, the product is not computed. -/
def decimalBits (d count : Nat) (e : Int) : Nat :=
  if d = 0 then 0
  else if 310 < count + e then infinityBits
  else if count + e < -326 then 0
  else magnitudeBits (d * Nat.pow 10 e.toNat) (Nat.pow 10 (-e).toNat)

def ofMagnitude (negative : Bool) (bits : Nat) : Binary64 :=
  ⟨(if negative then bits + signBit else bits).toUInt64⟩

/-- The number that a literal denotes. -/
def ofNumeral (n : Numeral) : Binary64 :=
  let significant := n.digits.dropWhile (·.val = 0)
  ofMagnitude n.negative (decimalBits (Digit.value significant) significant.length n.scale)

/-- The bits without the sign. -/
def magnitude (x : Binary64) : Nat :=
  x.bits.toNat % signBit

def isNaN (x : Binary64) : Bool :=
  infinityBits < x.magnitude

def isZero (x : Binary64) : Bool :=
  x.magnitude = 0

/-- Equality of numbers: the two zeros are equal, and what is no number equals nothing. -/
def equal (x y : Binary64) : Bool :=
  !x.isNaN && !y.isNaN && (x.isZero && y.isZero || x = y)

end Binary64

end JsonNav
