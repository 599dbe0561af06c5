/-! Punycode: a text as its ASCII characters, and after the last hyphen, as digits, the other
characters and where they stand.  The digits spell numbers, one for each of these characters, which
count the places passed over since the last one. -/

namespace JsonNav.Domain.Punycode

/-- The value of a digit to the base 36, which is a letter in lower case or a decimal digit. -/
def digit? (c : Char) : Option Nat :=
  if 'a' ≤ c ∧ c ≤ 'z' then some (c.toNat - 97)
  else if '0' ≤ c ∧ c ≤ '9' then some (c.toNat - 22)
  else none

/-- A digit below the threshold of its place is the last one of its number.  Places are counted in
steps of 36. -/
def threshold (bias place : Nat) : Nat :=
  if place ≤ bias then 1 else if bias + 26 ≤ place then 26 else place - bias

/-- The number at the front of a row of digits, of which the first counts `weight` times, and the
digits after it. -/
def number? (bias : Nat) : (place weight : Nat) → List Nat → Option (Nat × List Nat)
  | _, _, [] => none
  | place, weight, d :: ds =>
    let t := threshold bias place
    if d < t then some (d * weight, ds)
    else (number? bias (place + 36) (weight * (36 - t)) ds).map fun (n, rest) =>
      (d * weight + n, rest)

theorem length_lt_of_number? {bias place weight n : Nat} {ds rest : List Nat}
    (h : number? bias place weight ds = some (n, rest)) : rest.length < ds.length := by
  induction ds generalizing place weight n with
  | nil => exact nomatch h
  | cons d ds ih =>
    simp only [number?] at h
    split at h
    · obtain ⟨-, rfl⟩ := Prod.mk.inj (Option.some.inj h)
      simp
    · obtain ⟨⟨m, r⟩, hr, he⟩ := Option.map_eq_some_iff.mp h
      obtain ⟨-, rfl⟩ := Prod.mk.inj he
      exact Nat.lt_succ_of_lt (ih hr)

/-- The bias that suits numbers of about a given size. -/
def biasFor (n : Nat) : Nat :=
  if 455 < n then 36 + biasFor (n / 35) else 36 * n / (n + 38)
termination_by n
decreasing_by exact Nat.div_lt_self (by omega) (by decide)

/-- The bias after a number, which led to one of `places` places.  The first number is expected to
be much larger than those that follow. -/
def nextBias (n places : Nat) (first : Bool) : Nat :=
  let scaled := if first then n / 700 else n / 2
  biasFor (scaled + scaled / places)

/-- Puts the characters that digits spell into a text.  The last one that was put in is `code`, and
`index` is the place after it. -/
def insertAll (code index bias : Nat) (text ds : List Nat) : Option (List Nat) :=
  match ds with
  | [] => some text
  | d :: ds =>
    match h : number? bias 36 1 (d :: ds) with
    | none => none
    | some (n, rest) =>
      let places := text.length + 1
      let code := code + (index + n) / places
      let place := (index + n) % places
      insertAll code (place + 1) (nextBias n places (index = 0)) (text.insertIdx place code) rest
termination_by ds.length
decreasing_by exact length_lt_of_number? h

/-- The code points of the text that is spelled by ASCII characters.  Some character of it is not
ASCII. -/
def decode? (cs : List Char) : Option (List Nat) :=
  let digits := (cs.reverse.takeWhile (· ≠ '-')).reverse
  let plain := (cs.reverse.dropWhile (· ≠ '-')).reverse
  if digits = [] ∨ plain = ['-'] then none
  else do
    let ds ← digits.mapM digit?
    insertAll 0x80 0 72 (plain.dropLast.map Char.toNat) ds

end JsonNav.Domain.Punycode
