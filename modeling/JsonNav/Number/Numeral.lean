import JsonNav.Number.Digits

/-! Number literals: an optional minus sign, a whole part, and optionally a fraction and an
exponent.  A `Numeral` keeps every choice of spelling, so its text is the literal it was scanned
from. -/

namespace JsonNav

inductive Sign where
  | plus
  | minus
  deriving DecidableEq, Repr

/-- The power of ten that ends a literal. -/
structure Exponent where
  /-- Whether the exponent is announced by a capital letter. -/
  capital : Bool
  sign : Option Sign
  digits : Digits
  deriving DecidableEq, Repr

structure Numeral where
  negative : Bool
  whole : Whole
  fraction : Option Digits
  exponent : Option Exponent
  deriving DecidableEq, Repr

namespace Sign

def toChar : Sign → Char
  | plus => '+'
  | minus => '-'

/-- The sign at the front of a text, if there is one. -/
def scan : List Char → Option Sign × List Char
  | '+' :: cs => (some plus, cs)
  | '-' :: cs => (some minus, cs)
  | cs => (none, cs)

theorem eq_append_of_scan (cs : List Char) :
    cs = ((scan cs).1.map toChar).toList ++ (scan cs).2 := by
  unfold scan
  split <;> rfl

end Sign

namespace Exponent

def text (e : Exponent) : List Char :=
  (if e.capital then 'E' else 'e') :: (e.sign.map Sign.toChar).toList ++ e.digits.text

def value (e : Exponent) : Int :=
  match e.sign with
  | some .minus => -e.digits.value
  | _ => e.digits.value

/-- The rest of an exponent, after its letter. -/
def scanDigits? (capital : Bool) (cs : List Char) : Option (Exponent × List Char) :=
  let signed := Sign.scan cs
  let run := Digit.span signed.2
  (Digits.ofList? run.1).map fun ds => (⟨capital, signed.1, ds⟩, run.2)

/-- The exponent at the front of a text.  A text that begins otherwise has none, and a letter
without digits is no exponent at all. -/
def scan? : List Char → Option (Option Exponent × List Char)
  | 'e' :: cs => (scanDigits? false cs).map fun (e, rest) => (some e, rest)
  | 'E' :: cs => (scanDigits? true cs).map fun (e, rest) => (some e, rest)
  | cs => some (none, cs)

theorem eq_append_of_scanDigits? {capital : Bool} {cs rest : List Char} {e : Exponent}
    (h : scanDigits? capital cs = some (e, rest)) :
    (if capital then 'E' else 'e') :: cs = e.text ++ rest := by
  obtain ⟨ds, hds, h⟩ := Option.map_eq_some_iff.mp h
  obtain ⟨rfl, rfl⟩ := Prod.mk.inj h
  have hd := Digit.text_span_append (Sign.scan cs).2
  rw [Digits.ofList?_eq_some_iff.mp hds] at hd
  simp only [text, Digits.text, List.cons_append, List.append_assoc, hd, List.cons.injEq, true_and]
  exact Sign.eq_append_of_scan cs

theorem eq_append_of_scan? {cs rest : List Char} {e : Option Exponent}
    (h : scan? cs = some (e, rest)) : cs = (e.map text).getD [] ++ rest := by
  unfold scan? at h
  split at h
  next =>
    obtain ⟨⟨e, rest⟩, he, h⟩ := Option.map_eq_some_iff.mp h
    obtain ⟨rfl, rfl⟩ := Prod.mk.inj h
    simpa using eq_append_of_scanDigits? he
  next =>
    obtain ⟨⟨e, rest⟩, he, h⟩ := Option.map_eq_some_iff.mp h
    obtain ⟨rfl, rfl⟩ := Prod.mk.inj h
    simpa using eq_append_of_scanDigits? he
  next =>
    obtain ⟨rfl, rfl⟩ := Prod.mk.inj (Option.some.inj h)
    rfl

end Exponent

namespace Numeral

def text (n : Numeral) : List Char :=
  (if n.negative then ['-'] else []) ++ n.whole.text ++
    (n.fraction.map fun ds => '.' :: ds.text).getD [] ++
    (n.exponent.map Exponent.text).getD []

/-- The fraction at the front of a text.  A text that begins otherwise has none, and a point without
digits is no fraction at all. -/
def scanFraction? : List Char → Option (Option Digits × List Char)
  | '.' :: cs =>
    let run := Digit.span cs
    (Digits.ofList? run.1).map fun ds => (some ds, run.2)
  | cs => some (none, cs)

def scanMinus : List Char → Bool × List Char
  | '-' :: cs => (true, cs)
  | cs => (false, cs)

/-- The longest literal at the front of a text, and the text after it.  There is none when a part
that has begun lacks its digits, or when the whole part has a needless leading zero. -/
def scan? (cs : List Char) : Option (Numeral × List Char) := do
  let signed := scanMinus cs
  let run := Digit.span signed.2
  let whole ← Whole.ofList? run.1
  let (fraction, cs) ← scanFraction? run.2
  let (exponent, cs) ← Exponent.scan? cs
  return (⟨signed.1, whole, fraction, exponent⟩, cs)

theorem eq_append_of_scanMinus (cs : List Char) :
    cs = (if (scanMinus cs).1 then ['-'] else []) ++ (scanMinus cs).2 := by
  unfold scanMinus
  split <;> simp

theorem eq_append_of_scanFraction? {cs rest : List Char} {f : Option Digits}
    (h : scanFraction? cs = some (f, rest)) :
    cs = (f.map fun ds => '.' :: ds.text).getD [] ++ rest := by
  unfold scanFraction? at h
  split at h
  next cs =>
    obtain ⟨ds, hds, h⟩ := Option.map_eq_some_iff.mp h
    obtain ⟨rfl, rfl⟩ := Prod.mk.inj h
    have := Digit.text_span_append cs
    rw [Digits.ofList?_eq_some_iff.mp hds] at this
    simp [Digits.text, this]
  next =>
    obtain ⟨rfl, rfl⟩ := Prod.mk.inj (Option.some.inj h)
    rfl

/-- A literal and the text after it are the text that it was scanned from. -/
theorem eq_append_of_scan? {cs rest : List Char} {n : Numeral} (h : scan? cs = some (n, rest)) :
    cs = n.text ++ rest := by
  simp only [scan?, Option.bind_eq_bind, Option.bind_eq_some_iff, Option.pure_def,
    Option.some.injEq, Prod.mk.injEq, Prod.exists] at h
  obtain ⟨whole, hw, fraction, afterFraction, hf, exponent, afterExponent, he, rfl, rfl⟩ := h
  have hd := Digit.text_span_append (scanMinus cs).2
  rw [Whole.ofList?_eq_some_iff.mp hw, eq_append_of_scanFraction? hf,
    Exponent.eq_append_of_scan? he] at hd
  refine (eq_append_of_scanMinus cs).trans ?_
  rw [← hd]
  simp [text, Digits.text, List.append_assoc]

theorem text_ne_nil (n : Numeral) : n.text ≠ [] := by
  simp [text, Digits.text, Digits.toList, Digit.text]

theorem length_lt_of_scan? {cs rest : List Char} {n : Numeral} (h : scan? cs = some (n, rest)) :
    rest.length < cs.length := by
  have := List.length_pos_iff.mpr n.text_ne_nil
  rw [eq_append_of_scan? h, List.length_append]; omega

/-- The digits of the literal before its exponent. -/
def digits (n : Numeral) : List Digit :=
  n.whole.toList ++ (n.fraction.map Digits.toList).getD []

/-- The power of ten that scales `digits`. -/
def scale (n : Numeral) : Int :=
  (n.exponent.map Exponent.value).getD 0 - ((n.fraction.map Digits.toList).getD []).length

/-- The natural number that a literal spells with digits alone. -/
def nat? (n : Numeral) : Option Nat :=
  if n.negative ∨ n.fraction.isSome ∨ n.exponent.isSome then none else some n.whole.value

end Numeral

end JsonNav
