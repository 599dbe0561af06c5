/-! Runs of decimal digits: their text, their value, and how they are taken from the front of a
text.  A `Whole` is a run without a needless leading zero, so each natural number has just one. -/

namespace JsonNav

abbrev Digit := Fin 10

namespace Digit

/-- The digit that a character stands for.  Only the ten ASCII digits stand for one. -/
def ofChar? (c : Char) : Option Digit :=
  if h : 48 ≤ c.toNat ∧ c.toNat < 58 then some ⟨c.toNat - 48, by omega⟩ else none

def toChar (d : Digit) : Char :=
  Char.ofNat (48 + d.val)

@[simp] theorem ofChar?_toChar (d : Digit) : ofChar? d.toChar = some d := by
  revert d; decide

theorem eq_toChar_of_ofChar? {c : Char} {d : Digit} (h : ofChar? c = some d) : c = d.toChar := by
  simp only [ofChar?] at h
  split at h
  next hc =>
    obtain rfl := Option.some.inj h
    simp only [toChar]
    rw [show 48 + (c.toNat - 48) = c.toNat by omega, Char.ofNat_toNat]
  next => exact absurd h (by simp)

theorem isSome_ofChar?_iff {c : Char} : (ofChar? c).isSome ↔ c.isDigit := by
  have h0 : '0'.val.toNat = 48 := rfl
  have h9 : '9'.val.toNat = 57 := rfl
  simp only [ofChar?, Option.isSome_dite, Char.isDigit, Bool.and_eq_true, decide_eq_true_eq,
    ge_iff_le, UInt32.le_iff_toNat_le, h0, h9, Char.toNat]
  omega

/-- The digits at the front of a text, and the text after them. -/
def span : List Char → List Digit × List Char
  | [] => ([], [])
  | c :: cs =>
    match ofChar? c with
    | some d => let (ds, rest) := span cs; (d :: ds, rest)
    | none => ([], c :: cs)

/-- The number that a run of digits denotes, most significant digit first. -/
def value (ds : List Digit) : Nat :=
  ds.foldl (fun n d => 10 * n + d.val) 0

def text (ds : List Digit) : List Char :=
  ds.map toChar

/-- Taking the digits off a text loses nothing. -/
theorem text_span_append (cs : List Char) : text (span cs).1 ++ (span cs).2 = cs := by
  induction cs with
  | nil => rfl
  | cons c cs ih =>
    simp only [span]
    split
    next d h => simpa [text, eq_toChar_of_ofChar? h] using ih
    next => rfl

theorem length_span (cs : List Char) : (span cs).1.length + (span cs).2.length = cs.length := by
  have := congrArg List.length (text_span_append cs)
  simpa [text] using this

/-- What follows the digits at the front of a text does not begin with a digit. -/
theorem ofChar?_head_span (cs : List Char) : ∀ c ∈ (span cs).2.head?, ofChar? c = none := by
  induction cs with
  | nil => simp [span]
  | cons c cs ih =>
    simp only [span]
    split
    next => exact ih
    next h => simpa using h

end Digit

/-- One digit or more. -/
structure Digits where
  head : Digit
  tail : List Digit
  deriving DecidableEq, Repr

namespace Digits

def toList (ds : Digits) : List Digit :=
  ds.head :: ds.tail

def ofList? : List Digit → Option Digits
  | [] => none
  | d :: ds => some ⟨d, ds⟩

def value (ds : Digits) : Nat :=
  Digit.value ds.toList

def text (ds : Digits) : List Char :=
  Digit.text ds.toList

@[simp] theorem ofList?_toList (ds : Digits) : ofList? ds.toList = some ds := rfl

theorem ofList?_eq_some_iff {l : List Digit} {ds : Digits} :
    ofList? l = some ds ↔ l = ds.toList := by
  cases l with
  | nil => simp [ofList?, toList]
  | cons d l => cases ds; simp [ofList?, toList]

end Digits

/-- A run of digits that begins with zero only if it is zero alone. -/
structure Whole extends Digits where
  canonical : head = 0 → tail = []
  deriving DecidableEq, Repr

namespace Whole

/-- The canonical run made of the given digits: there are some, and no needless leading zero. -/
def ofList? (l : List Digit) : Option Whole := do
  let ds ← Digits.ofList? l
  if h : ds.head = 0 → ds.tail = [] then some ⟨ds, h⟩ else none

/-- The canonical run with the given text. -/
def ofText? (cs : List Char) : Option Whole :=
  match Digit.span cs with
  | (ds, []) => ofList? ds
  | _ => none

theorem ofList?_eq_some_iff {l : List Digit} {w : Whole} : ofList? l = some w ↔ l = w.toList := by
  cases l with
  | nil => simp [ofList?, Digits.ofList?, Digits.toList]
  | cons d l =>
    obtain ⟨⟨e, m⟩, hc⟩ := w
    simp only [ofList?, Digits.ofList?, Digits.toList, Option.bind_eq_bind, Option.bind_some]
    constructor
    · intro h
      split at h
      · simpa using h
      · exact absurd h (by simp)
    · intro h
      obtain ⟨rfl, rfl⟩ := List.cons.inj h
      exact dif_pos hc

end Whole

end JsonNav
