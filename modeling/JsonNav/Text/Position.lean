/-! Positions in a text by line and column, and ranges between two positions.  Both count from zero,
a column counts units of UTF-16, and both are 32-bit words. -/

namespace JsonNav

/-- A line and a column in that line. -/
structure Position where
  line : UInt32
  column : UInt32
  deriving DecidableEq, Repr, Inhabited

namespace Position

/-- Positions are ordered by line, and on one line by column. -/
instance : LE Position where
  le a b := a.line < b.line ∨ a.line = b.line ∧ a.column ≤ b.column

instance : LT Position where
  lt a b := a.line < b.line ∨ a.line = b.line ∧ a.column < b.column

instance (a b : Position) : Decidable (a ≤ b) :=
  inferInstanceAs (Decidable (a.line < b.line ∨ a.line = b.line ∧ a.column ≤ b.column))

instance (a b : Position) : Decidable (a < b) :=
  inferInstanceAs (Decidable (a.line < b.line ∨ a.line = b.line ∧ a.column < b.column))

theorem le_def {a b : Position} :
    a ≤ b ↔ a.line < b.line ∨ a.line = b.line ∧ a.column ≤ b.column := Iff.rfl

theorem lt_def {a b : Position} :
    a < b ↔ a.line < b.line ∨ a.line = b.line ∧ a.column < b.column := Iff.rfl

end Position

/-- The text from one position up to another. -/
structure Range where
  start : Position
  stop : Position
  deriving DecidableEq, Repr, Inhabited

namespace Range

/-- Ranges are ordered by where they start, and from one start by where they end. -/
instance : LE Range where
  le a b := a.start < b.start ∨ a.start = b.start ∧ a.stop ≤ b.stop

instance : LT Range where
  lt a b := a.start < b.start ∨ a.start = b.start ∧ a.stop < b.stop

instance (a b : Range) : Decidable (a ≤ b) :=
  inferInstanceAs (Decidable (a.start < b.start ∨ a.start = b.start ∧ a.stop ≤ b.stop))

instance (a b : Range) : Decidable (a < b) :=
  inferInstanceAs (Decidable (a.start < b.start ∨ a.start = b.start ∧ a.stop < b.stop))

theorem le_def {a b : Range} :
    a ≤ b ↔ a.start < b.start ∨ a.start = b.start ∧ a.stop ≤ b.stop := Iff.rfl

theorem lt_def {a b : Range} :
    a < b ↔ a.start < b.start ∨ a.start = b.start ∧ a.stop < b.stop := Iff.rfl

def sort (ranges : List Range) : List Range :=
  ranges.mergeSort fun a b => a ≤ b

end Range

end JsonNav
