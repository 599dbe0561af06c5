/-! Cutting a text at every occurrence of a separator. -/

namespace JsonNav.Text

/-- The parts of a text between the characters that satisfy `p`, one more than there are such
characters. -/
def segments (p : Char → Bool) : List Char → List (List Char)
  | [] => [[]]
  | c :: cs =>
    if p c then [] :: segments p cs
    else
      match segments p cs with
      | [] => [[c]]
      | s :: ss => (c :: s) :: ss

theorem segments_ne_nil (p : Char → Bool) (cs : List Char) : segments p cs ≠ [] := by
  cases cs with
  | nil => simp [segments]
  | cons c cs => simp only [segments]; split <;> (try split) <;> simp

theorem length_segments (p : Char → Bool) (cs : List Char) :
    (segments p cs).length = cs.countP p + 1 := by
  induction cs with
  | nil => rfl
  | cons c cs ih =>
    simp only [segments]
    split
    next h => simp [ih, h]
    next h =>
      split
      next hs => exact absurd hs (segments_ne_nil p cs)
      next hs => rw [hs] at ih; simp_all

end JsonNav.Text
