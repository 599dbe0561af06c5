import JsonNav.Text.Quoted
import JsonNav.Text.Width
import JsonNav.Tree.ParseError

/-! A place in a text that is being read, and the readers of what is no tree by itself: blanks and
the bodies of strings.  A successful `Step` leaves less of the text, so a loop of steps ends. -/

namespace JsonNav

/-- The byte offset that has been reached, and the text from there on. -/
structure Cursor where
  offset : Nat
  rest : List Char
  deriving DecidableEq, Repr

/-- What was read from `c`, and the cursor after it. -/
structure Step (c : Cursor) (α : Type) where
  value : α
  next : Cursor
  shorter : next.rest.length < c.rest.length

/-- A reader of an `α`: from each cursor a step or the cause of a refusal. -/
abbrev Reader (α : Type) := (c : Cursor) → Except ParseError (Step c α)

namespace Cursor

def ofText (cs : List Char) : Cursor :=
  ⟨0, cs⟩

/-- Space, tab, line feed and carriage return may stand around every part of a tree. -/
def isBlank (c : Char) : Bool :=
  c = ' ' || c = '\t' || c = '\n' || c = '\r'

/-- The cursor after the blanks at the front of a text that begins at `offset`. -/
def afterBlanks (offset : Nat) : List Char → Cursor
  | [] => ⟨offset, []⟩
  | c :: cs => if isBlank c then afterBlanks (offset + 1) cs else ⟨offset, c :: cs⟩

def skipBlanks (c : Cursor) : Cursor :=
  afterBlanks c.offset c.rest

theorem length_rest_afterBlanks_le (offset : Nat) (cs : List Char) :
    (afterBlanks offset cs).rest.length ≤ cs.length := by
  induction cs generalizing offset with
  | nil => simp [afterBlanks]
  | cons c cs ih =>
    simp only [afterBlanks]
    split
    · exact Nat.le_succ_of_le (ih _)
    · simp

theorem length_rest_skipBlanks_le (c : Cursor) : c.skipBlanks.rest.length ≤ c.rest.length :=
  length_rest_afterBlanks_le _ _

/-- The body of a string literal up to its closing quote, and the cursor after the quote.  The
character after a backslash belongs to the body whatever it is. -/
def takeBody (offset : Nat) : List Char → Except ParseError (List Char × Cursor)
  | [] => .error .unfinished
  | '"' :: cs => .ok ([], ⟨offset + 1, cs⟩)
  | '\\' :: [] => .error .unfinished
  | '\\' :: c :: cs => do
    let (body, next) ← takeBody (offset + 1 + c.utf8Size) cs
    return ('\\' :: c :: body, next)
  | c :: cs =>
    if Text.Quoted.isControl c then .error (.malformedString offset)
    else do
      let (body, next) ← takeBody (offset + c.utf8Size) cs
      return (c :: body, next)

theorem length_rest_lt_of_takeBody {offset : Nat} {cs body : List Char} {next : Cursor}
    (h : takeBody offset cs = .ok (body, next)) : next.rest.length < cs.length := by
  fun_induction takeBody offset cs generalizing body next with
  | case1 | case3 => exact absurd h (by simp)
  | case2 offset cs =>
    obtain ⟨-, rfl⟩ := Prod.mk.inj (Except.ok.inj h)
    simp
  | case4 offset c cs ih =>
    cases hr : takeBody (offset + 1 + c.utf8Size) cs with
    | error e => rw [hr] at h; exact nomatch h
    | ok r =>
      rw [hr] at h
      obtain ⟨-, rfl⟩ := Prod.mk.inj (Except.ok.inj h)
      have := ih hr
      simp only [List.length_cons]; omega
  | case5 => exact absurd h (by simp)
  | case6 offset c cs _ _ _ _ ih =>
    cases hr : takeBody (offset + c.utf8Size) cs with
    | error e => rw [hr] at h; exact nomatch h
    | ok r =>
      rw [hr] at h
      obtain ⟨-, rfl⟩ := Prod.mk.inj (Except.ok.inj h)
      have := ih hr
      simp only [List.length_cons]; omega

end Cursor

end JsonNav
