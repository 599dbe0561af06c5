import Mathlib.Data.Bool.AllAny
import JsonNav.Proofs.Number.Scan
import JsonNav.Proofs.Tree.Soundness

/-! How many containers are open at a place in a text, by a scan for brackets that knows what a
string is and nothing else of the grammar.  The scan comes out of a value as it went in, so at any
place of a derived text it counts the containers around that place. -/

namespace JsonNav

variable {α σ ν : Type}

/-- Where a scan stands, and how many containers are open there: outside of strings, within one, or
after a backslash in one. -/
inductive Nesting where
  | outside (depth : Nat)
  | inside (depth : Nat)
  | escaped (depth : Nat)
  deriving DecidableEq, Repr

namespace Nesting

def next : Nesting → Char → Nesting
  | outside d, c =>
    if c = '"' then inside d
    else if c = '[' ∨ c = '{' then outside (d + 1)
    else if c = ']' ∨ c = '}' then outside (d - 1)
    else outside d
  | inside d, c =>
    if c = '"' then outside d
    else if c = '\\' then escaped d
    else inside d
  | escaped d, _ => inside d

def after (s : Nesting) (cs : List Char) : Nesting :=
  cs.foldl next s

/-- Where the scan of a text ends. -/
def ofText (cs : List Char) : Nesting :=
  (outside 0).after cs

@[simp] theorem after_nil (s : Nesting) : s.after [] = s := rfl

@[simp] theorem after_cons (s : Nesting) (c : Char) (cs : List Char) :
    s.after (c :: cs) = (s.next c).after cs := rfl

@[simp] theorem after_append (s : Nesting) (cs ds : List Char) :
    s.after (cs ++ ds) = (s.after cs).after ds :=
  List.foldl_append

/-- As many containers are open after the text as before it, and it ends no string. -/
def Neutral (cs : List Char) : Prop :=
  ∀ d, (outside d).after cs = outside d

theorem Neutral.append {cs ds : List Char} (h : Neutral cs) (h' : Neutral ds) :
    Neutral (cs ++ ds) := by
  intro d
  rw [after_append, h d, h' d]

/-- The characters that a scan outside of strings looks for. -/
def marks : List Char :=
  ['"', '[', '{', ']', '}']

theorem neutral_of_forall_mem {cs : List Char} (h : ∀ c ∈ cs, c ∉ marks) : Neutral cs := by
  intro d
  induction cs with
  | nil => rfl
  | cons c cs ih =>
    have hc := h c (List.mem_cons_self ..)
    simp only [marks, List.mem_cons, List.not_mem_nil, or_false, not_or] at hc
    have hnext : (outside d).next c = outside d := by simp [next, hc]
    rw [after_cons, hnext, ih fun c hc => h c (List.mem_cons_of_mem _ hc)]

theorem neutral_blanks {ws : List Char} (h : Grammar.Blanks ws) : Neutral ws := by
  have hall : ∀ c ∈ [' ', '\t', '\n', '\r'], c ∉ marks := List.all_iff_forall_prop.mp (by decide)
  exact neutral_of_forall_mem fun c hc => hall c (h c hc)

theorem neutral_number (n : Numeral) : Neutral n.text := by
  have hdigit : ∀ v : Digit, v.toChar ∉ marks := by decide
  have hsign : ∀ c ∈ ['+', '-', '.', 'e', 'E'], c ∉ marks := List.all_iff_forall_prop.mp (by decide)
  refine neutral_of_forall_mem fun c hc => ?_
  rcases Numeral.isPart_of_mem hc with hc | hc
  · obtain ⟨v, hv⟩ := Option.ne_none_iff_exists'.mp hc
    rw [Digit.eq_toChar_of_ofChar? hv]
    exact hdigit v
  · exact hsign c hc

theorem after_body {body : List Char} (h : Cursor.Body body) (d : Nat) :
    (inside d).after body = inside d := by
  induction h with
  | nil => rfl
  | char hq hb _ _ ih => simpa [next, hq, hb] using ih
  | escape _ ih => simpa [next] using ih

variable {l : Literals σ ν} {m : Meaning σ ν}

theorem neutral_quote (hl : l.Fits m) {cs : List Char} {o : Nat} {n : Node σ ν}
    (h : Grammar.Quote m cs o n) : Neutral cs := by
  cases h with
  | mk h =>
    intro d
    have hbody := after_body (hl.string.mp h).1 d
    simp [next, hbody]

variable {P : List Char → Nat → α → Prop} {close : Char}

theorem after_close (hclose : close = ']' ∨ close = '}') {ws : List Char} (hws : Grammar.Blanks ws)
    (d : Nat) : (outside (d + 1)).after (ws ++ [close]) = outside d := by
  rw [after_append, neutral_blanks hws]
  rcases hclose with rfl | rfl <;> rfl

theorem neutral_comma {ws ws' : List Char} (hws : Grammar.Blanks ws) (hws' : Grammar.Blanks ws') :
    Neutral (ws ++ ',' :: ws') := by
  have hcomma : Neutral [','] := neutral_of_forall_mem (List.all_iff_forall_prop.mp (by decide))
  exact (neutral_blanks hws).append (hcomma.append (neutral_blanks hws'))

theorem after_others (hP : ∀ {cs o a}, P cs o a → Neutral cs) (hclose : close = ']' ∨ close = '}')
    {cs : List Char} {o : Nat} {as : List α} (h : Grammar.Others P close cs o as) (d : Nat) :
    (outside (d + 1)).after cs = outside d := by
  induction h with
  | done hws => exact after_close hclose hws d
  | more hws hws' ha _ ih =>
    rw [after_append, ((neutral_comma hws hws').append (hP ha)) (d + 1), ih]

theorem after_contents (hP : ∀ {cs o a}, P cs o a → Neutral cs) (hclose : close = ']' ∨ close = '}')
    {cs : List Char} {o : Nat} {as : List α} (h : Grammar.Contents P close cs o as) (d : Nat) :
    (outside (d + 1)).after cs = outside d := by
  cases h with
  | empty hws => exact after_close hclose hws d
  | items hws ha has =>
    rw [after_append, ((neutral_blanks hws).append (hP ha)) (d + 1), after_others hP hclose has]

theorem neutral_property (hl : l.Fits m) {P : List Char → Nat → Node σ ν → Prop}
    (hP : ∀ {cs o n}, P cs o n → Neutral cs) {cs : List Char} {o : Nat} {n : Node σ ν}
    (h : Grammar.Property m P cs o n) : Neutral cs := by
  cases h with
  | mk hkey hws hws' hvalue =>
    have hcolon : Neutral [':'] := neutral_of_forall_mem (List.all_iff_forall_prop.mp (by decide))
    have hbefore := (neutral_quote hl hkey).append (neutral_blanks hws)
    exact (hbefore.append (hcolon.append (neutral_blanks hws'))).append (hP hvalue)

/-- A scan that comes to a value leaves it with as many containers open. -/
theorem neutral_value (hl : l.Fits m) {cs : List Char} {o : Nat} {n : Node σ ν}
    (h : Grammar.Value m cs o n) : Neutral cs := by
  refine Grammar.Value.induct (motive := fun cs _ _ => Neutral cs) ?string ?number ?trueWord
    ?falseWord ?nullWord ?array ?object h
  case string => exact fun h => neutral_quote hl h
  case number => exact fun {n} _ _ _ => neutral_number n
  case trueWord => exact fun {_} => neutral_of_forall_mem (List.all_iff_forall_prop.mp (by decide))
  case falseWord => exact fun {_} => neutral_of_forall_mem (List.all_iff_forall_prop.mp (by decide))
  case nullWord => exact fun {_} => neutral_of_forall_mem (List.all_iff_forall_prop.mp (by decide))
  case array => exact fun h d => after_contents (fun h => h.2) (.inl rfl) h d
  case object =>
    exact fun h d => after_contents (fun h => neutral_property hl (fun h => h.2) h) (.inr rfl) h d

end Nesting

end JsonNav
