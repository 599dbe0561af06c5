import JsonNav.Text.Quoted
import JsonNav.Tree.Cursor
import JsonNav.Tree.Node

/-! Reading a text into a tree.  `Reader.value` reads one value whose containers nest no deeper than
a given number of levels, and `Reader.text` reads a whole text.  What strings and numbers denote is
a parameter, so one grammar serves every kind of tree. -/

namespace JsonNav

/-- What literals denote.  A string whose body denotes nothing is refused. -/
structure Literals (σ ν : Type) where
  string? : List Char → Option σ
  number : Numeral → ν

namespace Reader

variable {σ ν α : Type}

def spanned (start next : Cursor) : Span :=
  ⟨start.offset, next.offset - start.offset⟩

def string (l : Literals σ ν) : Reader (Node σ ν) := fun c =>
  match hc : c.rest with
  | [] => .error .unfinished
  | '"' :: cs =>
    match hb : Cursor.takeBody (c.offset + 1) cs with
    | .error e => .error e
    | .ok (body, next) =>
      match l.string? body with
      | none => .error (.malformedString c.offset)
      | some x =>
        .ok ⟨.string (spanned c next) x, next, by
          have := Cursor.length_rest_lt_of_takeBody hb
          simp only [hc, List.length_cons]; omega⟩
  | _ => .error (.misplaced c.offset)

def number (l : Literals σ ν) : Reader (Node σ ν) := fun c =>
  match hn : Numeral.scan? c.rest with
  | none => .error (.malformedNumber c.offset)
  | some (n, rest) =>
    let next : Cursor := ⟨c.offset + Text.byteLength n.text, rest⟩
    .ok ⟨.number (spanned c next) (l.number n), next, Numeral.length_lt_of_scan? hn⟩

/-- A word.  A text with fewer bytes left than the word has is refused because it ends, even where
it does not begin as the word does. -/
def word (w : List Char) (hw : w ≠ []) (node : Span → Node σ ν) : Reader (Node σ ν) := fun c =>
  if Text.byteLength (c.rest.take w.length) < Text.byteLength w then .error .unfinished
  else
    if hc : w <+: c.rest then
      let next : Cursor := ⟨c.offset + Text.byteLength w, c.rest.drop w.length⟩
      .ok ⟨node (spanned c next), next, by
        have := hc.length_le
        have := List.length_pos_iff.mpr hw
        simp only [next, List.length_drop]; omega⟩
    else .error (.misplaced c.offset)

/-- The items of a container after the first: commas and items in turn, up to the closing bracket.
-/
def items (item : Reader α) (close : Char) (c : Cursor) : Except ParseError (Step c (List α)) :=
  match hc : c.skipBlanks.rest with
  | [] => .error .unfinished
  | d :: cs =>
    have shorter : cs.length < c.rest.length := by
      have := c.length_rest_skipBlanks_le
      rw [hc, List.length_cons] at this; omega
    let next : Cursor := ⟨c.skipBlanks.offset + 1, cs⟩
    if d = close then .ok ⟨[], next, shorter⟩
    else if d = ',' then
      match item next with
      | .error e => .error e
      | .ok first =>
        match items item close first.next with
        | .error e => .error e
        | .ok others =>
          .ok ⟨first.value :: others.value, others.next,
            Nat.lt_trans others.shorter (Nat.lt_trans first.shorter shorter)⟩
    else .error (.misplaced c.skipBlanks.offset)
termination_by c.rest.length
decreasing_by exact Nat.lt_trans first.shorter shorter

/-- All items of a container whose opening bracket has been read. -/
def contents (item : Reader α) (close : Char) : Reader (List α) := fun c =>
  match hc : c.skipBlanks.rest with
  | [] => .error .unfinished
  | d :: cs =>
    if d = close then
      .ok ⟨[], ⟨c.skipBlanks.offset + 1, cs⟩, by
        have := c.length_rest_skipBlanks_le
        rw [hc, List.length_cons] at this
        simp only; omega⟩
    else
      match item c with
      | .error e => .error e
      | .ok first =>
        match items item close first.next with
        | .error e => .error e
        | .ok others =>
          .ok ⟨first.value :: others.value, others.next, Nat.lt_trans others.shorter first.shorter⟩

/-- A container at the cursor, whose items are read by `item`. -/
def container (item : Reader (Node σ ν)) (close : Char)
    (node : Span → List (Node σ ν) → Node σ ν) : Reader (Node σ ν) := fun c =>
  match hc : c.rest with
  | [] => .error .unfinished
  | _ :: cs =>
    match contents item close ⟨c.offset + 1, cs⟩ with
    | .error e => .error e
    | .ok all =>
      .ok ⟨node (spanned c all.next) all.value, all.next, by
        have := all.shorter
        simp only [hc, List.length_cons] at this ⊢; omega⟩

/-- A property: a key, a colon, and a value that is read by `value`. -/
def property (l : Literals σ ν) (value : Reader (Node σ ν)) : Reader (Node σ ν) := fun c =>
  match string l c.skipBlanks with
  | .error e => .error e
  | .ok key =>
    match hk : key.next.skipBlanks.rest with
    | [] => .error .unfinished
    | ':' :: cs =>
      match value ⟨key.next.skipBlanks.offset + 1, cs⟩ with
      | .error e => .error e
      | .ok v =>
        .ok ⟨.property ⟨key.value.offset, v.value.stop - key.value.offset⟩ key.value v.value,
          v.next, by
            have h₁ := v.shorter
            have h₂ := key.next.length_rest_skipBlanks_le
            have h₃ := key.shorter
            have h₄ := c.length_rest_skipBlanks_le
            rw [hk, List.length_cons] at h₂
            simp only at h₁; omega⟩
    | _ => .error (.misplaced key.next.skipBlanks.offset)

/-- A value that begins at the cursor, its items read by `nested`, or its containers refused if
there is none. -/
def start (l : Literals σ ν) (nested : Option (Reader (Node σ ν))) : Reader (Node σ ν) := fun c =>
  match c.rest with
  | [] => .error .unfinished
  | '"' :: _ => string l c
  | '{' :: _ =>
    match nested with
    | none => .error (.tooDeep c.offset)
    | some value => container (property l value) '}' .object c
  | '[' :: _ =>
    match nested with
    | none => .error (.tooDeep c.offset)
    | some value => container value ']' .array c
  | 't' :: _ => word ['t', 'r', 'u', 'e'] (by decide) (.boolean · true) c
  | 'f' :: _ => word ['f', 'a', 'l', 's', 'e'] (by decide) (.boolean · false) c
  | 'n' :: _ => word ['n', 'u', 'l', 'l'] (by decide) .null c
  | d :: _ =>
    if d = '-' ∨ (Digit.ofChar? d).isSome then number l c
    else .error (.misplaced c.offset)

def valueWith (l : Literals σ ν) (nested : Option (Reader (Node σ ν))) : Reader (Node σ ν) :=
  fun c =>
  match start l nested c.skipBlanks with
  | .error e => .error e
  | .ok s => .ok ⟨s.value, s.next, Nat.lt_of_lt_of_le s.shorter c.length_rest_skipBlanks_le⟩

/-- A value whose containers nest at most `depth` levels deep. -/
def value (l : Literals σ ν) : (depth : Nat) → Reader (Node σ ν)
  | 0 => valueWith l none
  | depth + 1 => valueWith l (some (value l depth))

/-- The tree of a text that holds one value and blanks around it. -/
def text (l : Literals σ ν) (depth : Nat) (cs : List Char) : Except ParseError (Node σ ν) :=
  match value l depth (Cursor.ofText cs) with
  | .error e => .error e
  | .ok root =>
    match root.next.skipBlanks with
    | ⟨_, []⟩ => .ok root.value
    | ⟨offset, _ :: _⟩ => .error (.trailing offset)

end Reader

/-- Strings denote their text and numbers the nearest double.  Bodies with escapes are left to a
library for JSON, and `Text.Quoted.decode?` stands for its decoder.  What is proved for all literals
that fit a meaning (`Literals.Fits`), above all `Reader.text_eq_verdict` and `Reader.text_congr`,
holds for any other decoder. -/
def Literals.standard : Literals String Binary64 where
  string? body := (Text.Quoted.decode? body).map String.ofList
  number := Binary64.ofNumeral

namespace Tree

/-- How deep the containers of a tree may nest. -/
def maxDepth : Nat := 512

def parse (text : List Char) : Except ParseError Tree :=
  Reader.text .standard maxDepth text

end Tree

end JsonNav
