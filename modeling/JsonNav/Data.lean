import JsonNav.Text.Quoted
import JsonNav.Tree.Reader

/-! Data in the text of a tree: records, words and texts.  A record is written as an object with its
fields by name, and is read from such an object or from an array of all its fields in order.  This
reader and the writers built on it are the library's own.  They stand where a program would use code
that is generated from its records, and nothing here is a statement about such code. -/

namespace JsonNav

/-- A tree that is read for the data in it.  What is passed over need not denote anything, so a
string may lack a text, and a number keeps its spelling. -/
abbrev Data := Node (Option String) Numeral

namespace Data

/-- A string denotes its text, if it has one, and a number denotes its spelling. -/
def literals : Literals (Option String) Numeral where
  string? body := (Text.Quoted.pieces? body).map fun ps =>
    (Text.Quoted.join? ps).map String.ofList
  number := id

def parse? (s : String) : Option Data :=
  (Reader.text literals s.length s.toList).toOption

/-- A member of an object: its name and its value. -/
def member? : Data → Option (String × Data)
  | .property _ (.string _ (some key)) (some value) => some (key, value)
  | _ => none

/-- The value of a field among the members of an object, if it has one.  A repeated field is
refused. -/
def field? (members : List (String × Data)) (name : String) : Option (Option Data) :=
  match members.filter fun m => m.1 = name with
  | [] => some none
  | [m] => some (some m.2)
  | _ => none

/-- The values of the named fields, which an object has by name, some perhaps missing and others
beside them, and an array has in order, all of them and no more. -/
def fields? (names : List String) : Data → Option (List (Option Data))
  | .object _ properties => do
    let members ← properties.mapM member?
    names.mapM (field? members)
  | .array _ items => if items.length = names.length then some (items.map some) else none
  | _ => none

/-- A 32-bit word that is written with digits alone. -/
def word? : Data → Option UInt32
  | .number _ n => do
    let k ← n.nat?
    if k < UInt32.size then some k.toUInt32 else none
  | _ => none

/-- A text, or none if it is null. -/
def optionalText? : Data → Option (Option String)
  | .null _ => some none
  | .string _ (some s) => some (some s)
  | _ => none

end Data

/-- The text of an object with given members. -/
def objectText (members : List (String × List Char)) : List Char :=
  let texts := members.map fun m => Text.Quoted.quote m.1 ++ ':' :: m.2
  '{' :: (texts.intersperse [',']).flatten ++ ['}']

end JsonNav
