import JsonNav.Domain.Composition
import JsonNav.Domain.Direction
import JsonNav.Domain.Joining
import JsonNav.Domain.Punycode
import JsonNav.Text.Segments

/-! The names of hosts, which are labels with dots between them.  A label of ASCII characters stands
for itself, or after a mark for a text with other characters, which it spells by Punycode. -/

namespace JsonNav.Domain

/-- What stands before the spelling of a label that is not ASCII. -/
def spellingMark : List Char :=
  ['x', 'n', '-', '-']

/-- Whether a text with characters beyond ASCII may be a label. -/
def isLabel (text : List Nat) : Bool :=
  text.all (fun c => c < 0x80 || inRepertoire c) && !text.head?.any isMark && isNormal text &&
    joinersFit [] text

/-- The text that a label stands for, by code points, if it stands for any. -/
def labelText? (label : List Char) : Option (List Nat) :=
  if spellingMark.isPrefixOf label then
    (Punycode.decode? (label.drop spellingMark.length)).filter isLabel
  else some (label.map Char.toNat)

/-- Whether each label of a name in lower case stands for a text, and has one direction if any label
is written from right to left. -/
def isSound (name : List Char) : Bool :=
  match (Text.segments (· = '.') name).mapM labelText? with
  | none => false
  | some texts => !texts.any isBidirectional || texts.all hasOneDirection

end JsonNav.Domain
