import JsonNav.Text.Position
import JsonNav.Text.Width

/-! A text with its address and with the offsets at which its lines begin, and the positions of its
byte offsets.  A line ends with a carriage return, a line feed, or the two together. -/

namespace JsonNav

namespace Text

/-- The offset just after each line break of a text that begins at `offset`. -/
def breakEnds (offset : Nat) : List Char → List Nat
  | [] => []
  | '\r' :: '\n' :: cs => (offset + 2) :: breakEnds (offset + 2) cs
  | c :: cs =>
    if c = '\r' ∨ c = '\n' then (offset + 1) :: breakEnds (offset + 1) cs
    else breakEnds (offset + c.utf8Size) cs

/-- The offset at which each line begins. -/
def lineOffsets (cs : List Char) : List Nat :=
  0 :: breakEnds 0 cs

end Text

/-- A text and the address by which it is known. -/
structure Source where
  uri : String
  text : List Char
  lineOffsets : List Nat := Text.lineOffsets text
  lineOffsets_eq : lineOffsets = Text.lineOffsets text := by rfl

namespace Source

def ofString (uri text : String) : Source where
  uri := uri
  text := text.toList

def size (s : Source) : Nat :=
  Text.byteLength s.text

def numLines (s : Source) : Nat :=
  s.lineOffsets.length

/-- The beginnings of the lines that begin at or before an offset. -/
def lineOffsetsUpTo (s : Source) (offset : Nat) : List Nat :=
  s.lineOffsets.takeWhile (· ≤ offset)

/-- The position of a byte offset.  An offset past the end stands for the end, and one inside a
character stands for the beginning of that character. -/
def position (s : Source) (offset : Nat) : Position :=
  let boundary := Text.boundaryBefore s.text offset
  let starts := s.lineOffsetsUpTo boundary
  let lineStart := starts.getLastD 0
  let before := Text.takeBytes (boundary - lineStart) (Text.dropBytes lineStart s.text)
  { line := (starts.length - 1).toUInt32, column := (Text.unitLength before).toUInt32 }

end Source

end JsonNav
