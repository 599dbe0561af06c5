import JsonNav.Text.Segments
import JsonNav.Url.Basic
import JsonNav.Url.Percent

/-! Paths of segments.  A segment of one dot stands for the path so far, and one of two dots for the
path without its last segment; either dot may be percent-encoded. -/

namespace JsonNav.UrlPath

/-- What is left of a text after a dot at its front. -/
def afterDot? : List Char → Option (List Char)
  | '.' :: cs => some cs
  | '%' :: '2' :: 'e' :: cs => some cs
  | '%' :: '2' :: 'E' :: cs => some cs
  | _ => none

def isOneDot (s : List Char) : Bool :=
  afterDot? s = some []

def isTwoDots (s : List Char) : Bool :=
  (afterDot? s >>= afterDot?) = some []

/-- The path that segments lead to from another path.  Dots at the end lead to a last segment that
is empty. -/
def walk (path : List (List Char)) : List (List Char) → List (List Char)
  | [] => path
  | [s] =>
    if isTwoDots s then path.dropLast ++ [[]]
    else if isOneDot s then path ++ [[]]
    else path ++ [s]
  | s :: t :: rest =>
    if isTwoDots s then walk path.dropLast (t :: rest)
    else if isOneDot s then walk path (t :: rest)
    else walk (path ++ [s]) (t :: rest)

/-- A path without the empty segments at its front, as long as another segment follows. -/
def dropEmpty : List (List Char) → List (List Char)
  | [] :: s :: rest => dropEmpty (s :: rest)
  | ss => ss

/-- The path that a relative text leads to from another path.  The path of a file does not begin
with empty segments. -/
def extend (k : SchemeKind) (path : List (List Char)) (relative : List Char) : UrlPath :=
  let parts := (Text.segments k.isSlash relative).map (Percent.encode Percent.standsInPath)
  let ss := walk path parts
  .segments (if k = .file then dropEmpty ss else ss)

/-- The path that follows an authority: nothing, or segments, before which a slash may be left out.
Only the addresses of files and network hosts always have a path. -/
def ofRooted (k : SchemeKind) : List Char → UrlPath
  | [] => if k.isSpecial then .segments [[]] else .segments []
  | c :: cs => extend k [] (if k.isSlash c then cs else c :: cs)

end JsonNav.UrlPath
