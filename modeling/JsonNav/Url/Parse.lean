import JsonNav.Url.Host
import JsonNav.Url.Path

/-! Reading addresses.  An absolute address begins with a scheme, and any other text is relative to
an address, of which it replaces the end.  A part of the common rules is covered, and texts that
need the others are refused, apart from the letters of drives, which are segments here. -/

namespace JsonNav.Url

/-- The characters that do not count at either end of an address. -/
def isMargin (c : Char) : Bool :=
  c.toNat ≤ 0x20

/-- A text without what does not count in an address: blanks and control characters at either end,
and tabs and line breaks everywhere. -/
def clean (cs : List Char) : List Char :=
  let trimmed := ((cs.dropWhile isMargin).reverse.dropWhile isMargin).reverse
  trimmed.filter fun c => c ≠ '\t' ∧ c ≠ '\n' ∧ c ≠ '\r'

def isSchemeChar (c : Char) : Bool :=
  c.isAlphanum || c = '+' || c = '-' || c = '.'

/-- The scheme at the front of a text, in lower case, and the text after its colon. -/
def splitScheme? (cs : List Char) : Option (List Char × List Char) :=
  match cs.takeWhile isSchemeChar, cs.dropWhile isSchemeChar with
  | c :: scheme, ':' :: rest =>
    if c.isAlpha then some ((c :: scheme).map Char.toLower, rest) else none
  | _, _ => none

/-- What follows the scheme of an address, divided at the first question mark and the first hash. -/
structure Parts where
  body : List Char
  query : Option (List Char)
  fragment : Option (List Char)
  deriving DecidableEq, Repr

namespace Parts

/-- The text after the first character of a text, if there is one. -/
def afterMark : List Char → Option (List Char)
  | [] => none
  | _ :: cs => some cs

/-- The parts of a text, the query and the fragment encoded. -/
def ofText (k : SchemeKind) (cs : List Char) : Parts :=
  let main := cs.takeWhile (· ≠ '#')
  { body := main.takeWhile (· ≠ '?')
    query := (afterMark (main.dropWhile (· ≠ '?'))).map
      (Percent.encode (Percent.standsInQuery k.isSpecial))
    fragment := (afterMark (cs.dropWhile (· ≠ '#'))).map (Percent.encode Percent.standsInFragment) }

/-- The number of slashes at the front of the body, with backslashes counted among them. -/
def slashes (p : Parts) : Nat :=
  (p.body.takeWhile SchemeKind.isAnySlash).length

end Parts

/-- The address whose authority and path are a text. -/
def ofAuthority? (scheme : List Char) (p : Parts) (cs : List Char) : Option Url :=
  let k := SchemeKind.ofScheme scheme
  let (authority, rest) := Authority.split k cs
  (Authority.parse? k authority).map fun a =>
    ⟨scheme, some a, .ofRooted k rest, p.query, p.fragment⟩

/-- The address of a scheme and what follows it.  A network host may follow any number of slashes.
A file without a host is one of the local host.  Other addresses need no authority, and have a path
of segments only after a slash. -/
def ofParts? (scheme : List Char) (p : Parts) : Option Url :=
  match SchemeKind.ofScheme scheme with
  | .network n => ofAuthority? scheme p (p.body.dropWhile (SchemeKind.network n).isSlash)
  | .file =>
    match p.slashes with
    | 0 => some ⟨scheme, some ⟨[], none⟩, .extend .file [] p.body, p.query, p.fragment⟩
    | 1 => some ⟨scheme, some ⟨[], none⟩, .ofRooted .file p.body, p.query, p.fragment⟩
    | _ => ofAuthority? scheme p (p.body.drop 2)
  | .other =>
    match p.body with
    | '/' :: '/' :: cs => ofAuthority? scheme p cs
    | '/' :: cs => some ⟨scheme, none, .extend .other [] cs, p.query, p.fragment⟩
    | cs =>
      let path := UrlPath.verbatim (Percent.encode Percent.isPrintable cs)
      some ⟨scheme, none, path, p.query, p.fragment⟩

def parse? (cs : List Char) : Option Url := do
  let (scheme, rest) ← splitScheme? (clean cs)
  ofParts? scheme (.ofText (.ofScheme scheme) rest)

/-- Where an authority begins in the body of a relative text that names one.  For a file it is after
two slashes.  Otherwise two plain slashes are taken alone, and any others all together. -/
def afterSlashes (k : SchemeKind) (body : List Char) : List Char :=
  match k, body with
  | .file, cs => cs.drop 2
  | _, '/' :: '/' :: cs => cs
  | _, cs => cs.dropWhile SchemeKind.isAnySlash

/-- The address that replaces the end of another one, from the first part that is given: its
authority, its path, the last segment of its path, its query, or its fragment.  At the front of the
text a backslash counts as a slash, whatever the scheme.  A path that is kept as it is allows for a
new fragment only. -/
def replaceEnd? (base : Url) (p : Parts) : Option Url :=
  match base.path with
  | .verbatim _ =>
    if p.body = [] ∧ p.query = none ∧ p.fragment.isSome then
      some { base with fragment := p.fragment }
    else none
  | .segments ss =>
    match p.body, p.slashes with
    | [], _ =>
      some { base with query := p.query.or base.query, fragment := p.fragment }
    | body, 0 =>
      let path := UrlPath.extend base.kind ss.dropLast body
      some { base with path := path, query := p.query, fragment := p.fragment }
    | _ :: cs, 1 =>
      let path := UrlPath.extend base.kind [] cs
      some { base with path := path, query := p.query, fragment := p.fragment }
    | body, _ => ofAuthority? base.scheme p (afterSlashes base.kind body)

/-- The address of a text that is absolute or relative to another address.  After the scheme of a
file or network address, a text that names no authority is relative to an address of that scheme. -/
def resolve? (base : Url) (cs : List Char) : Option Url :=
  match splitScheme? (clean cs) with
  | none => base.replaceEnd? (.ofText base.kind (clean cs))
  | some (scheme, rest) =>
    let k := SchemeKind.ofScheme scheme
    let p := Parts.ofText k rest
    if k.isSpecial ∧ scheme = base.scheme ∧ p.slashes < 2 then base.replaceEnd? p
    else ofParts? scheme p

end JsonNav.Url
