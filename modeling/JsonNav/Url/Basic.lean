/-! Absolute addresses in their parts, and the text of an address. -/

namespace JsonNav

/-- The kinds of schemes.  Addresses of files and of network hosts have a hierarchy of their own, in
which a backslash counts as a slash. -/
inductive SchemeKind where
  | file
  | network (defaultPort : Nat)
  | other
  deriving DecidableEq, Repr

namespace SchemeKind

def ofScheme (scheme : List Char) : SchemeKind :=
  match String.ofList scheme with
  | "file" => file
  | "http" | "ws" => network 80
  | "https" | "wss" => network 443
  | "ftp" => network 21
  | _ => other

def isSpecial : SchemeKind → Bool
  | other => false
  | _ => true

/-- The port that need not be written. -/
def defaultPort? : SchemeKind → Option Nat
  | network p => some p
  | _ => none

/-- The characters that separate the segments of a path. -/
def isSlash (k : SchemeKind) (c : Char) : Bool :=
  c = '/' || c = '\\' && k.isSpecial

/-- The characters that are slashes of some kind of scheme. -/
def isAnySlash (c : Char) : Bool :=
  c = '/' || c = '\\'

end SchemeKind

/-- Where the files of an address are kept: a host, whose name may be empty, and the number of a
port. -/
structure Authority where
  host : List Char
  port : Option Nat
  deriving DecidableEq, Repr

/-- A path is either a list of segments, each after a slash, or a text that is kept as it is. -/
inductive UrlPath where
  | segments (ss : List (List Char))
  | verbatim (text : List Char)
  deriving DecidableEq, Repr

structure Url where
  scheme : List Char
  authority : Option Authority
  path : UrlPath
  query : Option (List Char)
  fragment : Option (List Char)
  deriving DecidableEq, Repr

namespace Authority

def text (a : Authority) : List Char :=
  a.host ++ (a.port.map fun p => ':' :: (Nat.repr p).toList).getD []

end Authority

namespace UrlPath

def text : UrlPath → List Char
  | segments ss => ss.flatMap fun s => '/' :: s
  | verbatim t => t

/-- Whether the path would be taken for an authority if it followed the scheme. -/
def looksLikeAuthority : UrlPath → Bool
  | segments ([] :: _ :: _) => true
  | _ => false

end UrlPath

namespace Url

def kind (u : Url) : SchemeKind :=
  .ofScheme u.scheme

/-- What stands between the scheme and the path. -/
def beforePath (u : Url) : List Char :=
  match u.authority with
  | some a => '/' :: '/' :: a.text
  | none => if u.path.looksLikeAuthority then ['/', '.'] else []

def text (u : Url) : List Char :=
  u.scheme ++ ':' :: u.beforePath ++ u.path.text ++
    (u.query.map ('?' :: ·)).getD [] ++ (u.fragment.map ('#' :: ·)).getD []

end Url

end JsonNav
