import JsonNav.Domain.Label
import JsonNav.Number.Digits
import JsonNav.Url.Basic
import JsonNav.Url.Ipv4
import JsonNav.Url.Percent

/-! Hosts and ports.  The host of a file may be empty, that of a network address may not, and both
are names in lower case or numbers.  Other hosts keep their spelling.  Users before the host, hosts
in brackets, and names with percent signs or characters beyond ASCII are not covered. -/

namespace JsonNav.Authority

/-- The characters that stand in no host. -/
def isForbidden (c : Char) : Bool :=
  ['\x00', '\t', '\n', '\r', ' ', '#', '/', ':', '<', '>', '?', '@', '[', '\\', ']', '^',
    '|'].contains c

/-- The characters that stand in a name. -/
def standsInName (c : Char) : Bool :=
  Percent.isPrintable c && c ≠ '%' && !isForbidden c

/-- A name in lower case. -/
def name? (cs : List Char) : Option (List Char) :=
  let name := cs.map Char.toLower
  if cs.all standsInName && Domain.isSound name then some name else none

def namedHost? (cs : List Char) : Option (List Char) := do
  let name ← name? cs
  if Ipv4.isNumbered name then (Ipv4.address? name).map Ipv4.text else some name

/-- The host of a file.  The local host need not be named. -/
def fileHost? (cs : List Char) : Option (List Char) :=
  (namedHost? cs).map fun h => if h = "localhost".toList then [] else h

/-- A host that is neither that of a file nor that of a network address. -/
def plainHost? (cs : List Char) : Option (List Char) :=
  if cs.any isForbidden then none else some (Percent.encode Percent.isPrintable cs)

/-- The number that a port's digits denote, unless there are none or it need not be written. -/
def port? (k : SchemeKind) (cs : List Char) : Option (Option Nat) :=
  match Digit.span cs with
  | ([], []) => some none
  | (ds, []) =>
    let p := Digit.value ds
    if p < UInt16.size then some (if some p = k.defaultPort? then none else some p) else none
  | _ => none

/-- The authority of a text that is not that of a file: a host, and perhaps a colon and a port.
Only a host with a name has a port. -/
def ofText? (k : SchemeKind) (cs : List Char) : Option Authority := do
  let hostText := cs.takeWhile (· ≠ ':')
  let host ← if k.isSpecial then namedHost? hostText else plainHost? hostText
  match cs.dropWhile (· ≠ ':') with
  | [] => if host = [] ∧ k.isSpecial then none else some ⟨host, none⟩
  | _ :: portText =>
    if host = [] then none
    else do
      let port ← port? k portText
      return ⟨host, port⟩

/-- The authority at the front of a text, and the text after it.  The authority ends before a slash,
and once its host has ended, also before a backslash. -/
def split (k : SchemeKind) (cs : List Char) : List Char × List Char :=
  let inHost (c : Char) : Bool := !k.isSlash c && c ≠ ':'
  let inPort (c : Char) : Bool := !SchemeKind.isAnySlash c
  let rest := cs.dropWhile inHost
  (cs.takeWhile inHost ++ rest.takeWhile inPort, rest.dropWhile inPort)

/-- The authority of a text.  That of a file is a host alone. -/
def parse? (k : SchemeKind) (cs : List Char) : Option Authority :=
  match k with
  | .file => (fileHost? cs).map fun h => ⟨h, none⟩
  | k => ofText? k cs

end JsonNav.Authority
