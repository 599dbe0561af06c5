import JsonNav.Link.Basic
import JsonNav.Text.Shown

/-! Notices: why a reference led to no link. -/

namespace JsonNav

inductive Severity where
  | debug
  | warning
  deriving DecidableEq, Repr

def Severity.name : Severity → String
  | debug => "DEBUG"
  | warning => "WARN"

/-- Why a reference has no link: it is no pointer to a node of its document, its fragment is no
pointer to a node of the file, its file cannot be placed, its file was fetched with errors, or the
fetch ended without a report. -/
inductive Notice where
  | noLocalTarget (reference uri : String)
  | unresolvedFragment (fragment uri : String)
  | cannotResolve (file uri : String)
  | failedToLoad (uri : String) (errors : List String)
  | fetchAborted
  deriving DecidableEq, Repr

namespace Notice

/-- A character as it is shown between quotes. -/
def showChar (c : Char) : String :=
  match c with
  | '"' => "\\\""
  | '\\' => "\\\\"
  | '\n' => "\\n"
  | '\r' => "\\r"
  | '\t' => "\\t"
  | '\x00' => "\\0"
  | c =>
    if Text.isShown c then c.toString
    else "\\u\x7b" ++ String.ofList (Nat.toDigits 16 c.toNat) ++ "\x7d"

/-- A text between quotes, its quotes, its backslashes and all characters that are not shown
escaped. -/
def quoted (s : String) : String :=
  "\"" ++ String.join (s.toList.map showChar) ++ "\""

def quotedList (ss : List String) : String :=
  "[" ++ ", ".intercalate (ss.map quoted) ++ "]"

/-- A fetch that ends without a report is worth a warning. -/
def severity : Notice → Severity
  | fetchAborted => .warning
  | _ => .debug

/-- The text of a notice.  Why a fetch was aborted is known to what ran the fetch, and is told after
the notice if it is given. -/
def message (n : Notice) (cause : Option String := none) : String :=
  match n with
  | noLocalTarget reference uri => "no local target for " ++ quoted reference ++ " in " ++ uri
  | unresolvedFragment fragment uri => "unresolved fragment " ++ quoted fragment ++ " in " ++ uri
  | cannotResolve file uri => "cannot resolve " ++ quoted file ++ " against " ++ uri
  | failedToLoad uri errors => uri ++ " failed to load: " ++ quotedList errors
  | fetchAborted => "reference fetch task failed" ++ (cause.map (": " ++ ·)).getD ""

end Notice

/-- What becomes of a reference: a link, or the notice of why there is none. -/
abbrev Outcome := Except Notice Link

namespace Outcome

def link? : Outcome → Option Link
  | .ok l => some l
  | .error _ => none

def notice? : Outcome → Option Notice
  | .ok _ => none
  | .error n => some n

def links (os : List Outcome) : List Link :=
  os.filterMap link?

def notices (os : List Outcome) : List Notice :=
  os.filterMap notice?

theorem length_links_add_length_notices (os : List Outcome) :
    (links os).length + (notices os).length = os.length := by
  induction os with
  | nil => rfl
  | cons o os ih =>
    cases o <;> simp_all [links, notices, link?, notice?, List.filterMap_cons] <;> omega

end Outcome

end JsonNav
