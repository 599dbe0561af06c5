import JsonNav.Proofs.Text.Bytes
import JsonNav.Tree.Reader

/-! A reader of bytes that checks each of its own steps.  It holds no text but an index into the
bytes, and it asks for a byte, for a slice or for a difference of two indices where the index says
they are, whether they are there or not.  Its loops and its recursion are given fuel.  Whatever goes
wrong in this is a `Fault`, which is no refusal of the text, and every call and every round of a
loop is written to a log. -/

namespace JsonNav

/-- What can go wrong with a reader of bytes: it asks for a byte or a slice that is not there, or
takes an index from a smaller one; what it has scanned as a number is no text or no number; or it
has not come to an end. -/
inductive Fault where
  | outOfRange
  | notText
  | notNumber
  | exhausted
  deriving DecidableEq, Repr

/-- Why a reading of bytes yields nothing. -/
inductive Stop where
  | refused (cause : ParseError)
  | faulty (fault : Fault)
  deriving DecidableEq, Repr

namespace ByteReader

inductive Routine where
  | value
  | array
  | object
  | property
  deriving DecidableEq, Repr

/-- What a reading leaves behind: that a routine was called with `depth` containers open and the
index `start`, and what it returned, a node and the index after it; or that the loop of a container
went from one index to the next. -/
inductive Event where
  | call (routine : Routine) (depth start : Nat) (result : Option (Tree × Nat))
  | round (start next : Nat)

/-- A reading that may stop, and that keeps its log even then. -/
abbrev Logged := ExceptT Stop (StateM (List Event))

variable (data : List UInt8)

/-! ### Single steps -/

def refuse {α : Type} (cause : ParseError) : Except Stop α :=
  .error (.refused cause)

def fail {α : Type} (fault : Fault) : Except Stop α :=
  .error (.faulty fault)

def byteAt (x : Nat) : Except Stop UInt8 :=
  match data[x]? with
  | some b => .ok b
  | none => fail .outOfRange

def slice (start stop : Nat) : Except Stop (List UInt8) :=
  if start ≤ stop ∧ stop ≤ data.length then .ok ((data.drop start).take (stop - start))
  else fail .outOfRange

def difference (x y : Nat) : Except Stop Nat :=
  if y ≤ x then .ok (x - y) else fail .outOfRange

def peek (x : Nat) : Except Stop UInt8 :=
  match data[x]? with
  | some b => .ok b
  | none => refuse .unfinished

/-- The index after the bytes from `x` on that pass a test. -/
def skipWhile (p : UInt8 → Bool) (x : Nat) : Except Stop Nat :=
  if h : x < data.length then do
    if p (← byteAt data x) then skipWhile p (x + 1) else return x
  else return x
termination_by data.length - x
decreasing_by omega

/-- The index after the byte at `x`, if it passes a test. -/
def skipIf (p : UInt8 → Bool) (x : Nat) : Except Stop Nat :=
  if x < data.length then do
    if p (← byteAt data x) then return x + 1 else return x
  else return x

def isBlank (b : UInt8) : Bool :=
  b = ' '.toUInt8 || b = '\t'.toUInt8 || b = '\n'.toUInt8 || b = '\r'.toUInt8

def skipBlanks (x : Nat) : Except Stop Nat :=
  skipWhile data isBlank x

/-- The text of some bytes in UTF-8. -/
def text? (bs : List UInt8) : Option (List Char) :=
  bs.toByteArray.utf8Decode?.map Array.toList

/-! ### Literals -/

def isDigit (b : UInt8) : Bool :=
  '0'.toUInt8 ≤ b && b ≤ '9'.toUInt8

/-- The index after the digits at `x`, which must not be missing.  The literal began at `start`. -/
def digitsEnd (start x : Nat) : Except Stop Nat := do
  let stop ← skipWhile data isDigit x
  if stop = x then refuse (.malformedNumber start) else return stop

def wholeEnd (start x : Nat) : Except Stop Nat := do
  let stop ← skipWhile data isDigit x
  let length ← difference stop x
  if length = 0 then refuse (.malformedNumber start)
  else if 1 < length then do
    if (← byteAt data x) = '0'.toUInt8 then refuse (.malformedNumber start) else return stop
  else return stop

def fractionEnd (start x : Nat) : Except Stop Nat := do
  let next ← skipIf data (· = '.'.toUInt8) x
  if next = x then return x else digitsEnd data start next

def exponentEnd (start x : Nat) : Except Stop Nat := do
  let next ← skipIf data (fun b => b = 'e'.toUInt8 || b = 'E'.toUInt8) x
  if next = x then return x
  else do
    let first ← skipIf data (fun b => b = '+'.toUInt8 || b = '-'.toUInt8) next
    digitsEnd data start first

/-- The index after the number literal at `start`. -/
def numberEnd (start : Nat) : Except Stop Nat := do
  let x ← skipIf data (· = '-'.toUInt8) start
  let x ← wholeEnd data start x
  let x ← fractionEnd data start x
  exponentEnd data start x

/-- A number literal.  What has been scanned is made a text, and the text is made a number by
`double?`, which is not part of the reader. -/
def number (double? : List Char → Option Binary64) (start : Nat) : Except Stop (Tree × Nat) := do
  let stop ← numberEnd data start
  let bs ← slice data start stop
  match text? bs with
  | none => fail .notText
  | some cs =>
    match double? cs with
    | none => fail .notNumber
    | some d =>
      let length ← difference stop start
      return (.number ⟨start, length⟩ d, stop)

/-- The index of the quote that ends a body.  The byte after a backslash is skipped, so the index
may come to lie past the end. -/
def endingQuote (x : Nat) : Except Stop Nat :=
  if h : x < data.length then do
    let b ← byteAt data x
    if b = '"'.toUInt8 then return x
    else if b = '\\'.toUInt8 then endingQuote (x + 2)
    else if b < 0x20 then refuse (.malformedString x)
    else endingQuote (x + 1)
  else refuse .unfinished
termination_by data.length - x
decreasing_by all_goals omega

/-- What a body denotes.  A body without a backslash is copied. -/
def bodyText? (body : List UInt8) : Option String :=
  if '\\'.toUInt8 ∈ body then (text? body).bind Literals.standard.string?
  else (text? body).map String.ofList

def string (start : Nat) : Except Stop (Tree × Nat) := do
  let stop ← endingQuote data (start + 1)
  let body ← slice data (start + 1) stop
  match bodyText? body with
  | none => refuse (.malformedString start)
  | some s =>
    let length ← difference (stop + 1) start
    return (.string ⟨start, length⟩ s, stop + 1)

def word (w : List Char) (node : Span → Tree) (start : Nat) : Except Stop (Tree × Nat) := do
  let stop := start + (Text.bytes w).length
  if data.length < stop then refuse .unfinished
  else do
    if (← slice data start stop) = Text.bytes w then
      return (node ⟨start, (Text.bytes w).length⟩, stop)
    else refuse (.misplaced start)

/-! ### Routines -/

def note (e : Event) : Logged Unit :=
  modify (· ++ [e])

/-- A routine that writes to the log what it returns. -/
def logged (routine : Routine) (depth start : Nat) (m : Logged (Tree × Nat)) :
    Logged (Tree × Nat) := ExceptT.mk do
  let result ← m.run
  modify (· ++ [.call routine depth start result.toOption])
  return result

/-- Where the next item of a container begins, if `b` at `here` does not close the container.  The
first item begins there.  Before the others there is a comma, and `settle` finds where they begin
after it. -/
def itemStart (settle : Nat → Except Stop Nat) (first : Bool) (b : UInt8) (here : Nat) :
    Except Stop Nat :=
  if first then return here
  else if b = ','.toUInt8 then settle (here + 1)
  else refuse (.misplaced here)

/-- The rest of the loop of a container, with the items that have been read.  Each round reads one
more.  The loop yields the index after the closing bracket. -/
def rounds (close : Char) (settle : Nat → Except Stop Nat) (item : Nat → Logged (Tree × Nat)) :
    (fuel : Nat) → List Tree → Nat → Logged (List Tree × Nat)
  | 0, _, _ => fail .exhausted
  | fuel + 1, read, x => do
    let here ← skipBlanks data x
    let b ← peek data here
    if b = close.toUInt8 then return (read, here + 1)
    else
      let start ← itemStart settle read.isEmpty b here
      let (n, next) ← item start
      note (.round x next)
      rounds close settle item fuel (read ++ [n]) next

/-- The inside of a container whose bracket stands at `start`, where `depth` counts the container.
-/
def container (close : Char) (settle : Nat → Except Stop Nat) (node : Span → List Tree → Tree)
    (item : Nat → Logged (Tree × Nat)) (fuel depth start : Nat) : Logged (Tree × Nat) := do
  if Tree.maxDepth < depth then refuse (.tooDeep start)
  else
    let (items, stop) ← rounds data close settle item fuel [] (start + 1)
    let length ← difference stop start
    return (node ⟨start, length⟩ items, stop)

/-- The rest of a property, after its key. -/
def afterKey (value : Nat → Logged (Tree × Nat)) (key : Tree) (x : Nat) : Logged (Tree × Nat) := do
  let here ← skipBlanks data x
  if (← peek data here) ≠ ':'.toUInt8 then refuse (.misplaced here)
  else
    let (v, stop) ← value (here + 1)
    let length ← difference v.stop key.offset
    return (.property ⟨key.offset, length⟩ key (some v), stop)

def property (value : Nat → Logged (Tree × Nat)) (start : Nat) : Logged (Tree × Nat) := do
  if (← peek data start) ≠ '"'.toUInt8 then refuse (.misplaced start)
  else
    let (key, x) ← string data start
    afterKey data value key x

/-- The value that begins at `x`, with `depth` containers open around it, whose items are read by
`inner`. -/
def valueAt (double? : List Char → Option Binary64) (inner : Nat → Logged (Tree × Nat))
    (fuel depth x : Nat) : Logged (Tree × Nat) := do
  let b ← peek data x
  if b = '"'.toUInt8 then string data x
  else if b = '{'.toUInt8 then
    let item y := logged .property (depth + 1) y (property data inner y)
    logged .object (depth + 1) x
      (container data '}' (skipBlanks data) .object item fuel (depth + 1) x)
  else if b = '['.toUInt8 then
    logged .array (depth + 1) x (container data ']' pure .array inner fuel (depth + 1) x)
  else if b = 't'.toUInt8 then word data ['t', 'r', 'u', 'e'] (.boolean · true) x
  else if b = 'f'.toUInt8 then word data ['f', 'a', 'l', 's', 'e'] (.boolean · false) x
  else if b = 'n'.toUInt8 then word data ['n', 'u', 'l', 'l'] .null x
  else if b = '-'.toUInt8 || isDigit b then number data double? x
  else refuse (.misplaced x)

/-- A value at `start` or after blanks. -/
def value (double? : List Char → Option Binary64) : (fuel depth start : Nat) → Logged (Tree × Nat)
  | 0, _, _ => fail .exhausted
  | fuel + 1, depth, start => logged .value depth start do
    let x ← skipBlanks data start
    valueAt data double? (value double? fuel (depth + 1)) fuel depth x

/-- The tree of a whole text.  The fuel is one more than the bytes there are. -/
def parse (double? : List Char → Option Binary64) : Logged Tree := do
  let (root, x) ← value data double? (data.length + 1) 0 0
  let here ← skipBlanks data x
  if here < data.length then refuse (.trailing here) else return root

end ByteReader

end JsonNav
