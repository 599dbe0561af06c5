import JsonNav.Data
import JsonNav.Link.Basic

/-! Positions, ranges and links as records of data, as this library reads and writes them. -/

namespace JsonNav

namespace Position

def ofData? (x : Data) : Option Position :=
  match Data.fields? ["line", "character"] x with
  | some [some line, some column] => do
    let line ← Data.word? line
    let column ← Data.word? column
    return ⟨line, column⟩
  | _ => none

def encode (p : Position) : List Char :=
  objectText [("line", (Nat.repr p.line.toNat).toList),
    ("character", (Nat.repr p.column.toNat).toList)]

def decode? (s : String) : Option Position :=
  Data.parse? s >>= ofData?

end Position

namespace Range

def ofData? (x : Data) : Option Range :=
  match Data.fields? ["start", "end"] x with
  | some [some start, some stop] => do
    let start ← Position.ofData? start
    let stop ← Position.ofData? stop
    return ⟨start, stop⟩
  | _ => none

def encode (r : Range) : List Char :=
  objectText [("start", r.start.encode), ("end", r.stop.encode)]

def decode? (s : String) : Option Range :=
  Data.parse? s >>= ofData?

end Range

namespace Link

/-- A link lacks its target if the field is missing or null. -/
def ofData? (x : Data) : Option Link :=
  match Data.fields? ["target", "range"] x with
  | some [target, some range] => do
    let target ← (target.map Data.optionalText?).getD (some none)
    let range ← Range.ofData? range
    return ⟨range, target⟩
  | _ => none

/-- A link without target is written without the field. -/
def encode (l : Link) : List Char :=
  objectText ((l.target.map fun t => ("target", Text.Quoted.quote t)).toList ++
    [("range", l.range.encode)])

def decode? (s : String) : Option Link :=
  Data.parse? s >>= ofData?

end Link

end JsonNav
