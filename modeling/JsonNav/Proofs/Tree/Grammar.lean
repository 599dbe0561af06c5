import JsonNav.Proofs.Text.Spelling
import JsonNav.Text.Width
import JsonNav.Tree.Reader

/-! The grammar of texts and the trees that its derivations build.  A rule relates a text, the byte
offset at which it begins, and the node that it is read as, whose span is then that text.  What
string bodies and number literals stand for is a parameter, as it is for the readers.  The grammar
knows no limit to nesting; `Node.openings` lists the brackets that open in a tree, with their
depths. -/

namespace JsonNav

open Text (byteLength)

variable {α σ ν : Type}

/-- Which values string bodies and number literals stand for. -/
structure Meaning (σ ν : Type) where
  string : List Char → σ → Prop
  number : Numeral → ν → Prop

namespace Grammar

/-- Space, tab, line feed and carriage return may stand between the parts of a text. -/
def Blanks (cs : List Char) : Prop :=
  ∀ c ∈ cs, c ∈ [' ', '\t', '\n', '\r']

theorem blanks_nil : Blanks [] := by
  simp [Blanks]

theorem Blanks.append {ws ws' : List Char} (h : Blanks ws) (h' : Blanks ws') :
    Blanks (ws ++ ws') := by
  intro c hc
  exact (List.mem_append.mp hc).elim (h c) (h' c)

/-- What follows an item in a container: the closing bracket, or a comma and more items. -/
inductive Others (P : List Char → Nat → α → Prop) (close : Char) :
    List Char → Nat → List α → Prop
  | done {ws : List Char} {o : Nat} : Blanks ws → Others P close (ws ++ [close]) o []
  | more {ws ws' cs rest : List Char} {o : Nat} {a : α} {as : List α} : Blanks ws → Blanks ws' →
      P cs (o + byteLength (ws ++ ',' :: ws')) a →
      Others P close rest (o + byteLength (ws ++ ',' :: ws' ++ cs)) as →
      Others P close (ws ++ ',' :: ws' ++ cs ++ rest) o (a :: as)

/-- What follows the opening bracket of a container: the closing bracket, or items with commas
between them. -/
inductive Contents (P : List Char → Nat → α → Prop) (close : Char) :
    List Char → Nat → List α → Prop
  | empty {ws : List Char} {o : Nat} : Blanks ws → Contents P close (ws ++ [close]) o []
  | items {ws cs rest : List Char} {o : Nat} {a : α} {as : List α} : Blanks ws →
      P cs (o + byteLength ws) a → Others P close rest (o + byteLength (ws ++ cs)) as →
      Contents P close (ws ++ cs ++ rest) o (a :: as)

/-- A string literal. -/
inductive Quote (m : Meaning σ ν) : List Char → Nat → Node σ ν → Prop
  | mk {body : List Char} {o : Nat} {x : σ} : m.string body x →
      Quote m ('"' :: (body ++ ['"'])) o (.string ⟨o, byteLength ('"' :: (body ++ ['"']))⟩ x)

/-- A key, a colon and a value.  The property begins with its key and ends with its value. -/
inductive Property (m : Meaning σ ν) (P : List Char → Nat → Node σ ν → Prop) :
    List Char → Nat → Node σ ν → Prop
  | mk {key ws ws' cs : List Char} {o : Nat} {k v : Node σ ν} : Quote m key o k → Blanks ws →
      Blanks ws' → P cs (o + byteLength (key ++ ws ++ ':' :: ws')) v →
      Property m P (key ++ ws ++ ':' :: ws' ++ cs) o
        (.property ⟨o, byteLength (key ++ ws ++ ':' :: ws' ++ cs)⟩ k (some v))

/-- A value without the blanks around it. -/
inductive Value (m : Meaning σ ν) : List Char → Nat → Node σ ν → Prop
  | string {cs : List Char} {o : Nat} {n : Node σ ν} : Quote m cs o n → Value m cs o n
  | number {n : Numeral} {o : Nat} {x : ν} : m.number n x →
      Value m n.text o (.number ⟨o, byteLength n.text⟩ x)
  | trueWord {o : Nat} : Value m ['t', 'r', 'u', 'e'] o (.boolean ⟨o, 4⟩ true)
  | falseWord {o : Nat} : Value m ['f', 'a', 'l', 's', 'e'] o (.boolean ⟨o, 5⟩ false)
  | nullWord {o : Nat} : Value m ['n', 'u', 'l', 'l'] o (.null ⟨o, 4⟩)
  | array {cs : List Char} {o : Nat} {ns : List (Node σ ν)} :
      Contents (Value m) ']' cs (o + 1) ns →
      Value m ('[' :: cs) o (.array ⟨o, byteLength ('[' :: cs)⟩ ns)
  | object {cs : List Char} {o : Nat} {ns : List (Node σ ν)} :
      Contents (Property m (Value m)) '}' cs (o + 1) ns →
      Value m ('{' :: cs) o (.object ⟨o, byteLength ('{' :: cs)⟩ ns)

/-- A whole text: a value with blanks around it. -/
inductive Text (m : Meaning σ ν) : List Char → Node σ ν → Prop
  | mk {ws cs ws' : List Char} {n : Node σ ν} : Blanks ws → Value m cs (byteLength ws) n →
      Blanks ws' → Text m (ws ++ cs ++ ws') n

theorem Value.text {m : Meaning σ ν} {cs : List Char} {n : Node σ ν} (h : Value m cs 0 n) :
    Text m cs n := by
  have htext : Text m ([] ++ cs ++ []) n := .mk blanks_nil h blanks_nil
  rwa [List.append_nil, List.nil_append] at htext

/-! ### Lists of items -/

theorem Others.mono {P Q : List Char → Nat → α → Prop} {close : Char}
    (hPQ : ∀ {cs o a}, P cs o a → Q cs o a) {cs : List Char} {o : Nat} {as : List α}
    (h : Others P close cs o as) : Others Q close cs o as := by
  induction h with
  | done hws => exact .done hws
  | more hws hws' ha _ ih => exact .more hws hws' (hPQ ha) ih

theorem Contents.mono {P Q : List Char → Nat → α → Prop} {close : Char}
    (hPQ : ∀ {cs o a}, P cs o a → Q cs o a) {cs : List Char} {o : Nat} {as : List α}
    (h : Contents P close cs o as) : Contents Q close cs o as := by
  cases h with
  | empty hws => exact .empty hws
  | items hws ha has => exact .items hws (hPQ ha) (has.mono hPQ)

theorem Property.mono {m : Meaning σ ν} {P Q : List Char → Nat → Node σ ν → Prop}
    (hPQ : ∀ {cs o n}, P cs o n → Q cs o n) {cs : List Char} {o : Nat} {n : Node σ ν}
    (h : Property m P cs o n) : Property m Q cs o n := by
  cases h with
  | mk hk hws hws' hv => exact .mk hk hws hws' (hPQ hv)

/-- To prove a property of all values, prove it of a container from that of its items. -/
theorem Value.induct {m : Meaning σ ν} {motive : List Char → Nat → Node σ ν → Prop}
    (string : ∀ {cs o n}, Quote m cs o n → motive cs o n)
    (number : ∀ {n o x}, m.number n x → motive n.text o (.number ⟨o, byteLength n.text⟩ x))
    (trueWord : ∀ {o}, motive ['t', 'r', 'u', 'e'] o (.boolean ⟨o, 4⟩ true))
    (falseWord : ∀ {o}, motive ['f', 'a', 'l', 's', 'e'] o (.boolean ⟨o, 5⟩ false))
    (nullWord : ∀ {o}, motive ['n', 'u', 'l', 'l'] o (.null ⟨o, 4⟩))
    (array : ∀ {cs o ns},
      Contents (fun cs o n => Value m cs o n ∧ motive cs o n) ']' cs (o + 1) ns →
      motive ('[' :: cs) o (.array ⟨o, byteLength ('[' :: cs)⟩ ns))
    (object : ∀ {cs o ns},
      Contents (Property m fun cs o n => Value m cs o n ∧ motive cs o n) '}' cs (o + 1) ns →
      motive ('{' :: cs) o (.object ⟨o, byteLength ('{' :: cs)⟩ ns))
    {cs : List Char} {o : Nat} {n : Node σ ν} (h : Value m cs o n) : motive cs o n := by
  let Q := fun cs o n => Value m cs o n ∧ motive cs o n
  refine @Value.rec σ ν m (fun cs o n _ => motive cs o n) (fun cs o ns _ => Contents Q ']' cs o ns)
    (fun cs o ns _ => Contents (Property m Q) '}' cs o ns) (fun cs o ns _ => Others Q ']' cs o ns)
    (fun cs o n _ => Property m Q cs o n) (fun cs o ns _ => Others (Property m Q) '}' cs o ns)
    ?string ?number ?trueWord ?falseWord ?nullWord ?array ?object ?empty ?items ?noProperty
    ?properties ?done ?more ?property ?lastProperty ?moreProperties _ _ _ h
  case string => exact fun h => string h
  case number => exact fun h => number h
  case trueWord => exact fun {_} => trueWord
  case falseWord => exact fun {_} => falseWord
  case nullWord => exact fun {_} => nullWord
  case array => exact fun _ ih => array ih
  case object => exact fun _ ih => object ih
  case empty => exact fun hws => .empty hws
  case items => exact fun hws ha _ iha ih => .items hws ⟨ha, iha⟩ ih
  case noProperty => exact fun hws => .empty hws
  case properties => exact fun hws _ _ iha ih => .items hws iha ih
  case done => exact fun hws => .done hws
  case more => exact fun hws hws' ha _ iha ih => .more hws hws' ⟨ha, iha⟩ ih
  case property => exact fun hk hws hws' hv ihv => .mk hk hws hws' ⟨hv, ihv⟩
  case lastProperty => exact fun hws => .done hws
  case moreProperties => exact fun hws hws' _ _ iha ih => .more hws hws' iha ih

/-! ### Spans -/

theorem Quote.span {m : Meaning σ ν} {cs : List Char} {o : Nat} {n : Node σ ν}
    (h : Quote m cs o n) : n.span = ⟨o, byteLength cs⟩ := by
  cases h with
  | mk => rfl

theorem Property.span {m : Meaning σ ν} {P : List Char → Nat → Node σ ν → Prop} {cs : List Char}
    {o : Nat} {n : Node σ ν} (h : Property m P cs o n) : n.span = ⟨o, byteLength cs⟩ := by
  cases h with
  | mk => rfl

/-- The span of a value is the text that it was derived from. -/
theorem Value.span {m : Meaning σ ν} {cs : List Char} {o : Nat} {n : Node σ ν}
    (h : Value m cs o n) : n.span = ⟨o, byteLength cs⟩ := by
  cases h with
  | string h => exact h.span
  | _ => rfl

end Grammar

/-! ### Opening brackets -/

/-- The opening bracket of a container: its byte offset, and how many containers are open after it.
-/
structure Opening where
  offset : Nat
  depth : Nat
  deriving DecidableEq, Repr

namespace Node

mutual

/-- The opening brackets of a tree in the order of the text, where `outer` containers are open
around the tree. -/
def openings (outer : Nat) : Node σ ν → List Opening
  | object s ps => ⟨s.offset, outer + 1⟩ :: openingsAll (outer + 1) ps
  | array s items => ⟨s.offset, outer + 1⟩ :: openingsAll (outer + 1) items
  | property _ k none => openings outer k
  | property _ k (some v) => openings outer k ++ openings outer v
  | string .. | number .. | boolean .. | null .. => []

/-- The opening brackets of trees, one tree after the other. -/
def openingsAll (outer : Nat) : List (Node σ ν) → List Opening
  | [] => []
  | n :: ns => openings outer n ++ openingsAll outer ns

end

theorem openingsAll_eq_flatMap (outer : Nat) (ns : List (Node σ ν)) :
    openingsAll outer ns = ns.flatMap (openings outer) := by
  induction ns with
  | nil => rfl
  | cons n ns ih => rw [openingsAll, ih, List.flatMap_cons]

mutual

/-- Depths grow one by one: if no bracket of a tree has the depth `limit + 1`, none is deeper. -/
theorem depth_le_of_openings {outer limit : Nat} (hle : outer ≤ limit) :
    (n : Node σ ν) → (∀ b ∈ n.openings outer, b.depth ≠ limit + 1) →
      ∀ b ∈ n.openings outer, b.depth ≤ limit
  | object s ps, h => depth_le_of_openings_cons hle ps h
  | array s items, h => depth_le_of_openings_cons hle items h
  | property _ k none, h => depth_le_of_openings hle k h
  | property _ k (some v), h => by
    simp only [openings, List.mem_append] at h ⊢
    rintro b (hb | hb)
    · exact depth_le_of_openings hle k (fun b hb => h b (.inl hb)) b hb
    · exact depth_le_of_openings hle v (fun b hb => h b (.inr hb)) b hb
  | string .., _ | number .., _ | boolean .., _ | null .., _ => by simp [openings]

theorem depth_le_of_openingsAll {outer limit : Nat} (hle : outer ≤ limit) :
    (ns : List (Node σ ν)) → (∀ b ∈ openingsAll outer ns, b.depth ≠ limit + 1) →
      ∀ b ∈ openingsAll outer ns, b.depth ≤ limit
  | [], _ => by simp [openingsAll]
  | n :: ns, h => by
    simp only [openingsAll, List.mem_append] at h ⊢
    rintro b (hb | hb)
    · exact depth_le_of_openings hle n (fun b hb => h b (.inl hb)) b hb
    · exact depth_le_of_openingsAll hle ns (fun b hb => h b (.inr hb)) b hb

theorem depth_le_of_openings_cons {o outer limit : Nat} (hle : outer ≤ limit)
    (ns : List (Node σ ν))
    (h : ∀ b ∈ (⟨o, outer + 1⟩ : Opening) :: openingsAll (outer + 1) ns, b.depth ≠ limit + 1) :
    ∀ b ∈ (⟨o, outer + 1⟩ : Opening) :: openingsAll (outer + 1) ns, b.depth ≤ limit := by
  have hhead := h _ (List.mem_cons_self ..)
  have hlt : outer + 1 ≤ limit := by simp only at hhead; omega
  rintro b (_ | ⟨_, hb⟩)
  · exact hlt
  · exact depth_le_of_openingsAll hlt ns (fun b hb => h b (List.mem_cons_of_mem _ hb)) b hb

end

end Node

/-- Brackets nest to any depth, each pair one deeper than the pair around it. -/
theorem Grammar.exists_value_brackets (m : Meaning σ ν) (n o outer : Nat) :
    ∃ t, Value m (List.replicate (n + 1) '[' ++ List.replicate (n + 1) ']') o t ∧
      t.openings outer = (List.range (n + 1)).map fun i => ⟨o + i, outer + i + 1⟩ := by
  induction n generalizing o outer with
  | zero =>
    have hcontents : Contents (Value m) ']' ([] ++ [']']) (o + 1) [] := .empty blanks_nil
    exact ⟨_, .array hcontents, rfl⟩
  | succ n ih =>
    obtain ⟨t, ht, hopenings⟩ := ih (o + 1) (outer + 1)
    let inner := List.replicate (n + 1) '[' ++ List.replicate (n + 1) ']'
    have hcontents : Contents (Value m) ']' ([] ++ inner ++ ([] ++ [']'])) (o + 1) [t] :=
      .items blanks_nil ht (.done blanks_nil)
    have htext : List.replicate (n + 2) '[' ++ List.replicate (n + 2) ']' =
        '[' :: (inner ++ [']']) := by
      rw [List.replicate_succ, List.replicate_succ' (n := n + 1), List.cons_append,
        ← List.append_assoc]
    refine ⟨.array ⟨o, byteLength ('[' :: (inner ++ [']']))⟩ [t], ?value, ?openings⟩
    case value =>
      rw [htext]
      exact .array hcontents
    case openings =>
      rw [Node.openings, Node.openingsAll, hopenings, Node.openingsAll, List.append_nil,
        List.range_succ_eq_map (n := n + 1), List.map_cons, List.map_map]
      refine congrArg _ (List.map_congr_left fun i _ => ?_)
      simp only [Function.comp_apply]
      congr 1 <;> omega

end JsonNav
