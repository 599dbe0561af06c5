import JsonNav.Data
import JsonNav.Proofs.Tree.Parse
import JsonNav.Proofs.Tree.Shape

/-! The texts of data.  A text is read as data if the grammar derives it, however deep it nests: no
bracket is deeper than the text is long.  A string in it need not spell a text, and a number stands
for its own literal. -/

namespace JsonNav

variable {α σ ν : Type}

namespace Grammar

variable {P : List Char → Nat → α → Prop} {m : Meaning σ ν} {close : Char} {cs : List Char}
  {o : Nat} {n : Node σ ν}

/-- The texts of the items are parts of the text. -/
theorem Others.forall_mem_length {as : List α} (h : Others P close cs o as) :
    ∀ a ∈ as, ∃ ds o, P ds o a ∧ ds.length ≤ cs.length := by
  induction h with
  | done => simp
  | more _ _ ha _ ih =>
    rintro a (_ | ⟨_, hmem⟩)
    · exact ⟨_, _, ha, by simp; omega⟩
    · obtain ⟨ds, o, hds, hle⟩ := ih a hmem
      exact ⟨ds, o, hds, by simp; omega⟩

theorem Contents.forall_mem_length {as : List α} (h : Contents P close cs o as) :
    ∀ a ∈ as, ∃ ds o, P ds o a ∧ ds.length ≤ cs.length := by
  cases h with
  | empty => simp
  | items _ ha has =>
    rintro a (_ | ⟨_, hmem⟩)
    · exact ⟨_, _, ha, by simp; omega⟩
    · obtain ⟨ds, o, hds, hle⟩ := has.forall_mem_length a hmem
      exact ⟨ds, o, hds, by simp; omega⟩

/-- The brackets of the items of a container are no deeper than its text is long. -/
theorem Contents.depth_le_length {Q : List Char → Nat → Node σ ν → Prop} {outer : Nat}
    {ns : List (Node σ ν)}
    (hQ : ∀ {cs o n}, Q cs o n → ∀ b ∈ n.openings outer, b.depth ≤ outer + cs.length)
    (h : Contents Q close cs o ns) :
    ∀ b ∈ Node.openingsAll outer ns, b.depth ≤ outer + cs.length := by
  intro b hb
  rw [Node.openingsAll_eq_flatMap] at hb
  obtain ⟨n, hn, hb⟩ := List.mem_flatMap.mp hb
  obtain ⟨ds, o, hds, hle⟩ := h.forall_mem_length n hn
  exact Nat.le_trans (hQ hds b hb) (Nat.add_le_add_left hle outer)

theorem Property.depth_le_length {Q : List Char → Nat → Node σ ν → Prop} {outer : Nat}
    (hQ : ∀ {cs o n}, Q cs o n → ∀ b ∈ n.openings outer, b.depth ≤ outer + cs.length)
    (h : Property m Q cs o n) : ∀ b ∈ n.openings outer, b.depth ≤ outer + cs.length := by
  cases h with
  | mk hkey _ _ hv =>
    cases hkey with
    | mk =>
      intro b hb
      have hle := hQ hv b (by simpa [Node.openings] using hb)
      simp only [List.length_append]
      omega

theorem Value.depth_le_length (h : Value m cs o n) :
    ∀ outer, ∀ b ∈ n.openings outer, b.depth ≤ outer + cs.length := by
  have hcons {o outer length : Nat} {ns : List (Node σ ν)}
      (h : ∀ b ∈ Node.openingsAll (outer + 1) ns, b.depth ≤ outer + 1 + length) :
      ∀ b ∈ (⟨o, outer + 1⟩ : Opening) :: Node.openingsAll (outer + 1) ns,
        b.depth ≤ outer + (length + 1) := by
    rintro b (_ | ⟨_, hb⟩)
    · simp only
      omega
    · have := h b hb
      omega
  refine Value.induct
    (motive := fun cs _ n => ∀ outer, ∀ b ∈ n.openings outer, b.depth ≤ outer + cs.length)
    ?string ?number ?trueWord ?falseWord ?nullWord ?array ?object h
  case string =>
    intro cs o n h
    cases h with
    | mk => simp [Node.openings]
  case number => exact fun {_ _ _} _ => by simp [Node.openings]
  case trueWord => simp [Node.openings]
  case falseWord => simp [Node.openings]
  case nullWord => simp [Node.openings]
  case array =>
    intro cs o ns h outer
    exact hcons (h.depth_le_length fun hn => hn.2 (outer + 1))
  case object =>
    intro cs o ns h outer
    exact hcons (h.depth_le_length fun hp => hp.depth_le_length fun hv => hv.2 (outer + 1))

theorem Text.depth_le_length (h : Text m cs n) : ∀ b ∈ n.openings 0, b.depth ≤ cs.length := by
  cases h with
  | mk _ hvalue _ =>
    intro b hb
    have := hvalue.depth_le_length 0 b hb
    simp only [List.length_append]
    omega

end Grammar

namespace Data

open Text.Quoted (Escaped Spells)

/-- A string body stands for what it spells, or for no text if it spells nothing, and a number
literal for itself. -/
def meaning : Meaning (Option String) Numeral where
  string body x := Escaped body ∧ ∀ s, x = some s ↔ Spells body s.toList
  number n x := x = n

theorem string?_literals {body : List Char} {ps : List Text.Quoted.Piece}
    (h : Text.Quoted.pieces? body = some ps) :
    literals.string? body = some ((Text.Quoted.decode? body).map String.ofList) := by
  rw [Text.Quoted.decode?, h]
  show (Text.Quoted.pieces? body).map _ = _
  rw [h]
  rfl

theorem fits_literals : literals.Fits meaning where
  string {body x} := by
    have hspells (s : String) :
        (Text.Quoted.decode? body).map String.ofList = some s ↔ Spells body s.toList := by
      rw [← Text.Quoted.decode?_eq_some_iff, Option.map_eq_some_iff]
      constructor
      · rintro ⟨cs, hcs, rfl⟩
        simpa using hcs
      · intro h
        exact ⟨s.toList, h, by simp⟩
    constructor
    · rintro ⟨hescaped, hx⟩
      obtain ⟨ps, hps⟩ := Text.Quoted.exists_pieces?_of_escaped hescaped
      refine ⟨hescaped.body, ?_⟩
      rw [string?_literals hps]
      exact congrArg some (Option.ext fun s => (hspells s).trans (hx s).symm)
    · rintro ⟨-, hx⟩
      obtain ⟨ps, hps, -⟩ := Option.map_eq_some_iff.mp hx
      rw [string?_literals hps] at hx
      obtain rfl := Option.some.inj hx
      exact ⟨Text.Quoted.escaped_of_pieces? hps, hspells⟩
  number := Iff.rfl

/-- The texts that are read as data are the texts of the grammar. -/
theorem parse?_eq_some_iff {s : String} {x : Data} :
    parse? s = some x ↔ Grammar.Text meaning s.toList x := by
  unfold parse?
  rw [← String.length_toList]
  constructor
  · intro h
    cases htext : Reader.text literals s.toList.length s.toList with
    | error e => rw [htext] at h; exact nomatch h
    | ok y =>
      rw [htext] at h
      obtain rfl := Option.some.inj h
      exact Reader.text_of_eq_ok fits_literals htext
  · intro h
    rw [Reader.text_eq_verdict fits_literals _ h, verdict_eq_ok h.depth_le_length]
    rfl

end Data

end JsonNav
