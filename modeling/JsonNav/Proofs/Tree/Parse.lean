import JsonNav.Proofs.Number.Rounding
import JsonNav.Proofs.Tree.Order

/-! `Tree.parse` reads exactly the texts that the grammar derives with at most `maxDepth` containers
inside one another, each as the tree of its derivation, and refuses a derived text that nests deeper
at the first bracket that does. -/

namespace JsonNav

/-- A string body stands for what it spells, and a number literal for the nearest number. -/
def Meaning.standard : Meaning String Binary64 where
  string body s := Text.Quoted.Spells body s.toList
  number := Binary64.Rounds

theorem Literals.fits_standard : Literals.standard.Fits .standard where
  string {body x} := by
    simp only [Meaning.standard, Literals.standard, Option.map_eq_some_iff]
    constructor
    · intro h
      refine ⟨h.body, x.toList, Text.Quoted.decode?_eq_some_iff.mpr h, ?_⟩
      simp
    · rintro ⟨-, s, hs, rfl⟩
      simpa using Text.Quoted.decode?_eq_some_iff.mp hs
  number := Binary64.rounds_iff

namespace Tree

open Node (openings)

/-- A text of the grammar is read as its tree, or refused for its first bracket that is too deep. -/
theorem parse_eq_verdict {cs : List Char} {t : Tree} (h : Grammar.Text .standard cs t) :
    parse cs = verdict maxDepth (t.openings 0) t :=
  Reader.text_eq_verdict Literals.fits_standard maxDepth h

theorem text_of_parse {cs : List Char} {t : Tree} (h : parse cs = .ok t) :
    Grammar.Text .standard cs t :=
  Reader.text_of_eq_ok Literals.fits_standard h

theorem depth_le_of_verdict {limit : Nat} {t u : Tree}
    (h : verdict limit (t.openings 0) t = .ok u) :
    ∀ b ∈ t.openings 0, b.depth ≤ limit := by
  refine Node.depth_le_of_openings (Nat.zero_le limit) t ?_
  unfold verdict at h
  split at h
  next hnone =>
    intro b hb
    simpa using List.find?_eq_none.mp hnone b hb
  next => exact nomatch h

/-- The error for a text that nests too deep names the first of the brackets that are one level too
deep. -/
theorem exists_tooDeep {cs : List Char} {t : Tree} (h : Grammar.Text .standard cs t) {limit : Nat}
    (hdeep : ∃ b ∈ t.openings 0, limit < b.depth) :
    ∃ b ∈ t.openings 0, b.depth = limit + 1 ∧
      (∀ b' ∈ t.openings 0, b'.depth = limit + 1 → b.offset ≤ b'.offset) ∧
      verdict limit (t.openings 0) t = .error (.tooDeep b.offset) := by
  cases hfind : (t.openings 0).find? (·.depth = limit + 1) with
  | none =>
    have hok : verdict limit (t.openings 0) t = .ok t := by
      rw [verdict, hfind]
    obtain ⟨b, hb, hlt⟩ := hdeep
    exact absurd (depth_le_of_verdict hok b hb) (Nat.not_le_of_lt hlt)
  | some b =>
    obtain ⟨hb, before, after, hsplit, hbefore⟩ := List.find?_eq_some_iff_append.mp hfind
    have hsorted := h.sorted_openings
    rw [hsplit, List.pairwise_append, List.pairwise_cons] at hsorted
    obtain ⟨-, ⟨hafter, -⟩, -⟩ := hsorted
    refine ⟨b, by simp [hsplit], by simpa using hb, ?_, by rw [verdict, hfind]⟩
    intro b' hmem hdepth
    rw [hsplit, List.mem_append, List.mem_cons] at hmem
    rcases hmem with hmem | rfl | hmem
    · exact absurd hdepth (by simpa using hbefore b' hmem)
    · exact Nat.le_refl _
    · exact Nat.le_of_lt (hafter b' hmem)

/-- The texts that are read are the texts of the grammar that nest at most 512 deep.  Each is read
as the tree of its derivation, and there is only one.  A text that nests deeper is refused at the
first opening bracket of depth 513. -/
theorem parse_grammar (cs : List Char) :
    (∀ t, parse cs = .ok t ↔
      Grammar.Text .standard cs t ∧ ∀ b ∈ t.openings 0, b.depth ≤ 512) ∧
    (∀ t u, Grammar.Text .standard cs t → Grammar.Text .standard cs u → t = u) ∧
    (∀ t, Grammar.Text .standard cs t → (∃ b ∈ t.openings 0, 512 < b.depth) →
      ∃ b ∈ t.openings 0, b.depth = 513 ∧
        (∀ b' ∈ t.openings 0, b'.depth = 513 → b.offset ≤ b'.offset) ∧
        parse cs = .error (.tooDeep b.offset)) := by
  refine ⟨?accepts, ?unique, ?refuses⟩
  case accepts =>
    intro t
    constructor
    · intro h
      have htext := text_of_parse h
      rw [parse_eq_verdict htext] at h
      exact ⟨htext, depth_le_of_verdict h⟩
    · rintro ⟨htext, hdepth⟩
      rw [parse_eq_verdict htext]
      exact verdict_eq_ok hdepth t
  case unique =>
    intro t u ht hu
    exact ht.unique Literals.fits_standard hu
  case refuses =>
    intro t ht hdeep
    rw [parse_eq_verdict ht]
    exact exists_tooDeep ht hdeep

/-- One text with a blank before its value, and one of brackets alone, whose bracket of depth 513
comes after 512 others. -/
theorem parse_grammar_word :
    Grammar.Text .standard " null".toList (.null ⟨1, 4⟩) ∧
      (∀ t, Grammar.Text .standard " null".toList t → t = .null ⟨1, 4⟩) ∧
      (∃ t, Grammar.Text .standard (List.replicate 513 '[' ++ List.replicate 513 ']') t) ∧
      parse (List.replicate 513 '[' ++ List.replicate 513 ']') = .error (.tooDeep 512) := by
  have hnull : Grammar.Text .standard " null".toList (.null ⟨1, 4⟩) :=
    (((parse_grammar " null".toList).1 (.null ⟨1, 4⟩)).mp rfl).1
  obtain ⟨t, ht, hopenings⟩ := Grammar.exists_value_brackets .standard 512 0 0
  have hdeep : ∃ b ∈ t.openings 0, 512 < b.depth := by
    rw [hopenings]
    exact ⟨_, List.mem_map_of_mem (List.mem_range.mpr (Nat.lt_succ_self 512)), by decide⟩
  refine ⟨hnull, fun t ht => (parse_grammar _).2.1 t _ ht hnull, ⟨t, ht.text⟩, ?_⟩
  obtain ⟨b, hb, hdepth, -, herror⟩ := (parse_grammar _).2.2 t ht.text hdeep
  rw [hopenings] at hb
  obtain ⟨i, -, rfl⟩ := List.mem_map.mp hb
  rw [herror, Nat.add_right_cancel hdepth]

end Tree

end JsonNav
