import JsonNav.Proofs.Pointer.Token

/-! Escaping in one pass.  Replacing every `~1` and then every `~0` reads a token as one pass from
left to right does, which never looks at its own output.  A text in which every tilde begins an
escape is what its token is written as, so between such pointers and lists of tokens, writing and
parsing undo each other. -/

namespace JsonNav

namespace Token

variable {c : Char} {cs : List Char}

/-- The token that a text denotes, read in one pass: `~0` is a tilde, `~1` a slash, and any other
character itself, also a tilde before anything else. -/
def onePass : List Char → List Char
  | '~' :: '0' :: cs => '~' :: onePass cs
  | '~' :: '1' :: cs => '/' :: onePass cs
  | c :: cs => c :: onePass cs
  | [] => []

/-- A character that begins no escape, as the cases of `onePass` put it. -/
theorem not_escape (hzero : ∀ rest, c = '~' → cs = '0' :: rest → False)
    (hone : ∀ rest, c = '~' → cs = '1' :: rest → False) :
    c = '~' → ∀ d ∈ cs.head?, d ≠ '0' ∧ d ≠ '1' := by
  intro hc d hd
  obtain ⟨rest, rfl⟩ := List.head?_eq_some_iff.mp hd
  constructor
  · rintro rfl
    exact hzero rest hc rfl
  · rintro rfl
    exact hone rest hc rfl

theorem onePass_of_notMem (h : '~' ∉ cs) : onePass cs = cs := by
  fun_induction onePass cs with
  | case1 | case2 => exact absurd (List.mem_cons_self ..) h
  | case3 c cs _ _ ih => rw [ih fun hmem => h (List.mem_cons_of_mem _ hmem)]
  | case4 => rfl

/-- The two passes read what one pass reads.  So nothing changes if they are left out for a text
without a tilde. -/
theorem unescape_eq_onePass (cs : List Char) :
    unescape cs = onePass cs ∧ (if '~' ∈ cs then unescape cs else cs) = onePass cs := by
  have heq : unescape cs = onePass cs := by
    fun_induction onePass cs with
    | case1 cs ih => rw [unescape_zero, ih]
    | case2 cs ih => rw [unescape_one, ih]
    | case3 c cs hzero hone ih => rw [unescape_cons (not_escape hzero hone), ih]
    | case4 => rfl
  refine ⟨heq, ?_⟩
  split
  next => exact heq
  next htilde => exact (onePass_of_notMem htilde).symm

example : unescape "~01~1~~0~".toList = "~1/~~~".toList := by decide

/-! ### Texts in which every tilde begins an escape -/

/-- Every tilde stands before `0` or `1`. -/
def Escaped (cs : List Char) : Prop :=
  ∀ i < cs.length, cs[i]? = some '~' → cs[i + 1]? = some '0' ∨ cs[i + 1]? = some '1'

instance (cs : List Char) : Decidable (Escaped cs) :=
  inferInstanceAs (Decidable (∀ i < cs.length, _))

theorem Escaped.drop (ds : List Char) (h : Escaped (ds ++ cs)) : Escaped cs := by
  intro i hi htilde
  have hnext := h (ds.length + i) (by rw [List.length_append]; omega)
  rwa [Nat.add_assoc, List.getElem?_append_right (by omega), List.getElem?_append_right (by omega),
    Nat.add_sub_cancel_left, Nat.add_sub_cancel_left, imp_iff_right htilde] at hnext

/-- No escape reaches over a slash. -/
theorem Escaped.take {ds : List Char} (h : Escaped (cs ++ '/' :: ds)) : Escaped cs := by
  intro i hi htilde
  have hnext := h i (by rw [List.length_append]; omega)
  rw [List.getElem?_append_left hi, imp_iff_right htilde] at hnext
  by_cases hlast : i + 1 < cs.length
  · rwa [List.getElem?_append_left hlast] at hnext
  · have hslash : (cs ++ '/' :: ds)[i + 1]? = some '/' := by
      rw [show i + 1 = cs.length by omega, List.getElem?_append_right (Nat.le_refl _)]
      simp
    rw [hslash] at hnext
    simp at hnext

theorem escape_unescape (h : Escaped cs) (hslash : '/' ∉ cs) : escape (unescape cs) = cs := by
  induction cs using onePass.induct with
  | case1 cs ih =>
    have hrest := Escaped.drop ['~', '0'] h
    rw [unescape_zero, escape_cons, ih hrest (by simp_all)]
    rfl
  | case2 cs ih =>
    have hrest := Escaped.drop ['~', '1'] h
    rw [unescape_one, escape_cons, ih hrest (by simp_all)]
    rfl
  | case3 c cs hzero hone ih =>
    have hrest := Escaped.drop [c] h
    have hstep := not_escape hzero hone
    simp only [List.mem_cons, not_or] at hslash
    have htilde : c ≠ '~' := by
      intro hc
      have hnext := h 0 (Nat.succ_pos _) (congrArg some hc)
      rw [List.getElem?_cons_succ, ← List.head?_eq_getElem?] at hnext
      rcases hnext with hd | hd
      · exact (hstep hc _ hd).1 rfl
      · exact (hstep hc _ hd).2 rfl
    rw [unescape_cons hstep, escape_cons, ih hrest hslash.2, escapeChar, if_neg htilde,
      if_neg (Ne.symm hslash.1), List.singleton_append]
  | case4 => rfl

/-- Tildes are escaped first, so that those of the escaped slashes stay. -/
theorem escape_eq_twoPasses (cs : List Char) :
    escape cs = (cs.flatMap fun c => if c = '~' then ['~', '0'] else [c]).flatMap
      fun c => if c = '/' then ['~', '1'] else [c] := by
  rw [List.flatMap_assoc]
  apply List.flatMap_congr
  intro c hc
  unfold escapeChar
  split <;> simp

end Token

namespace Pointer

/-- Between slashes an escaped text is what its tokens are written as. -/
theorem flatMap_segments {cs : List Char} (h : Token.Escaped cs) :
    ((Text.segments (· = '/') cs).flatMap fun t => '/' :: Token.escape (Token.unescape t)) =
      '/' :: cs := by
  have hnone {s : List Char} (hs : ∀ c ∈ s, decide (c = '/') = false) : '/' ∉ s :=
    fun hmem => absurd (hs _ hmem) (by decide)
  induction cs using Text.segments_induct (p := (· = '/')) with
  | last s hs =>
    rw [Text.segments_of_none hs, List.flatMap_singleton, Token.escape_unescape h (hnone hs)]
  | cut s d rest hs hd ih =>
    obtain rfl := of_decide_eq_true hd
    have hrest : Token.Escaped rest := by
      rw [List.append_cons] at h
      exact h.drop _
    rw [Text.segments_append hs hd, List.flatMap_cons, ih hrest,
      Token.escape_unescape h.take (hnone hs)]
    rfl

theorem parse_eq_ok_iff {p : String} {tokens : List String} :
    parse p = .ok tokens ↔ p = "#" ∧ tokens = [] ∨
      ∃ cs, p.toList = '#' :: '/' :: cs ∧
        tokens = (Text.segments (· = '/') cs).map fun t => String.ofList (Token.unescape t) := by
  have hroot : p = "#" ↔ p.toList = ['#'] := String.toList_inj.symm
  rw [hroot]
  unfold parse
  split
  next h => simp [h, eq_comm]
  next cs h => simp [h, eq_comm]
  next hhash hslash =>
    simp only [reduceCtorEq, false_iff, not_or, not_and, not_exists]
    exact ⟨fun h => absurd h hhash, fun cs h => absurd h (hslash cs)⟩

/-- Writing and parsing pointers.  A token is written with its tildes and then its slashes escaped.
A list of tokens is parsed from the pointer that it is written as.  Only `#` and what begins with
`#/` is a pointer, with one token for each slash.  A pointer in which every tilde begins an escape
is what its tokens are written as, and the tokens of any pointer are written as a pointer with the
same tokens. -/
theorem parse_exact :
    (∀ cs, Token.escape cs = (cs.flatMap fun c => if c = '~' then ['~', '0'] else [c]).flatMap
      fun c => if c = '/' then ['~', '1'] else [c]) ∧
    (∀ tokens, parse (text tokens) = .ok tokens) ∧
    (∀ p, (∃ tokens, parse p = .ok tokens) ↔ p = "#" ∨ ['#', '/'] <+: p.toList) ∧
    ∀ p tokens, parse p = .ok tokens →
      tokens.length = p.toList.count '/' ∧
      (Token.Escaped p.toList → text tokens = p) ∧
      parse (text tokens) = .ok tokens := by
  refine ⟨Token.escape_eq_twoPasses, parse_text, fun p => ?accepts, fun p tokens h => ?tokens⟩
  case accepts =>
    simp only [parse_eq_ok_iff]
    constructor
    · rintro ⟨tokens, ⟨hp, -⟩ | ⟨cs, hp, -⟩⟩
      · exact .inl hp
      · exact .inr ⟨cs, hp.symm⟩
    · rintro (hp | ⟨cs, hp⟩)
      · exact ⟨[], .inl ⟨hp, rfl⟩⟩
      · exact ⟨_, .inr ⟨cs, hp.symm, rfl⟩⟩
  case tokens =>
    rcases parse_eq_ok_iff.mp h with ⟨rfl, rfl⟩ | ⟨cs, hp, rfl⟩
    · exact ⟨rfl, fun _ => rfl, parse_text []⟩
    · refine ⟨?length, fun hescaped => ?text, parse_text _⟩
      case length =>
        rw [hp, List.length_map, Text.length_segments]
        simp [List.count]
        rfl
      case text =>
        rw [hp] at hescaped
        have hsegments := flatMap_segments (Token.Escaped.drop ['#', '/'] hescaped)
        apply String.toList_inj.mp
        rw [text, hp, String.toList_ofList, ← hsegments, List.flatMap_map]
        simp only [String.toList_ofList]

theorem parse_exact_tildes :
    parse "#/a~1b/~01" = .ok ["a/b", "~1"] ∧ Token.Escaped "#/a~1b/~01".toList ∧
      text ["a/b", "~1"] = "#/a~1b/~01" := by
  have hparse : parse "#/a~1b/~01" = .ok ["a/b", "~1"] := by cbv
  have hescaped : Token.Escaped "#/a~1b/~01".toList := by decide
  exact ⟨hparse, hescaped, (parse_exact.2.2.2 _ _ hparse).2.1 hescaped⟩

end Pointer

end JsonNav
