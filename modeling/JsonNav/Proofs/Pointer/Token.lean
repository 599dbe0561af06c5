import JsonNav.Pointer.Lookup
import JsonNav.Proofs.Number.Decimal
import JsonNav.Proofs.Text.Segments

/-! Tokens and pointers as they are written.  Unescaping undoes escaping, an escaped token has no
slash, and so the text of a pointer is parsed into the tokens that it was written from.  The tokens
that number items are the decimal texts of numbers. -/

namespace JsonNav

namespace Token

variable {a b c x : Char} {cs : List Char}

theorem replacePair_pair : replacePair a b c (a :: b :: cs) = c :: replacePair a b c cs := by
  rw [replacePair, if_pos ⟨rfl, rfl⟩]

theorem replacePair_cons (h : x = a → ∀ d ∈ cs.head?, d ≠ b) :
    replacePair a b c (x :: cs) = x :: replacePair a b c cs := by
  cases cs with
  | nil => rfl
  | cons d cs =>
    rw [replacePair, if_neg]
    rintro ⟨hx, hd⟩
    exact h hx d rfl hd

/-- What comes first after a replacement came first before, or was put there. -/
theorem head?_replacePair {d : Char} (h : d ∈ (replacePair a b c cs).head?) :
    d = c ∨ d ∈ cs.head? := by
  unfold replacePair at h
  split at h
  · split at h
    · exact .inl (Option.some.inj h).symm
    · exact .inr h
  · exact .inr h

theorem unescape_zero : unescape ('~' :: '0' :: cs) = '~' :: unescape cs := by
  have hone : ∀ d ∈ ('0' :: cs).head?, d ≠ '1' := by simp
  rw [unescape, replacePair_cons fun _ => hone,
    replacePair_cons (x := '0') fun h => absurd h (by decide), replacePair_pair, unescape]

theorem unescape_one : unescape ('~' :: '1' :: cs) = '/' :: unescape cs := by
  rw [unescape, replacePair_pair, replacePair_cons fun h => absurd h (by decide), unescape]

theorem unescape_cons (h : c = '~' → ∀ d ∈ cs.head?, d ≠ '0' ∧ d ≠ '1') :
    unescape (c :: cs) = c :: unescape cs := by
  have hslash : replacePair '~' '1' '/' (c :: cs) = c :: replacePair '~' '1' '/' cs :=
    replacePair_cons fun hc d hd => (h hc d hd).2
  rw [unescape, unescape, hslash]
  apply replacePair_cons
  -- The first replacement puts no zero after a tilde.
  intro hc d hd
  rcases head?_replacePair hd with rfl | hd
  · decide
  · exact (h hc d hd).1

theorem escape_cons (c : Char) (cs : List Char) : escape (c :: cs) = escapeChar c ++ escape cs :=
  List.flatMap_cons ..

@[simp] theorem unescape_escape (cs : List Char) : unescape (escape cs) = cs := by
  induction cs with
  | nil => rfl
  | cons c cs ih =>
    rw [escape_cons, escapeChar]
    by_cases htilde : c = '~'
    · rw [if_pos htilde, List.cons_append, List.singleton_append, unescape_zero, ih, htilde]
    · by_cases hslash : c = '/'
      · rw [if_neg htilde, if_pos hslash, List.cons_append, List.singleton_append, unescape_one, ih,
          hslash]
      · rw [if_neg htilde, if_neg hslash, List.singleton_append,
          unescape_cons fun h => absurd h htilde, ih]

theorem slash_notMem_escape (cs : List Char) : '/' ∉ escape cs := by
  intro h
  obtain ⟨c, -, hc⟩ := List.mem_flatMap.mp h
  unfold escapeChar at hc
  split at hc
  next => simp at hc
  next =>
    split at hc
    next => simp at hc
    next hslash => exact hslash (List.mem_singleton.mp hc).symm

/-- The number of an item is read off its decimal text alone. -/
theorem index?_eq_some_iff {token : String} {i : Nat} :
    index? token = some i ↔ token = toString i ∧ i < UInt64.size := by
  rw [index?, ← exists_whole_iff]
  constructor
  · intro h
    obtain ⟨w, hw, h⟩ := Option.bind_eq_some_iff.mp h
    split at h
    next hlt =>
      obtain rfl := Option.some.inj h
      exact ⟨⟨w, hw, rfl⟩, hlt⟩
    next => exact nomatch h
  · rintro ⟨⟨w, hw, rfl⟩, hlt⟩
    exact Option.bind_eq_some_iff.mpr ⟨w, hw, if_pos hlt⟩

end Token

namespace Pointer

/-- Slashes stand only between tokens. -/
theorem segments_escape (token : List Char) (tokens : List String) :
    Text.segments (· = '/')
        (Token.escape token ++ tokens.flatMap fun t => '/' :: Token.escape t.toList) =
      Token.escape token :: tokens.map fun t => Token.escape t.toList := by
  have hnone : ∀ s ∈ Token.escape token :: tokens.map (fun t => Token.escape t.toList),
      ∀ c ∈ s, decide (c = '/') = false := by
    intro s hs c hc
    obtain ⟨cs, rfl⟩ : ∃ cs, s = Token.escape cs := by
      rcases List.mem_cons.mp hs with rfl | hs
      · exact ⟨token, rfl⟩
      · obtain ⟨t, -, rfl⟩ := List.mem_map.mp hs
        exact ⟨t.toList, rfl⟩
    rw [decide_eq_false_iff_not]
    rintro rfl
    exact Token.slash_notMem_escape cs hc
  rw [← Text.segments_joined (decide_eq_true rfl) hnone, List.flatMap_map]

/-- The text of a pointer is parsed into its tokens. -/
theorem parse_text (tokens : List String) : parse (text tokens) = .ok tokens := by
  rw [text, parse, String.toList_ofList]
  cases tokens with
  | nil => rfl
  | cons t tokens =>
    rw [List.flatMap_cons, List.cons_append]
    simp only [segments_escape, List.map_cons, List.map_map, Token.unescape_escape,
      String.ofList_toList, Function.comp_def, List.map_id']

end Pointer

end JsonNav
