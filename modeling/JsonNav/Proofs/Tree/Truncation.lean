import JsonNav.Proofs.Tree.Decidable
import JsonNav.Proofs.Tree.Extension

/-! What is said of the beginning of a text stays true of the text.  Every reader settles, so an
error that was decided from characters that are there is final, and the beginning of an accepted
text is either accepted, or unfinished, or ends within one of its numbers. -/

namespace JsonNav

open Text (byteLength)

variable {α σ ν : Type}

namespace Reader

/-- What the reader yields settles wherever it is used. -/
def Stable (r : Reader α) (nodes : α → List (Node σ ν)) : Prop :=
  ∀ c, Settles c nodes (r.run c) fun s => r.run (c.extend s)

theorem run_string_quote (l : Literals σ ν) (o : Nat) (cs : List Char) :
    (string l).run ⟨o, '"' :: cs⟩ = (Cursor.takeBody (o + 1) cs >>= fun r =>
      match l.string? r.1 with
      | none => .error (.malformedString o)
      | some x => .ok (.string (spanned ⟨o, '"' :: cs⟩ r.2) x, r.2)) := by
  rw [run_string]
  rfl

theorem stable_string (l : Literals σ ν) (nodes : Node σ ν → List (Node σ ν)) :
    Stable (string l) nodes := by
  rintro ⟨o, rest⟩
  cases rest with
  | nil =>
    rw [run_string]
    exact .unfinished
  | cons d cs =>
    by_cases hd : d = '"'
    · subst hd
      simp only [Cursor.extend, List.cons_append, run_string_quote]
      cases hb : Cursor.takeBody (o + 1) cs with
      | error e =>
        rcases Cursor.takeBody_extend_error hb with rfl | h
        · exact .unfinished
        · refine .final fun s => ?_
          rw [h s]
          rfl
      | ok r =>
        obtain ⟨body, next⟩ := r
        have hpass : (⟨o, '"' :: cs⟩ : Cursor).Passes (['"'] ++ (body ++ ['"'])) next :=
          (Cursor.Passes.head rfl rfl).trans (Cursor.body_of_takeBody hb).2
        have hmore := Cursor.takeBody_extend hb
        simp only [hmore, bind, Except.bind]
        cases l.string? body with
        | none => exact .final fun _ => rfl
        | some x => exact .value hpass fun _ => rfl
    · have hrun : ∀ cs, (string l).run ⟨o, d :: cs⟩ = .error (.misplaced o) := by
        intro cs
        rw [run_string]
        split
        next h => cases h
        next h => exact absurd (List.cons.inj h).1 hd
        next => rfl
      rw [hrun]
      exact .final fun s => hrun _

theorem run_number_of_some (l : Literals σ ν) {c : Cursor} {n : Numeral} {rest : List Char}
    (h : Numeral.scan? c.rest = some (n, rest)) :
    (number l).run c = .ok (.number ⟨c.offset, byteLength n.text⟩ (l.number n),
      ⟨c.offset + byteLength n.text, rest⟩) := by
  rw [run_number, h]
  simp [spanned]

theorem run_number_of_none (l : Literals σ ν) {c : Cursor} (h : Numeral.scan? c.rest = none) :
    (number l).run c = .error (.malformedNumber c.offset) := by
  rw [run_number, h]

/-- A number that is not there yet may be completed, and the text ends within it. -/
theorem cutAt_of_number {l : Literals σ ν} {c last : Cursor} {s : List Char} {n : Node σ ν}
    (hne : c.rest ≠ []) (hnone : Numeral.scan? c.rest = none)
    (h : (number l).run (c.extend s) = .ok (n, last)) :
    CutAt c.finish c.offset n.preorder := by
  cases hmore : Numeral.scan? (c.extend s).rest with
  | none =>
    rw [run_number_of_none l hmore] at h
    exact nomatch h
  | some r =>
    rw [run_number_of_some l hmore] at h
    obtain ⟨rfl, rfl⟩ := Prod.mk.inj (Except.ok.inj h)
    obtain ⟨tail, htail, htext⟩ := Numeral.exists_cut_of_scan? hnone hmore
    have hpos := Text.byteLength_pos hne
    have htailPos := Text.byteLength_pos htail
    refine ⟨_, _, List.mem_singleton_self _, rfl, ?_, ?_⟩
    · rw [Cursor.finish]
      omega
    · rw [Cursor.finish, Span.stop, htext, Text.byteLength_append]
      show c.offset + byteLength c.rest < c.offset + (byteLength c.rest + byteLength tail)
      omega

theorem settles_number (l : Literals σ ν) {c : Cursor} (hne : c.rest ≠ []) :
    Settles c Node.preorder ((number l).run c) fun s => (number l).run (c.extend s) := by
  cases hn : Numeral.scan? c.rest with
  | some r =>
    obtain ⟨n, rest⟩ := r
    rw [run_number_of_some l hn]
    constructor
    case passes =>
      intro a next h
      obtain ⟨rfl, rfl⟩ := Prod.mk.inj (Except.ok.inj h)
      exact ⟨n.text, Numeral.eq_append_of_scan? hn, rfl⟩
    case ok =>
      intro a next h hrest s
      obtain ⟨rfl, rfl⟩ := Prod.mk.inj (Except.ok.inj h)
      rw [run_number_of_some l (Numeral.scan?_append hn hrest s)]
      rfl
    case error => exact fun h => nomatch h
    case cut => exact fun h => nomatch h
  | none =>
    rw [run_number_of_none l hn]
    constructor
    case passes => exact fun h => nomatch h
    case ok => exact fun h => nomatch h
    case error =>
      intro e h
      obtain rfl := Except.error.inj h
      by_cases hpart : ∃ d ∈ c.rest, ¬Numeral.IsPart d
      · refine .inr fun s => ?_
        exact run_number_of_none l (Numeral.scan?_append_eq_none hn hpart s)
      · refine .inl (.inr ⟨[], c, .refl c, rfl, fun d hd => ?_⟩)
        exact Classical.not_not.mp fun hnot => hpart ⟨d, hd, hnot⟩
    case cut =>
      intro o s a next h hmore
      obtain rfl := ParseError.malformedNumber.inj (Except.error.inj h)
      exact cutAt_of_number hne hn hmore

theorem stable_word (w : List Char) (hw : w ≠ []) (node : Span → Node σ ν)
    (nodes : Node σ ν → List (Node σ ν)) : Stable (word w hw node) nodes := by
  intro c
  rw [run_word]
  split
  next => exact .unfinished
  next hlong =>
    split
    next hprefix =>
      obtain ⟨rest, hrest⟩ := hprefix
      have hpass : c.Passes w ⟨c.offset + byteLength w, c.rest.drop w.length⟩ := by
        rw [← hrest, List.drop_left]
        exact ⟨hrest.symm, rfl⟩
      refine .value hpass fun s => ?_
      rw [Cursor.extend, ← hrest, List.append_assoc, run_word_append w hw, List.drop_left]
      simp [spanned, Cursor.extend]
    next hprefix =>
      refine .final fun s => ?_
      have hlongMore : ¬byteLength ((c.rest ++ s).take w.length) < byteLength w := by
        rw [List.take_append, Text.byteLength_append]
        omega
      have hprefixMore : ¬w <+: c.rest ++ s := by
        rintro ⟨tail, htail⟩
        rcases List.append_eq_append_iff.mp htail with ⟨cut, hcut, -⟩ | ⟨cut, hcut, -⟩
        · exact hprefix ⟨cut, hcut.symm⟩
        · -- The word is longer than what is left, which then would have had too few bytes.
          rw [List.take_of_length_le (by rw [hcut, List.length_append]; omega)] at hlong
          have hnil : cut = [] := by
            by_cases hne : cut = []
            · exact hne
            · have hpos := Text.byteLength_pos hne
              rw [hcut, Text.byteLength_append] at hlong
              omega
          rw [hnil, List.append_nil] at hcut
          exact hprefix (hcut ▸ List.prefix_rfl)
      rw [run_word, Cursor.extend, if_neg hlongMore, if_neg hprefixMore]

variable {item : Reader α} {nodes : α → List (Node σ ν)}

theorem run_items_of_nil {close : Char} {c : Cursor} (h : c.skipBlanks.rest = []) :
    run (items item close) c = .error .unfinished := by
  rw [run_items, h]

theorem skipBlanks_of_nil {c : Cursor} (h : c.rest = []) : c.skipBlanks.rest = [] := by
  rw [Cursor.skipBlanks, h]
  rfl

/-- After an item, the rest of a container settles when what follows the item does. -/
theorem settles_cons (hitem : Stable item nodes) {close : Char} {c : Cursor}
    (hothers : ∀ next, next.rest.length ≤ c.rest.length →
      Settles next (·.flatMap nodes) (run (items item close) next)
        fun s => run (items item close) (next.extend s)) :
    Settles c (·.flatMap nodes)
      (item.run c >>= fun r => run (items item close) r.2 >>= fun s => .ok (r.1 :: s.1, s.2))
      fun s => item.run (c.extend s) >>= fun r =>
        run (items item close) r.2 >>= fun s => .ok (r.1 :: s.1, s.2) := by
  refine (hitem c).bind ?empty ?next ?sub
  case empty =>
    intro a next hnil
    simp only [run_items_of_nil (skipBlanks_of_nil hnil)]
    rfl
  case next =>
    intro a next cs hpass _
    refine (hothers next hpass.length_le).map (g := fun as _ => a :: as) ?_
    intro as _
    exact List.subset_append_right ..
  case sub =>
    intro a next as last h
    obtain ⟨r, -, h⟩ := bind_eq_ok_iff.mp h
    obtain ⟨rfl, rfl⟩ := Prod.mk.inj (Except.ok.inj h)
    exact List.subset_append_left ..

theorem stable_items (hitem : Stable item nodes) {close : Char} (hsize : close.utf8Size = 1) :
    Stable (items item close) (·.flatMap nodes) := by
  intro c
  -- Each item leaves less of the text, so the induction is on the length of what is left.
  induction hlen : c.rest.length using Nat.strongRecOn generalizing c with
  | ind len ih =>
    by_cases hnil : c.skipBlanks.rest = []
    · rw [run_items_of_nil hnil]
      exact .unfinished
    · obtain ⟨d, ds, hd⟩ := List.exists_cons_of_ne_nil hnil
      obtain ⟨ws, -, hblanks, -⟩ := c.exists_skipBlanks
      simp only [run_items item close c, run_items item close (c.extend _), hd,
        Cursor.skipBlanks_extend_of_cons hd]
      by_cases hclose : d = close
      · simp only [hclose, if_true]
        exact .value (hblanks.trans (.head hd (hclose ▸ hsize))) fun _ => rfl
      · by_cases hcomma : d = ','
        · subst hcomma
          simp only [hclose, if_false, if_true]
          have hless : ds.length < len := by
            have h := c.length_rest_skipBlanks_le
            rw [hd, List.length_cons] at h
            omega
          refine .after (hblanks.trans (.head hd rfl)) (settles_cons hitem fun next hnext => ?_)
          exact ih _ (Nat.lt_of_le_of_lt hnext hless) next rfl
        · simp only [hclose, hcomma, if_false]
          exact .final fun _ => rfl

theorem stable_contents (hitem : Stable item nodes) {close : Char} (hsize : close.utf8Size = 1) :
    Stable (contents item close) (·.flatMap nodes) := by
  intro c
  by_cases hnil : c.skipBlanks.rest = []
  · rw [run_contents, hnil]
    exact .unfinished
  · obtain ⟨d, ds, hd⟩ := List.exists_cons_of_ne_nil hnil
    obtain ⟨ws, -, hblanks, -⟩ := c.exists_skipBlanks
    simp only [run_contents, hd, Cursor.skipBlanks_extend_of_cons hd]
    by_cases hclose : d = close
    · simp only [hclose, if_true]
      exact .value (hblanks.trans (.head hd (hclose ▸ hsize))) fun _ => rfl
    · simp only [hclose, if_false]
      exact settles_cons hitem fun next _ => stable_items hitem hsize next

theorem settles_container {item : Reader (Node σ ν)} (hitem : Stable item Node.preorder)
    {close : Char} (hsize : close.utf8Size = 1) {node : Span → List (Node σ ν) → Node σ ν}
    (hnode : ∀ span ns, ns.flatMap Node.preorder ⊆ (node span ns).preorder) {opening : Char}
    (hopening : opening.utf8Size = 1) (o : Nat) (cs : List Char) :
    Settles ⟨o, opening :: cs⟩ Node.preorder ((container item close node).run ⟨o, opening :: cs⟩)
      fun s => (container item close node).run ⟨o, opening :: (cs ++ s)⟩ := by
  simp only [run_container]
  refine .after (.head rfl hopening) ?_
  exact (stable_contents hitem hsize ⟨o + 1, cs⟩).map
    (g := fun ns last => node ⟨o, last - o⟩ ns) fun ns _ => hnode _ ns

theorem stable_property (l : Literals σ ν) {inner : Reader (Node σ ν)}
    (hinner : Stable inner Node.preorder) : Stable (property l inner) Node.preorder := by
  intro c
  by_cases hnil : c.skipBlanks.rest = []
  · rw [run_property, run_string, hnil]
    exact .unfinished
  · obtain ⟨ws, -, hblanks, -⟩ := c.exists_skipBlanks
    simp only [run_property, Cursor.skipBlanks_extend hnil]
    refine .after hblanks ?_
    -- A key holds no number, so nothing is asked of its nodes.
    refine (stable_string l (fun _ => []) c.skipBlanks).bind ?empty ?next ?sub
    case empty =>
      intro k next hnext
      simp only [skipBlanks_of_nil hnext]
    case next =>
      intro k next cs _ _
      by_cases hend : next.skipBlanks.rest = []
      · simp only [hend]
        exact .unfinished
      · obtain ⟨d, ds, hd⟩ := List.exists_cons_of_ne_nil hend
        obtain ⟨ws', -, hcolon, -⟩ := next.exists_skipBlanks
        simp only [hd, Cursor.skipBlanks_extend_of_cons hd]
        by_cases hdc : d = ':'
        · subst hdc
          refine .after (hcolon.trans (.head hd rfl)) ?_
          refine (hinner ⟨next.skipBlanks.offset + 1, ds⟩).map
            (g := fun v _ => Node.property ⟨k.offset, v.stop - k.offset⟩ k (some v)) ?_
          intro v _ n hn
          simp [Node.preorder, hn]
        · split
          next h => exact nomatch h
          next h => exact absurd (List.cons.inj h).1 hdc
          next =>
            refine .final fun s => ?_
            split
            next h => exact nomatch h
            next h => exact absurd (List.cons.inj h).1 hdc
            next => rfl
    case sub => exact fun _ => List.nil_subset _

theorem stable_start (l : Literals σ ν) {nested : Option (Reader (Node σ ν))}
    (hnested : ∀ inner ∈ nested, Stable inner Node.preorder) :
    Stable (start l nested) Node.preorder := by
  rintro ⟨o, rest⟩
  cases rest with
  | nil =>
    rw [run_start]
    exact .unfinished
  | cons d cs =>
    simp only [Cursor.extend, List.cons_append]
    by_cases hnumber : d = '-' ∨ (Digit.ofChar? d).isSome
    · simp only [run_start_number hnumber]
      exact settles_number l (c := ⟨o, d :: cs⟩) (by simp)
    · simp only [run_start]
      split
      next h => cases h
      next h =>
        obtain ⟨rfl, rfl⟩ := List.cons.inj h
        exact stable_string l Node.preorder ⟨o, '"' :: cs⟩
      next h =>
        obtain ⟨rfl, rfl⟩ := List.cons.inj h
        cases nested with
        | none => exact .final fun _ => rfl
        | some inner =>
          refine settles_container (stable_property l (hnested inner rfl)) rfl ?_ rfl o cs
          intro span ns
          rw [Node.preorder, Node.preorderAll_eq_flatMap]
          exact List.subset_cons_self ..
      next h =>
        obtain ⟨rfl, rfl⟩ := List.cons.inj h
        cases nested with
        | none => exact .final fun _ => rfl
        | some inner =>
          refine settles_container (hnested inner rfl) rfl ?_ rfl o cs
          intro span ns
          rw [Node.preorder, Node.preorderAll_eq_flatMap]
          exact List.subset_cons_self ..
      next h =>
        obtain ⟨rfl, rfl⟩ := List.cons.inj h
        exact stable_word _ _ _ Node.preorder ⟨o, 't' :: cs⟩
      next h =>
        obtain ⟨rfl, rfl⟩ := List.cons.inj h
        exact stable_word _ _ _ Node.preorder ⟨o, 'f' :: cs⟩
      next h =>
        obtain ⟨rfl, rfl⟩ := List.cons.inj h
        exact stable_word _ _ _ Node.preorder ⟨o, 'n' :: cs⟩
      next h =>
        obtain ⟨rfl, rfl⟩ := List.cons.inj h
        rw [if_neg hnumber]
        refine .final fun s => ?_
        simp only [hnumber, if_false]

theorem stable_valueWith (l : Literals σ ν) {nested : Option (Reader (Node σ ν))}
    (hnested : ∀ inner ∈ nested, Stable inner Node.preorder) :
    Stable (valueWith l nested) Node.preorder := by
  intro c
  by_cases hnil : c.skipBlanks.rest = []
  · rw [run_valueWith, run_start, hnil]
    exact .unfinished
  · obtain ⟨ws, -, hblanks, -⟩ := c.exists_skipBlanks
    simp only [run_valueWith, Cursor.skipBlanks_extend hnil]
    exact .after hblanks (stable_start l hnested c.skipBlanks)

theorem stable_value (l : Literals σ ν) (depth : Nat) : Stable (value l depth) Node.preorder := by
  induction depth with
  | zero => exact stable_valueWith l (by simp)
  | succ depth ih => exact stable_valueWith l (by simpa using ih)

variable {l : Literals σ ν} {depth : Nat} {cs : List Char}

theorem text_extend_error {e : ParseError} (h : text l depth cs = .error e) :
    Open (.ofText cs) e ∨ ∀ s, text l depth (cs ++ s) = .error e := by
  have hvalue := stable_value l depth (.ofText cs)
  rw [text_eq] at h
  rcases bind_eq_error_iff.mp h with h | ⟨⟨n, next⟩, hn, h⟩
  · refine (hvalue.error h).imp_right fun hmore s => ?_
    rw [text_eq]
    exact bind_eq_error_iff.mpr (.inl (hmore s))
  · by_cases hend : next.skipBlanks.rest = []
    · simp only [hend] at h
      exact nomatch h
    · have hne : next.rest ≠ [] := fun hnil => hend (skipBlanks_of_nil hnil)
      obtain ⟨d, ds, hd⟩ := List.exists_cons_of_ne_nil hend
      refine .inr fun s => ?_
      rw [text_eq]
      refine bind_eq_error_iff.mpr (.inr ⟨_, hvalue.ok hn hne s, ?_⟩)
      simp only [hd] at h
      simp only [Cursor.skipBlanks_extend_of_cons hd]
      exact h

theorem cutAt_of_text {o : Nat} {s : List Char} {n : Node σ ν}
    (h : text l depth cs = .error (.malformedNumber o)) (hmore : text l depth (cs ++ s) = .ok n) :
    CutAt (byteLength cs) o n.preorder := by
  rw [text_eq] at h hmore
  obtain ⟨⟨n', last⟩, hn', hlast⟩ := bind_eq_ok_iff.mp hmore
  have hvalue : (value l depth).run (.ofText cs) = .error (.malformedNumber o) := by
    rcases bind_eq_error_iff.mp h with h | ⟨_, -, h⟩
    · exact h
    · split at h
      next => cases h
      next => cases h
  have hcut := (stable_value l depth (.ofText cs)).cut hvalue hn'
  simp only at hlast
  split at hlast
  next =>
    obtain rfl := Except.ok.inj hlast
    simpa [Cursor.finish, Cursor.ofText] using hcut
  next => cases hlast

end Reader

namespace Tree

/-- Whether a mistake was found in the text itself: the text did not end too early, and a malformed
number is followed by a character that no number has. -/
def IsFinal (text : List Char) : ParseError → Prop
  | .unfinished => False
  | .malformedNumber o => ∃ before after, text = before ++ after ∧ byteLength before = o ∧
      ∃ c ∈ after, ¬Numeral.IsPart c
  | _ => True

theorem not_isFinal_of_open {cs : List Char} {e : ParseError} (h : Open (.ofText cs) e) :
    ¬IsFinal cs e := by
  rcases h with rfl | ⟨ds, next, hpass, rfl, hpart⟩
  · exact id
  · rintro ⟨before, after, hsplit, hlength, c, hc, hnot⟩
    have hrest : ds ++ next.rest = before ++ after := hpass.rest.symm.trans hsplit
    have hsame : byteLength ds = byteLength before := by
      rw [hlength, hpass.offset, Cursor.ofText, Nat.zero_add]
    obtain rfl := Text.append_right_inj_of_byteLength hrest hsame
    exact hnot (hpart c hc)

/-- Parse errors are final.  An error that names a wrong character or a nesting that is too deep
stays when the text goes on, and so does a malformed number that is followed by a character of no
number.  So the beginning of an accepted text is accepted, or unfinished, or malformed only at a
number of the text that it cuts in two. -/
theorem parse_error_final :
    (∀ p s e, parse p = .error e → IsFinal p e → parse (p ++ s) = .error e) ∧
    (∀ p s t, parse (p ++ s) = .ok t →
      (∃ u, parse p = .ok u) ∨ parse p = .error .unfinished ∨
      ∃ span x, Node.number span x ∈ t.preorder ∧ span.offset < byteLength p ∧
        byteLength p < span.stop ∧ parse p = .error (.malformedNumber span.offset)) := by
  constructor
  · intro p s e h hfinal
    rcases Reader.text_extend_error h with hopen | hmore
    · exact absurd hfinal (not_isFinal_of_open hopen)
    · exact hmore s
  · intro p s t h
    cases hp : parse p with
    | ok u => exact .inl ⟨u, rfl⟩
    | error e =>
      rcases Reader.text_extend_error hp with hopen | hmore
      · rcases hopen with rfl | ⟨_, next, -, rfl, -⟩
        · exact .inr (.inl rfl)
        · obtain ⟨span, x, hmem, hoffset, hlt, hstop⟩ := Reader.cutAt_of_text hp h
          refine .inr (.inr ⟨span, x, hmem, ?_, hstop, ?_⟩)
          · rwa [hoffset]
          · rw [hoffset]
      · have herror : parse (p ++ s) = .error e := hmore s
        rw [h] at herror
        exact nomatch herror

/-- A wrong word and a wrong number that a bracket ends stay wrong.  The text `[1.5]` that is cut
after the point ends in a number that it cuts in two. -/
theorem parse_error_final_word :
    (parse "nul!".toList = .error (.misplaced 0) ∧
      parse ("nul!".toList ++ "l".toList) = .error (.misplaced 0)) ∧
    (parse "[1.]".toList = .error (.malformedNumber 1) ∧
      parse ("[1.]".toList ++ ",".toList) = .error (.malformedNumber 1)) ∧
    ∃ t, parse ("[1.".toList ++ "5]".toList) = .ok t ∧
      ∃ span x, Node.number span x ∈ t.preorder ∧ span.offset < 3 ∧ 3 < span.stop ∧
        parse "[1.".toList = .error (.malformedNumber span.offset) := by
  have hnumber : parse "[1.]".toList = .error (.malformedNumber 1) := rfl
  have hcut : parse "[1.".toList = .error (.malformedNumber 1) := rfl
  have hwhole : parse ("[1.".toList ++ "5]".toList) =
      .ok (.array ⟨0, 5⟩ [.number ⟨1, 3⟩ ⟨0x3ff8000000000000⟩]) := by decide +kernel
  have hfinal : IsFinal "[1.]".toList (.malformedNumber 1) :=
    ⟨['['], "1.]".toList, rfl, rfl, ']', by decide, by decide⟩
  refine ⟨⟨rfl, parse_error_final.1 _ _ _ rfl trivial⟩,
    ⟨hnumber, parse_error_final.1 _ _ _ hnumber hfinal⟩, _, hwhole, ?_⟩
  rcases parse_error_final.2 _ _ _ hwhole with ⟨u, hu⟩ | hopen | hinside
  · exact nomatch hcut.symm.trans hu
  · exact nomatch hcut.symm.trans hopen
  · exact hinside

end Tree

end JsonNav
