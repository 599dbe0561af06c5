import JsonNav.Text.Segments

/-! Cutting texts.  A text is cut after the characters at its front that satisfy `p`, or at every
separator.  No part has a separator, and putting separators between texts that have none is undone
by cutting. -/

namespace JsonNav

namespace Text

variable {p : Char → Bool}

theorem segments_of_none {cs : List Char} (h : ∀ c ∈ cs, p c = false) : segments p cs = [cs] := by
  induction cs with
  | nil => rfl
  | cons c cs ih =>
    have hc := h c (List.mem_cons_self ..)
    rw [segments, ih fun d hd => h d (List.mem_cons_of_mem _ hd), hc]
    rfl

/-- A separator ends the first part. -/
theorem segments_append {cs : List Char} (h : ∀ c ∈ cs, p c = false) {d : Char} (hd : p d = true)
    (rest : List Char) : segments p (cs ++ d :: rest) = cs :: segments p rest := by
  induction cs with
  | nil => rw [List.nil_append, segments, if_pos hd]
  | cons c cs ih =>
    have hc := h c (List.mem_cons_self ..)
    rw [List.cons_append, segments, ih fun d hd => h d (List.mem_cons_of_mem _ hd), hc]
    rfl

/-- To prove a property of all texts, prove it of the texts without a separator, and of a text with
one from that of the text after the first. -/
theorem segments_induct {motive : List Char → Prop}
    (last : ∀ s, (∀ c ∈ s, p c = false) → motive s)
    (cut : ∀ s d rest, (∀ c ∈ s, p c = false) → p d = true → motive rest →
      motive (s ++ d :: rest)) (cs : List Char) : motive cs := by
  -- The characters up to the next separator are collected in `s`.
  suffices h : ∀ s, (∀ c ∈ s, p c = false) → motive (s ++ cs) from h [] (by simp)
  induction cs with
  | nil =>
    intro s hs
    rw [List.append_nil]
    exact last s hs
  | cons c cs ih =>
    intro s hs
    by_cases hc : p c = true
    · exact cut s c cs hs hc (ih [] (by simp))
    · rw [List.append_cons]
      apply ih
      intro d hd
      rcases List.mem_append.mp hd with hd | hd
      · exact hs d hd
      · rw [List.mem_singleton.mp hd]
        exact Bool.eq_false_iff.mpr hc

/-- The characters of a part are characters of the text, and none of them is a separator. -/
theorem mem_segments {cs s : List Char} (hs : s ∈ segments p cs) {c : Char} (hc : c ∈ s) :
    c ∈ cs ∧ p c = false := by
  induction cs using segments_induct (p := p) with
  | last t ht =>
    rw [segments_of_none ht, List.mem_singleton] at hs
    rw [hs] at hc
    exact ⟨hc, ht c hc⟩
  | cut t d rest ht hd ih =>
    rw [segments_append ht hd] at hs
    rcases List.mem_cons.mp hs with rfl | hs
    · exact ⟨List.mem_append_left _ hc, ht c hc⟩
    · obtain ⟨hmem, hplain⟩ := ih hs
      exact ⟨List.mem_append_right _ (List.mem_cons_of_mem _ hmem), hplain⟩

/-- Cutting texts that were joined by a separator yields these texts. -/
theorem segments_joined {d : Char} (hd : p d = true) {s : List Char} {ss : List (List Char)}
    (h : ∀ t ∈ s :: ss, ∀ c ∈ t, p c = false) :
    segments p (s ++ ss.flatMap (d :: ·)) = s :: ss := by
  induction ss generalizing s with
  | nil =>
    rw [List.flatMap_nil, List.append_nil]
    exact segments_of_none (h s (List.mem_cons_self ..))
  | cons t ss ih =>
    rw [List.flatMap_cons, List.cons_append, segments_append (h s (List.mem_cons_self ..)) hd,
      ih fun t ht => h t (List.mem_cons_of_mem _ ht)]

end Text

end JsonNav
