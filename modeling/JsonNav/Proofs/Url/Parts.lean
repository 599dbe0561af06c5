import Mathlib.Data.Bool.AllAny
import Mathlib.Data.List.TakeWhile
import JsonNav.Proofs.Text.Segments
import JsonNav.Proofs.Url.Percent
import JsonNav.Url.Parse

/-! The parts of the text of an address.  A scheme is cut off in lower case, what does not count in
a clean text is nothing, and parts that are settled are read from the text that they are put
together to. -/

namespace JsonNav.Url

variable {scheme cs rest : List Char} {p : Parts} {k : SchemeKind}

/-! ### Schemes -/

/-- A scheme in lower case. -/
structure IsScheme (scheme : List Char) : Prop where
  lead : ∀ c ∈ scheme.head?, c.isAlpha = true
  ne_nil : scheme ≠ []
  all : ∀ c ∈ scheme, isSchemeChar c = true
  lower : scheme.map Char.toLower = scheme

theorem lt_of_isSchemeChar {c : Char} (h : isSchemeChar c = true) : c.toNat < 0x80 := by
  have hle {d : Char} (hd : d.toNat < 0x80) (hc : c.val ≤ d.val) : c.toNat < 0x80 :=
    Nat.lt_of_le_of_lt (UInt32.le_iff_toNat_le.mp hc) hd
  have hletter : c.isAlpha = true → c.toNat < 0x80 := by
    intro h
    rcases Bool.or_eq_true_iff.mp h with h | h
    · exact hle (show 'Z'.toNat < 0x80 by decide) (of_decide_eq_true h).2
    · exact hle (show 'z'.toNat < 0x80 by decide)
        (of_decide_eq_true (Bool.and_eq_true_iff.mp h).2)
  simp only [isSchemeChar, Bool.or_eq_true, decide_eq_true_eq] at h
  rcases h with ((h | rfl) | rfl) | rfl
  · rcases Bool.or_eq_true_iff.mp h with h | h
    · exact hletter h
    · exact hle (show '9'.toNat < 0x80 by decide)
        (of_decide_eq_true (Bool.and_eq_true_iff.mp h).2)
  all_goals decide

theorem toLower_of_isSchemeChar {c : Char} (h : isSchemeChar c = true) :
    isSchemeChar c.toLower = true ∧ c.toLower.toLower = c.toLower ∧
      (c.isAlpha = true → c.toLower.isAlpha = true) := by
  have hall : ∀ c : Char, c.toNat < 0x80 → isSchemeChar c = true →
      isSchemeChar c.toLower = true ∧ c.toLower.toLower = c.toLower ∧
        (c.isAlpha = true → c.toLower.isAlpha = true) := Percent.forall_ascii (by decide)
  exact hall c (lt_of_isSchemeChar h) h

/-- A scheme is cut off in lower case. -/
theorem splitScheme?_eq_some (h : splitScheme? cs = some (scheme, rest)) :
    IsScheme scheme ∧ ∃ before, cs = before ++ ':' :: rest := by
  have hcut := List.takeWhile_append_dropWhile (p := isSchemeChar) (l := cs)
  have hall : ∀ c ∈ cs.takeWhile isSchemeChar, isSchemeChar c = true :=
    fun c hc => List.mem_takeWhile_imp hc
  unfold splitScheme? at h
  split at h
  next c name after hname hafter =>
    split at h
    next hlead =>
      obtain ⟨rfl, rfl⟩ := Prod.mk.inj (Option.some.inj h)
      rw [hname] at hall
      refine ⟨⟨?_, List.cons_ne_nil _ _, ?_, ?_⟩, _, by rw [← hafter]; exact hcut.symm⟩
      · intro d hd
        obtain rfl := Option.some.inj hd
        exact (toLower_of_isSchemeChar (hall c (List.mem_cons_self ..))).2.2 hlead
      · rw [List.forall_mem_map]
        exact fun d hd => (toLower_of_isSchemeChar (hall d hd)).1
      · rw [List.map_map]
        exact List.map_congr_left fun d hd => (toLower_of_isSchemeChar (hall d hd)).2.1
    next => exact nomatch h
  next => exact nomatch h

/-- What does not count anywhere does not count at either end. -/
theorem ne_of_isMargin_eq_false {c : Char} (h : isMargin c = false) :
    c ≠ '\t' ∧ c ≠ '\n' ∧ c ≠ '\r' := by
  refine ⟨?_, ?_, ?_⟩ <;> rintro rfl <;> exact absurd h (by decide)

/-- A clean text does not end in a blank. -/
theorem isMargin_of_getLast?_clean {c : Char} (h : (clean cs).getLast? = some c) :
    isMargin c = false := by
  rw [clean, ← List.head?_reverse, ← List.filter_reverse, List.reverse_reverse] at h
  generalize (cs.dropWhile isMargin).reverse = ds at h
  cases hd : ds.dropWhile isMargin with
  | nil =>
    rw [hd] at h
    exact nomatch h
  | cons d rest =>
    have hmargin : isMargin d = false := by
      have := List.head?_dropWhile_not isMargin ds
      rw [hd] at this
      simpa using this
    rw [hd, List.filter_cons, if_pos (decide_eq_true (ne_of_isMargin_eq_false hmargin)), List.head?_cons, Option.some.injEq] at h
    rwa [← h]

/-- The text of a mark and what follows it. -/
def marked (mark : Char) (o : Option (List Char)) : List Char :=
  (o.map (mark :: ·)).getD []

/-- The parts that follow a scheme of a kind: the body ends before the first mark, and the other
parts are encoded.  What has no other part does not end in a blank. -/
structure Parts.Settled (k : SchemeKind) (p : Parts) : Prop where
  body : ∀ c ∈ p.body, c ≠ '?' ∧ c ≠ '#'
  query : ∀ q ∈ p.query, ∀ c ∈ q, Percent.standsInQuery k.isSpecial c = true ∧ c ≠ '#'
  fragment : ∀ f ∈ p.fragment, ∀ c ∈ f, Percent.standsInFragment c = true
  ending : p.query = none → p.fragment = none → p.body.getLast? ≠ some ' '

theorem Parts.settled_ofText (k : SchemeKind) (hlast : cs.getLast? ≠ some ' ') :
    (ofText k cs).Settled k := by
  have hbefore {mark c : Char} {ds : List Char} (hc : c ∈ ds.takeWhile (· ≠ mark)) : c ≠ mark := by
    simpa using List.mem_takeWhile_imp hc
  have hmain : ∀ c ∈ cs.takeWhile (· ≠ '#'), c ≠ '#' := fun c hc => hbefore hc
  refine ⟨fun c hc => ?_, fun q hq => ?_, fun f hf => ?_, fun hquery hfragment => ?_⟩
  · exact ⟨hbefore hc, hmain c ((List.takeWhile_sublist _).mem hc)⟩
  · obtain ⟨ds, hds, rfl⟩ := Option.map_eq_some_iff.mp hq
    have hplain : ∀ c ∈ ds, c ≠ '#' := by
      intro c hc
      refine hmain c ((List.dropWhile_sublist (· ≠ '?')).mem ?_)
      cases hafter : (cs.takeWhile (· ≠ '#')).dropWhile (· ≠ '?') with
      | nil =>
        rw [hafter] at hds
        exact nomatch hds
      | cons d rest =>
        rw [hafter] at hds
        obtain rfl := Option.some.inj hds
        exact List.mem_cons_of_mem _ hc
    intro c hc
    exact ⟨Percent.stands_of_mem_encode (Percent.standsInQuery_of_mem_signs _) c hc,
      Percent.forall_mem_encode (List.all_iff_forall_prop.mp (by decide)) hplain c hc⟩
  · obtain ⟨ds, -, rfl⟩ := Option.map_eq_some_iff.mp hf
    exact Percent.stands_of_mem_encode Percent.standsInFragment_of_mem_signs
  · have hnone {mark : Char} {ds : List Char} {stands : Char → Bool}
        (h : (afterMark (ds.dropWhile (· ≠ mark))).map (Percent.encode stands) = none) :
        ds.takeWhile (· ≠ mark) = ds := by
      conv => rhs; rw [← List.takeWhile_append_dropWhile (p := (· ≠ mark)) (l := ds)]
      cases hafter : ds.dropWhile (· ≠ mark) with
      | nil => exact (List.append_nil _).symm
      | cons d rest =>
        rw [hafter] at h
        exact nomatch h
    show ((cs.takeWhile (· ≠ '#')).takeWhile (· ≠ '?')).getLast? ≠ some ' '
    rwa [hnone hquery, hnone hfragment]

end JsonNav.Url
