import Mathlib.Data.Bool.AllAny
import JsonNav.Proofs.Text.Segments
import JsonNav.Proofs.Url.Percent
import JsonNav.Url.Path

/-! Paths that are settled: none of their segments is a dot, all of their characters stand as they
are, and the path of a file has no empty segments to drop.  A relative text leads from a settled
path to a settled one, and the text of a settled path leads from the root to that path. -/

namespace JsonNav

theorem SchemeKind.isSlash_of_mem_signs (k : SchemeKind) :
    ∀ c ∈ Percent.signs, k.isSlash c = false := by
  have hplain : ∀ c ∈ Percent.signs, c ≠ '/' ∧ c ≠ '\\' :=
    List.all_iff_forall_prop.mp (by decide)
  intro c hc
  obtain ⟨hslash, hback⟩ := hplain c hc
  simp [isSlash, hslash, hback]

namespace UrlPath

variable {k : SchemeKind} {path parts ss : List (List Char)} {s : List Char}

/-! ### Dots and empty segments -/

theorem walk_cons_cons (path : List (List Char)) (s t : List Char) (rest : List (List Char)) :
    walk path (s :: t :: rest) =
      if isTwoDots s then walk path.dropLast (t :: rest)
      else if isOneDot s then walk path (t :: rest)
      else walk (path ++ [s]) (t :: rest) := rfl

/-- What holds of the segments of a path, of those of a text that are no dots, and of the empty one,
holds of the segments that a walk leads to. -/
theorem forall_mem_walk {p : List Char → Prop} (hnil : p []) (hpath : ∀ s ∈ path, p s)
    (hparts : ∀ s ∈ parts, isOneDot s = false → isTwoDots s = false → p s) :
    ∀ s ∈ walk path parts, p s := by
  induction path, parts using walk.induct with
  | case1 path => exact hpath
  | case2 path t htwo =>
    rw [walk, if_pos htwo, List.forall_mem_append, List.forall_mem_singleton]
    exact ⟨fun s hs => hpath s (List.dropLast_subset _ hs), hnil⟩
  | case3 path t htwo hone =>
    rw [walk, if_neg htwo, if_pos hone, List.forall_mem_append, List.forall_mem_singleton]
    exact ⟨hpath, hnil⟩
  | case4 path t htwo hone =>
    rw [walk, if_neg htwo, if_neg hone, List.forall_mem_append, List.forall_mem_singleton]
    rw [Bool.not_eq_true] at htwo hone
    exact ⟨hpath, hparts t (List.mem_singleton_self t) hone htwo⟩
  | case5 path t u rest htwo ih =>
    rw [walk_cons_cons, if_pos htwo]
    exact ih (fun s hs => hpath s (List.dropLast_subset _ hs))
      fun s hs => hparts s (List.mem_cons_of_mem _ hs)
  | case6 path t u rest htwo hone ih =>
    rw [walk_cons_cons, if_neg htwo, if_pos hone]
    exact ih hpath fun s hs => hparts s (List.mem_cons_of_mem _ hs)
  | case7 path t u rest htwo hone ih =>
    rw [walk_cons_cons, if_neg htwo, if_neg hone]
    rw [Bool.not_eq_true] at htwo hone
    refine ih ?_ fun s hs => hparts s (List.mem_cons_of_mem _ hs)
    rw [List.forall_mem_append, List.forall_mem_singleton]
    exact ⟨hpath, hparts t (List.mem_cons_self ..) hone htwo⟩

/-- A walk of one step or more does not end at the root. -/
theorem walk_ne_nil (h : parts ≠ []) : walk path parts ≠ [] := by
  induction path, parts using walk.induct with
  | case1 path => exact absurd rfl h
  | case2 path t htwo => simp [walk, htwo]
  | case3 path t htwo hone => simp [walk, htwo, hone]
  | case4 path t htwo hone => simp [walk, htwo, hone]
  | case5 path t u rest htwo ih =>
    rw [walk_cons_cons, if_pos htwo]
    exact ih (List.cons_ne_nil _ _)
  | case6 path t u rest htwo hone ih =>
    rw [walk_cons_cons, if_neg htwo, if_pos hone]
    exact ih (List.cons_ne_nil _ _)
  | case7 path t u rest htwo hone ih =>
    rw [walk_cons_cons, if_neg htwo, if_neg hone]
    exact ih (List.cons_ne_nil _ _)

theorem mem_of_mem_dropEmpty (h : s ∈ dropEmpty ss) : s ∈ ss := by
  induction ss using dropEmpty.induct with
  | case1 t rest ih => exact List.mem_cons_of_mem _ (ih h)
  | case2 ss hne =>
    rwa [dropEmpty.eq_2 ss hne] at h

theorem dropEmpty_ne_nil (h : ss ≠ []) : dropEmpty ss ≠ [] := by
  induction ss using dropEmpty.induct with
  | case1 t rest ih => exact ih (List.cons_ne_nil _ _)
  | case2 ss hne => rwa [dropEmpty.eq_2 ss hne]

theorem dropEmpty_dropEmpty (ss : List (List Char)) : dropEmpty (dropEmpty ss) = dropEmpty ss := by
  induction ss using dropEmpty.induct with
  | case1 t rest ih => exact ih
  | case2 ss hne => rw [dropEmpty.eq_2 ss hne, dropEmpty.eq_2 ss hne]

/-! ### Settled paths -/

/-- A segment that is no dot, of characters that stand in it as they are. -/
structure IsPlain (k : SchemeKind) (s : List Char) : Prop where
  stands : ∀ c ∈ s, Percent.standsInPath c = true
  inside : ∀ c ∈ s, k.isSlash c = false ∧ c ≠ '?' ∧ c ≠ '#'
  dots : isOneDot s = false ∧ isTwoDots s = false

structure Settled (k : SchemeKind) (ss : List (List Char)) : Prop where
  plain : ∀ s ∈ ss, IsPlain k s
  front : k = .file → dropEmpty ss = ss

theorem isPlain_nil (k : SchemeKind) : IsPlain k [] :=
  ⟨by simp, by simp, rfl, rfl⟩

/-- The encoded segments of a text without marks are plain, dots apart. -/
theorem inside_of_mem_parts {relative : List Char} (h : ∀ c ∈ relative, c ≠ '?' ∧ c ≠ '#')
    (hs : s ∈ (Text.segments k.isSlash relative).map (Percent.encode Percent.standsInPath)) :
    (∀ c ∈ s, Percent.standsInPath c = true) ∧
      ∀ c ∈ s, k.isSlash c = false ∧ c ≠ '?' ∧ c ≠ '#' := by
  obtain ⟨t, ht, rfl⟩ := List.mem_map.mp hs
  refine ⟨Percent.stands_of_mem_encode Percent.standsInPath_of_mem_signs, ?_⟩
  apply Percent.forall_mem_encode
  · intro c hc
    have hmarks : ∀ c ∈ Percent.signs, c ≠ '?' ∧ c ≠ '#' := List.all_iff_forall_prop.mp (by decide)
    exact ⟨k.isSlash_of_mem_signs c hc, hmarks c hc⟩
  · intro c hc
    obtain ⟨hmem, hslash⟩ := Text.mem_segments ht hc
    exact ⟨hslash, h c hmem⟩

/-- A relative text leads from a path of plain segments to a settled path, which is not empty. -/
theorem exists_extend_eq {relative : List Char} (hpath : ∀ s ∈ path, IsPlain k s)
    (hrelative : ∀ c ∈ relative, c ≠ '?' ∧ c ≠ '#') :
    ∃ ss, extend k path relative = .segments ss ∧ ss ≠ [] ∧ Settled k ss := by
  have hne : walk path ((Text.segments k.isSlash relative).map
      (Percent.encode Percent.standsInPath)) ≠ [] :=
    walk_ne_nil fun h => Text.segments_ne_nil _ _ (List.map_eq_nil_iff.mp h)
  have hplain : ∀ s ∈ walk path ((Text.segments k.isSlash relative).map
      (Percent.encode Percent.standsInPath)), IsPlain k s := by
    refine forall_mem_walk (isPlain_nil k) hpath fun s hs hone htwo => ?_
    obtain ⟨hstands, hinside⟩ := inside_of_mem_parts hrelative hs
    exact ⟨hstands, hinside, hone, htwo⟩
  refine ⟨_, rfl, ?_, ?_, ?_⟩
  · split
    next => exact dropEmpty_ne_nil hne
    next => exact hne
  · intro s hs
    split at hs
    next => exact hplain s (mem_of_mem_dropEmpty hs)
    next => exact hplain s hs
  · intro hk
    rw [if_pos hk]
    exact dropEmpty_dropEmpty _

theorem exists_extend_root_eq {relative : List Char} (h : ∀ c ∈ relative, c ≠ '?' ∧ c ≠ '#') :
    ∃ ss, extend k [] relative = .segments ss ∧ ss ≠ [] ∧ Settled k ss :=
  exists_extend_eq (fun _ hs => nomatch hs) h

/-- The path that follows an authority is settled, and is not empty if the scheme has a hierarchy of
its own. -/
theorem exists_ofRooted_eq {cs : List Char} (h : ∀ c ∈ cs, c ≠ '?' ∧ c ≠ '#') :
    ∃ ss, ofRooted k cs = .segments ss ∧ (k.isSpecial = true → ss ≠ []) ∧ Settled k ss := by
  cases cs with
  | nil =>
    cases hk : k.isSpecial with
    | true =>
      refine ⟨[[]], by rw [ofRooted, if_pos hk], by simp, ?_, fun _ => rfl⟩
      intro s hs
      rw [List.mem_singleton.mp hs]
      exact isPlain_nil k
    | false =>
      exact ⟨[], by rw [ofRooted, if_neg (Bool.eq_false_iff.mp hk)], by simp, by simp, fun _ => rfl⟩
  | cons c cs =>
    have hrelative : ∀ d ∈ (if k.isSlash c then cs else c :: cs), d ≠ '?' ∧ d ≠ '#' := by
      intro d hd
      split at hd
      next => exact h d (List.mem_cons_of_mem _ hd)
      next => exact h d hd
    obtain ⟨ss, hss, hne, hsettled⟩ := exists_extend_root_eq hrelative
    exact ⟨ss, hss, fun _ => hne, hsettled⟩

namespace Settled

theorem dropLast (h : Settled k ss) : ∀ s ∈ ss.dropLast, IsPlain k s :=
  fun s hs => h.plain s (List.dropLast_subset _ hs)

end Settled

end UrlPath

end JsonNav
