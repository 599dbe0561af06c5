import Mathlib.Data.Bool.AllAny
import JsonNav.Proofs.Url.Host
import JsonNav.Proofs.Url.Parts
import JsonNav.Proofs.Url.Path

/-! Addresses that are settled: the text of one is absolute and is read as that address, whatever the
address that it is taken relative to. -/

namespace JsonNav.Url

variable {u : Url} {scheme cs : List Char} {p : Parts} {k : SchemeKind}

/-! ### Settled addresses -/

/-- The authority and the path of an address: a path without an authority is one of segments, of
which there are some, or a text that does not begin with a slash. -/
inductive Placed (k : SchemeKind) : Option Authority → UrlPath → Prop
  | hosted {a : Authority} {ss : List (List Char)} : a.Settled k → UrlPath.Settled k ss →
      (k.isSpecial = true → ss ≠ []) → Placed k (some a) (.segments ss)
  | rooted {ss : List (List Char)} : k = .other → UrlPath.Settled k ss → ss ≠ [] →
      Placed k none (.segments ss)
  | verbatim {text : List Char} : k = .other →
      (∀ c ∈ text, Percent.isPrintable c = true ∧ c ≠ '?' ∧ c ≠ '#') → text.head? ≠ some '/' →
      Placed k none (.verbatim text)

/-- What follows the scheme of an address. -/
def parts (u : Url) : Parts :=
  ⟨u.beforePath ++ u.path.text, u.query, u.fragment⟩

structure Settled (u : Url) : Prop where
  scheme : IsScheme u.scheme
  placed : Placed u.kind u.authority u.path
  parts : u.parts.Settled u.kind

theorem text_eq (u : Url) : u.text = u.scheme ++
    ':' :: (u.parts.body ++ marked '?' u.parts.query ++ marked '#' u.parts.fragment) := by
  simp [text, parts, marked]

namespace Placed

variable {authority : Option Authority} {ss : List (List Char)}

theorem settled_path (h : Placed k authority (.segments ss)) : UrlPath.Settled k ss := by
  cases h with
  | hosted _ hss => exact hss
  | rooted _ hss => exact hss

theorem stands_path (h : Placed k authority (.segments ss)) :
    ∀ c ∈ (UrlPath.segments ss).text, Percent.isPrintable c = true ∧ c ∉ [' ', '?', '#'] := by
  intro c hc
  obtain ⟨s, hs, hc⟩ := List.mem_flatMap.mp hc
  have hplain := h.settled_path.plain s hs
  rcases List.mem_cons.mp hc with rfl | hc
  · decide
  · have hstands := hplain.stands c hc
    simp only [Percent.standsInPath, Bool.and_eq_true, Bool.not_eq_true', List.contains_eq_mem,
      decide_eq_false_iff_not, List.mem_cons, not_or] at hstands
    exact ⟨hstands.1, by simp [(hplain.inside c hc).2, hstands.2.1]⟩

/-- No mark and no blank stands before the query of an address whose path is one of segments. -/
theorem stands_body (h : Placed k authority (.segments ss)) (scheme : List Char)
    (query fragment : Option (List Char)) :
    ∀ c ∈ (parts ⟨scheme, authority, .segments ss, query, fragment⟩).body,
      Percent.isPrintable c = true ∧ c ∉ [' ', '?', '#'] := by
  intro c hc
  rcases List.mem_append.mp hc with hc | hc
  · cases h with
    | hosted ha =>
      rcases List.mem_cons.mp hc with rfl | hc
      · decide
      rcases List.mem_cons.mp hc with rfl | hc
      · decide
      · obtain ⟨hprintable, hnot⟩ := ha.stands_text c hc
        simp only [List.mem_cons, not_or] at hnot
        exact ⟨hprintable, by simp [hnot]⟩
    | rooted =>
      change c ∈ (if (UrlPath.segments ss).looksLikeAuthority then ['/', '.'] else []) at hc
      split at hc
      next =>
        have hdot : ∀ c ∈ ['/', '.'], Percent.isPrintable c = true ∧ c ∉ [' ', '?', '#'] :=
          List.all_iff_forall_prop.mp (by decide)
        exact hdot c hc
      next => exact nomatch hc
  · exact h.stands_path c hc

/-- Another path of segments may stand in the place of a path of segments. -/
theorem replace {ss' : List (List Char)} (h : Placed k authority (.segments ss))
    (hss' : UrlPath.Settled k ss') (hne : ss' ≠ []) : Placed k authority (.segments ss') := by
  cases h with
  | hosted ha => exact .hosted ha hss' fun _ => hne
  | rooted hk => exact .rooted hk hss' hne

end Placed

/-- An address with a path of segments that follows a scheme is settled if its parts are. -/
theorem settled_of_segments {authority : Option Authority} {ss : List (List Char)}
    (hscheme : IsScheme scheme) (hp : p.Settled (.ofScheme scheme))
    (h : Placed (.ofScheme scheme) authority (.segments ss)) :
    Settled ⟨scheme, authority, .segments ss, p.query, p.fragment⟩ := by
  have hbody := h.stands_body scheme p.query p.fragment
  simp only [List.mem_cons, not_or] at hbody
  refine ⟨hscheme, h, ⟨fun c hc => ?_, hp.query, hp.fragment, fun _ _ hlast => ?_⟩⟩
  · obtain ⟨-, -, hquery, hfragment, -⟩ := hbody c hc
    exact ⟨hquery, hfragment⟩
  · exact (hbody _ (List.mem_of_getLast? hlast)).2.1 rfl

/-- A text that does not begin with a slash is settled when it is encoded. -/
theorem settled_of_verbatim (hscheme : IsScheme scheme) (hp : p.Settled (.ofScheme scheme))
    (hk : SchemeKind.ofScheme scheme = .other) (hfirst : p.body.head? ≠ some '/') :
    Settled ⟨scheme, none, .verbatim (Percent.encode Percent.isPrintable p.body), p.query,
      p.fragment⟩ := by
  have hprintable : ∀ c ∈ Percent.encode Percent.isPrintable p.body, Percent.isPrintable c = true :=
    Percent.stands_of_mem_encode Percent.isPrintable_of_mem_signs
  have hmarks : ∀ c ∈ Percent.encode Percent.isPrintable p.body, c ≠ '?' ∧ c ≠ '#' :=
    Percent.forall_mem_encode (List.all_iff_forall_prop.mp (by decide)) hp.body
  have hencoded : (Percent.encode Percent.isPrintable p.body).head? ≠ some '/' := by
    intro hc
    rcases Percent.head?_encode hc with hc | hc
    · exact hfirst hc
    · exact absurd hc (by decide)
  refine ⟨hscheme, .verbatim hk (fun c hc => ⟨hprintable c hc, hmarks c hc⟩) hencoded,
    ⟨hmarks, hp.query, hp.fragment, fun hquery hfragment hlast => ?_⟩⟩
  rcases Percent.getLast?_encode hlast with hc | hc
  · exact hp.ending hquery hfragment hc
  · exact absurd hc (by decide)

/-! ### Reading a settled address -/

namespace Settled

end Settled

theorem ofParts?_network {port : Nat} (hk : SchemeKind.ofScheme scheme = .network port) :
    ofParts? scheme p =
      ofAuthority? scheme p (p.body.dropWhile (SchemeKind.network port).isSlash) := by
  rw [ofParts?, hk]

end JsonNav.Url
