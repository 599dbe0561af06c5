import JsonNav.Proofs.Url.Settled

/-! Every address that is read from a text, absolute or relative to a settled address, is
settled. -/

namespace JsonNav.Url

variable {u base : Url} {scheme cs rest : List Char} {p : Parts} {k : SchemeKind}

/-! ### Addresses that are read are settled -/

theorem settled_of_ofAuthority? (hscheme : IsScheme scheme) (hp : p.Settled (.ofScheme scheme))
    (hcs : ∀ c ∈ cs, c ≠ '?' ∧ c ≠ '#') (h : ofAuthority? scheme p cs = some u) :
    u.Settled ∧ u.fragment = p.fragment := by
  rcases hsplit : Authority.split (.ofScheme scheme) cs with ⟨authority, rest⟩
  have hrest : ∀ c ∈ rest, c ≠ '?' ∧ c ≠ '#' := by
    intro c hc
    rw [show rest = (Authority.split (.ofScheme scheme) cs).2 by rw [hsplit]] at hc
    exact hcs c ((List.dropWhile_sublist _).mem ((List.dropWhile_sublist _).mem hc))
  rw [ofAuthority?, hsplit] at h
  obtain ⟨a, ha, rfl⟩ := Option.map_eq_some_iff.mp h
  obtain ⟨ss, hss, hne, hsettled⟩ := UrlPath.exists_ofRooted_eq (k := .ofScheme scheme) hrest
  rw [hss]
  exact ⟨settled_of_segments hscheme hp
    (.hosted (Authority.settled_of_parse? ha) hsettled hne), rfl⟩

/-- An address that is read from a scheme and what follows it is settled. -/
theorem settled_of_ofParts? (hscheme : IsScheme scheme) (hp : p.Settled (.ofScheme scheme))
    (h : ofParts? scheme p = some u) : u.Settled ∧ u.fragment = p.fragment := by
  cases hk : SchemeKind.ofScheme scheme with
  | network port =>
    rw [ofParts?_network hk] at h
    exact settled_of_ofAuthority? hscheme hp
      (fun c hc => hp.body c ((List.dropWhile_sublist _).mem hc)) h
  | file =>
    have hlocal : Authority.Settled (.ofScheme scheme) ⟨[], none⟩ := by
      rw [hk]
      exact Authority.settled_of_parse? (show Authority.parse? .file [] = some ⟨[], none⟩ by decide)
    rw [ofParts?, hk] at h
    dsimp only at h
    split at h
    next =>
      obtain rfl := Option.some.inj h
      obtain ⟨ss, hss, hne, hsettled⟩ := UrlPath.exists_extend_root_eq (k := .file) hp.body
      rw [hss]
      rw [← hk] at hsettled
      exact ⟨settled_of_segments hscheme hp (.hosted hlocal hsettled fun _ => hne), rfl⟩
    next =>
      obtain rfl := Option.some.inj h
      obtain ⟨ss, hss, hne, hsettled⟩ := UrlPath.exists_ofRooted_eq (k := .file) hp.body
      rw [hss]
      rw [← hk] at hne hsettled
      exact ⟨settled_of_segments hscheme hp (.hosted hlocal hsettled hne), rfl⟩
    next =>
      exact settled_of_ofAuthority? hscheme hp
        (fun c hc => hp.body c ((List.drop_sublist ..).mem hc)) h
  | other =>
    have hbody := hp.body
    rw [ofParts?, hk] at h
    dsimp only at h
    split at h
    next cs hcs =>
      refine settled_of_ofAuthority? hscheme hp (fun c hc => hbody c ?_) h
      rw [hcs]
      exact List.mem_cons_of_mem _ (List.mem_cons_of_mem _ hc)
    next cs _ hcs =>
      obtain rfl := Option.some.inj h
      have hmarks : ∀ c ∈ cs, c ≠ '?' ∧ c ≠ '#' :=
        fun c hc => hbody c (by rw [hcs]; exact List.mem_cons_of_mem _ hc)
      obtain ⟨ss, hss, hne, hsettled⟩ := UrlPath.exists_extend_root_eq (k := .other) hmarks
      rw [hss]
      rw [← hk] at hsettled
      exact ⟨settled_of_segments hscheme hp (.rooted hk hsettled hne), rfl⟩
    next hne =>
      obtain rfl := Option.some.inj h
      have hfirst : p.body.head? ≠ some '/' := by
        intro hc
        obtain ⟨cs, hcs⟩ := List.head?_eq_some_iff.mp hc
        exact hne cs hcs
      exact ⟨settled_of_verbatim hscheme hp hk hfirst, rfl⟩

/-- The text after a scheme ends as the text does. -/
theorem getLast?_rest {before : List Char} (h : clean cs = before ++ ':' :: rest) :
    rest.getLast? ≠ some ' ' := by
  intro hlast
  have hclean : (clean cs).getLast? = some ' ' := by
    rw [h, List.getLast?_append_of_ne_nil _ (List.cons_ne_nil _ _), List.getLast?_cons, hlast]
    rfl
  exact absurd (isMargin_of_getLast?_clean hclean) (by decide)

/-- An address that is read from a text is settled. -/
theorem settled_of_parse? (h : parse? cs = some u) : u.Settled := by
  obtain ⟨⟨scheme, rest⟩, hsplit, h⟩ := Option.bind_eq_some_iff.mp h
  obtain ⟨hscheme, before, hbefore⟩ := splitScheme?_eq_some hsplit
  exact (settled_of_ofParts? hscheme (Parts.settled_ofText _ (getLast?_rest hbefore)) h).1

end JsonNav.Url
