import Mathlib.Data.Bool.AllAny
import JsonNav.Proofs.Url.Ipv4
import JsonNav.Proofs.Url.Percent
import JsonNav.Url.Host

/-! Authorities that are settled: the text of one is read as that authority, and nothing in it ends
an authority.  Every authority that is read is settled. -/

namespace JsonNav.Authority

variable {k : SchemeKind} {cs h : List Char} {a : Authority} {c : Char}

/-! ### Characters -/

theorem toLower_of_standsInName (hc : standsInName c = true) :
    standsInName c.toLower = true ∧ c.toLower.toLower = c.toLower := by
  have hlt : c.toNat < 0x80 := by
    simp only [standsInName, Percent.isPrintable, Bool.and_eq_true, decide_eq_true_eq] at hc
    omega
  have hall : ∀ c : Char, c.toNat < 0x80 → standsInName c = true →
      standsInName c.toLower = true ∧ c.toLower.toLower = c.toLower :=
    Percent.forall_ascii (by decide)
  exact hall c hlt hc

/-- The characters that stand in a host. -/
def StandsInHost (c : Char) : Prop :=
  Percent.isPrintable c = true ∧ isForbidden c = false

theorem StandsInHost.of_standsInName (hc : standsInName c = true) : StandsInHost c := by
  simp only [standsInName, Bool.and_eq_true, Bool.not_eq_true'] at hc
  exact ⟨hc.1.1, hc.2⟩

/-! ### Hosts -/

theorem name?_eq_some_iff {name : List Char} : name? cs = some name ↔
    (∀ c ∈ cs, standsInName c = true) ∧ Domain.isSound (cs.map Char.toLower) = true ∧
      cs.map Char.toLower = name := by
  simp [name?, and_assoc]

/-- A name is its own name. -/
theorem name?_self {name : List Char} (h : name? cs = some name) : name? name = some name := by
  obtain ⟨hstands, hsound, rfl⟩ := name?_eq_some_iff.mp h
  have hlower : (cs.map Char.toLower).map Char.toLower = cs.map Char.toLower := by
    rw [List.map_map]
    exact List.map_congr_left fun c hc => (toLower_of_standsInName (hstands c hc)).2
  refine name?_eq_some_iff.mpr ⟨?_, by rwa [hlower], hlower⟩
  rw [List.forall_mem_map]
  exact fun c hc => (toLower_of_standsInName (hstands c hc)).1

theorem standsInName_of_name? {name : List Char} (h : name? cs = some name) :
    ∀ c ∈ name, standsInName c = true :=
  (name?_eq_some_iff.mp (name?_self h)).1

/-- Four numbers with dots between them are a name. -/
theorem name?_ipv4 (n : Nat) : name? (Ipv4.text n) = some (Ipv4.text n) := by
  have hdigits : ∀ d : Digit, standsInName d.toChar = true ∧ d.toChar.toLower = d.toChar := by
    decide
  have hstands {c : Char} (hc : c ∈ Ipv4.text n) : standsInName c = true ∧ c.toLower = c := by
    rcases Ipv4.isDigit_or_eq_of_mem_text hc with hdigit | rfl
    · obtain ⟨d, hd⟩ := Option.isSome_iff_exists.mp (Digit.isSome_ofChar?_iff.mpr hdigit)
      rw [Digit.eq_toChar_of_ofChar? hd]
      exact hdigits d
    · decide
  have hlower : (Ipv4.text n).map Char.toLower = Ipv4.text n := by
    conv => rhs; rw [← List.map_id (Ipv4.text n)]
    exact List.map_congr_left fun c hc => (hstands hc).2
  exact name?_eq_some_iff.mpr
    ⟨fun c hc => (hstands hc).1, by rw [hlower, Ipv4.isSound_text], hlower⟩

/-- The host that is read from a text is read from its own text too. -/
theorem namedHost?_self (hcs : namedHost? cs = some h) :
    namedHost? h = some h ∧ ∀ c ∈ h, StandsInHost c := by
  obtain ⟨name, hname, hhost⟩ := Option.bind_eq_some_iff.mp hcs
  -- A host by number is spelled anew, any other keeps its name.
  suffices hself : name? h = some h ∧
      (if Ipv4.isNumbered h then (Ipv4.address? h).map Ipv4.text else some h) = some h by
    refine ⟨Option.bind_eq_some_iff.mpr ⟨h, hself⟩, fun c hc => ?_⟩
    exact .of_standsInName (standsInName_of_name? hself.1 c hc)
  split at hhost
  next hnumbered =>
    obtain ⟨n, hn, rfl⟩ := Option.map_eq_some_iff.mp hhost
    refine ⟨name?_ipv4 n, ?_⟩
    rw [if_pos (Ipv4.isNumbered_text n), Ipv4.address?_text (Ipv4.lt_of_address? hn)]
    rfl
  next hnumbered =>
    obtain rfl := Option.some.inj hhost
    exact ⟨name?_self hname, if_neg hnumbered⟩

theorem fileHost?_self (hcs : fileHost? cs = some h) :
    fileHost? h = some h ∧ ∀ c ∈ h, StandsInHost c := by
  obtain ⟨host, hhost, rfl⟩ := Option.map_eq_some_iff.mp hcs
  split
  next => exact ⟨by decide, by simp⟩
  next hne =>
    obtain ⟨hself, hstands⟩ := namedHost?_self hhost
    exact ⟨by rw [fileHost?, hself, Option.map_some, if_neg hne], hstands⟩

theorem isForbidden_of_mem_signs : ∀ c ∈ Percent.signs, isForbidden c = false :=
  List.all_iff_forall_prop.mp (by decide)

theorem plainHost?_self (hcs : plainHost? cs = some h) :
    plainHost? h = some h ∧ ∀ c ∈ h, StandsInHost c := by
  rw [plainHost?] at hcs
  split at hcs
  next => exact nomatch hcs
  next hforbidden =>
    obtain rfl := Option.some.inj hcs
    have hprintable : ∀ c ∈ Percent.encode Percent.isPrintable cs, Percent.isPrintable c = true :=
      Percent.stands_of_mem_encode Percent.isPrintable_of_mem_signs
    have hplain : ∀ c ∈ Percent.encode Percent.isPrintable cs, isForbidden c = false := by
      refine Percent.forall_mem_encode isForbidden_of_mem_signs fun c hc => ?_
      exact Bool.eq_false_iff.mpr fun h => hforbidden (List.any_eq_true.mpr ⟨c, hc, h⟩)
    refine ⟨?_, fun c hc => ⟨hprintable c hc, hplain c hc⟩⟩
    rw [plainHost?, Percent.encode_eq_self hprintable, if_neg]
    rw [Bool.not_eq_true, List.any_eq_false]
    exact fun c hc => Bool.eq_false_iff.mp (hplain c hc)

/-! ### Ports -/

/-- A port that is written is read as that port. -/
theorem port?_self {p : Nat} (h : port? k cs = some (some p)) :
    port? k (Nat.repr p).toList = some (some p) := by
  have hport : p < UInt16.size ∧ some p ≠ k.defaultPort? := by
    unfold port? at h
    split at h
    next => exact nomatch h
    next =>
      dsimp only at h
      split at h
      next hlt =>
        rw [Option.some.injEq] at h
        split at h
        next => exact nomatch h
        next hdefault =>
          obtain rfl := Option.some.inj h
          exact ⟨hlt, hdefault⟩
      next => exact nomatch h
    next => exact nomatch h
  obtain ⟨w, htext, rfl⟩ := Whole.exists_text_eq_repr p
  rw [htext, port?, show Digit.span w.text = (w.toList, []) from Digit.span_text w.toList]
  show (if w.value < UInt16.size then
    some (if some w.value = k.defaultPort? then none else some w.value) else none) = _
  rw [if_pos hport.1, if_neg hport.2]

/-! ### Authorities -/

/-- What a host is read as. -/
def host? (k : SchemeKind) (cs : List Char) : Option (List Char) :=
  if k.isSpecial then namedHost? cs else plainHost? cs

theorem host?_self (hcs : host? k cs = some h) :
    host? k h = some h ∧ ∀ c ∈ h, StandsInHost c := by
  unfold host? at hcs ⊢
  split at hcs
  next hk =>
    rw [if_pos hk]
    exact namedHost?_self hcs
  next hk =>
    rw [if_neg hk]
    exact plainHost?_self hcs

/-- The authority of a host and of the text after it. -/
def withPort? (k : SchemeKind) (host : List Char) : List Char → Option Authority
  | [] => if host = [] ∧ k.isSpecial then none else some ⟨host, none⟩
  | _ :: cs => if host = [] then none else (port? k cs).bind fun port => some ⟨host, port⟩

theorem ofText?_eq (k : SchemeKind) (cs : List Char) :
    ofText? k cs = (host? k (cs.takeWhile (· ≠ ':'))).bind
      fun host => withPort? k host (cs.dropWhile (· ≠ ':')) := by
  rw [ofText?, host?]
  split
  next => cases cs.dropWhile (· ≠ ':') <;> rfl
  next => cases cs.dropWhile (· ≠ ':') <;> rfl

/-- An authority whose text is read as that authority. -/
structure Settled (k : SchemeKind) (a : Authority) : Prop where
  stands : ∀ c ∈ a.host, StandsInHost c
  named : ∀ port, k = .network port → a.host ≠ []
  self : parse? k a.text = some a

theorem ne_colon_of_standsInHost (hc : StandsInHost c) : decide (c ≠ ':') = true := by
  rw [decide_eq_true_iff]
  rintro rfl
  exact absurd hc.2 (by decide)

theorem ofText?_text (hself : host? k a.host = some a.host) (hstands : ∀ c ∈ a.host, StandsInHost c)
    (hempty : a.host = [] → k.isSpecial = false ∧ a.port = none)
    (hport : ∀ p, a.port = some p → port? k (Nat.repr p).toList = some (some p)) :
    ofText? k a.text = some a := by
  have hcolon : ∀ c ∈ a.host, decide (c ≠ ':') = true :=
    fun c hc => ne_colon_of_standsInHost (hstands c hc)
  obtain ⟨host, port⟩ := a
  change host? k host = some host at hself
  rw [ofText?_eq, text, List.takeWhile_append_of_pos hcolon, List.dropWhile_append_of_pos hcolon]
  cases port with
  | none =>
    show (host? k (host ++ [])).bind (withPort? k · []) = _
    rw [List.append_nil, hself, Option.bind_some, withPort?, if_neg]
    rintro ⟨hnil, hk⟩
    exact Bool.false_ne_true ((hempty hnil).1.symm.trans hk)
  | some p =>
    show (host? k (host ++ [])).bind (withPort? k · (':' :: (Nat.repr p).toList)) = _
    rw [List.append_nil, hself, Option.bind_some, withPort?, if_neg, hport p rfl]
    · rfl
    · exact fun hnil => nomatch (hempty hnil).2

theorem withPort?_eq_some {host rest : List Char} (h : withPort? k host rest = some a) :
    a.host = host ∧ (host = [] → k.isSpecial = false ∧ a.port = none) ∧
      ∀ p, a.port = some p → port? k (Nat.repr p).toList = some (some p) := by
  cases rest with
  | nil =>
    rw [withPort?] at h
    split at h
    next => exact nomatch h
    next hne =>
      obtain rfl := Option.some.inj h
      refine ⟨rfl, fun hnil => ⟨?_, rfl⟩, fun p hp => nomatch hp⟩
      exact Bool.eq_false_iff.mpr fun hk => hne ⟨hnil, hk⟩
  | cons c cs =>
    rw [withPort?] at h
    split at h
    next => exact nomatch h
    next hne =>
      obtain ⟨port, hport, ha⟩ := Option.bind_eq_some_iff.mp h
      obtain rfl := Option.some.inj ha
      refine ⟨rfl, fun hnil => absurd hnil hne, fun p hp => ?_⟩
      obtain rfl : port = some p := hp
      exact port?_self hport

theorem settled_of_ofText? (hk : parse? k = ofText? k) (h : ofText? k cs = some a) :
    Settled k a := by
  rw [ofText?_eq] at h
  obtain ⟨host, hhost, h⟩ := Option.bind_eq_some_iff.mp h
  obtain ⟨hself, hstands⟩ := host?_self hhost
  obtain ⟨rfl, hempty, hport⟩ := withPort?_eq_some h
  refine ⟨hstands, ?_, by rw [hk]; exact ofText?_text hself hstands hempty hport⟩
  rintro port rfl hnil
  exact nomatch (hempty hnil).1

/-- Every authority that is read is settled. -/
theorem settled_of_parse? (h : parse? k cs = some a) : Settled k a := by
  cases k with
  | file =>
    obtain ⟨host, hhost, rfl⟩ := Option.map_eq_some_iff.mp h
    obtain ⟨hself, hstands⟩ := fileHost?_self hhost
    refine ⟨hstands, fun _ hk => (nomatch hk), ?_⟩
    rw [parse?, text, Option.map_none, Option.getD_none, List.append_nil, hself]
    rfl
  | network port => exact settled_of_ofText? rfl h
  | other => exact settled_of_ofText? rfl h

namespace Settled

/-- Nothing in the text of an authority ends an authority or an address. -/
theorem stands_text (h : Settled k a) :
    ∀ c ∈ a.text, Percent.isPrintable c = true ∧ c ∉ [' ', '/', '\\', '?', '#'] := by
  have hhost : ∀ c, StandsInHost c → Percent.isPrintable c = true ∧
      c ∉ [' ', '/', '\\', '?', '#'] := by
    intro c hc
    refine ⟨hc.1, fun hmem => ?_⟩
    have hforbidden : ∀ c ∈ [' ', '/', '\\', '?', '#'], isForbidden c = true :=
      List.all_iff_forall_prop.mp (by decide)
    exact Bool.false_ne_true (hc.2.symm.trans (hforbidden c hmem))
  have hdigit : ∀ d : Digit, Percent.isPrintable d.toChar = true ∧
      isForbidden d.toChar = false := by decide
  intro c hc
  rcases List.mem_append.mp hc with hc | hc
  · exact hhost c (h.stands c hc)
  · cases hport : a.port with
    | none => simp [hport] at hc
    | some p =>
      obtain ⟨w, htext, -⟩ := Whole.exists_text_eq_repr p
      rw [hport, Option.map_some, Option.getD_some, htext] at hc
      rcases List.mem_cons.mp hc with rfl | hc
      · decide
      · obtain ⟨d, -, rfl⟩ := List.mem_map.mp hc
        exact hhost _ (hdigit d)

end Settled

end JsonNav.Authority
