import JsonNav.Domain.Label
import JsonNav.Proofs.Number.Decimal
import JsonNav.Proofs.Text.Segments
import JsonNav.Url.Ipv4

/-! Hosts that are given by number, written in four parts.  The number that such a text denotes is
the number that was written, and each part is a sound label. -/

namespace JsonNav

namespace Domain

/-- Digits make a sound label, and are written from left to right. -/
theorem labelText?_text (w : Whole) : labelText? w.text = some (w.text.map Char.toNat) := by
  rw [labelText?, if_neg]
  intro h
  obtain ⟨rest, hrest⟩ := List.isPrefixOf_iff_prefix.mp h
  have hx : 'x' ∈ w.text := by simp [← hrest, spellingMark]
  exact absurd (Digit.isDigit_of_mem_text hx) (by decide)

theorem isBidirectional_text (ds : List Digit) :
    isBidirectional ((Digit.text ds).map Char.toNat) = false := by
  have hdigit : ∀ d : Digit, Direction.of d.toChar.toNat = .digit := by decide
  rw [isBidirectional, Digit.text, List.map_map, List.map_map, List.any_map, List.any_eq_false]
  intro d _
  simp [hdigit d]

end Domain

namespace Ipv4

variable {n : Nat}

theorem number?_text (ds : List Digit) : number? 10 (Digit.text ds) = some (Digit.value ds) := by
  have hdigit : digit? 10 ∘ Digit.toChar = fun d => pure d.val := by
    funext d
    revert d
    decide
  rw [number?, Digit.text, List.mapM_map, hdigit, List.mapM_pure]
  simp only [Option.pure_def, Option.map_some, List.foldl_map]
  rfl

theorem part?_text (w : Whole) : part? w.text = some w.value := by
  obtain ⟨⟨d, ds⟩, hcanonical⟩ := w
  show part? (d.toChar :: Digit.text ds) = some (Digit.value (d :: ds))
  rw [← number?_text]
  by_cases hd : d = 0
  · have hds : ds = [] := hcanonical hd
    subst hd hds
    rfl
  · have hlead : ∀ d : Digit, d ≠ 0 → d.toChar ≠ '0' := by decide
    rw [part?]
    · rfl
    · exact List.cons_ne_nil _ _
    · intro cs h
      exact hlead d hd (List.cons.inj h).1
    · intro c cs h
      exact hlead d hd (List.cons.inj h).1

/-- A host that is given by number is written in four parts, each of which is a byte. -/
theorem exists_segments_text (n : Nat) : ∃ ws : List Whole,
    Text.segments (· = '.') (text n) = ws.map (·.text) ∧
      ws.map (·.value) = [3, 2, 1, 0].map fun i => n >>> (8 * i) % 256 := by
  choose whole htext hvalue using Whole.exists_text_eq_repr
  let part (i : Nat) : Whole := whole (n >>> (8 * i) % 256)
  have hjoined : text n = (part 3).text ++ ([2, 1, 0].map (part · |>.text)).flatMap ('.' :: ·) := by
    simp only [text, htext, part]
    simp
  refine ⟨[3, 2, 1, 0].map part, ?_, by simp [part, hvalue]⟩
  rw [hjoined, Text.segments_joined (decide_eq_true rfl)]
  · rfl
  · intro t ht c hc
    obtain ⟨i, -, rfl⟩ := List.mem_map.mp (show t ∈ [3, 2, 1, 0].map (part · |>.text) from ht)
    have hdigit := Digit.isDigit_of_mem_text hc
    rw [decide_eq_false_iff_not]
    rintro rfl
    exact absurd hdigit (by decide)

theorem isDigit_or_eq_of_mem_text {c : Char} (h : c ∈ text n) : c.isDigit = true ∨ c = '.' := by
  simp only [text, List.mem_append, List.mem_cons] at h
  grind [isDigit_of_mem_repr]

theorem parts_text {ws : List Whole} (h : Text.segments (· = '.') (text n) = ws.map (·.text)) :
    parts (text n) = ws.map (·.text) := by
  rw [parts, h, if_neg]
  intro hlast
  obtain ⟨w, -, hw⟩ := List.mem_map.mp (List.mem_of_getLast? hlast)
  exact List.cons_ne_nil _ _ hw

theorem isNumbered_text (n : Nat) : isNumbered (text n) = true := by
  obtain ⟨ws, hsegments, hvalues⟩ := exists_segments_text n
  have hlast := congrArg List.getLast? hvalues
  rw [List.getLast?_map] at hlast
  obtain ⟨w, hw, -⟩ := Option.map_eq_some_iff.mp hlast
  rw [isNumbered, parts_text hsegments, List.getLast?_map, hw]
  simp [part?_text]

theorem combine?_bytes {a b c d : Nat} (ha : a < 256) (hb : b < 256) (hc : c < 256)
    (hd : d < 256) :
    combine? UInt32.size [a, b, c, d] = some (a * 2 ^ 24 + (b * 2 ^ 16 + (c * 2 ^ 8 + d))) := by
  simp [combine?, UInt32.size, ha, hb, hc, hd]

/-- The number that is written in four parts is the number that they denote. -/
theorem address?_text (h : n < UInt32.size) : address? (text n) = some n := by
  obtain ⟨ws, hsegments, hvalues⟩ := exists_segments_text n
  have hparts : part? ∘ (fun w : Whole => w.text) = fun w => pure w.value :=
    funext part?_text
  have hmapM : (ws.map (·.text)).mapM part? = some (ws.map (·.value)) := by
    rw [List.mapM_map, hparts, List.mapM_pure]
    rfl
  have hlt (m : Nat) : m % 256 < 256 := Nat.mod_lt _ (by decide)
  rw [address?, parts_text hsegments, hmapM, hvalues]
  show combine? UInt32.size [n >>> 24 % 256, n >>> 16 % 256, n >>> 8 % 256, n % 256] = some n
  rw [combine?_bytes (hlt _) (hlt _) (hlt _) (hlt _), Option.some.injEq,
    Nat.shiftRight_eq_div_pow, Nat.shiftRight_eq_div_pow, Nat.shiftRight_eq_div_pow]
  rw [UInt32.size] at h
  omega

theorem lt_of_combine? {weight : Nat} {ns : List Nat} (h : combine? weight ns = some n) :
    n < weight := by
  induction weight, ns using combine?.induct generalizing n with
  | case1 weight => exact nomatch h
  | case2 weight m hm =>
    rw [combine?, if_pos hm] at h
    rwa [← Option.some.inj h]
  | case3 weight m hm =>
    rw [combine?, if_neg hm] at h
    exact nomatch h
  | case4 weight m ms hne hm ih =>
    rw [combine?, if_pos hm] at h
    · obtain ⟨r, hr, rfl⟩ := Option.map_eq_some_iff.mp h
      have hlt := ih hr
      have hdiv := Nat.div_mul_le_self weight 256
      calc m * (weight / 256) + r < m * (weight / 256) + weight / 256 := by omega
        _ = (m + 1) * (weight / 256) := by ring
        _ ≤ 256 * (weight / 256) := Nat.mul_le_mul_right _ hm
        _ ≤ weight := by omega
    · exact hne
  | case5 weight m ms hne hm =>
    rw [combine?, if_neg hm] at h
    · exact nomatch h
    · exact hne

theorem lt_of_address? {name : List Char} (h : address? name = some n) : n < UInt32.size := by
  obtain ⟨ns, -, hns⟩ := Option.bind_eq_some_iff.mp h
  split at hns
  next => exact lt_of_combine? hns
  next => exact nomatch hns

theorem isSound_text (n : Nat) : Domain.isSound (text n) = true := by
  obtain ⟨ws, hsegments, -⟩ := exists_segments_text n
  have hlabels : Domain.labelText? ∘ (fun w : Whole => w.text) =
      fun w => pure (w.text.map Char.toNat) := funext Domain.labelText?_text
  have hmapM : (ws.map (·.text)).mapM Domain.labelText? =
      some (ws.map fun w => w.text.map Char.toNat) := by
    rw [List.mapM_map, hlabels, List.mapM_pure]
    rfl
  have hany : (ws.map fun w => w.text.map Char.toNat).any Domain.isBidirectional = false := by
    rw [List.any_map, List.any_eq_false]
    intro w _
    exact Bool.eq_false_iff.mp (Domain.isBidirectional_text w.toList)
  rw [Domain.isSound, hsegments, hmapM]
  simp only [hany]
  rfl

end Ipv4

end JsonNav
