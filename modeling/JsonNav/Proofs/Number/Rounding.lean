import JsonNav.Proofs.Number.Nearest

/-! Literals are rounded correctly.  `Numeral.magnitude` is the rational number that a literal
denotes but for its sign, and `Binary64.Rounds` relates a literal to the number that is nearest to
it, so `Binary64.rounds_iff` says that `Binary64.ofNumeral` rounds to nearest, and ties to even. -/

namespace JsonNav

namespace Digit

theorem value_append_singleton (ds : List Digit) (d : Digit) :
    value (ds ++ [d]) = 10 * value ds + d.val := by
  simp [value, List.foldl_append]

theorem value_append (ds es : List Digit) :
    value (ds ++ es) = value ds * 10 ^ es.length + value es := by
  induction es using List.reverseRecOn with
  | nil => simp [value]
  | append_singleton es e ih =>
    rw [← List.append_assoc, value_append_singleton, ih, value_append_singleton, List.length_append,
      List.length_singleton, pow_succ]
    ring

theorem value_cons (d : Digit) (ds : List Digit) :
    value (d :: ds) = d.val * 10 ^ ds.length + value ds := by
  have h := value_append [d] ds
  rwa [show value [d] = d.val by simp [value]] at h

theorem value_lt (ds : List Digit) : value ds < 10 ^ ds.length := by
  induction ds with
  | nil => simp [value]
  | cons d ds ih =>
    calc value (d :: ds) < d.val * 10 ^ ds.length + 10 ^ ds.length := by
          rw [value_cons]
          omega
      _ = (d.val + 1) * 10 ^ ds.length := by ring
      _ ≤ 10 * 10 ^ ds.length := Nat.mul_le_mul_right _ d.isLt
      _ = 10 ^ (d :: ds).length := by
          rw [List.length_cons, pow_succ]
          ring

theorem value_dropWhile (ds : List Digit) : value (ds.dropWhile (·.val = 0)) = value ds := by
  induction ds with
  | nil => rfl
  | cons d ds ih =>
    by_cases h : d.val = 0
    · rw [List.dropWhile_cons_of_pos (by simpa using h), ih, value_cons, h]
      simp
    · rw [List.dropWhile_cons_of_neg (by simpa using h)]

/-- A number whose first digit is not zero has as many digits as its size demands. -/
theorem le_value_dropWhile (ds : List Digit) :
    value (ds.dropWhile (·.val = 0)) = 0 ∨
      10 ^ (ds.dropWhile (·.val = 0)).length ≤ 10 * value (ds.dropWhile (·.val = 0)) := by
  cases hds : ds.dropWhile (·.val = 0) with
  | nil => exact .inl rfl
  | cons d es =>
    right
    have hd : d.val ≠ 0 := by
      have hhead := List.head?_dropWhile_not (fun d : Digit => decide (d.val = 0)) ds
      rw [hds] at hhead
      simpa using hhead
    calc 10 ^ (d :: es).length = 10 * (1 * 10 ^ es.length) := by
          rw [List.length_cons, pow_succ]
          ring
      _ ≤ 10 * (d.val * 10 ^ es.length) := by
          gcongr
          omega
      _ ≤ 10 * value (d :: es) := by
          rw [value_cons]
          omega

end Digit

namespace Binary64

/-! ### Ratios -/

/-- Shifting by the parts of an exponent scales a ratio by its power of two. -/
theorem shift_ratio (num den : Nat) (e : Int) :
    ((num <<< (-e).toNat : Nat) : ℚ) / (den <<< e.toNat : Nat) = num / den * 2 ^ (-e) := by
  rw [Nat.shiftLeft_eq, Nat.shiftLeft_eq]
  push_cast
  rcases le_total 0 e with h | h
  · lift e to ℕ using h
    simp
    ring
  · obtain ⟨n, rfl⟩ := Int.exists_eq_neg_ofNat h
    simp
    ring

theorem shift_pos {n : Nat} (hn : 0 < n) (k : Nat) : 0 < n <<< k := by
  rw [Nat.shiftLeft_eq]
  positivity

/-- The division is by neighbours: what it yields is the quotient or the number after it, whichever
is nearer, and of two that are equally near the even one. -/
theorem divideNearest_eq {num den : Nat} (hden : 0 < den) {y : ℚ} (hy : y = num / den) :
    ((num / den : Nat) : ℚ) ≤ y ∧ y < (num / den : Nat) + 1 ∧
      divideNearest num den =
        if y - (num / den : Nat) < (num / den : Nat) + 1 - y ∨
          y - (num / den : Nat) = (num / den : Nat) + 1 - y ∧ num / den % 2 = 0
        then num / den else num / den + 1 := by
  have hpos : (0 : ℚ) < den := by exact_mod_cast hden
  have hmod : (num : ℚ) = den * (num / den : Nat) + (num % den : Nat) := by
    exact_mod_cast (Nat.div_add_mod num den).symm
  have hrest : y - (num / den : Nat) = (num % den : Nat) / den := by
    rw [hy, hmod]
    field_simp
    ring
  have hnonneg : (0 : ℚ) ≤ (num % den : Nat) / den := by positivity
  have hlt : ((num % den : Nat) : ℚ) / den < 1 := by
    rw [div_lt_one hpos]
    exact_mod_cast Nat.mod_lt num hden
  have hhalf : 2 * (((num % den : Nat) : ℚ) / den) = (2 * (num % den) : Nat) / den := by
    push_cast
    ring
  have hdown : 2 * (num % den) < den ↔ y - (num / den : Nat) < (num / den : Nat) + 1 - y := by
    calc 2 * (num % den) < den ↔ ((2 * (num % den) : Nat) : ℚ) / den < 1 := by
          rw [div_lt_one hpos, Nat.cast_lt]
      _ ↔ y - (num / den : Nat) < (num / den : Nat) + 1 - y := by
          rw [← hhalf, ← hrest]
          constructor <;> intro h <;> linarith
  have htie : 2 * (num % den) = den ↔ y - (num / den : Nat) = (num / den : Nat) + 1 - y := by
    calc 2 * (num % den) = den ↔ ((2 * (num % den) : Nat) : ℚ) / den = 1 := by
          rw [div_eq_one_iff_eq hpos.ne', Nat.cast_inj]
      _ ↔ y - (num / den : Nat) = (num / den : Nat) + 1 - y := by
          rw [← hhalf, ← hrest]
          constructor <;> intro h <;> linarith
  refine ⟨by linarith, by linarith, ?_⟩
  unfold divideNearest
  simp only [hdown, htie]

theorem binaryLog_spec {num den : Nat} (hnum : 0 < num) (hden : 0 < den) :
    (2 : ℚ) ^ binaryLog num den ≤ num / den ∧
      (num : ℚ) / den < 2 ^ (binaryLog num den + 1) := by
  have hpos : (0 : ℚ) < den := by exact_mod_cast hden
  have hnumLow : (2 : ℚ) ^ (num.log2 : Int) ≤ num := by
    exact_mod_cast Nat.log2_self_le hnum.ne'
  have hnumHigh : (num : ℚ) < 2 ^ ((num.log2 : Int) + 1) := by
    exact_mod_cast Nat.lt_log2_self (n := num)
  have hdenLow : (2 : ℚ) ^ (den.log2 : Int) ≤ den := by
    exact_mod_cast Nat.log2_self_le hden.ne'
  have hdenHigh : (den : ℚ) < 2 ^ ((den.log2 : Int) + 1) := by
    exact_mod_cast Nat.lt_log2_self (n := den)
  -- The lengths in bits leave two candidates, and the comparison is between the ratio and a power.
  set e : Int := num.log2 - den.log2 with he
  have hlow : (2 : ℚ) ^ (e - 1) ≤ num / den := by
    rw [le_div_iff₀ hpos]
    calc (2 : ℚ) ^ (e - 1) * den ≤ 2 ^ (e - 1) * 2 ^ ((den.log2 : Int) + 1) := by gcongr
      _ = 2 ^ (num.log2 : Int) := by
          rw [← zpow_add₀ two_ne_zero]
          congr 1
          omega
      _ ≤ num := hnumLow
  have hhigh : (num : ℚ) / den < 2 ^ (e + 1) := by
    rw [div_lt_iff₀ hpos]
    calc (num : ℚ) < 2 ^ ((num.log2 : Int) + 1) := hnumHigh
      _ = 2 ^ (e + 1) * 2 ^ (den.log2 : Int) := by
          rw [← zpow_add₀ two_ne_zero]
          congr 1
          omega
      _ ≤ 2 ^ (e + 1) * den := by gcongr
  have htest : den <<< e.toNat ≤ num <<< (-e).toNat ↔ (2 : ℚ) ^ e ≤ num / den := by
    have hshift : (0 : ℚ) < (den <<< e.toNat : Nat) := by exact_mod_cast shift_pos hden _
    rw [← Nat.cast_le (α := ℚ), ← one_le_div hshift, shift_ratio, zpow_neg, ← div_eq_mul_inv,
      one_le_div (zpow_pos two_pos e)]
  unfold binaryLog
  simp only [← he, htest]
  split
  next h => exact ⟨h, hhigh⟩
  next h => exact ⟨hlow, by simpa using h⟩

/-- A significand is rounded to a neighbour at its place value, or past the largest number. -/
theorem nearest_of_significand {y : ℚ} {m k r : Nat} (hm : m < 2 ^ 53) (hk : k = 0 ∨ 2 ^ 52 ≤ m)
    (hle : (m : ℚ) ≤ y) (hlt : y < m + 1)
    (hr : r = if y - m < m + 1 - y ∨ y - m = m + 1 - y ∧ m % 2 = 0 then m else m + 1) :
    Nearest (y * 2 ^ k) (min (r + k * 2 ^ 52) infinityBits) := by
  have hpos : (0 : ℚ) < 2 ^ k := by positivity
  have ha : (scaled (m + k * 2 ^ 52) : ℚ) = m * 2 ^ k := by
    exact_mod_cast scaled_grid (by omega) hk
  have hb : (scaled (m + k * 2 ^ 52 + 1) : ℚ) = (m + 1) * 2 ^ k := by
    rw [show m + k * 2 ^ 52 + 1 = m + 1 + k * 2 ^ 52 by omega]
    exact_mod_cast scaled_grid (by omega) (by omega)
  have hbelow : (scaled (m + k * 2 ^ 52) : ℚ) ≤ y * 2 ^ k := by
    rw [ha]
    gcongr
  rcases Nat.lt_or_ge (m + k * 2 ^ 52) infinityBits with hfinite | hover
  · have hmin : min (r + k * 2 ^ 52) infinityBits = r + k * 2 ^ 52 := by
      split at hr <;> omega
    rw [hmin]
    refine nearest_of_between hfinite hbelow (by rw [hb]; gcongr) ?_
    have hdown : y * 2 ^ k - scaled (m + k * 2 ^ 52) = (y - m) * 2 ^ k := by
      rw [ha]
      ring
    have hup : scaled (m + k * 2 ^ 52 + 1) - y * 2 ^ k = (m + 1 - y) * 2 ^ k := by
      rw [hb]
      ring
    have heven : (m + k * 2 ^ 52) % 2 = 0 ↔ m % 2 = 0 := by omega
    simp only [hdown, hup, mul_lt_mul_iff_left₀ hpos, mul_left_inj' hpos.ne', heven, hr]
    split <;> omega
  · have hmin : min (r + k * 2 ^ 52) infinityBits = infinityBits := by
      split at hr <;> omega
    rw [hmin]
    refine nearest_infinity (le_trans ?_ hbelow)
    exact_mod_cast scaled_strictMono.monotone hover

/-- The bits of a ratio are those of the nearest magnitude. -/
theorem nearest_magnitudeBits {num den : Nat} (hnum : 0 < num) (hden : 0 < den) :
    Nearest (num / den * 2 ^ 1074) (magnitudeBits num den) := by
  obtain ⟨hlow, hhigh⟩ := binaryLog_spec hnum hden
  unfold magnitudeBits leastExponent
  set q : Int := max (binaryLog num den - 52) (-1074) with hq
  -- The significand before it is rounded, and how often its place value was doubled.
  set y : ℚ := num / den * 2 ^ (-q) with hy
  set k : Nat := (q - -1074).toNat with hk
  obtain ⟨hle, hlt, hround⟩ :=
    divideNearest_eq (shift_pos hden q.toNat) (shift_ratio num den q).symm
  rw [← hy] at hle hlt hround
  set m : Nat := (num <<< (-q).toNat) / (den <<< q.toNat)
  have hyHigh : y < 2 ^ 53 := by
    calc y < 2 ^ (binaryLog num den + 1) * 2 ^ (-q) := by
          rw [hy]
          gcongr
      _ = 2 ^ (binaryLog num den + 1 - q) := by
          rw [← zpow_add₀ two_ne_zero]
          congr 1
      _ ≤ 2 ^ (53 : Int) := zpow_le_zpow_right₀ one_le_two (by omega)
      _ = 2 ^ 53 := by norm_num
  have hmHigh : m < 2 ^ 53 := by
    exact_mod_cast lt_of_le_of_lt hle hyHigh
  have hmLow : k = 0 ∨ 2 ^ 52 ≤ m := by
    rcases Nat.eq_zero_or_pos k with hzero | hpos
    · exact .inl hzero
    · have hyLow : (2 : ℚ) ^ 52 ≤ y := by
        calc (2 : ℚ) ^ 52 = 2 ^ binaryLog num den * 2 ^ (-q) := by
              rw [← zpow_add₀ two_ne_zero, ← zpow_natCast]
              congr 1
              omega
          _ ≤ y := by
              rw [hy]
              gcongr
      have hsucc : 2 ^ 52 < m + 1 := by
        exact_mod_cast lt_of_le_of_lt hyLow hlt
      exact .inr (by omega)
  have hx : (num : ℚ) / den * 2 ^ 1074 = y * 2 ^ k := by
    rw [hy, mul_assoc, ← zpow_natCast, ← zpow_natCast, ← zpow_add₀ two_ne_zero]
    congr 2
    omega
  rw [hx]
  simp only [Nat.shiftLeft_eq (q - -1074).toNat]
  exact nearest_of_significand hmHigh hmLow hle hlt hround

/-! ### Decimals -/

theorem ratio_pow_ten (d : Nat) (e : Int) :
    ((d * Nat.pow 10 e.toNat : Nat) : ℚ) / (Nat.pow 10 (-e).toNat : Nat) = d * 10 ^ e := by
  rw [Nat.pow_eq, Nat.pow_eq]
  push_cast
  rcases le_total 0 e with h | h
  · lift e to ℕ using h
    simp
  · obtain ⟨n, rfl⟩ := Int.exists_eq_neg_ofNat h
    simp
    ring

theorem nearest_decimalBits {d count : Nat} (e : Int) (hhigh : d < 10 ^ count)
    (hlow : d = 0 ∨ 10 ^ count ≤ 10 * d) :
    Nearest (d * 10 ^ e * 2 ^ 1074) (decimalBits d count e) := by
  unfold decimalBits
  split
  next hd =>
    subst hd
    simpa using nearest_zero le_rfl one_half_pos
  next hd =>
  replace hlow := hlow.resolve_left hd
  split
  next hover =>
    refine nearest_infinity ?_
    have hten : (10 : ℚ) ^ (310 : Int) ≤ d * 10 ^ e := by
      have hlow : (10 : ℚ) ^ count ≤ 10 * d := by exact_mod_cast hlow
      calc (10 : ℚ) ^ (310 : Int) ≤ 10 ^ (count + e - 1) :=
            zpow_le_zpow_right₀ (by norm_num) (by omega)
        _ = 10 ^ count * 10 ^ e / 10 := by
            rw [zpow_sub_one₀ (by norm_num), zpow_add₀ (by norm_num), zpow_natCast]
            rfl
        _ ≤ 10 * d * 10 ^ e / 10 := by gcongr
        _ = d * 10 ^ e := by ring
    have hlargest : (2 : ℚ) ^ 1024 ≤ 10 ^ (310 : Int) := by
      have h : 2 ^ 1024 ≤ 10 ^ 310 := by decide +kernel
      exact_mod_cast h
    calc (scaled infinityBits : ℚ) = 2 ^ 1024 * 2 ^ 1074 := by
          rw [scaled_infinityBits, ← pow_add, Nat.cast_pow]
          rfl
      _ ≤ 10 ^ (310 : Int) * 2 ^ 1074 := by gcongr
      _ ≤ d * 10 ^ e * 2 ^ 1074 := by gcongr
  next =>
  split
  next hunder =>
    refine nearest_zero (by positivity) ?_
    have hhigh : (d : ℚ) < 10 ^ count := by exact_mod_cast hhigh
    have hleast : (10 : ℚ) ^ (-327 : Int) * 2 ^ 1074 < 1 / 2 := by
      have h : (2 ^ 1074 * 2 : ℚ) < 10 ^ 327 := by
        exact_mod_cast (by decide +kernel : 2 ^ 1074 * 2 < 10 ^ 327)
      rw [zpow_neg, lt_div_iff₀ two_pos, mul_assoc, inv_mul_lt_iff₀ (by positivity), mul_one]
      exact_mod_cast h
    calc (d : ℚ) * 10 ^ e * 2 ^ 1074 < 10 ^ count * 10 ^ e * 2 ^ 1074 := by gcongr
      _ = 10 ^ (count + e) * 2 ^ 1074 := by
          rw [zpow_add₀ (by norm_num), zpow_natCast]
      _ ≤ 10 ^ (-327 : Int) * 2 ^ 1074 := by
          gcongr
          · norm_num
          · omega
      _ < 1 / 2 := hleast
  next =>
    rw [← ratio_pow_ten]
    refine nearest_magnitudeBits ?_ ?_
    · rw [Nat.pow_eq]
      positivity
    · rw [Nat.pow_eq]
      positivity

theorem toNat_bits_ofMagnitude {negative : Bool} {b : Nat} (hb : b ≤ infinityBits) :
    (ofMagnitude negative b).bits.toNat = if negative then b + signBit else b := by
  have hsign : infinityBits + signBit < 2 ^ 64 := by decide
  have hlt : (if negative then b + signBit else b) < 2 ^ 64 := by
    split <;> omega
  exact UInt64.toNat_ofNat_of_lt' hlt

end Binary64

namespace Numeral

/-- The magnitude that a literal denotes. -/
def magnitude (n : Numeral) : ℚ :=
  (n.whole.value + (n.fraction.map fun ds => (ds.value : ℚ) / 10 ^ ds.toList.length).getD 0) *
    10 ^ (n.exponent.map Exponent.value).getD 0

theorem magnitude_eq (n : Numeral) : n.magnitude = Digit.value n.digits * 10 ^ n.scale := by
  unfold magnitude digits scale
  cases n.fraction with
  | none => simp [Digits.value]
  | some ds =>
    rw [zpow_sub₀ (by norm_num), zpow_natCast]
    simp [Digits.value, Digit.value_append]
    field_simp

end Numeral

namespace Binary64

/-- `x` is the number nearest to what `n` denotes, with the sign of `n` also when it is zero. -/
def Rounds (n : Numeral) (x : Binary64) : Prop :=
  ∃ b, Nearest (n.magnitude * 2 ^ 1074) b ∧
    x.bits.toNat = if n.negative then b + signBit else b

/-- A literal is rounded to the nearest number and to no other. -/
theorem rounds_iff {n : Numeral} {x : Binary64} : Rounds n x ↔ x = ofNumeral n := by
  have hnearest : Nearest (n.magnitude * 2 ^ 1074)
      (decimalBits (Digit.value (n.digits.dropWhile (·.val = 0)))
        (n.digits.dropWhile (·.val = 0)).length n.scale) := by
    rw [Numeral.magnitude_eq, ← Digit.value_dropWhile]
    exact nearest_decimalBits n.scale (Digit.value_lt _) (Digit.le_value_dropWhile _)
  constructor
  · rintro ⟨b, hb, hx⟩
    obtain rfl := hb.unique hnearest
    rw [← toNat_bits_ofMagnitude hb.le] at hx
    exact congrArg mk (UInt64.toNat_inj.mp hx)
  · rintro rfl
    exact ⟨_, hnearest, toNat_bits_ofMagnitude hnearest.le⟩

end Binary64

end JsonNav
