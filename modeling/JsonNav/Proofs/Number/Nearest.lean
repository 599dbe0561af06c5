import Mathlib.Algebra.Order.Field.Power
import Mathlib.Data.Rat.Cast.Order
import Mathlib.Tactic.FieldSimp
import Mathlib.Tactic.GCongr
import Mathlib.Tactic.Linarith
import Mathlib.Tactic.NormNum
import Mathlib.Tactic.Positivity
import Mathlib.Tactic.Ring
import JsonNav.Number.Binary64

/-! Numbers nearest to a magnitude.  `Binary64.scaled` gives the magnitude of a number in units of
the least positive number, so that every number is a natural number of units.  `Binary64.Nearest`
says which bits a magnitude rounds to: those of the nearest number, and of two that are equally near
those that are even.  Infinity stands where the number after the largest would be. -/

namespace JsonNav.Binary64

/-- The magnitude with the given bits, in units of the least positive number. -/
def scaled (b : Nat) : Nat :=
  if b < 2 ^ 52 then b else (2 ^ 52 + b % 2 ^ 52) * 2 ^ (b / 2 ^ 52 - 1)

/-- The magnitude with bits `b` is the nearest to `x`, and the even one of two that are. -/
structure Nearest (x : ℚ) (b : Nat) : Prop where
  le : b ≤ infinityBits
  near : ∀ c ≤ infinityBits, c ≠ b →
    |x - scaled b| < |x - scaled c| ∨ |x - scaled b| = |x - scaled c| ∧ b % 2 = 0

/-! ### The grid of numbers -/

/-- The magnitudes between two powers of two are equally far apart. -/
theorem scaled_grid {m k : Nat} (hm : m ≤ 2 ^ 53) (hk : k = 0 ∨ 2 ^ 52 ≤ m) :
    scaled (m + k * 2 ^ 52) = m * 2 ^ k := by
  unfold scaled
  rcases Nat.lt_or_ge m (2 ^ 52) with hlow | hhigh
  · obtain rfl : k = 0 := by omega
    rw [if_pos (by omega)]
    omega
  · rw [if_neg (by omega)]
    rcases Nat.lt_or_ge m (2 ^ 53) with hlt | hge
    · have hdiv : (m + k * 2 ^ 52) / 2 ^ 52 - 1 = k := by omega
      have hmod : 2 ^ 52 + (m + k * 2 ^ 52) % 2 ^ 52 = m := by omega
      rw [hdiv, hmod]
    · have hdiv : (m + k * 2 ^ 52) / 2 ^ 52 - 1 = k + 1 := by omega
      have hmod : 2 ^ 52 + (m + k * 2 ^ 52) % 2 ^ 52 = 2 ^ 52 := by omega
      have hm : m = 2 ^ 52 * 2 := by omega
      rw [hdiv, hmod, hm, pow_succ]
      ring

theorem exists_grid (b : Nat) :
    ∃ m k, b = m + k * 2 ^ 52 ∧ m < 2 ^ 53 ∧ (k = 0 ∨ 2 ^ 52 ≤ m) := by
  rcases Nat.lt_or_ge b (2 ^ 52) with hlow | hhigh
  · exact ⟨b, 0, by omega, by omega, .inl rfl⟩
  · exact ⟨2 ^ 52 + b % 2 ^ 52, b / 2 ^ 52 - 1, by omega, by omega, .inr (by omega)⟩

theorem scaled_infinityBits : scaled infinityBits = 2 ^ 2098 := by
  have h : infinityBits = 2 ^ 52 + 2046 * 2 ^ 52 := rfl
  rw [h, scaled_grid (by omega) (by omega), ← pow_add]

theorem scaled_lt_succ (b : Nat) : scaled b < scaled (b + 1) := by
  obtain ⟨m, k, rfl, hm, hk⟩ := exists_grid b
  have hsucc : m + k * 2 ^ 52 + 1 = m + 1 + k * 2 ^ 52 := by omega
  rw [hsucc, scaled_grid (by omega) hk, scaled_grid (by omega) (by omega)]
  exact Nat.mul_lt_mul_of_pos_right (Nat.lt_succ_self m) (by positivity)

theorem scaled_strictMono : StrictMono scaled :=
  strictMono_nat_of_lt_succ scaled_lt_succ

/-! ### Nearest magnitudes -/

/-- A magnitude between two neighbours rounds to one of them. -/
theorem nearest_of_between {x : ℚ} {a b : Nat} (ha : a < infinityBits) (hle : (scaled a : ℚ) ≤ x)
    (hlt : x < scaled (a + 1))
    (hb : b = if x - scaled a < scaled (a + 1) - x ∨ x - scaled a = scaled (a + 1) - x ∧ a % 2 = 0
      then a else a + 1) : Nearest x b := by
  have hbelow {c : Nat} (hc : c < a) : x - scaled a < |x - scaled c| := by
    have hlt : (scaled c : ℚ) < scaled a := by exact_mod_cast scaled_strictMono hc
    rw [abs_of_pos (by linarith)]
    linarith
  have habove {c : Nat} (hc : a + 1 < c) : scaled (a + 1) - x < |x - scaled c| := by
    have hlt : (scaled (a + 1) : ℚ) < scaled c := by exact_mod_cast scaled_strictMono hc
    rw [abs_sub_comm, abs_of_pos (by linarith)]
    linarith
  have hself : |x - scaled a| = x - scaled a := abs_of_nonneg (by linarith)
  have hnext : |x - scaled (a + 1)| = scaled (a + 1) - x := by
    rw [abs_sub_comm, abs_of_pos (by linarith)]
  split at hb
  next hdown =>
    subst hb
    refine ⟨by omega, ?_⟩
    intro c _ hne
    rw [hself]
    rcases Nat.lt_trichotomy c (b + 1) with hc | rfl | hc
    · exact .inl (hbelow (by omega))
    · rw [hnext]
      exact hdown
    · refine .inl (lt_of_le_of_lt ?_ (habove hc))
      rcases hdown with hdown | ⟨hdown, -⟩
      · exact hdown.le
      · exact hdown.le
  next hup =>
    subst hb
    rw [not_or, not_and, not_lt] at hup
    refine ⟨by omega, ?_⟩
    intro c _ hne
    rw [hnext]
    rcases Nat.lt_trichotomy c a with hc | rfl | hc
    · exact .inl (lt_of_le_of_lt hup.1 (hbelow hc))
    · rw [hself]
      rcases hup.1.lt_or_eq with hlt | heq
      · exact .inl hlt
      · refine .inr ⟨heq, ?_⟩
        have := hup.2 heq.symm
        omega
    · exact .inl (habove (by omega))

theorem nearest_infinity {x : ℚ} (hx : (scaled infinityBits : ℚ) ≤ x) : Nearest x infinityBits := by
  refine ⟨le_rfl, ?_⟩
  intro c hc hne
  have hlt : (scaled c : ℚ) < scaled infinityBits := by
    exact_mod_cast scaled_strictMono (lt_of_le_of_ne hc hne)
  left
  rw [abs_of_nonneg (by linarith), abs_of_pos (by linarith)]
  linarith

theorem nearest_zero {x : ℚ} (hnonneg : 0 ≤ x) (hlt : x < 1 / 2) : Nearest x 0 := by
  have hzero : scaled 0 = 0 := rfl
  have hone : scaled (0 + 1) = 1 := rfl
  refine nearest_of_between (by decide) ?_ ?_ (if_pos (.inl ?_)).symm
  all_goals
    rw [hone, hzero] at *
    push_cast
    linarith

theorem Nearest.unique {x : ℚ} {b c : Nat} (hb : Nearest x b) (hc : Nearest x c) : b = c := by
  by_contra hne
  wlog hlt : b < c generalizing b c
  · exact this hc hb (Ne.symm hne) (by omega)
  -- Both are even and equally near, so the number after the first is nearer.
  have hbc := hb.near c hc.le (Ne.symm hne)
  have hcb := hc.near b hb.le hne
  have heq : |x - scaled b| = |x - scaled c| := by
    rcases hbc with h | ⟨h, -⟩
    · rcases hcb with h' | ⟨h', -⟩
      · exact absurd h' (not_lt.mpr h.le)
      · exact absurd h'.symm h.ne
    · exact h
  have hbeven : b % 2 = 0 := by
    rcases hbc with h | ⟨-, h⟩
    · exact absurd heq h.ne
    · exact h
  have hceven : c % 2 = 0 := by
    rcases hcb with h | ⟨-, h⟩
    · exact absurd heq.symm h.ne
    · exact h
  have h₁ : (scaled b : ℚ) < scaled (b + 1) := by exact_mod_cast scaled_lt_succ b
  have h₂ : (scaled (b + 1) : ℚ) < scaled c := by
    exact_mod_cast scaled_strictMono (show b + 1 < c by omega)
  have hcle := hc.le
  have hnear : |x - scaled b| ≤ |x - scaled (b + 1)| := by
    rcases hb.near (b + 1) (by omega) (by omega) with h | ⟨h, -⟩
    · exact h.le
    · exact h.le
  rcases abs_eq_abs.mp heq with h | h
  · linarith
  · rw [abs_of_pos (show 0 < x - scaled b by linarith)] at hnear
    have := abs_lt.mpr (show -(x - scaled b) < x - scaled (b + 1) ∧
      x - scaled (b + 1) < x - scaled b from ⟨by linarith, by linarith⟩)
    linarith

end JsonNav.Binary64
