import JsonNav.Proofs.Number.Rounding
import JsonNav.Proofs.Number.Scan

/-! Whole numbers in decimal digits.  A `Whole` is written as its value is, and each natural number
is the value of one, so the texts of `Whole`s are the decimal texts of the natural numbers. -/

namespace JsonNav

namespace Digit

theorem digitChar_val (d : Digit) : Nat.digitChar d.val = d.toChar := by
  revert d
  decide

theorem span_text (ds : List Digit) : span (text ds) = (ds, []) := by
  have hstops : Stops [] := by simp [Stops]
  have h := span_text_append ds hstops
  rwa [List.append_nil] at h

theorem toChar_isDigit (d : Digit) : d.toChar.isDigit = true := by
  revert d
  decide

theorem isDigit_of_mem_text {ds : List Digit} {c : Char} (h : c ∈ text ds) : c.isDigit = true := by
  obtain ⟨d, -, rfl⟩ := List.mem_map.mp h
  exact d.toChar_isDigit

/-- A text of which each character is a digit is a text of digits. -/
theorem exists_text_eq {cs : List Char} (h : ∀ c ∈ cs, c.isDigit = true) : ∃ ds, cs = text ds := by
  induction cs with
  | nil => exact ⟨[], rfl⟩
  | cons c cs ih =>
    have hdigit := isSome_ofChar?_iff.mpr (h c (List.mem_cons_self ..))
    obtain ⟨d, hd⟩ := Option.isSome_iff_exists.mp hdigit
    obtain ⟨ds, rfl⟩ := ih fun e he => h e (List.mem_cons_of_mem _ he)
    exact ⟨d :: ds, by rw [eq_toChar_of_ofChar? hd]; rfl⟩

end Digit

theorem isDigit_of_mem_repr {c : Char} {n : Nat} (h : c ∈ (Nat.repr n).toList) :
    c.isDigit = true := by
  rw [Nat.toList_repr] at h
  exact Nat.isDigit_of_mem_toDigits (by decide) (by decide) h

theorem notMem_repr {c : Char} (hc : c.isDigit = false) (n : Nat) : c ∉ (Nat.repr n).toList := by
  intro h
  rw [isDigit_of_mem_repr h] at hc
  exact nomatch hc

namespace Whole

theorem text_eq_toDigits (w : Whole) : w.text = Nat.toDigits 10 w.value := by
  obtain ⟨⟨d, ds⟩, hcanonical⟩ := w
  show Digit.text (d :: ds) = Nat.toDigits 10 (Digit.value (d :: ds))
  induction ds using List.reverseRecOn with
  | nil =>
    have hvalue : Digit.value [d] = d.val := by simp [Digit.value]
    rw [hvalue, Nat.toDigits_of_lt_base d.isLt, d.digitChar_val]
    rfl
  | append_singleton ds e ih =>
    have hd : d ≠ 0 := fun h => by simpa using hcanonical h
    have hpos : 0 < Digit.value (d :: ds) := by
      have hlead : 0 < d.val := Nat.pos_of_ne_zero fun h => hd (Fin.ext h)
      rw [Digit.value_cons]
      exact Nat.add_pos_left (Nat.mul_pos hlead (Nat.pow_pos (by decide))) _
    have hlast : Digit.text [e] = Nat.toDigits 10 e.val := by
      rw [Nat.toDigits_of_lt_base e.isLt, e.digitChar_val]
      rfl
    calc Digit.text (d :: (ds ++ [e])) = Digit.text (d :: ds) ++ Digit.text [e] := by
          simp [Digit.text]
      _ = Nat.toDigits 10 (Digit.value (d :: ds)) ++ Nat.toDigits 10 e.val := by
          rw [ih fun h => absurd h hd, hlast]
      _ = Nat.toDigits 10 (Digit.value (d :: (ds ++ [e]))) := by
          rw [Nat.toDigits_append_toDigits (by decide) hpos e.isLt, ← List.cons_append,
            Digit.value_append_singleton]

theorem exists_value_eq (n : Nat) : ∃ w : Whole, w.value = n := by
  induction n using Nat.strongRecOn with
  | ind n ih =>
    by_cases hn : n < 10
    · exact ⟨⟨⟨⟨n, hn⟩, []⟩, fun _ => rfl⟩, by simp [Digits.value, Digits.toList, Digit.value]⟩
    · obtain ⟨w, hw⟩ := ih (n / 10) (Nat.div_lt_self (by omega) (by decide))
      -- The number without its last digit is positive, so its first digit is no zero.
      have hhead : w.head ≠ 0 := by
        intro h
        have hzero : w.value = 0 := by
          rw [Digits.value, Digits.toList, h, w.canonical h]
          rfl
        omega
      let d : Digit := ⟨n % 10, Nat.mod_lt n (by decide)⟩
      refine ⟨⟨⟨w.head, w.tail ++ [d]⟩, fun h => absurd h hhead⟩, ?_⟩
      have hvalue : Digit.value (w.head :: w.tail) = n / 10 := hw
      show Digit.value (w.head :: (w.tail ++ [_])) = n
      rw [← List.cons_append, Digit.value_append_singleton, hvalue]
      exact Nat.div_add_mod n 10

/-- The decimal text of a number is that of digits. -/
theorem exists_text_eq_repr (n : Nat) :
    ∃ w : Whole, (Nat.repr n).toList = w.text ∧ w.value = n := by
  obtain ⟨w, rfl⟩ := exists_value_eq n
  exact ⟨w, by rw [Nat.toList_repr, w.text_eq_toDigits], rfl⟩

theorem ofText?_text (ds : List Digit) : ofText? (Digit.text ds) = ofList? ds := by
  rw [ofText?, Digit.span_text]

theorem ofText?_eq_some_iff {cs : List Char} {w : Whole} : ofText? cs = some w ↔ cs = w.text := by
  constructor
  · intro h
    have hspan := Digit.text_span_append cs
    unfold ofText? at h
    split at h
    next ds hds =>
      rw [hds, List.append_nil] at hspan
      rw [← hspan, ofList?_eq_some_iff.mp h]
      rfl
    next => exact nomatch h
  · rintro rfl
    exact (ofText?_text w.toList).trans (ofList?_eq_some_iff.mpr rfl)

end Whole

/-- The decimal texts of numbers are the texts of digits without a needless leading zero. -/
theorem exists_whole_iff {s : String} {n : Nat} :
    (∃ w, Whole.ofText? s.toList = some w ∧ w.value = n) ↔ s = toString n := by
  constructor
  · rintro ⟨w, hw, rfl⟩
    have hrepr : (toString w.value).toList = Nat.toDigits 10 w.value := Nat.toList_repr
    rw [← String.toList_inj, hrepr, Whole.ofText?_eq_some_iff.mp hw, w.text_eq_toDigits]
  · rintro rfl
    obtain ⟨w, htext, hvalue⟩ := Whole.exists_text_eq_repr n
    exact ⟨w, Whole.ofText?_eq_some_iff.mpr htext, hvalue⟩

end JsonNav
