import Mathlib.Data.Bool.AllAny
import JsonNav.Proofs.Text.Segments
import JsonNav.Text.Quoted

/-! The spellings of a string.  `Spells body s` holds when `body`, the text between two quotes, is
one of the ways to write `s`, and `decode?_eq_some_iff` says that a body denotes exactly what it
spells, so a body that spells nothing, such as one with a lone surrogate, has no text. -/

namespace JsonNav

namespace Text.Quoted

/-- The hexadecimal digit `c`, of either case, has the value `v`. -/
def HexDigit (c : Char) (v : Nat) : Prop :=
  "0123456789abcdef".toList[v]? = some c ∨ "0123456789ABCDEF".toList[v]? = some c

/-- Four hexadecimal digits and the number that they denote. -/
inductive Hex4 : List Char → Nat → Prop
  | mk {a b c d : Char} {p q r s : Nat} : HexDigit a p → HexDigit b q → HexDigit c r →
      HexDigit d s → Hex4 [a, b, c, d] (((p * 16 + q) * 16 + r) * 16 + s)

/-- The letters that stand for a character after a backslash, each with its character. -/
def shortForms : List (Char × Char) :=
  [('"', '"'), ('\\', '\\'), ('/', '/'), ('b', '\x08'), ('f', '\x0c'), ('n', '\n'), ('r', '\r'),
    ('t', '\t')]

/-- `body` is a way to write `s` between quotes: each character as itself, by a letter after a
backslash, by the four digits of its code, or, above U+FFFF, by those of its two surrogates. -/
inductive Spells : List Char → List Char → Prop
  | nil : Spells [] []
  | raw {c : Char} {body s : List Char} : 0x20 ≤ c.toNat → c ≠ '"' → c ≠ '\\' →
      Spells body s → Spells (c :: body) (c :: s)
  | short {e c : Char} {body s : List Char} : (e, c) ∈ shortForms →
      Spells body s → Spells ('\\' :: e :: body) (c :: s)
  | unit {digits body s : List Char} {c : Char} : Hex4 digits c.toNat →
      Spells body s → Spells ('\\' :: 'u' :: (digits ++ body)) (c :: s)
  | pair {digits digits' body s : List Char} {high low : Nat} {c : Char} :
      Hex4 digits high → Hex4 digits' low → 0xd800 ≤ high → high < 0xdc00 →
      0xdc00 ≤ low → low < 0xe000 →
      c.toNat = 0x10000 + (high - 0xd800) * 0x400 + (low - 0xdc00) →
      Spells body s →
      Spells ('\\' :: 'u' :: (digits ++ '\\' :: 'u' :: (digits' ++ body))) (c :: s)

/-! ### Digits and letters -/

theorem HexDigit.lt {c : Char} {v : Nat} (h : HexDigit c v) : v < 16 := by
  rcases h with h | h
  · exact (List.getElem?_eq_some_iff.mp h).1
  · exact (List.getElem?_eq_some_iff.mp h).1

theorem hexDigit?_of_hexDigit {c : Char} {v : Nat} (h : HexDigit c v) : hexDigit? c = some v := by
  have hall : ∀ v : Fin 16, hexDigit? "0123456789abcdef".toList[v] = some v.val ∧
      hexDigit? "0123456789ABCDEF".toList[v] = some v.val := by decide
  rcases h with h | h
  · obtain ⟨hv, rfl⟩ := List.getElem?_eq_some_iff.mp h
    exact (hall ⟨v, hv⟩).1
  · obtain ⟨hv, rfl⟩ := List.getElem?_eq_some_iff.mp h
    exact (hall ⟨v, hv⟩).2

/-- A character whose code lies in a range is one of those with a code in the range. -/
private theorem forall_toNat (p : Char → Prop) (low count : Nat)
    (hall : ∀ i : Fin count, p (Char.ofNat (low + i))) {c : Char} (h : low ≤ c.toNat)
    (h' : c.toNat < low + count) : p c := by
  have := hall ⟨c.toNat - low, by omega⟩
  rwa [show low + (c.toNat - low) = c.toNat by omega, Char.ofNat_toNat] at this

theorem hexDigit_of_hexDigit? {c : Char} {v : Nat} (h : hexDigit? c = some v) : HexDigit c v := by
  have hle (a b : Char) : a ≤ b ↔ a.toNat ≤ b.toNat := Iff.rfl
  simp only [hexDigit?, hle] at h
  split at h
  next hc =>
    obtain rfl := Option.some.inj h
    exact forall_toNat (fun c => HexDigit c (c.toNat - 48)) 48 10
      (by unfold HexDigit; decide) hc.1 (Nat.lt_succ_of_le hc.2)
  next =>
    split at h
    next hc =>
      obtain rfl := Option.some.inj h
      exact forall_toNat (fun c => HexDigit c (c.toNat - 87)) 97 6
        (by unfold HexDigit; decide) hc.1 (Nat.lt_succ_of_le hc.2)
    next =>
      split at h
      next hc =>
        obtain rfl := Option.some.inj h
        exact forall_toNat (fun c => HexDigit c (c.toNat - 55)) 65 6
          (by unfold HexDigit; decide) hc.1 (Nat.lt_succ_of_le hc.2)
      next => exact absurd h (by simp)

theorem hexDigit?_eq_some_iff {c : Char} {v : Nat} : hexDigit? c = some v ↔ HexDigit c v :=
  ⟨hexDigit_of_hexDigit?, hexDigit?_of_hexDigit⟩

theorem unit?_eq_some_iff {a b c d : Char} {u : UInt16} :
    unit? a b c d = some u ↔ Hex4 [a, b, c, d] u.toNat := by
  simp only [unit?, Option.bind_eq_bind, Option.bind_eq_some_iff, hexDigit?_eq_some_iff,
    Option.pure_def, Option.some.injEq]
  constructor
  · rintro ⟨p, hp, q, hq, r, hr, s, hs, rfl⟩
    have := hp.lt; have := hq.lt; have := hr.lt; have := hs.lt
    have hu : (((p * 16 + q) * 16 + r) * 16 + s).toUInt16.toNat =
        ((p * 16 + q) * 16 + r) * 16 + s := by
      rw [Nat.toUInt16, UInt16.toNat_ofNat_of_lt']
      simp only [UInt16.size]; omega
    rw [hu]
    exact .mk hp hq hr hs
  · intro h
    generalize hn : u.toNat = n at h
    cases h with
    | mk hp hq hr hs =>
      refine ⟨_, hp, _, hq, _, hr, _, hs, ?_⟩
      rw [← hn]
      simp [Nat.toUInt16]

theorem short?_eq_some_iff {e c : Char} : short? e = some c ↔ (e, c) ∈ shortForms := by
  constructor
  · intro h
    unfold short? at h
    split at h
    case h_9 => exact nomatch h
    all_goals
      obtain rfl := Option.some.inj h
      decide
  · intro h
    have hall : ∀ p ∈ shortForms, short? p.1 = some p.2 :=
      List.all_iff_forall_prop.mp (by decide)
    exact hall _ h

theorem short?_u : short? 'u' = none := rfl

/-! ### Pieces -/

/-- What a body begins with if it has pieces: nothing, a character that is written as itself or by a
letter, or a unit that is written by four digits. -/
theorem pieces?_eq_some_cases {body : List Char} {ps : List Piece} (h : pieces? body = some ps) :
    body = [] ∧ ps = [] ∨
    (∃ c rest qs, ps = .char c :: qs ∧ pieces? rest = some qs ∧
      (body = c :: rest ∧ 0x20 ≤ c.toNat ∧ c ≠ '"' ∧ c ≠ '\\' ∨
        ∃ e, body = '\\' :: e :: rest ∧ (e, c) ∈ shortForms)) ∨
    ∃ u digits rest qs, ps = .unit u :: qs ∧ pieces? rest = some qs ∧
      body = '\\' :: 'u' :: (digits ++ rest) ∧ Hex4 digits u.toNat := by
  unfold pieces? at h
  split at h
  next => exact .inl ⟨rfl, (Option.some.inj h).symm⟩
  next a b c d cs =>
    obtain ⟨u, hu, h⟩ := Option.bind_eq_some_iff.mp h
    obtain ⟨qs, hqs, h⟩ := Option.bind_eq_some_iff.mp h
    exact .inr (.inr ⟨u, [a, b, c, d], cs, qs, (Option.some.inj h).symm, hqs, rfl,
      unit?_eq_some_iff.mp hu⟩)
  next e cs _ =>
    obtain ⟨c, hc, h⟩ := Option.bind_eq_some_iff.mp h
    obtain ⟨qs, hqs, h⟩ := Option.bind_eq_some_iff.mp h
    exact .inr (.inl ⟨c, cs, qs, (Option.some.inj h).symm, hqs,
      .inr ⟨e, rfl, short?_eq_some_iff.mp hc⟩⟩)
  next => exact nomatch h
  next c cs h₁ h₂ h₃ =>
    split at h
    · exact nomatch h
    next hc =>
      obtain ⟨qs, hqs, h⟩ := Option.bind_eq_some_iff.mp h
      simp only [isControl, decide_eq_true_eq, not_or, Nat.not_lt] at hc
      refine .inr (.inl ⟨c, cs, qs, (Option.some.inj h).symm, hqs, .inl ⟨rfl, hc.2, hc.1, ?_⟩⟩)
      rintro rfl
      cases cs with
      | nil => exact h₃ rfl rfl
      | cons e cs => exact h₂ e cs rfl rfl

/-- A piece that is a unit is written by four digits. -/
theorem exists_digits_of_pieces? {body : List Char} {u : UInt16} {ps : List Piece}
    (h : pieces? body = some (.unit u :: ps)) :
    ∃ digits rest, pieces? rest = some ps ∧ body = '\\' :: 'u' :: (digits ++ rest) ∧
      Hex4 digits u.toNat := by
  rcases pieces?_eq_some_cases h with ⟨-, h⟩ | ⟨_, _, _, h, -⟩ | ⟨v, digits, rest, qs, h, hqs, hd⟩
  · exact nomatch h
  · exact nomatch h
  · obtain ⟨h', rfl⟩ := List.cons.inj h
    obtain rfl := Piece.unit.inj h'
    exact ⟨digits, rest, hqs, hd⟩

theorem pieces?_raw {c : Char} {body : List Char} (hc : 0x20 ≤ c.toNat) (hq : c ≠ '"')
    (hb : c ≠ '\\') : pieces? (c :: body) = (pieces? body).map (.char c :: ·) := by
  have hctl : ¬(c = '"' ∨ isControl c = true) := by
    simp only [isControl, decide_eq_true_eq, not_or, Nat.not_lt]
    exact ⟨hq, hc⟩
  rw [pieces?.eq_def]
  split
  next h => exact absurd h (by simp)
  next h => exact absurd (List.cons.inj h).1 hb
  next h => exact absurd (List.cons.inj h).1 hb
  next h => exact absurd (List.cons.inj h).1 hb
  next h =>
    obtain ⟨rfl, rfl⟩ := List.cons.inj h
    rw [if_neg hctl]
    cases pieces? body <;> rfl

theorem pieces?_short {e c : Char} {body : List Char} (h : (e, c) ∈ shortForms) :
    pieces? ('\\' :: e :: body) = (pieces? body).map (.char c :: ·) := by
  have he : e ≠ 'u' := by
    rintro rfl
    rw [← short?_eq_some_iff, short?_u] at h
    exact nomatch h
  rw [pieces?.eq_def]
  split
  next h => exact absurd h (by simp)
  next h => exact absurd (List.cons.inj (List.cons.inj h).2).1 he
  next h' =>
    obtain ⟨-, h'⟩ := List.cons.inj h'
    obtain ⟨rfl, rfl⟩ := List.cons.inj h'
    rw [short?_eq_some_iff.mpr h]
    cases pieces? body <;> rfl
  next h => exact absurd h (by simp)
  next h₁ h₂ _ h' =>
    obtain ⟨rfl, rfl⟩ := List.cons.inj h'
    exact absurd rfl (h₂ e body rfl)

theorem pieces?_unit {digits body : List Char} {u : UInt16} (h : Hex4 digits u.toNat) :
    pieces? ('\\' :: 'u' :: (digits ++ body)) = (pieces? body).map (.unit u :: ·) := by
  generalize hn : u.toNat = n at h
  cases h with
  | @mk a b c d _ _ _ _ hp hq hr hs =>
    have hu : unit? a b c d = some u := by
      rw [unit?_eq_some_iff, hn]
      exact .mk hp hq hr hs
    simp only [List.cons_append, List.nil_append, pieces?, hu]
    cases pieces? body <;> rfl

/-! ### Denotation -/

theorem Hex4.toNat_ofNat {digits : List Char} {n : Nat} (h : Hex4 digits n) :
    (UInt16.ofNat n).toNat = n := by
  apply UInt16.toNat_ofNat_of_lt'
  cases h with
  | mk hp hq hr hs =>
    have := hp.lt; have := hq.lt; have := hr.lt; have := hs.lt
    simp only [UInt16.size]
    omega

theorem isHigh_iff {u : UInt16} : isHigh u = true ↔ 0xd800 ≤ u.toNat ∧ u.toNat < 0xdc00 := by
  rw [isHigh, decide_eq_true_iff]

theorem isLow_iff {u : UInt16} : isLow u = true ↔ 0xdc00 ≤ u.toNat ∧ u.toNat < 0xe000 := by
  rw [isLow, decide_eq_true_iff]

theorem isLow_eq_false_of_isHigh {u : UInt16} (h : isHigh u = true) : isLow u = false := by
  rw [isHigh_iff] at h
  rw [← Bool.not_eq_true, isLow_iff]
  omega

theorem not_surrogate (c : Char) : ¬(0xd800 ≤ c.toNat ∧ c.toNat < 0xe000) := by
  intro h
  rcases c.valid with hc | hc
  · have : c.toNat < 0xd800 := hc
    omega
  · have : 0xdfff < c.toNat := hc.1
    omega

theorem toNat_ofNat {n : Nat} (h : n < 0xd800 ∨ 0xdfff < n ∧ n < 0x110000) :
    (Char.ofNat n).toNat = n := by
  rw [Char.ofNat, dif_pos h]
  rfl

theorem join?_unit {u : UInt16} {c : Char} {ps : List Piece} (h : c.toNat = u.toNat) :
    join? (.unit u :: ps) = (join? ps).map (c :: ·) := by
  have hv := not_surrogate c
  have hlow : ¬isLow u = true := by rw [isLow_iff]; omega
  have hhigh : ¬isHigh u = true := by rw [isHigh_iff]; omega
  rw [join?.eq_def]
  simp only [hlow, hhigh, if_false, Bool.false_eq_true, ← h, Char.ofNat_toNat]
  cases join? ps <;> rfl

theorem join?_pair {u v : UInt16} {ps : List Piece} (hu : isHigh u = true) (hv : isLow v = true) :
    join? (.unit u :: .unit v :: ps) = (join? ps).map (pair u v :: ·) := by
  rw [join?, if_neg (by simp [isLow_eq_false_of_isHigh hu]), if_pos hu, if_pos hv]
  cases join? ps <;> rfl

theorem toNat_pair {u v : UInt16} (hu : isHigh u = true) (hv : isLow v = true) :
    (pair u v).toNat = 0x10000 + (u.toNat - 0xd800) * 0x400 + (v.toNat - 0xdc00) := by
  rw [isHigh_iff] at hu
  rw [isLow_iff] at hv
  exact toNat_ofNat (by omega)

theorem decode?_of_spells {body s : List Char} (h : Spells body s) : decode? body = some s := by
  induction h with
  | nil => rfl
  | raw hc hq hb _ ih =>
    obtain ⟨ps, hps, hs⟩ := Option.bind_eq_some_iff.mp ih
    simp [decode?, pieces?_raw hc hq hb, hps, join?, hs]
  | short he _ ih =>
    obtain ⟨ps, hps, hs⟩ := Option.bind_eq_some_iff.mp ih
    simp [decode?, pieces?_short he, hps, join?, hs]
  | @unit digits body s c hd _ ih =>
    obtain ⟨ps, hps, hs⟩ := Option.bind_eq_some_iff.mp ih
    have hu := hd.toNat_ofNat
    simp [decode?, pieces?_unit (hu.symm ▸ hd), hps, join?_unit hu.symm, hs]
  | @pair digits digits' body s high low c hd hd' h₁ h₂ h₃ h₄ hc _ ih =>
    obtain ⟨ps, hps, hs⟩ := Option.bind_eq_some_iff.mp ih
    have hu := hd.toNat_ofNat
    have hv := hd'.toNat_ofNat
    have hhigh : isHigh (UInt16.ofNat high) = true := by
      rw [isHigh_iff, hu]
      exact ⟨h₁, h₂⟩
    have hlow : isLow (UInt16.ofNat low) = true := by
      rw [isLow_iff, hv]
      exact ⟨h₃, h₄⟩
    have hpair : pair (UInt16.ofNat high) (UInt16.ofNat low) = c := by
      apply Char.toNat_inj.mp
      rw [toNat_pair hhigh hlow, hu, hv, hc]
    simp [decode?, pieces?_unit (hu.symm ▸ hd), pieces?_unit (hv.symm ▸ hd'), hps,
      join?_pair hhigh hlow, hpair, hs]

theorem spells_of_decode? {body s : List Char} (h : decode? body = some s) : Spells body s := by
  obtain ⟨ps, hps, hs⟩ := Option.bind_eq_some_iff.mp h
  clear h
  fun_induction join? ps generalizing body s with
  | case1 =>
    obtain rfl := Option.some.inj hs
    rcases pieces?_eq_some_cases hps with ⟨rfl, -⟩ | ⟨_, _, _, h, -⟩ | ⟨_, _, _, _, h, -⟩
    · exact .nil
    · exact nomatch h
    · exact nomatch h
  | case2 c ps ih =>
    obtain ⟨s, hjoin, h⟩ := Option.bind_eq_some_iff.mp hs
    obtain rfl := Option.some.inj h
    rcases pieces?_eq_some_cases hps with ⟨-, h⟩ | ⟨d, rest, qs, h, hqs, hbody⟩ |
      ⟨_, _, _, _, h, -⟩
    · exact nomatch h
    · obtain ⟨h', rfl⟩ := List.cons.inj h
      obtain rfl := Piece.char.inj h'
      rcases hbody with ⟨rfl, hc, hq, hb⟩ | ⟨e, rfl, he⟩
      · exact .raw hc hq hb (ih hqs hjoin)
      · exact .short he (ih hqs hjoin)
    · exact nomatch h
  | case3 => exact nomatch hs
  | case4 u _ hhigh v ps hlow ih =>
    obtain ⟨s, hjoin, h⟩ := Option.bind_eq_some_iff.mp hs
    obtain rfl := Option.some.inj h
    obtain ⟨digits, rest, hqs, rfl, hd⟩ := exists_digits_of_pieces? hps
    obtain ⟨digits', rest', hqs', rfl, hd'⟩ := exists_digits_of_pieces? hqs
    have h₁ := isHigh_iff.mp hhigh
    have h₂ := isLow_iff.mp hlow
    exact .pair hd hd' h₁.1 h₁.2 h₂.1 h₂.2 (toNat_pair hhigh hlow) (ih hqs' hjoin)
  | case5 => exact nomatch hs
  | case6 => exact nomatch hs
  | case7 u ps hlow hhigh ih =>
    obtain ⟨s, hjoin, h⟩ := Option.bind_eq_some_iff.mp hs
    obtain rfl := Option.some.inj h
    obtain ⟨digits, rest, hqs, rfl, hd⟩ := exists_digits_of_pieces? hps
    rw [isLow_iff] at hlow
    rw [isHigh_iff] at hhigh
    have hu := u.toNat_lt
    have hc : (Char.ofNat u.toNat).toNat = u.toNat := toNat_ofNat (by omega)
    exact .unit (hc.symm ▸ hd) (ih hqs hjoin)

theorem HexDigit.not_control {c : Char} {v : Nat} (h : HexDigit c v) : 0x20 ≤ c.toNat := by
  rcases h with h | h
  · have hall : ∀ c ∈ "0123456789abcdef".toList, 0x20 ≤ c.toNat :=
    List.all_iff_forall_prop.mp (by decide)
    exact hall c (List.mem_of_getElem? h)
  · have hall : ∀ c ∈ "0123456789ABCDEF".toList, 0x20 ≤ c.toNat :=
    List.all_iff_forall_prop.mp (by decide)
    exact hall c (List.mem_of_getElem? h)

theorem Hex4.not_control {digits : List Char} {n : Nat} (h : Hex4 digits n) :
    ∀ c ∈ digits, 0x20 ≤ c.toNat := by
  cases h with
  | mk hp hq hr hs => simp [hp.not_control, hq.not_control, hr.not_control, hs.not_control]

/-- No control character stands in a spelling, not even after a backslash. -/
theorem Spells.not_control {body s : List Char} (h : Spells body s) :
    ∀ c ∈ body, 0x20 ≤ c.toNat := by
  have hu : ∀ c ∈ ['\\', 'u'], 0x20 ≤ c.toNat := List.all_iff_forall_prop.mp (by decide)
  have happend {cs ds : List Char} (hcs : ∀ c ∈ cs, 0x20 ≤ c.toNat)
      (hds : ∀ c ∈ ds, 0x20 ≤ c.toNat) : ∀ c ∈ cs ++ ds, 0x20 ≤ c.toNat := by
    intro c hc
    exact (List.mem_append.mp hc).elim (hcs c) (hds c)
  induction h with
  | nil => simp
  | raw hc _ _ _ ih => exact List.forall_mem_cons.mpr ⟨hc, ih⟩
  | short he _ ih =>
    have hall : ∀ p ∈ shortForms, 0x20 ≤ p.1.toNat := List.all_iff_forall_prop.mp (by decide)
    refine List.forall_mem_cons.mpr ⟨?_, List.forall_mem_cons.mpr ⟨hall _ he, ih⟩⟩
    decide
  | unit hd _ ih => exact happend hu (happend hd.not_control ih)
  | pair hd hd' _ _ _ _ _ _ ih =>
    exact happend hu (happend hd.not_control (happend hu (happend hd'.not_control ih)))

/-- A body denotes what it spells, and nothing else. -/
theorem decode?_eq_some_iff {body s : List Char} : decode? body = some s ↔ Spells body s :=
  ⟨spells_of_decode?, decode?_of_spells⟩

/-! ### Escapes -/

/-- `body` may stand between quotes, but an escape in it may be that of a lone surrogate, so that it
spells nothing. -/
inductive Escaped : List Char → Prop
  | nil : Escaped []
  | raw {c : Char} {body : List Char} : 0x20 ≤ c.toNat → c ≠ '"' → c ≠ '\\' →
      Escaped body → Escaped (c :: body)
  | short {e c : Char} {body : List Char} : (e, c) ∈ shortForms →
      Escaped body → Escaped ('\\' :: e :: body)
  | unit {digits body : List Char} {n : Nat} : Hex4 digits n →
      Escaped body → Escaped ('\\' :: 'u' :: (digits ++ body))

theorem Spells.escaped {body s : List Char} (h : Spells body s) : Escaped body := by
  induction h with
  | nil => exact .nil
  | raw hc hq hb _ ih => exact .raw hc hq hb ih
  | short he _ ih => exact .short he ih
  | unit hd _ ih => exact .unit hd ih
  | pair hd hd' _ _ _ _ _ _ ih => exact .unit hd (.unit hd' ih)

theorem escaped_of_pieces? {body : List Char} {ps : List Piece} (h : pieces? body = some ps) :
    Escaped body := by
  induction ps generalizing body with
  | nil =>
    rcases pieces?_eq_some_cases h with ⟨rfl, -⟩ | ⟨_, _, _, h, -⟩ | ⟨_, _, _, _, h, -⟩
    · exact .nil
    · exact nomatch h
    · exact nomatch h
  | cons p ps ih =>
    rcases pieces?_eq_some_cases h with ⟨-, h⟩ | ⟨c, rest, qs, h, hqs, hbody⟩ |
      ⟨u, digits, rest, qs, hp, hqs, rfl, hd⟩
    · exact nomatch h
    · obtain ⟨-, rfl⟩ := List.cons.inj h
      rcases hbody with ⟨rfl, hc, hq, hb⟩ | ⟨e, rfl, he⟩
      · exact .raw hc hq hb (ih hqs)
      · exact .short he (ih hqs)
    · obtain ⟨-, rfl⟩ := List.cons.inj hp
      exact .unit hd (ih hqs)

theorem exists_pieces?_of_escaped {body : List Char} (h : Escaped body) :
    ∃ ps, pieces? body = some ps := by
  induction h with
  | nil => exact ⟨[], rfl⟩
  | raw hc hq hb _ ih =>
    obtain ⟨ps, hps⟩ := ih
    exact ⟨_, by rw [pieces?_raw hc hq hb, hps, Option.map_some]⟩
  | short he _ ih =>
    obtain ⟨ps, hps⟩ := ih
    exact ⟨_, by rw [pieces?_short he, hps, Option.map_some]⟩
  | unit hd _ ih =>
    obtain ⟨ps, hps⟩ := ih
    exact ⟨_, by rw [pieces?_unit (hd.toNat_ofNat.symm ▸ hd), hps, Option.map_some]⟩

/-! ### Written strings -/

theorem hexDigit_hexChar {v : Nat} (h : v < 16) : HexDigit (hexChar v) v := by
  have hall : ∀ v : Fin 16, HexDigit (hexChar v) v := by
    unfold HexDigit
    decide
  exact hall ⟨v, h⟩

theorem spells_escape {body s : List Char} (c : Char) (h : Spells body s) :
    Spells (escape c ++ body) (c :: s) := by
  unfold escape
  split
  case h_8 hq hb _ _ _ _ _ =>
    split
    next hc =>
      simp only [isControl, decide_eq_true_eq] at hc
      have hzero : HexDigit '0' 0 := .inl rfl
      have hd : Hex4 ['0', '0', hexChar (c.toNat / 16), hexChar (c.toNat % 16)] c.toNat := by
        have hmk := Hex4.mk hzero hzero (hexDigit_hexChar (v := c.toNat / 16) (by omega))
          (hexDigit_hexChar (v := c.toNat % 16) (by omega))
        rwa [show ((0 * 16 + 0) * 16 + c.toNat / 16) * 16 + c.toNat % 16 = c.toNat by omega] at hmk
      exact .unit hd h
    next hc =>
      simp only [isControl, decide_eq_true_eq, Nat.not_lt] at hc
      exact .raw hc hq hb h
  all_goals exact .short (by decide) h

/-- A string that is written can be read back. -/
theorem spells_encode (s : List Char) : Spells (encode s) s := by
  induction s with
  | nil => exact .nil
  | cons c s ih => exact spells_escape c ih

end Text.Quoted

end JsonNav
