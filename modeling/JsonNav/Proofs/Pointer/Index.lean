import Std.Data.String.ToNat
import JsonNav.Proofs.Pointer.Descent
import JsonNav.Proofs.Tree.ByteScan
import JsonNav.Proofs.Tree.Place

/-! Items by their numbers.  `ByteIndex` finds the number of an item in two steps that know nothing
of each other: a check of bytes, which has no bound on the length of a token, and a reader of words
of 64 bits, which refuses what is too large but takes a plus sign and zeros at the front.  Between
them there is no gap: a token passes both exactly if it is the decimal text of a number below
`2 ^ 64`.  So each item of an array has one token that leads to it, and `Token.Unfit` says which
tokens are no index at all. -/

namespace JsonNav

open Text (bytes lead)

namespace Digit

def toByte (d : Digit) : UInt8 :=
  d.toChar.toUInt8

theorem bytes_text (ds : List Digit) : bytes (text ds) = ds.map toByte := by
  induction ds with
  | nil => rfl
  | cons d ds ih =>
    have htext : text (d :: ds) = d.toChar :: text ds := rfl
    rw [htext, Text.bytes_cons, Text.utf8EncodeChar_of_lt d.toChar_lt, ih]
    rfl

end Digit

namespace ByteIndex

/-- Whether bytes have the form of an index: there are some, the first of several is no zero, and
all of them are digits. -/
def isCanonical (bs : List UInt8) : Bool :=
  if bs.isEmpty then false
  else if 1 < bs.length && bs.head? = some '0'.toUInt8 then false
  else bs.all ByteReader.isDigit

/-- The word for a number, if 64 bits hold it. -/
def fit? (n : Nat) : Option UInt64 :=
  if n < UInt64.size then some (UInt64.ofNat n) else none

/-- The word with one more digit at its end.  The product and the sum must both fit. -/
def push? (w : UInt64) (b : UInt8) : Option UInt64 := do
  let tens ← fit? (w.toNat * 10)
  let d ← Digit.ofChar? (Char.ofNat b.toNat)
  fit? (tens.toNat + d.val)

/-- The word that bytes spell in decimal digits, of which there must be some.  A plus sign may stand
before them, and they may begin with zeros. -/
def word? (bs : List UInt8) : Option UInt64 :=
  let digits := if bs.head? = some '+'.toUInt8 then bs.tail else bs
  if digits.isEmpty then none else digits.foldlM push? 0

/-- The number of an item: bytes that have the form of an index are read as a word. -/
def index? (bs : List UInt8) : Option Nat :=
  if isCanonical bs then (word? bs).map UInt64.toNat else none

variable {w w' : UInt64} {n : Nat} {d : Digit} {ds : List Digit}

/-! ### The reader of words -/

theorem exists_word_eq (h : n < UInt64.size) : ∃ w : UInt64, n = w.toNat :=
  ⟨UInt64.ofNat n, (UInt64.toNat_ofNat_of_lt' h).symm⟩

theorem fit?_eq_some_iff : fit? n = some w ↔ n = w.toNat := by
  rw [fit?]
  constructor
  · intro h
    split at h
    next hlt =>
      obtain rfl := Option.some.inj h
      exact (UInt64.toNat_ofNat_of_lt' hlt).symm
    next => exact nomatch h
  · rintro rfl
    rw [if_pos w.toNat_lt_size, UInt64.ofNat_toNat]

theorem push?_toByte_eq_some_iff :
    push? w d.toByte = some w' ↔ 10 * w.toNat + d.val = w'.toNat := by
  have hdigit : Digit.ofChar? (Char.ofNat d.toByte.toNat) = some d := by
    revert d
    decide
  simp only [push?, hdigit, Option.bind_eq_bind, Option.bind_eq_some_iff, Option.some.injEq,
    exists_eq_left', fit?_eq_some_iff]
  constructor
  · rintro ⟨tens, htens, hsum⟩
    omega
  · intro h
    -- The product is no greater than the sum, which fits.
    have hlt : w.toNat * 10 < UInt64.size := by
      have := w'.toNat_lt_size
      omega
    obtain ⟨tens, htens⟩ := exists_word_eq hlt
    exact ⟨tens, htens, by omega⟩

/-- Digits are read as the number that they denote, if it is a word. -/
theorem foldlM_push?_eq_some_iff :
    (ds.map Digit.toByte).foldlM push? 0 = some w ↔ Digit.value ds = w.toNat := by
  -- The last digit is pushed last, and the number before it is a word if the whole number is.
  induction ds using List.reverseRecOn generalizing w with
  | nil =>
    have hzero : (0 : UInt64).toNat = w.toNat ↔ 0 = w := UInt64.toNat_inj
    simpa [Digit.value] using hzero.symm
  | append_singleton ds d ih =>
    rw [List.map_append, List.foldlM_append, Digit.value_append_singleton]
    simp only [List.map_cons, List.map_nil, List.foldlM_cons, List.foldlM_nil, bind_pure,
      Option.bind_eq_bind, Option.bind_eq_some_iff, ih, push?_toByte_eq_some_iff]
    constructor
    · rintro ⟨u, hu, hw⟩
      rw [hu, hw]
    · intro h
      have hlt : Digit.value ds < UInt64.size := by
        have := w.toNat_lt_size
        omega
      obtain ⟨u, hu⟩ := exists_word_eq hlt
      exact ⟨u, hu, by rw [← hu, h]⟩

theorem map_word?_toByte (h : ds ≠ []) :
    (word? (ds.map Digit.toByte)).map UInt64.toNat =
      if Digit.value ds < UInt64.size then some (Digit.value ds) else none := by
  have hplus : ∀ d : Digit, d.toByte ≠ '+'.toUInt8 := by decide
  have hword : word? (ds.map Digit.toByte) = (ds.map Digit.toByte).foldlM push? 0 := by
    cases ds with
    | nil => exact absurd rfl h
    | cons d ds => simp [word?, hplus d]
  rw [hword]
  split
  next hlt =>
    obtain ⟨w, hw⟩ := exists_word_eq hlt
    exact Option.map_eq_some_iff.mpr ⟨w, foldlM_push?_eq_some_iff.mpr hw, hw.symm⟩
  next hge =>
    refine Option.map_eq_none_iff.mpr (Option.eq_none_iff_forall_ne_some.mpr fun w hw => hge ?_)
    rw [foldlM_push?_eq_some_iff.mp hw]
    exact w.toNat_lt_size

/-! ### The check -/

/-- The bytes of a character are digits exactly if it is one. -/
theorem all_isDigit_encode (c : Char) :
    (String.utf8EncodeChar c).all ByteReader.isDigit = c.isDigit := by
  have hlead : ByteReader.isDigit (lead c) = c.isDigit := by
    rw [ByteReader.isDigit_lead, Bool.eq_iff_iff, Digit.isSome_ofChar?_iff]
  by_cases h : c.toNat < 0x80
  · rw [Text.utf8EncodeChar_of_lt h, ← Text.lead_of_lt h, List.all_cons, hlead, List.all_nil,
      Bool.and_true]
  · have hstray : c.isDigit = false := by
      rw [← hlead, ByteReader.isDigit_lead, Digit.ofChar?, dif_neg (by omega)]
      rfl
    obtain ⟨bs, hbytes⟩ := Text.exists_encode_eq_lead c
    rw [hbytes, List.all_cons, hlead, hstray, Bool.false_and]

theorem isCanonical_toByte (ds : List Digit) :
    isCanonical (ds.map Digit.toByte) = (Whole.ofList? ds).isSome := by
  have hdigits : (ds.map Digit.toByte).all ByteReader.isDigit = true := by
    have hdigit : ∀ d : Digit, ByteReader.isDigit d.toByte = true := by decide
    simp [hdigit]
  have hzero : ∀ d : Digit, d.toByte = '0'.toUInt8 ↔ d = 0 := by decide
  rcases ds with _ | ⟨d, _ | ⟨e, ds⟩⟩
  · rfl
  · rw [isCanonical, hdigits]
    simp [Whole.ofList?, Digits.ofList?]
  · rw [isCanonical, hdigits]
    by_cases hd : d = 0 <;> simp [Whole.ofList?, Digits.ofList?, hzero, hd]

theorem isCanonical_bytes (cs : List Char) :
    isCanonical (bytes cs) = (Whole.ofText? cs).isSome := by
  by_cases h : ∀ c ∈ cs, c.isDigit = true
  · obtain ⟨ds, rfl⟩ := Digit.exists_text_eq h
    rw [Digit.bytes_text, isCanonical_toByte, Whole.ofText?_text]
  · have hstray : (bytes cs).all ByteReader.isDigit = false := by
      rw [bytes, List.all_flatMap, funext all_isDigit_encode, List.all_eq_false]
      simpa using h
    have hnone : Whole.ofText? cs = none := by
      refine Option.eq_none_iff_forall_ne_some.mpr fun w hw => h ?_
      rw [Whole.ofText?_eq_some_iff.mp hw]
      exact fun c hc => Digit.isDigit_of_mem_text hc
    rw [hnone, isCanonical, hstray]
    simp

/-- Checking and reading bytes finds the number of an item in the text of its token. -/
theorem index?_bytes (token : String) : index? (bytes token.toList) = Token.index? token := by
  rw [index?, isCanonical_bytes, Token.index?]
  cases hwhole : Whole.ofText? token.toList with
  | none => rfl
  | some w =>
    have hne : w.toList ≠ [] := by simp [Digits.toList]
    have hbytes : bytes token.toList = w.toList.map Digit.toByte := by
      rw [Whole.ofText?_eq_some_iff.mp hwhole]
      exact Digit.bytes_text w.toList
    rw [Option.isSome_some, if_pos rfl, hbytes, map_word?_toByte hne]
    rfl

/-- Without the check, two tokens would number one item. -/
example : word? (bytes ['+', '0', '1']) = word? (bytes ['1']) ∧
    index? (bytes ['+', '0', '1']) = none := by
  decide

end ByteIndex

namespace Token

variable {token : String} {i : Nat}

/-- What keeps a token from being an index.  It is empty; a zero stands before its other characters;
one of its characters is none of the ten digits, so a sign, a blank or a digit of another script; or
the number that it spells is too large for a word. -/
inductive Unfit : String → Prop
  | empty : Unfit ""
  | leadingZero {c : Char} {cs : List Char} : Unfit (String.ofList ('0' :: c :: cs))
  | stray {token : String} {c : Char} : c ∈ token.toList → c.isDigit = false → Unfit token
  | tooLarge {i : Nat} : 2 ^ 64 ≤ i → Unfit (toString i)

theorem isWhole_iff : isWhole token = true ↔ ∃ i : Nat, token = toString i := by
  rw [isWhole, Option.isSome_iff_exists]
  constructor
  · rintro ⟨w, hw⟩
    exact ⟨w.value, exists_whole_iff.mp ⟨w, hw, rfl⟩⟩
  · rintro ⟨i, hi⟩
    obtain ⟨w, hw, -⟩ := exists_whole_iff.mpr hi
    exact ⟨w, hw⟩

theorem Unfit.ne_toString (h : Unfit token) (hi : i < 2 ^ 64) : token ≠ toString i := by
  intro htoken
  obtain ⟨w, hw, -⟩ := exists_whole_iff.mpr htoken
  have htext : token.toList = w.head.toChar :: Digit.text w.tail :=
    Whole.ofText?_eq_some_iff.mp hw
  cases h with
  | empty => exact nomatch htext
  | @leadingZero c cs =>
    rw [String.toList_ofList] at htext
    obtain ⟨hzero, htail⟩ := List.cons.inj htext
    have hhead : w.head = 0 := (ByteReader.lead_digit w.head).mp (by rw [← hzero]; decide)
    rw [w.canonical hhead] at htail
    exact nomatch htail
  | stray hmem hstray =>
    rw [htoken] at hmem
    exact notMem_repr hstray i hmem
  | tooLarge hle =>
    have := Nat.repr_injective htoken
    omega

/-- A token that is not the text of a number below `2 ^ 64` has one of four flaws. -/
theorem unfit_of_ne (h : ∀ i < 2 ^ 64, token ≠ toString i) : Unfit token := by
  by_cases hstray : ∃ c ∈ token.toList, c.isDigit = false
  · obtain ⟨c, hc, hne⟩ := hstray
    exact .stray hc hne
  · obtain ⟨ds, hds⟩ : ∃ ds, token.toList = Digit.text ds :=
      Digit.exists_text_eq fun c hc => by_contra fun hne => hstray ⟨c, hc, by simpa using hne⟩
    obtain rfl : token = String.ofList (Digit.text ds) := by rw [← hds, String.ofList_toList]
    rcases ds with _ | ⟨d, ds⟩
    · exact .empty
    · by_cases hcanonical : d = 0 → ds = []
      · let w : Whole := ⟨⟨d, ds⟩, hcanonical⟩
        have htoken : String.ofList (Digit.text (d :: ds)) = toString w.value :=
          exists_whole_iff.mp ⟨w, Whole.ofText?_eq_some_iff.mpr hds, rfl⟩
        rw [htoken]
        exact .tooLarge (Nat.le_of_not_lt fun hlt => h w.value hlt htoken)
      · obtain ⟨rfl, hne⟩ := Classical.not_imp.mp hcanonical
        obtain ⟨e, es, rfl⟩ := List.exists_cons_of_ne_nil hne
        exact .leadingZero

end Token

namespace Place

variable {p q : Place} {token : String} {i : Nat}

theorem descend_singleton (p : Place) (token : String) : p.descend [token] = p.step token := by
  rw [descend, List.foldlM_cons]
  cases p.step token <;> rfl

/-- From an array the text of a number leads to the item with this number. -/
theorem descend_singleton_eq_ok_iff (h : p.node.kind = .array) : p.descend [token] = .ok q ↔
    ∃ i < 2 ^ 64, token = toString i ∧ p.children[i]? = some q := by
  rw [descend_singleton, step_of_array h]
  constructor
  · intro hstep
    cases hindex : Token.index? token with
    | none => simp [hindex] at hstep
    | some i =>
      obtain ⟨htoken, hlt⟩ := Token.index?_eq_some_iff.mp hindex
      cases hq : p.children[i]? with
      | none => simp [hindex, hq] at hstep
      | some q' =>
        obtain rfl : q' = q := by simpa [hindex, hq] using hstep
        exact ⟨i, hlt, htoken, hq⟩
  · rintro ⟨i, hlt, htoken, hq⟩
    rw [Token.index?_eq_some_iff.mpr ⟨htoken, hlt⟩, Option.elim_some, hq, Option.elim_some]

theorem descend_singleton_eq_item_iff (h : p.node.kind = .array)
    (hlength : p.children.length < 2 ^ 64) :
    (∃ q, p.children[i]? = some q ∧ p.descend [token] = .ok q) ↔
      token = toString i ∧ i < p.children.length := by
  simp only [descend_singleton_eq_ok_iff h]
  constructor
  · rintro ⟨q, hq, j, -, htoken, hq'⟩
    obtain ⟨hi, -⟩ := List.getElem?_eq_some_iff.mp hq
    -- Two items are two places, also if their nodes are equal.
    obtain rfl := (List.getElem?_inj hi p.nodup_children).mp (hq.trans hq'.symm)
    exact ⟨htoken, hi⟩
  · rintro ⟨htoken, hi⟩
    have hq := List.getElem?_eq_getElem hi
    exact ⟨_, hq, i, Nat.lt_trans hi hlength, htoken, hq⟩

theorem descend_singleton_eq_notAnIndex_iff (h : p.node.kind = .array) :
    p.descend [token] = .error .notAnIndex ↔ Token.Unfit token := by
  rw [descend_singleton, step_eq_error_iff]
  constructor
  · rintro ⟨-, htoken⟩
    exact Token.unfit_of_ne htoken
  · intro hunfit
    exact .notAnIndex h fun i hi => hunfit.ne_toString hi

/-- The texts that have the form of an index are the decimal texts of numbers, and the check and the
reading of bytes find the number of an item as `Token.index?` does.  In an array of fewer than
`2 ^ 64` items, a token leads to the item of a number exactly if it is the text of that number, so
for each item there is one token, and what a token leads to is an item.  The unfit tokens, and no
others, are refused as no index at all. -/
theorem items_by_decimal_text :
    (∀ token : String, Token.isWhole token = true ↔ ∃ i : Nat, token = toString i) ∧
    (∀ token : String, let bs := bytes token.toList
      ByteIndex.isCanonical bs = Token.isWhole token ∧
        ByteIndex.index? bs = Token.index? token) ∧
    ∀ p : Place, p.node.kind = .array → p.node.children.length < 2 ^ 64 →
      (∀ token i, (∃ q, p.children[i]? = some q ∧ p.descend [token] = .ok q) ↔
        token = toString i ∧ i < p.node.children.length) ∧
      (∀ token q, p.descend [token] = .ok q → q ∈ p.children) ∧
      (∀ q ∈ p.children, ∃! token, p.descend [token] = .ok q) ∧
      ∀ token, p.descend [token] = .error .notAnIndex ↔ Token.Unfit token := by
  refine ⟨fun token => Token.isWhole_iff, fun token =>
    ⟨ByteIndex.isCanonical_bytes token.toList, ByteIndex.index?_bytes token⟩,
    fun p harray hlength => ?_⟩
  rw [← length_children] at hlength ⊢
  have hnumber (token : String) (i : Nat) :
      (∃ q, p.children[i]? = some q ∧ p.descend [token] = .ok q) ↔
        token = toString i ∧ i < p.children.length :=
    descend_singleton_eq_item_iff harray hlength
  refine ⟨hnumber, fun token q hq => ?item, fun q hq => ?once,
    fun token => descend_singleton_eq_notAnIndex_iff harray⟩
  case item =>
    obtain ⟨i, -, -, hi⟩ := (descend_singleton_eq_ok_iff harray).mp hq
    exact List.mem_of_getElem? hi
  case once =>
    obtain ⟨i, hi, rfl⟩ := List.getElem_of_mem hq
    have hq := List.getElem?_eq_getElem hi
    obtain ⟨q, hq', hdescend⟩ := (hnumber (toString i) i).mpr ⟨rfl, hi⟩
    obtain rfl := Option.some.inj (hq.symm.trans hq')
    exact ⟨toString i, hdescend, fun token htoken => ((hnumber token i).mp ⟨_, hq, htoken⟩).1⟩

/-- A number that is too large for a word leads nowhere, though modulo `2 ^ 64` it is the number of
an item. -/
theorem items_by_decimal_text_wrapped :
    let p := root (.array ⟨0, 11⟩ [.null ⟨1, 4⟩, .null ⟨6, 4⟩])
    let q : Place := ⟨2, .null ⟨6, 4⟩⟩
    p.node.kind = .array ∧ p.node.children.length < 2 ^ 64 ∧
      p.descend ["1"] = .ok q ∧ q ∈ p.children ∧ (∃! token, p.descend [token] = .ok q) ∧
      p.descend [toString (2 ^ 64 + 1)] = .error .notAnIndex := by
  intro p q
  obtain ⟨hnumber, hitem, honce, hunfit⟩ := items_by_decimal_text.2.2 p rfl (by decide)
  obtain ⟨q', hq', hdescend⟩ := (hnumber "1" 1).mpr (by decide)
  obtain rfl : q = q' := Option.some.inj hq'
  have hmem := hitem "1" q hdescend
  exact ⟨rfl, by decide, hdescend, hmem, honce q hmem, (hunfit _).mpr (.tooLarge (by decide))⟩

end Place

end JsonNav
