import Mathlib.Data.Bool.AllAny
import Mathlib.Data.List.Basic
import Mathlib.Data.List.Induction
import JsonNav.Proofs.Text.Segments
import JsonNav.Url.Percent

/-! What encoded texts are made of: characters that stand as they are, and the signs of escapes.
The signs stand in every part of an address, so an encoded text is not changed by encoding it
again. -/

namespace JsonNav.Percent

variable {stands : Char → Bool} {cs : List Char} {c d : Char}

/-- What holds of the ASCII characters one by one holds of each of them. -/
theorem forall_ascii {p : Char → Prop} (hp : ∀ n < 0x80, p (Char.ofNat n)) :
    ∀ c : Char, c.toNat < 0x80 → p c := by
  intro c hc
  have := hp c.toNat hc
  rwa [Char.ofNat_toNat] at this

/-- The characters that escapes are written with. -/
def signs : List Char :=
  '%' :: "0123456789ABCDEF".toList

theorem digit_mem_signs : ∀ n < 16, digit n ∈ signs := by
  decide

theorem mem_signs_of_mem_encodeByte {b : UInt8} (h : c ∈ encodeByte b) : c ∈ signs := by
  have hlow := Nat.mod_lt b.toNat (show 0 < 16 by decide)
  have hhigh : b.toNat / 16 < 16 := by
    have := b.toNat_lt
    omega
  rw [encodeByte, List.mem_cons, List.mem_cons, List.mem_singleton] at h
  rcases h with rfl | rfl | rfl
  · exact List.mem_cons_self ..
  · exact digit_mem_signs _ hhigh
  · exact digit_mem_signs _ hlow

theorem mem_signs_of_mem_bytes {bs : List UInt8} (h : c ∈ bs.flatMap encodeByte) : c ∈ signs := by
  obtain ⟨b, -, hc⟩ := List.mem_flatMap.mp h
  exact mem_signs_of_mem_encodeByte hc

/-- A character of an encoded text stands there as it is, or is a sign of an escape. -/
theorem mem_encode (h : d ∈ encode stands cs) : (d ∈ cs ∧ stands d = true) ∨ d ∈ signs := by
  obtain ⟨c, hc, hd⟩ := List.mem_flatMap.mp h
  split at hd
  next hstands =>
    rw [List.mem_singleton.mp hd]
    exact .inl ⟨hc, hstands⟩
  next => exact .inr (mem_signs_of_mem_bytes hd)

/-- Signs of escapes apart, a property of the characters of a text is one of the encoded text. -/
theorem forall_mem_encode {p : Char → Prop} (hsigns : ∀ c ∈ signs, p c) (h : ∀ c ∈ cs, p c) :
    ∀ c ∈ encode stands cs, p c := by
  intro c hc
  rcases mem_encode hc with ⟨hmem, -⟩ | hsign
  · exact h c hmem
  · exact hsigns c hsign

theorem stands_of_mem_encode (hsigns : ∀ c ∈ signs, stands c = true) :
    ∀ c ∈ encode stands cs, stands c = true := by
  intro c hc
  rcases mem_encode hc with ⟨-, h⟩ | hsign
  · exact h
  · exact hsigns c hsign

theorem encode_append (cs ds : List Char) :
    encode stands (cs ++ ds) = encode stands cs ++ encode stands ds :=
  List.flatMap_append

theorem encode_eq_self (h : ∀ c ∈ cs, stands c = true) : encode stands cs = cs := by
  induction cs with
  | nil => rfl
  | cons c cs ih =>
    rw [encode, List.flatMap_cons, if_pos (h c (List.mem_cons_self ..)), List.singleton_append]
    exact congrArg (c :: ·) (ih fun d hd => h d (List.mem_cons_of_mem _ hd))

theorem bytes_ne_nil (c : Char) : (String.utf8EncodeChar c).flatMap encodeByte ≠ [] := by
  obtain ⟨b, bs, hb⟩ := List.exists_cons_of_ne_nil (String.utf8EncodeChar_ne_nil (c := c))
  simp [hb, encodeByte]

/-- An encoded text begins with the first character of the text, or with a sign of an escape. -/
theorem head?_encode (h : (encode stands cs).head? = some d) : cs.head? = some d ∨ d ∈ signs := by
  cases cs with
  | nil => exact nomatch h
  | cons c cs =>
    rw [encode, List.flatMap_cons] at h
    split at h
    next => exact .inl h
    next =>
      rw [List.head?_append_of_ne_nil _ (bytes_ne_nil c)] at h
      exact .inr (mem_signs_of_mem_bytes (List.mem_of_head? h))

/-- An encoded text ends in the last character of the text, or in a sign of an escape. -/
theorem getLast?_encode (h : (encode stands cs).getLast? = some d) :
    cs.getLast? = some d ∨ d ∈ signs := by
  induction cs using List.reverseRecOn with
  | nil => exact nomatch h
  | append_singleton cs c =>
    rw [encode_append, encode, encode, List.flatMap_singleton] at h
    split at h
    next => exact .inl (by simpa using h)
    next =>
      rw [List.getLast?_append_of_ne_nil _ (bytes_ne_nil c)] at h
      exact .inr (mem_signs_of_mem_bytes (List.mem_of_getLast? h))

/-! ### The signs of escapes stand everywhere -/

theorem isPrintable_of_mem_signs : ∀ c ∈ signs, isPrintable c = true :=
  List.all_iff_forall_prop.mp (by decide)

theorem standsInPath_of_mem_signs : ∀ c ∈ signs, standsInPath c = true :=
  List.all_iff_forall_prop.mp (by decide)

theorem standsInQuery_of_mem_signs (special : Bool) :
    ∀ c ∈ signs, standsInQuery special c = true := by
  cases special with
  | false => exact List.all_iff_forall_prop.mp (by decide)
  | true => exact List.all_iff_forall_prop.mp (by decide)

theorem standsInFragment_of_mem_signs : ∀ c ∈ signs, standsInFragment c = true :=
  List.all_iff_forall_prop.mp (by decide)

end JsonNav.Percent
