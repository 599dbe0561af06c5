import JsonNav.Text.Width

/-! The bytes of a text in UTF-8.  A character below U+0080 is one byte, which is its code, and no
byte of any other character is below `0x80`.  So a byte that looks like such a character is one. -/

namespace JsonNav.Text

variable {c : Char}

def bytes (cs : List Char) : List UInt8 :=
  cs.flatMap String.utf8EncodeChar

@[simp] theorem bytes_nil : bytes [] = [] := rfl

@[simp] theorem bytes_cons (c : Char) (cs : List Char) :
    bytes (c :: cs) = String.utf8EncodeChar c ++ bytes cs := rfl

theorem bytes_append (cs ds : List Char) : bytes (cs ++ ds) = bytes cs ++ bytes ds :=
  List.flatMap_append

theorem length_bytes (cs : List Char) : (bytes cs).length = byteLength cs := by
  induction cs with
  | nil => rfl
  | cons c cs ih =>
    rw [bytes_cons, List.length_append, String.length_utf8EncodeChar, ih, byteLength_cons]

theorem utf8Size_eq_one_iff : c.utf8Size = 1 ↔ c.toNat < 0x80 := by
  rw [Char.utf8Size_eq_one_iff, UInt32.le_iff_toNat_le]
  exact Nat.lt_succ_iff.symm

theorem utf8EncodeChar_of_lt (h : c.toNat < 0x80) : String.utf8EncodeChar c = [c.toUInt8] :=
  String.utf8EncodeChar_eq_singleton (utf8Size_eq_one_iff.mpr h)

theorem toNat_toUInt8 (h : c.toNat < 0x80) : c.toUInt8.toNat = c.toNat := by
  rw [Char.toUInt8, UInt32.toNat_toUInt8]
  exact Nat.mod_eq_of_lt (Nat.lt_trans h (by decide))

theorem le_or (b m : UInt8) : m ≤ b ||| m := by
  rw [UInt8.le_iff_toNat_le, UInt8.toNat_or]
  exact Nat.right_le_or

theorem le_of_mem_utf8EncodeChar (h : ¬c.toNat < 0x80) :
    ∀ b ∈ String.utf8EncodeChar c, 0x80 ≤ b := by
  have hmark {m : UInt8} (hm : 0x80 ≤ m) (b : UInt8) : 0x80 ≤ b ||| m :=
    UInt8.le_trans hm (le_or b m)
  rcases Char.utf8Size_eq c with hsize | hsize | hsize | hsize
  · exact absurd (utf8Size_eq_one_iff.mp hsize) h
  · rw [String.utf8EncodeChar_eq_cons_cons hsize]
    simp [hmark]
  · rw [String.utf8EncodeChar_eq_cons_cons_cons hsize]
    simp [hmark]
  · rw [String.utf8EncodeChar_eq_cons_cons_cons_cons hsize]
    simp [hmark]

/-- Every byte of a character after its first is at or above `0x80`. -/
theorem exists_utf8EncodeChar (c : Char) :
    ∃ b bs, String.utf8EncodeChar c = b :: bs ∧ bs.length + 1 = c.utf8Size ∧
      ∀ d ∈ bs, 0x80 ≤ d := by
  by_cases h : c.toNat < 0x80
  · exact ⟨c.toUInt8, [], utf8EncodeChar_of_lt h, (utf8Size_eq_one_iff.mpr h).symm, by simp⟩
  · have hlength := String.length_utf8EncodeChar c
    have hhigh := le_of_mem_utf8EncodeChar h
    cases hbytes : String.utf8EncodeChar c with
    | nil =>
      have := c.utf8Size_pos
      rw [hbytes, List.length_nil] at hlength
      omega
    | cons b bs =>
      rw [hbytes] at hlength hhigh
      exact ⟨b, bs, rfl, hlength, fun d hd => hhigh d (List.mem_cons_of_mem _ hd)⟩

/-- A byte of a character that is the code of an ASCII character is that character. -/
theorem eq_of_toUInt8_mem {c d : Char} (hd : d.toNat < 0x80)
    (h : d.toUInt8 ∈ String.utf8EncodeChar c) : c = d := by
  by_cases hc : c.toNat < 0x80
  · rw [utf8EncodeChar_of_lt hc, List.mem_singleton] at h
    rw [← Char.toNat_inj, ← toNat_toUInt8 hc, ← h, toNat_toUInt8 hd]
  · have hle := UInt8.le_iff_toNat_le.mp (le_of_mem_utf8EncodeChar hc _ h)
    rw [toNat_toUInt8 hd] at hle
    exact absurd hd (Nat.not_lt_of_le hle)

/-- The first byte of a character. -/
def lead (c : Char) : UInt8 :=
  (String.utf8EncodeChar c).headD 0

theorem exists_encode_eq_lead (c : Char) : ∃ bs, String.utf8EncodeChar c = lead c :: bs := by
  obtain ⟨b, bs, hbytes, -⟩ := exists_utf8EncodeChar c
  exact ⟨bs, by rw [lead, hbytes, List.headD_cons]⟩

theorem head?_bytes (cs : List Char) : (bytes cs).head? = cs.head?.map lead := by
  cases cs with
  | nil => rfl
  | cons c cs =>
    obtain ⟨bs, hbytes⟩ := exists_encode_eq_lead c
    rw [bytes_cons, hbytes]
    rfl

theorem lead_of_lt (h : c.toNat < 0x80) : lead c = c.toUInt8 := by
  rw [lead, utf8EncodeChar_of_lt h, List.headD_cons]

theorem le_lead (h : ¬c.toNat < 0x80) : 0x80 ≤ (lead c).toNat := by
  obtain ⟨bs, hbytes⟩ := exists_encode_eq_lead c
  exact UInt8.le_iff_toNat_le.mp (le_of_mem_utf8EncodeChar h _ (by rw [hbytes]; simp))

/-- A first byte that is the code of an ASCII character is that character. -/
theorem lead_eq_iff {d : Char} (hd : d.toNat < 0x80) : lead c = d.toUInt8 ↔ c = d := by
  constructor
  · intro h
    obtain ⟨bs, hbytes⟩ := exists_encode_eq_lead c
    exact eq_of_toUInt8_mem hd (by rw [hbytes, h]; exact List.mem_cons_self ..)
  · rintro rfl
    exact lead_of_lt hd

theorem byteLength_eq_length {cs : List Char} (h : ∀ c ∈ cs, c.toNat < 0x80) :
    byteLength cs = cs.length := by
  induction cs with
  | nil => rfl
  | cons c cs ih =>
    rw [byteLength_cons, ih fun d hd => h d (List.mem_cons_of_mem _ hd),
      utf8Size_eq_one_iff.mpr (h c (List.mem_cons_self ..)), List.length_cons, Nat.add_comm]

theorem length_le_byteLength (cs : List Char) : cs.length ≤ byteLength cs := by
  induction cs with
  | nil => exact Nat.le_refl _
  | cons c cs ih =>
    have := c.utf8Size_pos
    rw [byteLength_cons, List.length_cons]
    omega

/-- The bytes of an ASCII word stand at the front where the word does. -/
theorem bytes_prefix_iff {w : List Char} (hascii : ∀ d ∈ w, d.toNat < 0x80) (cs : List Char) :
    bytes w <+: bytes cs ↔ w <+: cs := by
  constructor
  · induction w generalizing cs with
    | nil => simp
    | cons d w ih =>
      intro hprefix
      have hd := hascii d (List.mem_cons_self ..)
      cases cs with
      | nil =>
        rw [bytes_cons, utf8EncodeChar_of_lt hd] at hprefix
        simp at hprefix
      | cons c cs =>
        obtain ⟨bs, hbytes⟩ := exists_encode_eq_lead c
        rw [bytes_cons, bytes_cons, utf8EncodeChar_of_lt hd, hbytes,
          List.singleton_append, List.cons_append, List.cons_prefix_cons] at hprefix
        obtain rfl := (lead_eq_iff hd).mp hprefix.1.symm
        rw [utf8EncodeChar_of_lt hd, lead_of_lt hd] at hbytes
        obtain ⟨-, rfl⟩ := List.cons.inj hbytes
        exact List.cons_prefix_cons.mpr
          ⟨rfl, ih (fun e he => hascii e (List.mem_cons_of_mem _ he)) cs hprefix.2⟩
  · rintro ⟨rest, rfl⟩
    rw [bytes_append]
    exact List.prefix_append ..

/-- A test of bytes that only ASCII characters pass takes as many bytes off a text as characters. -/
theorem length_takeWhile_bytes {p : UInt8 → Bool} {q : Char → Bool}
    (hp : ∀ c, p (lead c) = q c) (hq : ∀ c, q c = true → c.toNat < 0x80) (cs : List Char) :
    ((bytes cs).takeWhile p).length = (cs.takeWhile q).length := by
  induction cs with
  | nil => rfl
  | cons c cs ih =>
    obtain ⟨bs, hbytes⟩ := exists_encode_eq_lead c
    rw [bytes_cons, List.takeWhile_cons (p := q)]
    split
    next hc =>
      have hlead : p c.toUInt8 = true := by rw [← lead_of_lt (hq c hc), hp, hc]
      rw [utf8EncodeChar_of_lt (hq c hc), List.singleton_append, List.takeWhile_cons_of_pos hlead,
        List.length_cons, List.length_cons, ih]
    next hc => rw [hbytes, List.cons_append, List.takeWhile_cons_of_neg (by rwa [hp])]; rfl

end JsonNav.Text
