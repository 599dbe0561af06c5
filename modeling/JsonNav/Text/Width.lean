/-! The width of a text in bytes of UTF-8 and in units of UTF-16, and the cuts of a text at a byte
offset.  A cut never splits a character: what does not fit before the offset stays after it. -/

namespace JsonNav.Text

/-- The bytes that a text takes in UTF-8. -/
def byteLength (cs : List Char) : Nat :=
  cs.foldl (fun n c => n + c.utf8Size) 0

/-- A character above U+FFFF takes two units of UTF-16, and any other takes one. -/
def unitSize (c : Char) : Nat :=
  if c.toNat < 0x10000 then 1 else 2

/-- The units that a text takes in UTF-16. -/
def unitLength (cs : List Char) : Nat :=
  cs.foldl (fun n c => n + unitSize c) 0

/-- The longest beginning of a text that takes at most `n` bytes. -/
def takeBytes : Nat → List Char → List Char
  | _, [] => []
  | n, c :: cs => if c.utf8Size ≤ n then c :: takeBytes (n - c.utf8Size) cs else []

/-- What follows the longest beginning that takes at most `n` bytes. -/
def dropBytes : Nat → List Char → List Char
  | _, [] => []
  | n, c :: cs => if c.utf8Size ≤ n then dropBytes (n - c.utf8Size) cs else c :: cs

/-- The last character boundary at or before an offset, which may lie past the end. -/
def boundaryBefore (cs : List Char) (offset : Nat) : Nat :=
  byteLength (takeBytes offset cs)

private theorem foldl_width (w : Char → Nat) (cs : List Char) (n : Nat) :
    cs.foldl (fun n c => n + w c) n = n + cs.foldl (fun n c => n + w c) 0 := by
  induction cs generalizing n with
  | nil => simp
  | cons c cs ih => rw [List.foldl_cons, List.foldl_cons, ih (n + w c), ih (0 + w c)]; omega

@[simp] theorem byteLength_nil : byteLength [] = 0 := rfl

@[simp] theorem byteLength_cons (c : Char) (cs : List Char) :
    byteLength (c :: cs) = c.utf8Size + byteLength cs := by
  simp only [byteLength, List.foldl_cons, Nat.zero_add]
  exact foldl_width _ cs _

@[simp] theorem byteLength_append (cs ds : List Char) :
    byteLength (cs ++ ds) = byteLength cs + byteLength ds := by
  induction cs with
  | nil => simp
  | cons c cs ih => simp [ih, Nat.add_assoc]

theorem byteLength_pos {cs : List Char} (h : cs ≠ []) : 0 < byteLength cs := by
  obtain ⟨c, cs, rfl⟩ := List.exists_cons_of_ne_nil h
  have := c.utf8Size_pos
  rw [byteLength_cons]
  omega

theorem eq_nil_of_byteLength {cs : List Char} (h : byteLength cs = 0) : cs = [] := by
  cases cs with
  | nil => rfl
  | cons c cs =>
    have := byteLength_pos (List.cons_ne_nil c cs)
    omega

/-- Of two cuts of a text, the first part of one is a beginning of the first part of the other. -/
theorem exists_eq_append_of_byteLength_le {cs cs' ds ds' : List Char} (h : cs ++ ds = cs' ++ ds')
    (hle : byteLength cs ≤ byteLength cs') : ∃ mid, cs' = cs ++ mid ∧ ds = mid ++ ds' := by
  rcases List.append_eq_append_iff.mp h with ⟨mid, hcs, hds⟩ | ⟨mid, rfl, rfl⟩
  · exact ⟨mid, hcs, hds⟩
  · rw [byteLength_append] at hle
    obtain rfl := eq_nil_of_byteLength (show byteLength mid = 0 by omega)
    exact ⟨[], by simp, by simp⟩

/-- A text is cut in one way only at a byte offset. -/
theorem append_right_inj_of_byteLength {cs cs' ds ds' : List Char} (h : cs ++ ds = cs' ++ ds')
    (hlength : byteLength cs = byteLength cs') : ds = ds' := by
  obtain ⟨mid, rfl, rfl⟩ := exists_eq_append_of_byteLength_le h (Nat.le_of_eq hlength)
  rw [byteLength_append] at hlength
  obtain rfl := eq_nil_of_byteLength (show byteLength mid = 0 by omega)
  rfl

@[simp] theorem unitLength_nil : unitLength [] = 0 := rfl

@[simp] theorem unitLength_cons (c : Char) (cs : List Char) :
    unitLength (c :: cs) = unitSize c + unitLength cs := by
  simp only [unitLength, List.foldl_cons, Nat.zero_add]
  exact foldl_width _ cs _

@[simp] theorem unitLength_append (cs ds : List Char) :
    unitLength (cs ++ ds) = unitLength cs + unitLength ds := by
  induction cs with
  | nil => simp
  | cons c cs ih => simp [ih, Nat.add_assoc]

@[simp] theorem takeBytes_append_dropBytes (n : Nat) (cs : List Char) :
    takeBytes n cs ++ dropBytes n cs = cs := by
  induction cs generalizing n with
  | nil => rfl
  | cons c cs ih => simp only [takeBytes, dropBytes]; split <;> simp [ih]

theorem byteLength_takeBytes_le (n : Nat) (cs : List Char) : byteLength (takeBytes n cs) ≤ n := by
  induction cs generalizing n with
  | nil => simp [takeBytes]
  | cons c cs ih =>
    simp only [takeBytes]
    split
    next h => have := ih (n - c.utf8Size); simp only [byteLength_cons]; omega
    next => simp

/-- A cut at a character boundary takes exactly the text before the boundary. -/
@[simp] theorem takeBytes_byteLength (cs ds : List Char) :
    takeBytes (byteLength cs) (cs ++ ds) = cs := by
  induction cs with
  | nil =>
    cases ds with
    | nil => rfl
    | cons d ds => have := d.utf8Size_pos; simp [takeBytes]; omega
  | cons c cs ih => simp [takeBytes, ih]

end JsonNav.Text
