import Mathlib.Data.Bool.AllAny
import JsonNav.Proofs.Tree.ByteScan
import JsonNav.Proofs.Tree.Decidable
import JsonNav.Proofs.Tree.Parse

/-! The reader of bytes makes progress and stays in bounds.  It reads a text as the reader of
characters does, whose steps leave less of the text, so it never wants for fuel, and it never asks
for what is not there.  `Yields` says this of a reading together with what the reading writes to its
log: each call that succeeds went on to an index within the text, where its node ends. -/

namespace JsonNav

open Text (bytes byteLength lead)

variable {α β : Type} {whole before : List Char} {c next : Cursor} {n : Tree}

namespace ByteReader

/-- What an event has to tell of a reading of `size` bytes that is in order: no routine is called
below more containers than may be open and one more, and every call and round goes forward, by at
least one byte, to an index that is not past the end.  For a call that is where its node ends. -/
def Event.InBounds (size : Nat) : Event → Prop
  | .call _ depth start result =>
    depth ≤ Tree.maxDepth + 1 ∧ start ≤ size ∧
      ∀ n stop, result = some (n, stop) → start < stop ∧ stop ≤ size ∧ n.stop = stop
  | .round start next => start < next ∧ next ≤ size

/-- A reading ends as `r` says, and all that it adds to the log is in bounds. -/
def Yields (size : Nat) (m : Logged α) (r : Except Stop α) : Prop :=
  ∀ log, ∃ more, m.run.run log = (r, log ++ more) ∧ ∀ e ∈ more, e.InBounds size

section Yields

variable {size : Nat} {m : Logged α} {f : α → Logged β} {a : α} {r : Except Stop β} {stop : Stop}

theorem liftM_ok_bind (a : α) (f : α → Logged β) :
    (liftM (Except.ok a : Except Stop α) : Logged α) >>= f = f a := rfl

theorem Yields.lift (size : Nat) (r : Except Stop α) : Yields size (liftM r) r := by
  intro log
  refine ⟨[], ?_, by simp⟩
  rw [List.append_nil]
  cases r <;> rfl

theorem Yields.pure (size : Nat) (a : α) : Yields size (pure a) (.ok a) :=
  .lift size (.ok a)

theorem Yields.bind_ok (hm : Yields size m (.ok a)) (hf : Yields size (f a) r) :
    Yields size (m >>= f) r := by
  intro log
  obtain ⟨more, hrun, hmore⟩ := hm log
  obtain ⟨more', hrun', hmore'⟩ := hf (log ++ more)
  refine ⟨more ++ more', ?_, fun e he => ?_⟩
  · rw [← List.append_assoc, ← hrun', ExceptT.run_bind, StateT.run_bind, hrun]
    rfl
  · exact (List.mem_append.mp he).elim (hmore e) (hmore' e)

theorem Yields.bind_error (hm : Yields size m (.error stop)) :
    Yields size (m >>= f) (.error stop) := by
  intro log
  obtain ⟨more, hrun, hmore⟩ := hm log
  refine ⟨more, ?_, hmore⟩
  rw [ExceptT.run_bind, StateT.run_bind, hrun]
  rfl

theorem Yields.note {e : Event} (h : e.InBounds size) : Yields size (note e) (.ok ()) := by
  intro log
  exact ⟨[e], rfl, by simpa using h⟩

theorem Yields.logged {routine : Routine} {depth start : Nat} {m : Logged (Tree × Nat)}
    {r : Except Stop (Tree × Nat)} (hm : Yields size m r)
    (h : (Event.call routine depth start r.toOption).InBounds size) :
    Yields size (logged routine depth start m) r := by
  intro log
  obtain ⟨more, hrun, hmore⟩ := hm log
  refine ⟨more ++ [.call routine depth start r.toOption], ?_, fun e he => ?_⟩
  · rw [ByteReader.logged, ExceptT.run_mk, StateT.run_bind, hrun, ← List.append_assoc]
    rfl
  · rcases List.mem_append.mp he with he | he
    · exact hmore e he
    · rw [List.mem_singleton.mp he]
      exact h

end Yields

/-! ### Readers of characters go forward -/

/-- From `c` a reader comes to `next`, further on in the text, where the node ends that it read. -/
structure Advances (c : Cursor) (n : Tree) (next : Cursor) : Prop where
  passes : ∃ cs, c.Passes cs next
  lt : c.offset < next.offset
  stop : n.stop = next.offset

variable {l : Literals String Binary64}

/-- What literals stand for is what they are read as. -/
def meaning (l : Literals String Binary64) : Meaning String Binary64 where
  string body x := Cursor.Body body ∧ l.string? body = some x
  number m x := x = l.number m

theorem fits_meaning (l : Literals String Binary64) : l.Fits (meaning l) where
  string := Iff.rfl
  number := Iff.rfl

variable {P : List Char → Nat → Tree → Prop} {reader : Reader Tree}

/-- A reader leaves less of the text, so a reader that passes over text passes over some. -/
theorem lt_of_passes {r : Reader α} {a : α} (hrun : r.run c = .ok (a, next)) {cs : List Char}
    (hpass : c.Passes cs next) : c.offset < next.offset := by
  have hne : cs ≠ [] := by
    rintro rfl
    have hrest : c.rest = next.rest := hpass.rest
    exact Nat.lt_irrefl _ (hrest ▸ Reader.length_lt_of_run hrun)
  have := Text.byteLength_pos hne
  rw [hpass.offset]
  omega

theorem advances_of_sound (hsound : Reader.Sound reader (Grammar.Padded P))
    (hspan : ∀ {cs o n}, P cs o n → n.span = ⟨o, byteLength cs⟩)
    (hrun : reader.run c = .ok (n, next)) : Advances c n next := by
  obtain ⟨_, hpass, ws, ds, rfl, -, hP⟩ := hsound hrun
  refine ⟨⟨_, hpass⟩, lt_of_passes hrun hpass, ?_⟩
  rw [Node.stop, hspan hP, Span.stop, hpass.offset, Text.byteLength_append, Nat.add_assoc]

theorem advances_value {depth : Nat} (hrun : (Reader.value l depth).run c = .ok (n, next)) :
    Advances c n next :=
  advances_of_sound (Reader.sound_value (fits_meaning l) depth) Grammar.Value.span hrun

/-! ### Containers -/

/-- In the bytes of a text a reading yields what a reader of characters does. -/
def Reads (whole : List Char) (m : Logged (α × Nat)) (r : Except ParseError (α × Cursor)) : Prop :=
  Yields (bytes whole).length m (answer r)

theorem Reads.refuse (e : ParseError) :
    Reads whole (liftM (refuse e : Except Stop (α × Nat))) (.error e) :=
  .lift _ _

theorem Reads.pure (a : α) (next : Cursor) : Reads whole (pure (a, next.offset)) (.ok (a, next)) :=
  Yields.pure _ _

theorem Reads.answer (r : Except ParseError (α × Cursor)) : Reads whole (liftM (answer r)) r :=
  .lift _ _

/-- At each index from `start` on where a character begins, `f` reads what `reader` reads there. -/
def ReadsFrom (whole : List Char) (start : Nat) (f : Nat → Logged (Tree × Nat))
    (reader : Reader Tree) : Prop :=
  ∀ ⦃before c⦄, (Cursor.ofText whole).Passes before c → start ≤ c.offset →
    Reads whole (f c.offset) (reader.run c)

/-- From `start` on `item` reads what `reader` reads: at once after blanks, and otherwise after what
`settle` skips.  What it reads is derived by `P`. -/
structure ReadsItems (whole : List Char) (start : Nat) (settle : Nat → Except Stop Nat)
    (item : Nat → Logged (Tree × Nat)) (reader : Reader Tree)
    (P : List Char → Nat → Tree → Prop) : Prop where
  first : ∀ {before c}, (Cursor.ofText whole).Passes before c → start ≤ c.offset →
    Reads whole (item c.skipBlanks.offset) (reader.run c)
  later : ∀ {before c}, (Cursor.ofText whole).Passes before c → start ≤ c.offset →
    ∃ x, settle c.offset = .ok x ∧ Reads whole (item x) (reader.run c)
  sound : Reader.Sound reader (Grammar.Padded P)
  span : ∀ {cs o n}, P cs o n → n.span = ⟨o, byteLength cs⟩

variable {start : Nat} {settle : Nat → Except Stop Nat} {item : Nat → Logged (Tree × Nat)}
  {close : Char}

/-- After a round of the loop the rest of the loop goes on where the item ends. -/
theorem ReadsItems.reads_round (h : ReadsItems whole start settle item reader P) {fuel : Nat}
    (read : List Tree) {x y : Nat}
    (hc : (Cursor.ofText whole).Passes before c) (hx : x ≤ c.offset) (hstart : start ≤ c.offset)
    (hfuel : (bytes whole).length ≤ c.offset + fuel)
    (hitem : Reads whole (item y) (reader.run c))
    (hrest : ∀ {before c read}, (Cursor.ofText whole).Passes before c → start ≤ c.offset →
      (bytes whole).length < c.offset + fuel → read ≠ [] →
      Reads whole (rounds (bytes whole) close settle item fuel read c.offset)
        ((Reader.run (Reader.items reader close) c).map fun r => (read ++ r.1, r.2))) :
    Reads whole
      (do
        let (n, next) ← item y
        note (.round x next)
        rounds (bytes whole) close settle item fuel (read ++ [n]) next)
      ((do
        let r ← reader.run c
        let s ← Reader.run (Reader.items reader close) r.2
        return (r.1 :: s.1, s.2) : Except ParseError (List Tree × Cursor)).map
          fun r => (read ++ r.1, r.2)) := by
  cases hrun : reader.run c with
  | error e =>
    rw [hrun] at hitem
    exact hitem.bind_error
  | ok r =>
    obtain ⟨n, next⟩ := r
    rw [hrun] at hitem
    obtain ⟨⟨cs, hpass⟩, hlt, -⟩ := advances_of_sound h.sound h.span hrun
    have hnext := hc.trans hpass
    have hround : (Event.round x next.offset).InBounds (bytes whole).length :=
      ⟨Nat.lt_of_le_of_lt hx hlt, hnext.offset_le⟩
    refine hitem.bind_ok ((Yields.note hround).bind_ok ?_)
    have hagain := @hrest _ next (read ++ [n]) hnext (by omega) (by omega) (by simp)
    simp only [bind, Except.bind]
    cases hitems : Reader.run (Reader.items reader close) next with
    | error e => rwa [hitems] at hagain
    | ok s =>
      rw [hitems] at hagain
      simpa [Reads, Except.map, answer, pure, Except.pure] using hagain

/-- The rounds after the first read the other items. -/
theorem ReadsItems.reads_later (h : ReadsItems whole start settle item reader P)
    (hclose : close.toNat < 0x80) {fuel : Nat} {read : List Tree}
    (hc : (Cursor.ofText whole).Passes before c) (hstart : start ≤ c.offset)
    (hfuel : (bytes whole).length < c.offset + fuel) (hread : read ≠ []) :
    Reads whole (rounds (bytes whole) close settle item fuel read c.offset)
      ((Reader.run (Reader.items reader close) c).map fun r => (read ++ r.1, r.2)) := by
  -- There is more fuel than bytes are left, and both get less with each round.
  induction fuel generalizing before c read with
  | zero =>
    have := hc.offset_le
    omega
  | succ fuel ih =>
    obtain ⟨ws, -, hblanks, -⟩ := c.exists_skipBlanks
    have hhere := hc.trans hblanks
    have hle := hblanks.le
    rw [rounds, skipBlanks_eq hc, liftM_ok_bind, peek_eq hhere, Reader.run_items]
    cases hd : c.skipBlanks.rest with
    | nil => exact Reads.refuse .unfinished
    | cons d cs =>
      simp only [liftM_ok_bind, Text.lead_eq_iff hclose, List.isEmpty_iff.not.mpr hread, itemStart,
        Text.lead_eq_iff (show ','.toNat < 0x80 by decide)]
      by_cases hdc : d = close
      · rw [if_pos hdc, if_pos hdc]
        simpa [Except.map] using Reads.pure read ⟨c.skipBlanks.offset + 1, cs⟩
      rw [if_neg hdc, if_neg hdc]
      by_cases hcomma : d = ','
      · have hnext := hhere.trans (.head hd (by rw [hcomma]; rfl))
        obtain ⟨y, hy, hitem⟩ := h.later hnext (Nat.le_succ_of_le (Nat.le_trans hstart hle))
        rw [if_pos hcomma, if_pos hcomma]
        simp only [Bool.false_eq_true, if_false, hy, liftM_ok_bind]
        exact h.reads_round read hnext (Nat.le_succ_of_le hle)
          (Nat.le_succ_of_le (Nat.le_trans hstart hle)) (by simp only; omega) hitem ih
      · rw [if_neg hcomma, if_neg hcomma]
        exact Reads.refuse (.misplaced c.skipBlanks.offset)

/-- The loop reads the contents of a container. -/
theorem ReadsItems.reads_rounds (h : ReadsItems whole start settle item reader P)
    (hclose : close.toNat < 0x80) {fuel : Nat} (hc : (Cursor.ofText whole).Passes before c)
    (hstart : start ≤ c.offset) (hfuel : (bytes whole).length < c.offset + fuel) :
    Reads whole (rounds (bytes whole) close settle item fuel [] c.offset)
      ((Reader.contents reader close).run c) := by
  cases fuel with
  | zero =>
    have := hc.offset_le
    omega
  | succ fuel =>
    obtain ⟨ws, -, hblanks, -⟩ := c.exists_skipBlanks
    have hhere := hc.trans hblanks
    rw [rounds, skipBlanks_eq hc, liftM_ok_bind, peek_eq hhere, Reader.run_contents]
    cases hd : c.skipBlanks.rest with
    | nil => exact Reads.refuse .unfinished
    | cons d cs =>
      simp only [liftM_ok_bind, Text.lead_eq_iff hclose, itemStart]
      by_cases hdc : d = close
      · rw [if_pos hdc, if_pos hdc]
        exact Reads.pure [] ⟨c.skipBlanks.offset + 1, cs⟩
      · rw [if_neg hdc, if_neg hdc]
        have hround := h.reads_round [] hc (Nat.le_refl _) hstart (Nat.le_of_lt_succ hfuel)
          (h.first hc hstart) fun hc hstart hfuel hread =>
            h.reads_later hclose hc hstart hfuel hread
        have hnil (r : Except ParseError (List Tree × Cursor)) :
            r.map (fun s => ([] ++ s.1, s.2)) = r := by
          cases r <;> rfl
        rwa [hnil] at hround

/-- A container that is read begins and ends where its node does. -/
theorem ReadsItems.advances (h : ReadsItems whole start settle item reader P)
    (hclose : close.utf8Size = 1) {node : Span → List Tree → Tree}
    (hnode : ∀ s ns, (node s ns).span = s) {d : Char} {cs : List Char} (hd : c.rest = d :: cs)
    (hsize : d.utf8Size = 1)
    (hrun : (Reader.container reader close node).run c = .ok (n, next)) : Advances c n next := by
  obtain ⟨ds, ns, hpass, -, rfl⟩ := Reader.sound_container h.sound hclose hd hsize hrun
  refine ⟨⟨_, hpass⟩, lt_of_passes hrun hpass, ?_⟩
  rw [Node.stop, hnode, hpass.offset]
  rfl

theorem ReadsItems.reads_container {d : Char} {cs : List Char}
    (h : ReadsItems whole (c.offset + 1) settle item reader P)
    (hclose : close.toNat < 0x80) {node : Span → List Tree → Tree} {fuel depth : Nat}
    (hc : (Cursor.ofText whole).Passes before c) (hd : c.rest = d :: cs) (hsize : d.utf8Size = 1)
    (hdepth : depth ≤ Tree.maxDepth) (hfuel : (bytes whole).length < c.offset + 1 + fuel) :
    Reads whole (container (bytes whole) close settle node item fuel depth c.offset)
      ((Reader.container reader close node).run c) := by
  have hhead := Cursor.Passes.head hd hsize
  have hrounds := h.reads_rounds hclose (hc.trans hhead) (Nat.le_refl _) hfuel
  rw [container, if_neg (Nat.not_lt_of_le hdepth), Reader.run_container, hd]
  simp only
  cases hcontents : (Reader.contents reader close).run ⟨c.offset + 1, cs⟩ with
  | error e =>
    rw [hcontents] at hrounds
    exact hrounds.bind_error
  | ok r =>
    rw [hcontents] at hrounds
    obtain ⟨ds, hpass, -⟩ :=
      Reader.sound_contents h.sound (Text.utf8Size_eq_one_iff.mpr hclose) hcontents
    have hall := hhead.trans hpass
    refine hrounds.bind_ok ?_
    simp only [difference_eq hall, liftM_ok_bind]
    rw [← hall.spanned]
    exact Reads.pure _ r.2

/-! ### Properties and values -/

variable {double? : List Char → Option Binary64}

/-- What follows a key is read as by the reader of characters if the values from `start` on are. -/
theorem reads_afterKey {value : Nat → Logged (Tree × Nat)} {key : Tree}
    (hvalue : ReadsFrom whole start value reader)
    (hadvances : ∀ {c n next}, reader.run c = .ok (n, next) → Advances c n next)
    (hc : (Cursor.ofText whole).Passes before c) (hstart : start ≤ c.offset)
    (hkey : key.offset ≤ c.offset) :
    Reads whole (afterKey (bytes whole) value key c.offset)
      (match c.skipBlanks.rest with
      | [] => .error .unfinished
      | ':' :: cs => do
        let v ← reader.run ⟨c.skipBlanks.offset + 1, cs⟩
        return (.property ⟨key.offset, v.1.stop - key.offset⟩ key (some v.1), v.2)
      | _ => .error (.misplaced c.skipBlanks.offset)) := by
  obtain ⟨ws, -, hblanks, -⟩ := c.exists_skipBlanks
  have hle := hblanks.le
  have hhere := hc.trans hblanks
  rw [afterKey, skipBlanks_eq hc, liftM_ok_bind, peek_eq hhere]
  cases hd : c.skipBlanks.rest with
  | nil => exact Reads.refuse .unfinished
  | cons d cs =>
    simp only [liftM_ok_bind, ne_eq, Text.lead_eq_iff (show ':'.toNat < 0x80 by decide)]
    split
    next hcolon =>
      split
      next hnil => cases hnil
      next heq => exact absurd (List.cons.inj heq).1 hcolon
      next => exact Reads.refuse (.misplaced c.skipBlanks.offset)
    next hcolon =>
      obtain rfl := Decidable.not_not.mp hcolon
      have hcolon := hhere.trans (.head hd rfl)
      have hv := hvalue hcolon (by simp only; omega)
      simp only
      cases hrun : reader.run ⟨c.skipBlanks.offset + 1, cs⟩ with
      | error e =>
        rw [hrun] at hv
        exact hv.bind_error
      | ok r =>
        obtain ⟨v, next⟩ := r
        rw [hrun] at hv
        obtain ⟨-, hlt, hstop⟩ := hadvances hrun
        have hlength : difference v.stop key.offset = .ok (v.stop - key.offset) :=
          if_pos (by simp only at hlt; omega)
        refine hv.bind_ok ?_
        simp only [hlength, liftM_ok_bind]
        exact Reads.pure _ next

/-- A property is read as by the reader of characters if the values from `start` on are. -/
theorem reads_property (hl : Agrees double? l) {value : Nat → Logged (Tree × Nat)}
    (hvalue : ReadsFrom whole start value reader)
    (hadvances : ∀ {c n next}, reader.run c = .ok (n, next) → Advances c n next)
    (hc : (Cursor.ofText whole).Passes before c) (hstart : start ≤ c.offset) :
    Reads whole (property (bytes whole) value c.skipBlanks.offset)
      ((Reader.property l reader).run c) := by
  obtain ⟨ws, -, hblanks, -⟩ := c.exists_skipBlanks
  have hhere := hc.trans hblanks
  rw [property, peek_eq hhere, Reader.run_property]
  have hstring := Reader.run_string l c.skipBlanks
  cases hd : c.skipBlanks.rest with
  | nil =>
    rw [hstring, hd]
    exact Reads.refuse .unfinished
  | cons d cs =>
    simp only [liftM_ok_bind, ne_eq, Text.lead_eq_iff (show '"'.toNat < 0x80 by decide)]
    split
    next hquote =>
      rw [hstring, hd]
      split
      next hnil => cases hnil
      next heq => exact absurd (List.cons.inj heq).1 hquote
      next => exact Reads.refuse (.misplaced c.skipBlanks.offset)
    next hquote =>
      obtain rfl := Decidable.not_not.mp hquote
      rw [string_eq hl hhere hd]
      cases hkey : (Reader.string l).run c.skipBlanks with
      | error e => exact Reads.refuse e
      | ok r =>
        obtain ⟨key, next⟩ := r
        obtain ⟨ks, hpass, hk⟩ := Reader.sound_string (fits_meaning l) hkey
        have hoffset : key.offset = c.skipBlanks.offset := by rw [Node.offset, hk.span]
        exact reads_afterKey hvalue hadvances (hhere.trans hpass)
          (Nat.le_trans hstart (hblanks.trans hpass).le) (by rw [hoffset]; exact hpass.le)

theorem inBounds_call {routine : Routine} {depth : Nat} {r : Except ParseError (Tree × Cursor)}
    (hdepth : depth ≤ Tree.maxDepth + 1) (hc : (Cursor.ofText whole).Passes before c)
    (hr : ∀ {n next}, r = .ok (n, next) → Advances c n next) :
    (Event.call routine depth c.offset (answer r).toOption).InBounds (bytes whole).length := by
  refine ⟨hdepth, hc.offset_le, fun n stop hresult => ?_⟩
  cases r with
  | error e => cases hresult
  | ok a =>
    obtain ⟨n', next⟩ := a
    obtain ⟨rfl, rfl⟩ := Prod.mk.inj (Option.some.inj hresult)
    obtain ⟨⟨cs, hpass⟩, hlt, hstop⟩ := hr rfl
    exact ⟨hlt, (hc.trans hpass).offset_le, hstop⟩

theorem run_value_skipBlanks (depth : Nat) (c : Cursor) :
    (Reader.value l depth).run c.skipBlanks = (Reader.value l depth).run c := by
  have hwith (nested : Option (Reader Tree)) :
      (Reader.valueWith l nested).run c.skipBlanks = (Reader.valueWith l nested).run c := by
    rw [Reader.run_valueWith, Reader.run_valueWith, Cursor.skipBlanks_skipBlanks]
  cases depth with
  | zero => exact hwith none
  | succ depth => exact hwith (some (Reader.value l depth))

section Inner

/-! Within a container at `start` that is not too deep, `inner` reads the values. -/

variable {inner : Nat → Logged (Tree × Nat)} {depth left : Nat}

theorem readsItems_array
    (hinner : ReadsFrom whole start inner (Reader.value l left)) :
    ReadsItems whole start pure inner (Reader.value l left) (Grammar.Value (meaning l)) where
  first {before c} hc hstart := by
    obtain ⟨ws, -, hblanks, -⟩ := c.exists_skipBlanks
    rw [← run_value_skipBlanks]
    exact hinner (hc.trans hblanks) (Nat.le_trans hstart hblanks.le)
  later hc hstart := ⟨_, rfl, hinner hc hstart⟩
  sound := Reader.sound_value (fits_meaning l) left
  span := Grammar.Value.span

theorem readsItems_object (hl : Agrees double? l) (hdepth : depth ≤ Tree.maxDepth + 1)
    (hinner : ReadsFrom whole start inner (Reader.value l left)) :
    ReadsItems whole start (skipBlanks (bytes whole))
      (fun y => logged .property depth y (property (bytes whole) inner y))
      (Reader.property l (Reader.value l left))
      (Grammar.Property (meaning l) (Grammar.Value (meaning l))) := by
  have hsound :=
    Reader.sound_property (fits_meaning l) (Reader.sound_value (fits_meaning l) left)
  have hitem {before : List Char} {c : Cursor} (hc : (Cursor.ofText whole).Passes before c)
      (hstart : start ≤ c.offset) : Reads whole
        (logged .property depth c.skipBlanks.offset
          (property (bytes whole) inner c.skipBlanks.offset))
        ((Reader.property l (Reader.value l left)).run c) := by
    obtain ⟨ws, -, hblanks, -⟩ := c.exists_skipBlanks
    have hrun : (Reader.property l (Reader.value l left)).run c.skipBlanks =
        (Reader.property l (Reader.value l left)).run c := by
      rw [Reader.run_property, Reader.run_property, Cursor.skipBlanks_skipBlanks]
    exact Yields.logged (reads_property hl hinner advances_value hc hstart)
      (inBounds_call hdepth (hc.trans hblanks) fun h =>
        advances_of_sound hsound Grammar.Property.span (hrun.trans h))
  exact ⟨hitem, fun hc hstart => ⟨_, skipBlanks_eq hc, hitem hc hstart⟩, hsound,
    Grammar.Property.span⟩

/-- A container with `depth` containers around it is read, or refused if it is too deep. -/
theorem reads_container (routine : Routine) (close : Char) (node : Span → List Tree → Tree)
    {settle : Nat → Except Stop Nat} {item : Nat → Logged (Tree × Nat)} {fuel : Nat} {d : Char}
    {cs : List Char} {r : Except ParseError (Tree × Cursor)} (hnode : ∀ s ns, (node s ns).span = s)
    (hclose : close.toNat < 0x80) (hc : (Cursor.ofText whole).Passes before c)
    (hd : c.rest = d :: cs) (hsize : d.utf8Size = 1) (hdepth : depth ≤ Tree.maxDepth)
    (hfuel : (bytes whole).length < c.offset + 1 + fuel)
    (h : depth < Tree.maxDepth → ReadsItems whole (c.offset + 1) settle item reader P)
    (hread : depth < Tree.maxDepth → r = (Reader.container reader close node).run c)
    (hdeep : ¬depth < Tree.maxDepth → r = .error (.tooDeep c.offset)) :
    Reads whole
      (logged routine (depth + 1) c.offset
        (container (bytes whole) close settle node item fuel (depth + 1) c.offset)) r := by
  by_cases hlt : depth < Tree.maxDepth
  · rw [hread hlt]
    exact Yields.logged ((h hlt).reads_container hclose hc hd hsize hlt hfuel)
      (inBounds_call (Nat.succ_le_succ hdepth) hc fun hrun =>
        (h hlt).advances (Text.utf8Size_eq_one_iff.mpr hclose) hnode hd hsize hrun)
  · rw [hdeep hlt, container, if_pos (by omega)]
    refine Yields.logged (Yields.lift _ (refuse (.tooDeep c.offset))) ?_
    exact ⟨Nat.succ_le_succ hdepth, hc.offset_le, fun n stop h => by cases h⟩

end Inner

/-- What begins at a cursor is read as by the reader of characters, for which as many levels are
left as containers may still be opened. -/
theorem reads_valueAt (hl : Agrees double? l) {inner : Nat → Logged (Tree × Nat)}
    {fuel depth : Nat} (hdepth : depth ≤ Tree.maxDepth)
    (hc : (Cursor.ofText whole).Passes before c)
    (hfuel : (bytes whole).length < c.offset + 1 + fuel)
    (hinner : depth < Tree.maxDepth →
      ReadsFrom whole (c.offset + 1) inner (Reader.value l (Tree.maxDepth - (depth + 1)))) :
    Reads whole (valueAt (bytes whole) double? inner fuel depth c.offset)
      ((Reader.start l (if depth < Tree.maxDepth then
        some (Reader.value l (Tree.maxDepth - (depth + 1))) else none)).run c) := by
  have hstart := Reader.run_start l (if depth < Tree.maxDepth then
    some (Reader.value l (Tree.maxDepth - (depth + 1))) else none) c
  rw [valueAt, peek_eq hc]
  cases hd : c.rest with
  | nil =>
    rw [hstart, hd]
    exact Reads.refuse .unfinished
  | cons d cs =>
    rw [hd] at hstart
    have hlead {e : Char} (he : e.toNat < 0x80) : lead d = e.toUInt8 ↔ d = e := Text.lead_eq_iff he
    have hnumber : (decide (lead d = '-'.toUInt8) || isDigit (lead d)) = true ↔
        d = '-' ∨ (Digit.ofChar? d).isSome = true := by
      rw [isDigit_lead, Bool.or_eq_true, decide_eq_true_iff, hlead (by decide)]
    have hascii {w : List Char} (hw : (w.all fun e => decide (e.toNat < 0x80)) = true) :
        ∀ e ∈ w, e.toNat < 0x80 := List.all_iff_forall_prop.mp hw
    simp only [liftM_ok_bind, hnumber]
    -- The byte at the cursor is that of an ASCII character only if this character begins there.
    split
    next hquote =>
      obtain rfl : d = '"' := (hlead (by decide)).mp hquote
      rw [hstart, string_eq hl hc hd]
      exact Reads.answer _
    split
    next hbrace =>
      obtain rfl : d = '{' := (hlead (by decide)).mp hbrace
      exact reads_container .object '}' .object (fun _ _ => rfl) (by decide) hc hd rfl hdepth hfuel
        (fun hlt => readsItems_object hl (Nat.succ_le_succ hdepth) (hinner hlt))
        (fun hlt => by rw [hstart, if_pos hlt]; rfl) (fun hge => by rw [hstart, if_neg hge]; rfl)
    split
    next hbracket =>
      obtain rfl : d = '[' := (hlead (by decide)).mp hbracket
      exact reads_container .array ']' .array (fun _ _ => rfl) (by decide) hc hd rfl hdepth hfuel
        (fun hlt => readsItems_array (hinner hlt))
        (fun hlt => by rw [hstart, if_pos hlt]; rfl) (fun hge => by rw [hstart, if_neg hge]; rfl)
    split
    next htrue =>
      obtain rfl : d = 't' := (hlead (by decide)).mp htrue
      rw [hstart, word_eq (hascii (by decide)) hc]
      exact Reads.answer _
    split
    next hfalse =>
      obtain rfl : d = 'f' := (hlead (by decide)).mp hfalse
      rw [hstart, word_eq (hascii (by decide)) hc]
      exact Reads.answer _
    split
    next hnull =>
      obtain rfl : d = 'n' := (hlead (by decide)).mp hnull
      rw [hstart, word_eq (hascii (by decide)) hc]
      exact Reads.answer _
    rename_i hquote hbrace hbracket htrue hfalse hnull
    have hother : d ∉ ['"', '{', '[', 't', 'f', 'n'] := by
      rw [hlead (by decide)] at hquote hbrace hbracket htrue hfalse hnull
      simp [hquote, hbrace, hbracket, htrue, hfalse, hnull]
    rw [Reader.run_start_other hd hother]
    split
    next =>
      rw [number_eq hl hc]
      exact Reads.answer _
    next => exact Reads.refuse (.misplaced c.offset)

/-- With `depth` containers open, another one may be opened if that leaves a level. -/
theorem value_eq {depth : Nat} (hdepth : depth ≤ Tree.maxDepth) :
    Reader.value l (Tree.maxDepth - depth) = Reader.valueWith l (if depth < Tree.maxDepth then
      some (Reader.value l (Tree.maxDepth - (depth + 1))) else none) := by
  split
  next hlt =>
    rw [show Tree.maxDepth - depth = Tree.maxDepth - (depth + 1) + 1 by omega]
    rfl
  next hge =>
    rw [show Tree.maxDepth - depth = 0 by omega]
    rfl

/-- With fuel for each byte that is left and one more, a value is read as by the reader of
characters, for which as many levels are left as containers may still be opened. -/
theorem reads_value (hl : Agrees double? l) {fuel depth : Nat} (hdepth : depth ≤ Tree.maxDepth)
    (hc : (Cursor.ofText whole).Passes before c)
    (hfuel : (bytes whole).length < c.offset + fuel) :
    Reads whole (value (bytes whole) double? fuel depth c.offset)
      ((Reader.value l (Tree.maxDepth - depth)).run c) := by
  -- An item of a container begins after its bracket, so less fuel is still enough for it.
  induction fuel generalizing depth before c with
  | zero =>
    have := hc.offset_le
    omega
  | succ fuel ih =>
    obtain ⟨ws, -, hblanks, -⟩ := c.exists_skipBlanks
    have hle := hblanks.le
    refine Yields.logged ?reads (inBounds_call (Nat.le_succ_of_le hdepth) hc advances_value)
    case reads =>
      rw [skipBlanks_eq hc, liftM_ok_bind, value_eq hdepth, Reader.run_valueWith]
      exact reads_valueAt hl hdepth (hc.trans hblanks) (by omega)
        fun hlt before next hnext hlater => ih hlt hnext (by omega)

/-- The bytes of a text are read as the text is. -/
theorem yields_parse (hl : Agrees double? l) (text : List Char) :
    Yields (byteLength text) (parse (bytes text) double?)
      ((Reader.text l Tree.maxDepth text).mapError .refused) := by
  have hc := Cursor.Passes.refl (Cursor.ofText text)
  have hvalue := reads_value hl (Nat.zero_le Tree.maxDepth) hc
    (show (bytes text).length < 0 + ((bytes text).length + 1) by omega)
  rw [← Text.length_bytes, parse, Reader.text_eq]
  cases hrun : (Reader.value l Tree.maxDepth).run (Cursor.ofText text) with
  | error e =>
    rw [Nat.sub_zero, hrun] at hvalue
    exact hvalue.bind_error
  | ok r =>
    rw [Nat.sub_zero, hrun] at hvalue
    obtain ⟨⟨cs, hpass⟩, -, -⟩ := advances_value hrun
    obtain ⟨ws, -, hblanks, -⟩ := r.2.exists_skipBlanks
    have hlast := hc.trans hpass
    have hend := hlast.trans hblanks
    refine hvalue.bind_ok ?_
    simp only [skipBlanks_eq hlast, liftM_ok_bind, offset_lt_iff hend]
    simp only [bind, Except.bind]
    cases hrest : r.2.skipBlanks.rest with
    | nil =>
      rw [if_neg (by simp)]
      exact Yields.pure _ _
    | cons d ds =>
      rw [if_pos (by simp)]
      exact Yields.lift _ (refuse (.trailing r.2.skipBlanks.offset))

/-- Reading the bytes of a text ends within its fuel, and nothing goes wrong on the way if `double?`
accepts every number literal: no byte and no slice outside the text is asked for, not even where the
byte to skip after a backslash lies past the end.  The reading yields what the reader of characters
yields.  Each call that succeeds has gone on, by at least one byte, to an index within the text, and
its node ends there; each round of the loop of a container has gone on by at least one byte; and
calls are made at no greater depth than that of the first container that is too deep. -/
theorem parse_in_bounds {double? : List Char → Option Binary64}
    (haccepts : ∀ n : Numeral, (double? n.text).isSome) (text : List Char) :
    let size := byteLength text
    let reading := (parse (bytes text) double?).run.run []
    (∃ number, (∀ n : Numeral, double? n.text = some (number n)) ∧
      reading.1 =
        (Reader.text { Literals.standard with number } Tree.maxDepth text).mapError .refused) ∧
    ((∀ n : Numeral, double? n.text = some (.ofNumeral n)) →
      reading.1 = (Tree.parse text).mapError .refused) ∧
    (∀ routine depth start result, .call routine depth start result ∈ reading.2 →
      depth ≤ 513 ∧ start ≤ size ∧
        ∀ n stop, result = some (n, stop) → start < stop ∧ stop ≤ size ∧ n.stop = stop) ∧
    ∀ start next, .round start next ∈ reading.2 → start < next ∧ next ≤ size := by
  intro size reading
  have hread {number : Numeral → Binary64} (h : ∀ n : Numeral, double? n.text = some (number n)) :
      ∃ log, reading = (_, log) ∧ _ :=
    yields_parse (l := { Literals.standard with number }) ⟨rfl, h⟩ text []
  have hnumber (n : Numeral) : double? n.text = some ((double? n.text).get (haccepts n)) :=
    (Option.some_get _).symm
  obtain ⟨log, hrun, hlog⟩ := hread hnumber
  rw [hrun]
  refine ⟨⟨_, hnumber, rfl⟩, fun h => ?_, fun _ _ _ _ h => hlog _ h, fun _ _ h => hlog _ h⟩
  obtain ⟨log', hrun', -⟩ := hread h
  exact (Prod.mk.inj (hrun.symm.trans hrun')).1

/-- A backslash at the end of a text, where a string has not ended. -/
theorem parse_in_bounds_escape :
    let double? : List Char → Option Binary64 := fun cs =>
      match Numeral.scan? cs with
      | some (n, []) => some (.ofNumeral n)
      | _ => none
    let reading := (parse (bytes "[1,\"\\".toList) double?).run.run []
    (∀ n : Numeral, (double? n.text).isSome) ∧ reading.1 = .error (.refused .unfinished) ∧
      ∀ start next, .round start next ∈ reading.2 → start < next ∧ next ≤ 5 := by
  intro double? reading
  have hexact (n : Numeral) : double? n.text = some (.ofNumeral n) := by
    have hscan : Numeral.scan? (n.text ++ []) = some (n, []) :=
      n.scan?_text_append (by simp [Numeral.Stops])
    rw [List.append_nil] at hscan
    simp only [double?, hscan]
  have haccepts (n : Numeral) : (double? n.text).isSome := by
    rw [hexact]
    rfl
  have hparse : Tree.parse "[1,\"\\".toList = .error .unfinished := by decide +kernel
  obtain ⟨-, hreading, -, hrounds⟩ := parse_in_bounds haccepts "[1,\"\\".toList
  refine ⟨haccepts, ?_, hrounds⟩
  have houtcome := hreading hexact
  rw [hparse] at houtcome
  exact houtcome

end ByteReader

end JsonNav
