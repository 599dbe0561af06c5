import Mathlib.Data.Bool.AllAny
import JsonNav.Proofs.Tree.Cursor
import JsonNav.Proofs.Tree.Run

/-! What readers read is derived by the grammar.  `Reader.Sound r P` says that whatever `r` reads,
it read from a text for which the rule `P` derives it.  The readers of containers are sound for the
rules of containers when the reader of their items is sound, so `Reader.sound_value` is an induction
on the depth that is left. -/

namespace JsonNav

open Text (byteLength)
open Grammar (Blanks)

variable {α σ ν : Type}

/-- Literals denote what they stand for. -/
structure Literals.Fits (l : Literals σ ν) (m : Meaning σ ν) : Prop where
  string : ∀ {body x}, m.string body x ↔ Cursor.Body body ∧ l.string? body = some x
  number : ∀ {n x}, m.number n x ↔ x = l.number n

theorem Text.Quoted.Escaped.body {body : List Char} (h : Escaped body) : Cursor.Body body := by
  have hplain {ds : List Char} {n : Nat} (hds : Hex4 ds n) {rest : List Char}
      (hrest : Cursor.Body rest) : Cursor.Body (ds ++ rest) := by
    have hdigit {c : Char} {v : Nat} (hc : HexDigit c v) {cs : List Char} (hcs : Cursor.Body cs) :
        Cursor.Body (c :: cs) := by
      have hall : ∀ c ∈ "0123456789abcdef".toList ++ "0123456789ABCDEF".toList,
          c ≠ '"' ∧ c ≠ '\\' ∧ isControl c = false := List.all_iff_forall_prop.mp (by decide)
      have hmem : c ∈ "0123456789abcdef".toList ++ "0123456789ABCDEF".toList := by
        rcases hc with hc | hc
        · exact List.mem_append_left _ (List.mem_of_getElem? hc)
        · exact List.mem_append_right _ (List.mem_of_getElem? hc)
      obtain ⟨hq, hb, hcontrol⟩ := hall c hmem
      exact .char hq hb hcontrol hcs
    cases hds with
    | mk ha hb hc hd => exact hdigit ha (hdigit hb (hdigit hc (hdigit hd hrest)))
  induction h with
  | nil => exact .nil
  | raw hc hq hb _ ih => exact .char hq hb (by simp [isControl]; omega) ih
  | short _ _ ih => exact .escape ih
  | unit hds _ ih => exact .escape (hplain hds ih)

theorem Text.Quoted.Spells.body {body s : List Char} (h : Spells body s) : Cursor.Body body :=
  h.escaped.body

theorem Cursor.Passes.spanned {c next : Cursor} {cs : List Char} (h : c.Passes cs next) :
    Reader.spanned c next = ⟨c.offset, byteLength cs⟩ := by
  rw [Reader.spanned, h.offset, Nat.add_sub_cancel_left]

theorem Cursor.Passes.length_le {c next : Cursor} {cs : List Char} (h : c.Passes cs next) :
    next.rest.length ≤ c.rest.length := by
  rw [h.rest, List.length_append]
  omega

/-- What a rule derives, after blanks. -/
def Grammar.Padded (P : List Char → Nat → α → Prop) (cs : List Char) (o : Nat) (a : α) : Prop :=
  ∃ ws ds, cs = ws ++ ds ∧ Blanks ws ∧ P ds (o + byteLength ws) a

namespace Reader

/-- What `r` reads is derived by `P` from the text that it is read from. -/
def Sound (r : Reader α) (P : List Char → Nat → α → Prop) : Prop :=
  ∀ ⦃c a next⦄, r.run c = .ok (a, next) → ∃ cs, c.Passes cs next ∧ P cs c.offset a

variable {l : Literals σ ν} {m : Meaning σ ν}

theorem sound_string (hl : l.Fits m) : Sound (string l) (Grammar.Quote m) := by
  intro c n next h
  rw [run_string] at h
  split at h
  next => exact nomatch h
  next cs hc =>
    obtain ⟨⟨body, stop⟩, hbody, h⟩ := bind_eq_ok_iff.mp h
    obtain ⟨hb, hpass⟩ := Cursor.body_of_takeBody hbody
    have hpass := (Cursor.Passes.head hc rfl).trans hpass
    simp only at h
    split at h
    next => exact nomatch h
    next x hx =>
      obtain ⟨rfl, rfl⟩ := Prod.mk.inj (Except.ok.inj h)
      refine ⟨'"' :: (body ++ ['"']), hpass, ?_⟩
      rw [hpass.spanned]
      exact .mk (hl.string.mpr ⟨hb, hx⟩)
  next => exact nomatch h

theorem sound_number (hl : l.Fits m) : Sound (number l) (Grammar.Value m) := by
  intro c n next h
  rw [run_number] at h
  split at h
  next => exact nomatch h
  next num rest hnum =>
    obtain ⟨rfl, rfl⟩ := Prod.mk.inj (Except.ok.inj h)
    have hpass : c.Passes num.text ⟨c.offset + byteLength num.text, rest⟩ :=
      ⟨Numeral.eq_append_of_scan? hnum, rfl⟩
    refine ⟨num.text, hpass, ?_⟩
    rw [hpass.spanned]
    exact .number (hl.number.mpr rfl)

theorem sound_word {w : List Char} {hw : w ≠ []} {node : Span → Node σ ν}
    (hnode : ∀ {o}, Grammar.Value m w o (node ⟨o, byteLength w⟩)) :
    Sound (word w hw node) (Grammar.Value m) := by
  intro c n next h
  rw [run_word] at h
  split at h
  next => exact nomatch h
  next =>
    split at h
    next hprefix =>
      obtain ⟨rfl, rfl⟩ := Prod.mk.inj (Except.ok.inj h)
      have hpass : c.Passes w ⟨c.offset + byteLength w, c.rest.drop w.length⟩ :=
        ⟨(List.prefix_iff_eq_append.mp hprefix).symm, rfl⟩
      refine ⟨w, hpass, ?_⟩
      rw [hpass.spanned]
      exact hnode
    next => exact nomatch h

variable {item : Reader α} {P : List Char → Nat → α → Prop} {close : Char}

theorem sound_items (hitem : Sound item (Grammar.Padded P)) (hclose : close.utf8Size = 1) :
    Sound (items item close) (Grammar.Others P close) := by
  intro c as next h
  -- Each item leaves less of the text, so the induction is on the length of what is left.
  induction hlen : c.rest.length using Nat.strongRecOn generalizing c as next with
  | ind len ih =>
    rw [run_items] at h
    obtain ⟨ws, hws, hblanks, -⟩ := c.exists_skipBlanks
    split at h
    next => exact nomatch h
    next d cs hd =>
      split at h
      next hdc =>
        subst hdc
        obtain ⟨rfl, rfl⟩ := Prod.mk.inj (Except.ok.inj h)
        exact ⟨ws ++ [d], hblanks.trans (.head hd hclose), .done hws⟩
      next =>
        split at h
        next hdc =>
          subst hdc
          obtain ⟨⟨a, mid⟩, ha, h⟩ := bind_eq_ok_iff.mp h
          obtain ⟨⟨as, last⟩, has, h⟩ := bind_eq_ok_iff.mp h
          obtain ⟨rfl, rfl⟩ := Prod.mk.inj (Except.ok.inj h)
          have hcomma := hblanks.trans (.head hd rfl)
          obtain ⟨_, hpass, ws', ds, rfl, hws', hP⟩ := hitem ha
          have hless : mid.rest.length < len := by
            have h₁ := hpass.length_le
            have h₂ := c.length_rest_skipBlanks_le
            rw [hd, List.length_cons] at h₂
            simp only at h₁; omega
          obtain ⟨rest, hrest, hothers⟩ := ih _ hless has rfl
          have hitems := hcomma.trans hpass
          simp only [List.append_assoc, List.singleton_append] at hitems
          have hstart : c.skipBlanks.offset + 1 + byteLength ws' =
              c.offset + byteLength (ws ++ ',' :: ws') := by
            rw [show c.skipBlanks.offset + 1 = _ from hcomma.offset]
            simp [Nat.add_assoc]
          refine ⟨ws ++ ',' :: ws' ++ ds ++ rest, ?_, .more hws hws' ?_ ?_⟩
          · simpa using hitems.trans hrest
          · rwa [hstart] at hP
          · simpa [hitems.offset] using hothers
        next => exact nomatch h

theorem sound_contents (hitem : Sound item (Grammar.Padded P)) (hclose : close.utf8Size = 1) :
    Sound (contents item close) (Grammar.Contents P close) := by
  intro c as next h
  rw [run_contents] at h
  obtain ⟨ws, hws, hblanks, -⟩ := c.exists_skipBlanks
  split at h
  next => exact nomatch h
  next d cs hd =>
    split at h
    next hdc =>
      subst hdc
      obtain ⟨rfl, rfl⟩ := Prod.mk.inj (Except.ok.inj h)
      exact ⟨ws ++ [d], hblanks.trans (.head hd hclose), .empty hws⟩
    next =>
      obtain ⟨⟨a, mid⟩, ha, h⟩ := bind_eq_ok_iff.mp h
      obtain ⟨⟨as, last⟩, has, h⟩ := bind_eq_ok_iff.mp h
      obtain ⟨rfl, rfl⟩ := Prod.mk.inj (Except.ok.inj h)
      obtain ⟨_, hpass, ws', ds, rfl, hws', hP⟩ := hitem ha
      obtain ⟨rest, hrest, hothers⟩ := sound_items hitem hclose has
      refine ⟨ws' ++ ds ++ rest, hpass.trans hrest, .items hws' hP ?_⟩
      rwa [hpass.offset] at hothers

theorem sound_container {item : Reader (Node σ ν)} {P : List Char → Nat → Node σ ν → Prop}
    (hitem : Sound item (Grammar.Padded P)) (hclose : close.utf8Size = 1)
    {node : Span → List (Node σ ν) → Node σ ν} {opening : Char} {c next : Cursor} {cs : List Char}
    {n : Node σ ν} (hc : c.rest = opening :: cs) (hopening : opening.utf8Size = 1)
    (h : (container item close node).run c = .ok (n, next)) :
    ∃ ds ns, c.Passes (opening :: ds) next ∧ Grammar.Contents P close ds (c.offset + 1) ns ∧
      n = node ⟨c.offset, byteLength (opening :: ds)⟩ ns := by
  rw [run_container, hc] at h
  obtain ⟨⟨ns, last⟩, hns, h⟩ := bind_eq_ok_iff.mp h
  obtain ⟨rfl, rfl⟩ := Prod.mk.inj (Except.ok.inj h)
  obtain ⟨ds, hpass, hcontents⟩ := sound_contents hitem hclose hns
  have hpass := (Cursor.Passes.head hc hopening).trans hpass
  exact ⟨ds, ns, hpass, hcontents, by rw [hpass.spanned]; rfl⟩

theorem sound_property (hl : l.Fits m) {inner : Reader (Node σ ν)}
    (hinner : Sound inner (Grammar.Padded (Grammar.Value m))) :
    Sound (property l inner) (Grammar.Padded (Grammar.Property m (Grammar.Value m))) := by
  intro c n next h
  rw [run_property] at h
  obtain ⟨ws, hws, hblanks, -⟩ := c.exists_skipBlanks
  obtain ⟨⟨k, mid⟩, hk, h⟩ := bind_eq_ok_iff.mp h
  obtain ⟨key, hkey, hquote⟩ := sound_string hl hk
  obtain ⟨ws₁, hws₁, hcolon, -⟩ := mid.exists_skipBlanks
  simp only at h
  split at h
  next => exact nomatch h
  next cs hcs =>
    obtain ⟨⟨v, last⟩, hv, h⟩ := bind_eq_ok_iff.mp h
    obtain ⟨rfl, rfl⟩ := Prod.mk.inj (Except.ok.inj h)
    obtain ⟨_, hpass, ws₂, ds, rfl, hws₂, hvalue⟩ := hinner hv
    have hcolon := hkey.trans (hcolon.trans (.head hcs rfl))
    have hall := hcolon.trans hpass
    simp only [List.append_assoc, List.singleton_append] at hall
    -- The value begins after the colon and its blanks, and ends where the property ends.
    have hstart : mid.skipBlanks.offset + 1 + byteLength ws₂ =
        c.offset + byteLength ws + byteLength (key ++ ws₁ ++ ':' :: ws₂) := by
      rw [show mid.skipBlanks.offset + 1 = _ from hcolon.offset, hblanks.offset]
      simp [Nat.add_assoc]
    rw [hstart] at hvalue
    have hspan : (⟨k.offset, v.stop - k.offset⟩ : Span) =
        ⟨c.offset + byteLength ws, byteLength (key ++ ws₁ ++ ':' :: ws₂ ++ ds)⟩ := by
      rw [Node.offset, Node.stop, hquote.span, hvalue.span, hblanks.offset, Span.stop]
      simp only [Text.byteLength_append, Span.mk.injEq, true_and]
      omega
    refine ⟨ws ++ (key ++ ws₁ ++ ':' :: ws₂ ++ ds), ?_, ws, _, rfl, hws, ?_⟩
    · simpa using hblanks.trans hall
    · rw [hspan]
      rw [hblanks.offset] at hquote
      exact .mk hquote hws₁ hws₂ hvalue
  next => exact nomatch h

theorem sound_start (hl : l.Fits m) {nested : Option (Reader (Node σ ν))}
    (hnested : ∀ inner ∈ nested, Sound inner (Grammar.Padded (Grammar.Value m))) :
    Sound (start l nested) (Grammar.Value m) := by
  intro c n next h
  rw [run_start] at h
  split at h
  next => exact nomatch h
  next cs hc =>
    obtain ⟨cs, hpass, hquote⟩ := sound_string hl h
    exact ⟨cs, hpass, .string hquote⟩
  next cs hc =>
    split at h
    next => exact nomatch h
    next inner =>
      obtain ⟨ds, ns, hpass, hcontents, rfl⟩ :=
        sound_container (sound_property hl (hnested inner rfl)) rfl hc rfl h
      exact ⟨_, hpass, .object hcontents⟩
  next cs hc =>
    split at h
    next => exact nomatch h
    next inner =>
      obtain ⟨ds, ns, hpass, hcontents, rfl⟩ := sound_container (hnested inner rfl) rfl hc rfl h
      exact ⟨_, hpass, .array hcontents⟩
  next => exact sound_word (fun {_} => .trueWord) h
  next => exact sound_word (fun {_} => .falseWord) h
  next => exact sound_word (fun {_} => .nullWord) h
  next =>
    split at h
    next => exact sound_number hl h
    next => exact nomatch h

theorem sound_valueWith (hl : l.Fits m) {nested : Option (Reader (Node σ ν))}
    (hnested : ∀ inner ∈ nested, Sound inner (Grammar.Padded (Grammar.Value m))) :
    Sound (valueWith l nested) (Grammar.Padded (Grammar.Value m)) := by
  intro c n next h
  rw [run_valueWith] at h
  obtain ⟨ws, hws, hblanks, -⟩ := c.exists_skipBlanks
  obtain ⟨cs, hpass, hvalue⟩ := sound_start hl hnested h
  exact ⟨ws ++ cs, hblanks.trans hpass, ws, cs, rfl, hws, hblanks.offset ▸ hvalue⟩

/-- A value that is read is derived by the grammar, whatever the depth that is left. -/
theorem sound_value (hl : l.Fits m) (depth : Nat) :
    Sound (value l depth) (Grammar.Padded (Grammar.Value m)) := by
  induction depth with
  | zero => exact sound_valueWith hl (by simp)
  | succ depth ih => exact sound_valueWith hl (by simpa using ih)

theorem text_of_eq_ok (hl : l.Fits m) {depth : Nat} {cs : List Char} {n : Node σ ν}
    (h : text l depth cs = .ok n) : Grammar.Text m cs n := by
  rw [text_eq] at h
  obtain ⟨⟨n, next⟩, hn, h⟩ := bind_eq_ok_iff.mp h
  obtain ⟨_, hpass, ws, ds, rfl, hws, hvalue⟩ := sound_value hl depth hn
  obtain ⟨ws', hws', hblanks, -⟩ := next.exists_skipBlanks
  simp only at h
  split at h
  next hend =>
    obtain rfl := Except.ok.inj h
    obtain rfl : cs = ws ++ ds ++ ws' := by
      have hall := (hpass.trans hblanks).rest
      rwa [hend, List.append_nil] at hall
    rw [Cursor.ofText, Nat.zero_add] at hvalue
    exact .mk hws hvalue hws'
  next => exact nomatch h

end Reader

end JsonNav
