import JsonNav.Proofs.Tree.Decidable
import JsonNav.Proofs.Tree.Moved
import JsonNav.Proofs.Tree.Parse

/-! Blanks that are put into a text.  Between two tokens they change neither what the text is read
as nor whether it is read: nodes after them are moved, nodes around them get longer, and no other
span changes.  A derivation of the text is rebuilt part by part, and blanks that come to stand
before a part are taken up by the blanks that the grammar allows there. -/

namespace JsonNav

open Text (byteLength)
open Grammar (Blanks Padded)

variable {α σ ν : Type}

namespace Text

/-- The text `cs`, which begins at the byte offset `o`, with `ws` put before the character that has
the byte at the offset `i`. -/
def insertAt (i : Nat) (ws : List Char) (o : Nat) : List Char → List Char
  | [] => []
  | c :: cs =>
    (if o ≤ i ∧ i < o + c.utf8Size then ws else []) ++ c :: insertAt i ws (o + c.utf8Size) cs

/-- Where that which begins at `o` begins once `d` bytes are put in at `i`. -/
def startAfter (i d o : Nat) : Nat :=
  if i ≤ o then o + d else o

/-- Where that which ends at `o` ends once `d` bytes are put in at `i`. -/
def stopAfter (i d o : Nat) : Nat :=
  if i < o then o + d else o

variable {i o : Nat} {ws cs ds : List Char}

theorem insertAt_append :
    insertAt i ws o (cs ++ ds) = insertAt i ws o cs ++ insertAt i ws (o + byteLength cs) ds := by
  induction cs generalizing o with
  | nil => simp [insertAt]
  | cons c cs ih => simp only [List.cons_append, insertAt, ih, byteLength_cons, Nat.add_assoc,
      List.append_assoc]

theorem insertAt_eq_self (h : i < o ∨ o + byteLength cs ≤ i) : insertAt i ws o cs = cs := by
  induction cs generalizing o with
  | nil => rfl
  | cons c cs ih =>
    rw [byteLength_cons] at h
    rw [insertAt, if_neg (by omega), ih (by omega), List.nil_append]

theorem insertAt_byteLength (before : List Char) (c : Char) (after : List Char) :
    insertAt (byteLength before) ws 0 (before ++ c :: after) = before ++ ws ++ c :: after := by
  have hsize := c.utf8Size_pos
  rw [insertAt_append, insertAt_eq_self (.inr (by omega)), insertAt, if_pos (by omega),
    insertAt_eq_self (.inl (by omega)), List.append_assoc]

/-- A piece of a text ends where it would have ended, moved along. -/
theorem stopAfter_add_byteLength (i o : Nat) (ws cs : List Char) :
    stopAfter i (byteLength ws) o + byteLength (insertAt i ws o cs) =
      stopAfter i (byteLength ws) (o + byteLength cs) := by
  induction cs generalizing o with
  | nil => rfl
  | cons c cs ih =>
    have hsize := c.utf8Size_pos
    have ih := ih (o + c.utf8Size)
    rw [insertAt, byteLength_append, byteLength_cons, byteLength_cons, ← Nat.add_assoc o, ← ih]
    by_cases h : o ≤ i ∧ i < o + c.utf8Size
    · rw [if_pos h, stopAfter, stopAfter, if_neg (by omega), if_pos (by omega)]
      omega
    · rw [if_neg h, byteLength_nil]
      unfold stopAfter
      split <;> split <;> omega

theorem startAfter_add_one (i d o : Nat) : startAfter i d o + 1 = stopAfter i d (o + 1) := by
  unfold startAfter stopAfter
  split <;> split <;> omega

end Text

/-- The span of what had the span `s` before `d` bytes were put in at the offset `i`. -/
def Span.stretch (i d : Nat) (s : Span) : Span :=
  if i ≤ s.offset then ⟨s.offset + d, s.length⟩
  else if i < s.stop then ⟨s.offset, s.length + d⟩
  else s

/-- A span that is not empty goes from where it begins to where it ends. -/
theorem Span.stretch_eq {i d o n : Nat} (h : 0 < n) :
    stretch i d ⟨o, n⟩ =
      ⟨Text.startAfter i d o, Text.stopAfter i d (o + n) - Text.startAfter i d o⟩ := by
  unfold stretch stop Text.startAfter Text.stopAfter
  simp only
  split
  · rw [if_pos (by omega), Nat.add_right_comm, Nat.add_sub_cancel_left]
  · split
    · rw [Nat.add_assoc, Nat.add_sub_cancel_left]
    · rw [Nat.add_sub_cancel_left]

namespace Node

/-- The tree after `d` bytes are put in at the offset `i`. -/
def stretch (i d : Nat) (n : Node σ ν) : Node σ ν :=
  n.mapSpan (Span.stretch i d)

/-- Strings, numbers and words have no parts between which blanks may stand. -/
def IsToken (n : Node σ ν) : Prop :=
  n.kind ≠ .object ∧ n.kind ≠ .array ∧ n.kind ≠ .property

/-- The byte offset `i` is not strictly inside a token of the tree. -/
def Uncut (i : Nat) (n : Node σ ν) : Prop :=
  ∀ k ∈ n.preorder, k.IsToken → ¬(k.offset < i ∧ i < k.stop)

namespace Uncut

variable {i : Nat} {n c : Node σ ν}

theorem child (h : n.Uncut i) (hc : c ∈ n.children) : c.Uncut i := by
  intro k hk
  apply h k
  rw [preorder_eq]
  exact List.mem_cons_of_mem _ (List.mem_flatMap_of_mem hc hk)

theorem self (h : n.Uncut i) (hn : n.IsToken) : ¬(n.offset < i ∧ i < n.stop) := by
  apply h n _ hn
  rw [preorder_eq]
  exact List.mem_cons_self

end Uncut

end Node

namespace Grammar

variable {m : Meaning σ ν} {P Q : List Char → Nat → Node σ ν → Prop} {close : Char} {i o : Nat}
  {ws cs : List Char} {ns : List (Node σ ν)} {n : Node σ ν}

theorem Blanks.insertAt (h : Blanks ws) (hcs : Blanks cs) : Blanks (Text.insertAt i ws o cs) := by
  induction cs generalizing o with
  | nil => exact blanks_nil
  | cons c cs ih =>
    have hrest := @ih (o + c.utf8Size) fun d hd => hcs d (List.mem_cons_of_mem _ hd)
    rw [Text.insertAt]
    refine Blanks.append ?_ ?_
    · split
      · exact h
      · exact blanks_nil
    · rintro d (_ | ⟨_, hd⟩)
      · exact hcs c List.mem_cons_self
      · exact hrest d hd

/-- What is put in before a character after blanks is taken up by the blanks. -/
theorem exists_insertAt_blanks {blanks : List Char} (h : Blanks ws) (hblanks : Blanks blanks)
    (i o : Nat) (c : Char) (cs : List Char) :
    ∃ blanks', Blanks blanks' ∧ Text.insertAt i ws o (blanks ++ c :: cs) =
      blanks' ++ c :: Text.insertAt i ws (o + byteLength blanks + c.utf8Size) cs := by
  rw [Text.insertAt_append, Text.insertAt, ← List.append_assoc]
  refine ⟨_, (h.insertAt hblanks).append ?_, rfl⟩
  split
  · exact h
  · exact blanks_nil

/-- What `P` derives `Q` derives once blanks are put in, though it may begin after some of them. -/
def Absorbs (i : Nat) (ws : List Char) (P Q : List Char → Nat → Node σ ν → Prop) : Prop :=
  ∀ ⦃cs o n⦄, P cs o n → n.Uncut i →
    Padded Q (Text.insertAt i ws o cs) (Text.stopAfter i (byteLength ws) o)
      (n.stretch i (byteLength ws))

theorem Others.insertAt (hP : Absorbs i ws P Q) (hws : Blanks ws) (h : Others P close cs o ns)
    (huncut : ∀ n ∈ ns, n.Uncut i) :
    Others Q close (Text.insertAt i ws o cs) (Text.stopAfter i (byteLength ws) o)
      (ns.map (Node.stretch i (byteLength ws))) := by
  induction h with
  | @done ws₁ o hws₁ =>
    obtain ⟨blanks, hblanks, heq⟩ := exists_insertAt_blanks hws hws₁ i o close []
    rw [heq]
    exact .done hblanks
  | @more ws₁ ws₂ cs rest o n ns hws₁ hws₂ hn _ ih =>
    rw [List.forall_mem_cons] at huncut
    obtain ⟨blanks, hblanks, heq⟩ := exists_insertAt_blanks hws hws₁ i o ',' ws₂
    obtain ⟨lead, cs', hcs, hlead, hn'⟩ := hP hn huncut.1
    have hcomma : Text.insertAt i ws o (ws₁ ++ ',' :: ws₂ ++ cs) =
        blanks ++ ',' :: (Text.insertAt i ws (o + byteLength ws₁ + 1) ws₂ ++ lead) ++ cs' := by
      rw [Text.insertAt_append, heq, hcs]
      simp [show ','.utf8Size = 1 from rfl]
    have ih := ih huncut.2
    rw [← Text.stopAfter_add_byteLength, hcomma] at ih
    rw [← Text.stopAfter_add_byteLength, heq] at hn'
    rw [Text.insertAt_append, hcomma]
    refine .more hblanks ((hws.insertAt hws₂).append hlead) ?_ ih
    simpa [Nat.add_assoc, show ','.utf8Size = 1 from rfl] using hn'

theorem Contents.insertAt (hP : Absorbs i ws P Q) (hws : Blanks ws) (h : Contents P close cs o ns)
    (huncut : ∀ n ∈ ns, n.Uncut i) :
    Contents Q close (Text.insertAt i ws o cs) (Text.stopAfter i (byteLength ws) o)
      (ns.map (Node.stretch i (byteLength ws))) := by
  cases h with
  | @empty ws₁ o hws₁ =>
    obtain ⟨blanks, hblanks, heq⟩ := exists_insertAt_blanks hws hws₁ i o close []
    rw [heq]
    exact .empty hblanks
  | @items ws₁ cs rest o n ns hws₁ hn hns =>
    rw [List.forall_mem_cons] at huncut
    obtain ⟨lead, cs', hcs, hlead, hn'⟩ := hP hn huncut.1
    have hfirst : Text.insertAt i ws o (ws₁ ++ cs) = Text.insertAt i ws o ws₁ ++ lead ++ cs' := by
      rw [Text.insertAt_append, hcs, List.append_assoc]
    have hothers := hns.insertAt hP hws huncut.2
    rw [← Text.stopAfter_add_byteLength, hfirst] at hothers
    rw [← Text.stopAfter_add_byteLength] at hn'
    rw [Text.insertAt_append, hfirst]
    refine .items ((hws.insertAt hws₁).append hlead) ?_ hothers
    simpa [Nat.add_assoc] using hn'

/-- What begins with a character of one byte begins after the blanks that are put in before it. -/
theorem exists_insertAt_cons (hws : Blanks ws) (i o : Nat) {c : Char} (hc : c.utf8Size = 1)
    (cs : List Char) :
    ∃ lead, Blanks lead ∧
      Text.insertAt i ws o (c :: cs) = lead ++ c :: Text.insertAt i ws (o + 1) cs ∧
      Text.stopAfter i (byteLength ws) o + byteLength lead =
        Text.startAfter i (byteLength ws) o := by
  obtain ⟨lead, hlead, heq⟩ := exists_insertAt_blanks hws blanks_nil i o c cs
  rw [List.nil_append, Text.byteLength_nil, Nat.add_zero, hc] at heq
  refine ⟨lead, hlead, heq, ?_⟩
  have hall := Text.stopAfter_add_byteLength i o ws (c :: cs)
  have hrest := Text.stopAfter_add_byteLength i (o + 1) ws cs
  have hstart := Text.startAfter_add_one i (byteLength ws) o
  rw [heq, Text.byteLength_append, Text.byteLength_cons, Text.byteLength_cons, hc,
    ← Nat.add_assoc o, ← hrest] at hall
  omega

theorem stretch_span_cons (i o : Nat) (ws : List Char) {c : Char} (hc : c.utf8Size = 1)
    (cs : List Char) :
    Span.stretch i (byteLength ws) ⟨o, byteLength (c :: cs)⟩ =
      ⟨Text.startAfter i (byteLength ws) o, byteLength (c :: Text.insertAt i ws (o + 1) cs)⟩ := by
  have hrest := Text.stopAfter_add_byteLength i (o + 1) ws cs
  have hstart := Text.startAfter_add_one i (byteLength ws) o
  rw [Span.stretch_eq (Text.byteLength_pos (List.cons_ne_nil c cs)), Text.byteLength_cons,
    Text.byteLength_cons, hc, ← Nat.add_assoc o, ← hrest, ← hstart, Nat.add_assoc,
    Nat.add_sub_cancel_left]

/-- A token is moved as a whole. -/
theorem padded_token (hws : Blanks ws) {c : Char} (hc : c.utf8Size = 1) (node : Span → Node σ ν)
    (hspan : ∀ s, (node s).span = s) (htoken : ∀ s, (node s).IsToken)
    (hnode : ∀ f s, (node s).mapSpan f = node (f s))
    (hQ : ∀ o, Q (c :: cs) o (node ⟨o, byteLength (c :: cs)⟩))
    (huncut : (node ⟨o, byteLength (c :: cs)⟩).Uncut i) :
    Padded Q (Text.insertAt i ws o (c :: cs)) (Text.stopAfter i (byteLength ws) o)
      ((node ⟨o, byteLength (c :: cs)⟩).stretch i (byteLength ws)) := by
  have hcut := huncut.self (htoken _)
  simp only [Node.offset, Node.stop, hspan, Span.stop, Text.byteLength_cons, hc] at hcut
  have hself : Text.insertAt i ws (o + 1) cs = cs := Text.insertAt_eq_self (by omega)
  obtain ⟨lead, hlead, heq, hstart⟩ := exists_insertAt_cons hws i o hc cs
  refine ⟨lead, c :: cs, by rw [heq, hself], hlead, ?_⟩
  rw [Node.stretch, hnode, stretch_span_cons i o ws hc cs, hself, hstart]
  exact hQ _

theorem Quote.absorbs (hws : Blanks ws) : Absorbs i ws (Quote m) (Quote m) := by
  rintro _ o _ ⟨hx⟩ huncut
  exact padded_token hws rfl (.string · _) (fun _ => rfl) (by simp [Node.IsToken, Node.kind])
    (fun _ _ => rfl) (fun _ => .mk hx) huncut

theorem Property.absorbs (hws : Blanks ws) (hP : Absorbs i ws P Q) :
    Absorbs i ws (Property m P) (Property m Q) := by
  intro cs o n h huncut
  cases h with
  | @mk key ws₁ ws₂ cs o k v hkey hws₁ hws₂ hv =>
    have hkeyUncut := huncut.child (c := k) (by simp [Node.children])
    have hvUncut := huncut.child (c := v) (by simp [Node.children])
    obtain ⟨lead, key', hkeyEq, hlead, hkey'⟩ := Quote.absorbs hws hkey hkeyUncut
    obtain ⟨blanks, hblanks, heq⟩ := exists_insertAt_blanks hws hws₁ i (o + byteLength key) ':' ws₂
    obtain ⟨lead', cs', hcs, hlead', hv'⟩ := hP hv hvUncut
    let colon := key' ++ blanks ++
      ':' :: (Text.insertAt i ws (o + byteLength key + byteLength ws₁ + 1) ws₂ ++ lead')
    have hbefore : Text.insertAt i ws o (key ++ ws₁ ++ ':' :: ws₂) ++ lead' = lead ++ colon := by
      rw [List.append_assoc key, Text.insertAt_append, hkeyEq, heq]
      simp [colon, show ':'.utf8Size = 1 from rfl]
    have hall : Text.insertAt i ws o (key ++ ws₁ ++ ':' :: ws₂ ++ cs) = lead ++ (colon ++ cs') := by
      rw [Text.insertAt_append, hcs, ← List.append_assoc, hbefore, List.append_assoc]
    have hstart : Text.startAfter i (byteLength ws) o =
        Text.stopAfter i (byteLength ws) o + byteLength lead := by
      have hpos : 0 < byteLength key := by
        obtain ⟨d, ds, rfl, -⟩ := begins_quote hkey
        exact Text.byteLength_pos (List.cons_ne_nil d ds)
      have hspan := hkey'.span
      rw [Node.stretch, Node.span_mapSpan, hkey.span, Span.stretch_eq hpos] at hspan
      exact congrArg Span.offset hspan
    have hspan : Span.stretch i (byteLength ws) ⟨o, byteLength (key ++ ws₁ ++ ':' :: ws₂ ++ cs)⟩ =
        ⟨Text.stopAfter i (byteLength ws) o + byteLength lead, byteLength (colon ++ cs')⟩ := by
      rw [Span.stretch_eq (Text.byteLength_pos (by simp)), ← Text.stopAfter_add_byteLength, hall,
        hstart, Text.byteLength_append lead, ← Nat.add_assoc, Nat.add_sub_cancel_left]
    refine ⟨lead, colon ++ cs', hall, hlead, ?_⟩
    rw [Node.stretch, Node.mapSpan, hspan]
    refine .mk hkey' hblanks ((hws.insertAt hws₂).append hlead') ?_
    rw [← Text.stopAfter_add_byteLength, Nat.add_assoc, ← Text.byteLength_append, hbefore,
      Text.byteLength_append, ← Nat.add_assoc] at hv'
    exact hv'

/-- A bracketed part is moved by what is put in before it, and takes up what is put in between its
brackets. -/
theorem padded_container (hws : Blanks ws) {c : Char} (hc : c.utf8Size = 1)
    {node : Span → List (Node σ ν) → Node σ ν}
    (hnode : ∀ f s, (node s ns).mapSpan f = node (f s) (ns.map (Node.mapSpan f)))
    (hP : Absorbs i ws P Q) (h : Contents P close cs (o + 1) ns) (huncut : ∀ n ∈ ns, n.Uncut i)
    (hV : ∀ {cs o ns}, Contents Q close cs (o + 1) ns →
      Value m (c :: cs) o (node ⟨o, byteLength (c :: cs)⟩ ns)) :
    Padded (Value m) (Text.insertAt i ws o (c :: cs)) (Text.stopAfter i (byteLength ws) o)
      ((node ⟨o, byteLength (c :: cs)⟩ ns).stretch i (byteLength ws)) := by
  obtain ⟨lead, hlead, heq, hstart⟩ := exists_insertAt_cons hws i o hc cs
  refine ⟨lead, _, heq, hlead, ?_⟩
  rw [Node.stretch, hnode, stretch_span_cons i o ws hc cs, hstart]
  have hcontents := h.insertAt hP hws huncut
  rw [← Text.startAfter_add_one] at hcontents
  exact hV hcontents

theorem Value.absorbs (hws : Blanks ws) : Absorbs i ws (Value m) (Value m) := by
  intro cs o n h
  refine Value.induct
    (motive := fun cs o n => n.Uncut i →
      Padded (Value m) (Text.insertAt i ws o cs) (Text.stopAfter i (byteLength ws) o)
        (n.stretch i (byteLength ws)))
    ?string ?number ?trueWord ?falseWord ?nullWord ?array ?object h
  case string =>
    intro cs o n h huncut
    obtain ⟨lead, cs', heq, hlead, h'⟩ := Quote.absorbs hws h huncut
    exact ⟨lead, cs', heq, hlead, .string h'⟩
  case number =>
    intro n o x hx huncut
    obtain ⟨d, ds, htext, hd⟩ := n.exists_text_eq
    have hvalue (o : Nat) : Value m (d :: ds) o (.number ⟨o, byteLength (d :: ds)⟩ x) := by
      rw [← htext]
      exact .number hx
    rw [htext] at huncut ⊢
    exact padded_token hws (Numeral.utf8Size_of_begins hd) (.number · x) (fun _ => rfl)
      (by simp [Node.IsToken, Node.kind]) (fun _ _ => rfl) hvalue huncut
  case trueWord =>
    intro o huncut
    exact padded_token hws rfl (.boolean · true) (fun _ => rfl)
      (by simp [Node.IsToken, Node.kind]) (fun _ _ => rfl) (fun _ => .trueWord) huncut
  case falseWord =>
    intro o huncut
    exact padded_token hws rfl (.boolean · false) (fun _ => rfl)
      (by simp [Node.IsToken, Node.kind]) (fun _ _ => rfl) (fun _ => .falseWord) huncut
  case nullWord =>
    intro o huncut
    exact padded_token hws rfl .null (fun _ => rfl)
      (by simp [Node.IsToken, Node.kind]) (fun _ _ => rfl) (fun _ => .nullWord) huncut
  case array =>
    intro cs o ns h huncut
    exact padded_container hws rfl (fun f s => by rw [Node.mapSpan, Node.mapSpanAll_eq_map])
      (fun _ _ _ hn => hn.2) h (fun n hn => huncut.child hn) .array
  case object =>
    intro cs o ns h huncut
    exact padded_container hws rfl (fun f s => by rw [Node.mapSpan, Node.mapSpanAll_eq_map])
      (Property.absorbs hws fun _ _ _ hn => hn.2) h (fun n hn => huncut.child hn) .object

/-- A text with blanks put in before one of its characters is a text. -/
theorem Text.stretched (hws : Blanks ws) (h : Text m cs n) (huncut : n.Uncut i) :
    Text m (Text.insertAt i ws 0 cs) (n.stretch i (byteLength ws)) := by
  cases h with
  | @mk before cs after n hbefore hvalue hafter =>
    obtain ⟨lead, cs', heq, hlead, hvalue'⟩ := Value.absorbs hws hvalue huncut
    have hzero : Text.stopAfter i (byteLength ws) 0 = 0 := by simp [Text.stopAfter]
    have hstart := Text.stopAfter_add_byteLength i 0 ws before
    rw [hzero, Nat.zero_add, Nat.zero_add] at hstart
    rw [← hstart, ← Text.byteLength_append] at hvalue'
    rw [Text.insertAt_append, Text.insertAt_append, Nat.zero_add, heq, ← List.append_assoc]
    exact .mk ((hws.insertAt hbefore).append hlead) hvalue' (hws.insertAt hafter)

/-- Blanks after a text belong to it. -/
theorem Text.append_blanks (h : Text m cs n) (hws : Blanks ws) : Text m (cs ++ ws) n := by
  cases h with
  | mk hbefore hvalue hafter =>
    rw [List.append_assoc]
    exact .mk hbefore hvalue (hafter.append hws)

/-- A text with blanks put in is a text. -/
theorem Text.insert {before after : List Char} (hws : Blanks ws) (h : Text m (before ++ after) n)
    (huncut : n.Uncut (byteLength before)) :
    Text m (before ++ ws ++ after) (n.stretch (byteLength before) (byteLength ws)) := by
  have hstretched := h.stretched hws huncut
  cases after with
  | nil =>
    rw [List.append_nil, Text.insertAt_eq_self (.inr (by omega))] at hstretched
    rw [List.append_nil]
    exact hstretched.append_blanks hws
  | cons c after =>
    rw [Text.insertAt_byteLength] at hstretched
    exact hstretched

end Grammar

namespace Node

mutual

/-- Other spans are no other depths. -/
theorem depth_openings_mapSpan (f : Span → Span) (outer : Nat) : (n : Node σ ν) →
    ((n.mapSpan f).openings outer).map (·.depth) = (n.openings outer).map (·.depth)
  | object s ps => by
    simp only [mapSpan, openings, List.map_cons, depth_openingsAll_mapSpan f (outer + 1) ps]
  | array s items => by
    simp only [mapSpan, openings, List.map_cons, depth_openingsAll_mapSpan f (outer + 1) items]
  | property s k none => depth_openings_mapSpan f outer k
  | property s k (some v) => by
    simp only [mapSpan, openings, List.map_append, depth_openings_mapSpan f outer k,
      depth_openings_mapSpan f outer v]
  | string .. | number .. | boolean .. | null .. => rfl

theorem depth_openingsAll_mapSpan (f : Span → Span) (outer : Nat) : (ns : List (Node σ ν)) →
    (openingsAll outer (mapSpanAll f ns)).map (·.depth) = (openingsAll outer ns).map (·.depth)
  | [] => rfl
  | n :: ns => by
    simp only [mapSpanAll, openingsAll, List.map_append, depth_openings_mapSpan f outer n,
      depth_openingsAll_mapSpan f outer ns]

end

end Node

namespace Tree

/-- Blanks between two tokens of a text, before the first or after the last, only shift spans: what
begins at or after the place of the blanks is moved by their length, what the place is inside gets
longer by it, and nothing else changes.  Before a text that is refused they move the mistake. -/
theorem parse_insert_blanks {ws : List Char} (hws : Blanks ws) :
    (∀ before after t, parse (before ++ after) = .ok t → t.Uncut (byteLength before) →
      parse (before ++ ws ++ after) = .ok (t.stretch (byteLength before) (byteLength ws))) ∧
    ∀ cs e, parse cs = .error e → parse (ws ++ cs) = .error (e.shift (byteLength ws)) := by
  refine ⟨fun before after t h huncut => ?accepted, fun cs e h => ?refused⟩
  case accepted =>
    obtain ⟨htext, hdepth⟩ := ((parse_grammar _).1 t).mp h
    refine ((parse_grammar _).1 _).mpr ⟨htext.insert hws huncut, fun b hb => ?_⟩
    have hmem : b.depth ∈ (t.openings 0).map (·.depth) := by
      rw [← Node.depth_openings_mapSpan (Span.stretch (byteLength before) (byteLength ws))]
      exact List.mem_map_of_mem hb
    obtain ⟨b', hb', heq⟩ := List.mem_map.mp hmem
    exact heq ▸ hdepth b' hb'
  case refused =>
    unfold parse at h ⊢
    rw [Reader.text_append_blanks _ _ hws, h]

/-- Blanks after the last item of an array lengthen it and what is around it. -/
theorem parse_insert_blanks_array :
    let before := ['{', '"', 'a', '"', ':', '[']
    let t : Tree :=
      .object ⟨0, 8⟩ [.property ⟨1, 6⟩ (.string ⟨1, 3⟩ "a") (some (.array ⟨5, 2⟩ []))]
    let t' : Tree :=
      .object ⟨0, 10⟩ [.property ⟨1, 8⟩ (.string ⟨1, 3⟩ "a") (some (.array ⟨5, 4⟩ []))]
    Blanks ['\n', ' '] ∧ parse (before ++ [']', '}']) = .ok t ∧ t.Uncut (byteLength before) ∧
      parse (before ++ ['\n', ' '] ++ [']', '}']) = .ok t' ∧
      parse ['[', ']', ']'] = .error (.trailing 2) ∧
      parse (['\n', ' '] ++ ['[', ']', ']']) = .error (.trailing 4) := by
  intro before t t'
  have hws : Blanks ['\n', ' '] := by simp [Blanks]
  have h : parse (before ++ [']', '}']) = .ok t := by
    show parse ['{', '"', 'a', '"', ':', '[', ']', '}'] = .ok t
    subst t
    decide +kernel
  have he : parse ['[', ']', ']'] = .error (.trailing 2) := by decide +kernel
  have huncut : t.Uncut (byteLength before) := by
    show t.Uncut 6
    simp [t, Node.Uncut, Node.IsToken, Node.preorder, Node.preorderAll, Node.kind, Node.stop,
      Node.span, Span.stop]
  exact ⟨hws, h, huncut, (parse_insert_blanks hws).1 before _ _ h huncut, he,
    (parse_insert_blanks hws).2 _ _ he⟩

end Tree

end JsonNav
