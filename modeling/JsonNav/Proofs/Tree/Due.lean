import JsonNav.Proofs.Tree.Nesting
import JsonNav.Proofs.Tree.Parse
import JsonNav.Proofs.Tree.Shape

/-! What is due at a place in a text.  `Due P depth before c` says that a text has been read up to
the cursor `c`, where `depth` containers are open, and that it is accepted if a `P` comes next and
then a suitable end.  Whatever is due can be given at its shortest, so a text can be completed from
every place where something is due. -/

namespace JsonNav

open Text (byteLength)
open Grammar (Blanks blanks_nil Contents Others Padded Property Quote Value)

variable {α β σ ν : Type}

namespace Grammar

/-- What `P` derives without a bracket that is deeper than `limit`, where `outer` containers are
open around it. -/
def Within (limit outer : Nat) (P : List Char → Nat → Node σ ν → Prop) (cs : List Char) (o : Nat)
    (n : Node σ ν) : Prop :=
  P cs o n ∧ ∀ b ∈ n.openings outer, b.depth ≤ limit

variable {m : Meaning σ ν} {limit outer : Nat}

theorem within_null (o : Nat) :
    Within limit outer (Value m) ['n', 'u', 'l', 'l'] o (.null ⟨o, 4⟩) :=
  ⟨.nullWord, by simp [Node.openings]⟩

theorem within_quote {cs : List Char} {o : Nat} {n : Node σ ν} (h : Quote m cs o n) :
    Within limit outer (Value m) cs o n := by
  refine ⟨.string h, ?_⟩
  cases h with
  | mk => simp [Node.openings]

theorem within_property {key ws ws' cs : List Char} {o : Nat} {k v : Node σ ν}
    (hkey : Quote m key o k) (hws : Blanks ws) (hws' : Blanks ws')
    (hvalue : Within limit outer (Value m) cs (o + byteLength (key ++ ws ++ ':' :: ws')) v) :
    Within limit outer (Property m (Value m)) (key ++ ws ++ ':' :: ws' ++ cs) o
      (.property ⟨o, byteLength (key ++ ws ++ ':' :: ws' ++ cs)⟩ k (some v)) := by
  refine ⟨.mk hkey hws hws' hvalue.1, ?_⟩
  cases hkey with
  | mk => simpa [Node.openings] using hvalue.2

theorem Contents.depth_le {P : List Char → Nat → Node σ ν → Prop} {close : Char} {cs : List Char}
    {o : Nat} {ns : List (Node σ ν)} (hlt : outer < limit)
    (h : Contents (Within limit (outer + 1) P) close cs (o + 1) ns) :
    ∀ b ∈ (⟨o, outer + 1⟩ : Opening) :: Node.openingsAll (outer + 1) ns, b.depth ≤ limit := by
  rw [Node.openingsAll_eq_flatMap]
  rintro b (_ | ⟨_, hb⟩)
  · exact hlt
  · obtain ⟨n, hn, hb⟩ := List.mem_flatMap.mp hb
    obtain ⟨_, _, hwithin⟩ := h.forall_mem n hn
    exact hwithin.2 b hb

theorem within_array {cs : List Char} {o : Nat} {ns : List (Node σ ν)} (hlt : outer < limit)
    (h : Contents (Within limit (outer + 1) (Value m)) ']' cs (o + 1) ns) :
    Within limit outer (Value m) ('[' :: cs) o (.array ⟨o, byteLength ('[' :: cs)⟩ ns) :=
  ⟨.array (h.mono And.left), h.depth_le hlt⟩

theorem within_object {cs : List Char} {o : Nat} {ns : List (Node σ ν)} (hlt : outer < limit)
    (h : Contents (Within limit (outer + 1) (Property m (Value m))) '}' cs (o + 1) ns) :
    Within limit outer (Value m) ('{' :: cs) o (.object ⟨o, byteLength ('{' :: cs)⟩ ns) :=
  ⟨.object (h.mono And.left), h.depth_le hlt⟩

/-- An item and what follows it in a container. -/
inductive Items (P : List Char → Nat → α → Prop) (close : Char) :
    List Char → Nat → List α → Prop
  | mk {cs rest : List Char} {o : Nat} {a : α} {as : List α} : Padded P cs o a →
      Others P close rest (o + byteLength cs) as → Items P close (cs ++ rest) o (a :: as)

variable {P : List Char → Nat → α → Prop} {close : Char} {cs : List Char} {o : Nat} {as : List α}

theorem Items.contents (h : Items P close cs o as) : Contents P close cs o as := by
  cases h with
  | mk ha has =>
    obtain ⟨ws, ds, rfl, hws, ha⟩ := ha
    exact .items hws ha has

theorem Items.others {ws : List Char} (hws : Blanks ws)
    (h : Items P close cs (o + byteLength (ws ++ [','])) as) :
    Others P close (ws ++ [','] ++ cs) o as := by
  cases h with
  | mk ha has =>
    obtain ⟨ws', ds, rfl, hws', ha⟩ := ha
    have hmore : Others P close (ws ++ ',' :: ws' ++ ds ++ _) o _ :=
      .more hws hws' (by simpa [Nat.add_assoc] using ha) (by simpa [Nat.add_assoc] using has)
    simpa using hmore

/-- A colon and what is assigned to a key. -/
inductive Assigned (P : List Char → Nat → α → Prop) : List Char → Nat → α → Prop
  | mk {cs : List Char} {o : Nat} {a : α} : Padded P cs (o + 1) a → Assigned P (':' :: cs) o a

end Grammar

open Grammar (Assigned Items Within)

/-- The text `whole` has been read up to `c`, where `depth` containers are open, and `before` has
been passed over.  It is accepted if a `P` comes next and then a suitable end. -/
structure Due (accepts : List Char → Prop) (whole : List Char) (P : List Char → Nat → α → Prop)
    (depth : Nat) (before : List Char) (c : Cursor) : Prop where
  passes : (Cursor.ofText whole).Passes before c
  nesting : Nesting.ofText before = .outside depth
  completes : ∃ after, ∀ cs a, P cs c.offset a → accepts (before ++ cs ++ after)

namespace Due

variable {accepts : List Char → Prop} {whole before : List Char} {P : List Char → Nat → α → Prop}
  {Q : List Char → Nat → β → Prop} {depth depth' : Nat} {c next : Cursor}

/-- When `cs` has been passed over, a `Q` is due if `cs`, a `Q` and `tail` together make a `P`. -/
theorem step {cs : List Char} (h : Due accepts whole P depth before c) (hpass : c.Passes cs next)
    (hnesting : (Nesting.outside depth).after cs = .outside depth') (tail : List Char)
    (hQ : ∀ {ds b}, Q ds (c.offset + byteLength cs) b → ∃ a, P (cs ++ ds ++ tail) c.offset a) :
    Due accepts whole Q depth' (before ++ cs) next where
  passes := h.passes.trans hpass
  nesting := by rw [Nesting.ofText, Nesting.after_append, ← Nesting.ofText, h.nesting, hnesting]
  completes := by
    obtain ⟨after, hafter⟩ := h.completes
    refine ⟨tail ++ after, fun ds b hb => ?_⟩
    rw [hpass.offset] at hb
    obtain ⟨a, ha⟩ := hQ hb
    simpa using hafter _ a ha

/-- A `Q` is due already if a `P` may begin with it. -/
theorem first (h : Due accepts whole P depth before c) (tail : List Char)
    (hQ : ∀ {ds b}, Q ds c.offset b → ∃ a, P (ds ++ tail) c.offset a) :
    Due accepts whole Q depth before c := by
  have hstep : Due accepts whole Q depth (before ++ []) c := h.step (.refl c) rfl tail hQ
  rwa [List.append_nil] at hstep

/-- What is due need not be given for the text to be completed. -/
theorem begun (h : Due accepts whole P depth before c) (hP : ∃ cs a, P cs c.offset a) :
    ∃ after, accepts (before ++ after) := by
  obtain ⟨after, hafter⟩ := h.completes
  obtain ⟨cs, a, ha⟩ := hP
  exact ⟨cs ++ after, by simpa using hafter cs a ha⟩

theorem skipBlanks (h : Due accepts whole (Padded P) depth before c) :
    ∃ ws, Due accepts whole P depth (before ++ ws) c.skipBlanks := by
  obtain ⟨ws, hws, hpass, -⟩ := c.exists_skipBlanks
  refine ⟨ws, h.step hpass (Nesting.neutral_blanks hws depth) [] fun {ds b} hb => ⟨b, ws, ds, ?_⟩⟩
  exact ⟨List.append_nil _, hws, hb⟩

/-! ### In containers

The shortest completion of an item is the closing bracket. -/

variable {close : Char}

theorem items (h : Due accepts whole (Contents P close) depth before c) :
    Due accepts whole (Items P close) depth before c :=
  h.first [] fun {_ as} has => ⟨as, by simpa using has.contents⟩

theorem comma {ws : List Char} (hws : Blanks ws)
    (h : Due accepts whole (Others P close) depth before c)
    (hpass : c.Passes (ws ++ [',']) next) :
    Due accepts whole (Items P close) depth (before ++ (ws ++ [','])) next :=
  h.step hpass (Nesting.neutral_comma hws blanks_nil depth) [] fun {_ as} has =>
    ⟨as, by simpa using has.others hws⟩

/-- The container may end after blanks. -/
theorem closing {ws : List Char} (hws : Blanks ws)
    (h : Due accepts whole (Others P close) depth before c) (hpass : c.Passes ws next) :
    Due accepts whole (fun cs _ (_ : List α) => cs = [close]) depth (before ++ ws) next := by
  refine h.step hpass (Nesting.neutral_blanks hws depth) [] ?_
  rintro _ _ rfl
  exact ⟨[], by simpa using Others.done hws⟩

theorem item (h : Due accepts whole (Items P close) depth before c) :
    Due accepts whole (Padded P) depth before c :=
  h.first [close] fun {_ a} ha => ⟨[a], .mk ha (.done blanks_nil)⟩

theorem others (hP : ∀ {cs o a}, P cs o a → Nesting.Neutral cs)
    (h : Due accepts whole (Items P close) depth before c) {cs : List Char} {a : α}
    (hpass : c.Passes cs next) (ha : Padded P cs c.offset a) :
    Due accepts whole (Others P close) depth (before ++ cs) next := by
  have hneutral : Nesting.Neutral cs := by
    obtain ⟨ws, ds, rfl, hws, ha⟩ := ha
    exact (Nesting.neutral_blanks hws).append (hP ha)
  exact h.step hpass (hneutral depth) [] fun {_ as} has =>
    ⟨a :: as, by simpa using Items.mk ha has⟩

variable {l : Literals σ ν} {m : Meaning σ ν} {limit : Nat} {cs : List Char}

theorem array (h : Due accepts whole (Within limit depth (Value m)) depth before c)
    (hlt : depth < limit) (hc : c.rest = '[' :: cs) :
    Due accepts whole (Contents (Within limit (depth + 1) (Value m)) ']') (depth + 1)
      (before ++ ['[']) ⟨c.offset + 1, cs⟩ :=
  h.step (.head hc rfl) rfl [] fun hns => ⟨_, by simpa using Grammar.within_array hlt hns⟩

theorem object (h : Due accepts whole (Within limit depth (Value m)) depth before c)
    (hlt : depth < limit) (hc : c.rest = '{' :: cs) :
    Due accepts whole (Contents (Within limit (depth + 1) (Property m (Value m))) '}') (depth + 1)
      (before ++ ['{']) ⟨c.offset + 1, cs⟩ :=
  h.step (.head hc rfl) rfl [] fun hns => ⟨_, by simpa using Grammar.within_object hlt hns⟩

/-! ### In properties -/

/-- A key is completed by a colon and `null`. -/
theorem key (h : Due accepts whole (Within limit depth (Property m (Value m))) depth before c) :
    Due accepts whole (Quote m) depth before c := by
  refine h.first [':', 'n', 'u', 'l', 'l'] ?_
  intro key k hkey
  have hnull : Within limit depth (Value m) ['n', 'u', 'l', 'l']
      (c.offset + byteLength (key ++ [] ++ ':' :: [])) (.null ⟨_, 4⟩) := Grammar.within_null _
  exact ⟨_, by simpa using Grammar.within_property hkey blanks_nil blanks_nil hnull⟩

theorem assigned (hl : l.Fits m)
    (h : Due accepts whole (Within limit depth (Property m (Value m))) depth before c)
    {key : List Char} {k : Node σ ν} (hpass : c.Passes key next) (hkey : Quote m key c.offset k) :
    Due accepts whole (Padded (Assigned (Within limit depth (Value m)))) depth (before ++ key)
      next := by
  refine h.step hpass (Nesting.neutral_quote hl hkey depth) [] ?_
  rintro _ v ⟨ws, _, rfl, hws, hassigned⟩
  cases hassigned with
  | mk hv =>
    obtain ⟨ws', ds, rfl, hws', hv⟩ := hv
    have hstart : c.offset + byteLength key + byteLength ws + 1 + byteLength ws' =
        c.offset + byteLength (key ++ ws ++ ':' :: ws') := by
      simp [show ':'.utf8Size = 1 from rfl, Nat.add_assoc]
    rw [hstart] at hv
    exact ⟨_, by simpa using Grammar.within_property hkey hws hws' hv⟩

theorem value (h : Due accepts whole (Assigned P) depth before c) (hc : c.rest = ':' :: cs) :
    Due accepts whole (Padded P) depth (before ++ [':']) ⟨c.offset + 1, cs⟩ :=
  h.step (.head hc rfl) rfl [] fun {_ a} ha => ⟨a, by simpa using Assigned.mk ha⟩

end Due

end JsonNav
