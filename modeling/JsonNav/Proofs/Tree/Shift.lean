import JsonNav.Proofs.Tree.Grammar

/-! Trees that are moved along a text.  Moving a tree changes the offsets of its nodes and nothing
else, and the grammar derives a piece of text alike wherever the piece begins: as one tree, moved to
the beginning of the piece. -/

namespace JsonNav

open Text (byteLength)

variable {α σ ν : Type}

def Span.shift (d : Nat) (s : Span) : Span :=
  ⟨s.offset + d, s.length⟩

namespace Node

mutual

/-- The same tree with other spans. -/
def mapSpan (f : Span → Span) : Node σ ν → Node σ ν
  | object s ps => object (f s) (mapSpanAll f ps)
  | array s items => array (f s) (mapSpanAll f items)
  | property s k none => property (f s) (mapSpan f k) none
  | property s k (some v) => property (f s) (mapSpan f k) (some (mapSpan f v))
  | string s x => string (f s) x
  | number s x => number (f s) x
  | boolean s b => boolean (f s) b
  | null s => null (f s)

def mapSpanAll (f : Span → Span) : List (Node σ ν) → List (Node σ ν)
  | [] => []
  | n :: ns => mapSpan f n :: mapSpanAll f ns

end

theorem mapSpanAll_eq_map (f : Span → Span) (ns : List (Node σ ν)) :
    mapSpanAll f ns = ns.map (mapSpan f) := by
  induction ns with
  | nil => rfl
  | cons n ns ih => rw [mapSpanAll, ih, List.map_cons]

mutual

theorem mapSpan_mapSpan (f g : Span → Span) :
    (n : Node σ ν) → (n.mapSpan f).mapSpan g = n.mapSpan (g ∘ f)
  | object s ps => by simp only [mapSpan, mapSpanAll_mapSpanAll f g ps, Function.comp_apply]
  | array s items => by simp only [mapSpan, mapSpanAll_mapSpanAll f g items, Function.comp_apply]
  | property s k none => by simp only [mapSpan, mapSpan_mapSpan f g k, Function.comp_apply]
  | property s k (some v) => by
    simp only [mapSpan, mapSpan_mapSpan f g k, mapSpan_mapSpan f g v, Function.comp_apply]
  | string .. | number .. | boolean .. | null .. => rfl

theorem mapSpanAll_mapSpanAll (f g : Span → Span) :
    (ns : List (Node σ ν)) → mapSpanAll g (mapSpanAll f ns) = mapSpanAll (g ∘ f) ns
  | [] => rfl
  | n :: ns => by simp only [mapSpanAll, mapSpan_mapSpan f g n, mapSpanAll_mapSpanAll f g ns]

end

theorem span_mapSpan (f : Span → Span) (n : Node σ ν) : (n.mapSpan f).span = f n.span := by
  cases n with
  | property s k v => cases v <;> rfl
  | _ => rfl

/-- The same tree `d` bytes further on. -/
def shift (d : Nat) (n : Node σ ν) : Node σ ν :=
  n.mapSpan (Span.shift d)

theorem shift_shift (d e : Nat) (n : Node σ ν) : (n.shift d).shift e = n.shift (d + e) := by
  have hspan : Span.shift e ∘ Span.shift d = Span.shift (d + e) := by
    funext s
    simp [Span.shift, Nat.add_assoc]
  rw [shift, shift, mapSpan_mapSpan, hspan]
  rfl

theorem offset_shift (d : Nat) (n : Node σ ν) : (n.shift d).offset = n.offset + d := by
  rw [offset, shift, span_mapSpan]
  rfl

theorem stop_shift (d : Nat) (n : Node σ ν) : (n.shift d).stop = n.stop + d := by
  rw [stop, shift, span_mapSpan]
  exact Nat.add_right_comm ..

mutual

theorem mapSpan_id : (n : Node σ ν) → n.mapSpan id = n
  | object s ps => by simp only [mapSpan, mapSpanAll_id ps, id_eq]
  | array s items => by simp only [mapSpan, mapSpanAll_id items, id_eq]
  | property s k none => by simp only [mapSpan, mapSpan_id k, id_eq]
  | property s k (some v) => by simp only [mapSpan, mapSpan_id k, mapSpan_id v, id_eq]
  | string .. | number .. | boolean .. | null .. => rfl

theorem mapSpanAll_id : (ns : List (Node σ ν)) → mapSpanAll id ns = ns
  | [] => rfl
  | n :: ns => by simp only [mapSpanAll, mapSpan_id n, mapSpanAll_id ns]

end

@[simp] theorem shift_zero (n : Node σ ν) : n.shift 0 = n :=
  mapSpan_id n

mutual

/-- The brackets of a tree that is moved, and that has `k` more containers around it. -/
theorem openings_shift (d k outer : Nat) : (n : Node σ ν) →
    (n.shift d).openings (outer + k) =
      (n.openings outer).map fun b => ⟨b.offset + d, b.depth + k⟩
  | object s ps => by
    have ih := openingsAll_shift d k (outer + 1) ps
    rw [Nat.add_right_comm] at ih
    simp only [shift, mapSpan, openings, ih, List.map_cons, Span.shift, Nat.add_right_comm]
  | array s items => by
    have ih := openingsAll_shift d k (outer + 1) items
    rw [Nat.add_right_comm] at ih
    simp only [shift, mapSpan, openings, ih, List.map_cons, Span.shift, Nat.add_right_comm]
  | property s k' none => openings_shift d k outer k'
  | property s k' (some v) => by
    have hkey := openings_shift d k outer k'
    have hvalue := openings_shift d k outer v
    simp only [shift] at hkey hvalue
    simp only [shift, mapSpan, openings, hkey, hvalue, List.map_append]
  | string .. | number .. | boolean .. | null .. => rfl

theorem openingsAll_shift (d k outer : Nat) : (ns : List (Node σ ν)) →
    openingsAll (outer + k) (mapSpanAll (Span.shift d) ns) =
      (openingsAll outer ns).map fun b => ⟨b.offset + d, b.depth + k⟩
  | [] => rfl
  | n :: ns => by
    have hn := openings_shift d k outer n
    rw [shift] at hn
    simp only [mapSpanAll, openingsAll, hn, openingsAll_shift d k outer ns, List.map_append]

end

end Node

namespace Node

def shiftAll (d : Nat) (ns : List (Node σ ν)) : List (Node σ ν) :=
  ns.map (shift d)

@[simp] theorem shiftAll_cons (d : Nat) (n : Node σ ν) (ns : List (Node σ ν)) :
    shiftAll d (n :: ns) = n.shift d :: shiftAll d ns := rfl

theorem shiftAll_shiftAll (d e : Nat) (ns : List (Node σ ν)) :
    shiftAll e (shiftAll d ns) = shiftAll (d + e) ns := by
  simp [shiftAll, shift_shift]

@[simp] theorem shift_property (d : Nat) (s : Span) (k v : Node σ ν) :
    (property s k (some v)).shift d = property (s.shift d) (k.shift d) (some (v.shift d)) := rfl

@[simp] theorem shift_object (d : Nat) (s : Span) (ps : List (Node σ ν)) :
    (object s ps).shift d = object (s.shift d) (shiftAll d ps) := by
  rw [shift, mapSpan, mapSpanAll_eq_map]
  rfl

@[simp] theorem shift_array (d : Nat) (s : Span) (items : List (Node σ ν)) :
    (array s items).shift d = array (s.shift d) (shiftAll d items) := by
  rw [shift, mapSpan, mapSpanAll_eq_map]
  rfl

end Node

theorem Span.shift_zero (d length : Nat) : (⟨0, length⟩ : Span).shift d = ⟨d, length⟩ := by
  rw [shift, Nat.zero_add]

namespace Grammar

/-- What `P` derives at one offset `Q` derives at every offset, moved along. -/
def Movable (P Q : List Char → Nat → α → Prop) (move : Nat → α → α) : Prop :=
  ∀ ⦃cs o a⦄, P cs o a → ∃ u, a = move o u ∧ ∀ d, Q cs d (move d u)

variable {P Q : List Char → Nat → Node σ ν → Prop} {m : Meaning σ ν} {close : Char}

theorem Others.movable (hP : Movable P Q Node.shift) :
    Movable (Others P close) (Others Q close) Node.shiftAll := by
  intro cs o ns h
  induction h with
  | done hws => exact ⟨[], rfl, fun _ => .done hws⟩
  | @more ws ws' cs rest o n ns hws hws' hn _ ih =>
    obtain ⟨u, rfl, hu⟩ := hP hn
    obtain ⟨us, rfl, hus⟩ := ih
    let start := byteLength (ws ++ ',' :: ws')
    let stop := byteLength (ws ++ ',' :: ws' ++ cs)
    refine ⟨u.shift start :: Node.shiftAll stop us, ?_, fun d => ?_⟩
    · rw [Node.shiftAll_cons, Node.shift_shift, Node.shiftAll_shiftAll, Nat.add_comm start,
        Nat.add_comm stop]
    · rw [Node.shiftAll_cons, Node.shift_shift, Node.shiftAll_shiftAll, Nat.add_comm start,
        Nat.add_comm stop]
      exact .more hws hws' (hu _) (hus _)

theorem Contents.movable (hP : Movable P Q Node.shift) :
    Movable (Contents P close) (Contents Q close) Node.shiftAll := by
  intro cs o ns h
  cases h with
  | empty hws => exact ⟨[], rfl, fun _ => .empty hws⟩
  | @items ws cs rest o n ns hws hn hns =>
    obtain ⟨u, rfl, hu⟩ := hP hn
    obtain ⟨us, rfl, hus⟩ := Others.movable hP hns
    let start := byteLength ws
    let stop := byteLength (ws ++ cs)
    refine ⟨u.shift start :: Node.shiftAll stop us, ?_, fun d => ?_⟩
    · rw [Node.shiftAll_cons, Node.shift_shift, Node.shiftAll_shiftAll, Nat.add_comm start,
        Nat.add_comm stop]
    · rw [Node.shiftAll_cons, Node.shift_shift, Node.shiftAll_shiftAll, Nat.add_comm start,
        Nat.add_comm stop]
      exact .items hws (hu _) (hus _)

/-- A rule for a node without nodes below it derives the same node everywhere. -/
theorem exists_shift_leaf (node : Span → Node σ ν)
    (hnode : ∀ d s, (node s).shift d = node (s.shift d)) {cs : List Char} {length : Nat}
    (h : ∀ o, Q cs o (node ⟨o, length⟩)) (o : Nat) :
    ∃ u : Node σ ν, node ⟨o, length⟩ = u.shift o ∧ ∀ d, Q cs d (u.shift d) := by
  refine ⟨node ⟨0, length⟩, ?_, fun d => ?_⟩
  · rw [hnode, Span.shift_zero]
  · rw [hnode, Span.shift_zero]
    exact h d

theorem Quote.movable : Movable (Quote m) (Quote m) Node.shift := by
  rintro _ o _ ⟨hx⟩
  exact exists_shift_leaf (.string · _) (fun _ _ => rfl) (fun _ => .mk hx) o

theorem Property.movable (hP : Movable P Q Node.shift) :
    Movable (Property m P) (Property m Q) Node.shift := by
  intro cs o n h
  cases h with
  | @mk key ws ws' cs o k v hkey hws hws' hv =>
    obtain ⟨k, rfl, hk⟩ := Quote.movable hkey
    obtain ⟨v, rfl, hvalue⟩ := hP hv
    let start := byteLength (key ++ ws ++ ':' :: ws')
    refine ⟨.property ⟨0, byteLength (key ++ ws ++ ':' :: ws' ++ cs)⟩ k (some (v.shift start)), ?_,
      fun d => ?_⟩
    · rw [Node.shift_property, Span.shift_zero, Node.shift_shift, Nat.add_comm start]
    · rw [Node.shift_property, Span.shift_zero, Node.shift_shift, Nat.add_comm start]
      exact .mk (hk d) hws hws' (hvalue _)

theorem Value.movable : Movable (Value m) (Value m) Node.shift := by
  intro cs o n h
  refine Value.induct
    (motive := fun cs o n => ∃ u : Node σ ν, n = u.shift o ∧ ∀ d, Value m cs d (u.shift d))
    ?string ?number ?trueWord ?falseWord ?nullWord ?array ?object h
  case string =>
    intro cs o n h
    obtain ⟨u, hu, hall⟩ := h.movable
    exact ⟨u, hu, fun d => .string (hall d)⟩
  case number =>
    exact fun {_ _ x} hx => exists_shift_leaf (.number · x) (fun _ _ => rfl) (fun _ => .number hx) _
  case trueWord =>
    exact fun {_} => exists_shift_leaf (.boolean · true) (fun _ _ => rfl) (fun _ => .trueWord) _
  case falseWord =>
    exact fun {_} => exists_shift_leaf (.boolean · false) (fun _ _ => rfl) (fun _ => .falseWord) _
  case nullWord => exact fun {_} => exists_shift_leaf .null (fun _ _ => rfl) (fun _ => .nullWord) _
  case array =>
    intro cs o ns h
    obtain ⟨us, rfl, hus⟩ := Contents.movable (fun _ _ _ hn => hn.2) h
    refine ⟨.array ⟨0, byteLength ('[' :: cs)⟩ (Node.shiftAll 1 us), ?_, fun d => ?_⟩
    · rw [Node.shift_array, Span.shift_zero, Node.shiftAll_shiftAll, Nat.add_comm 1]
    · rw [Node.shift_array, Span.shift_zero, Node.shiftAll_shiftAll, Nat.add_comm 1]
      exact .array (hus _)
  case object =>
    intro cs o ns h
    obtain ⟨us, rfl, hus⟩ := Contents.movable (Property.movable fun _ _ _ hn => hn.2) h
    refine ⟨.object ⟨0, byteLength ('{' :: cs)⟩ (Node.shiftAll 1 us), ?_, fun d => ?_⟩
    · rw [Node.shift_object, Span.shift_zero, Node.shiftAll_shiftAll, Nat.add_comm 1]
    · rw [Node.shift_object, Span.shift_zero, Node.shiftAll_shiftAll, Nat.add_comm 1]
      exact .object (hus _)

end Grammar

end JsonNav
