import Mathlib.Data.Finset.Card
import Mathlib.Data.Finset.Insert
import JsonNav.Store

/-! Histories of a store.  An address leads to the last document with this address that was put into
the store, whatever else was.  So the answers of a store depend on its history alone, and a text
that was refused is no part of it. -/

namespace JsonNav.Store

variable {s : Store} {d : Document} {ds : List Document} {uri : String}

/-! ### One document -/

theorem get?_insert : (s.insert d).2.get? uri = if d.uri = uri then some d else s.get? uri := by
  rw [get?, insert, Std.HashMap.getElem?_insert]
  simp only [beq_iff_eq]
  rfl

theorem contains_eq_isSome_get? (s : Store) (uri : String) :
    s.contains uri = (s.get? uri).isSome :=
  Std.HashMap.contains_eq_isSome_getElem?

/-- A document with a new address makes a store larger, and any other takes the place of one. -/
theorem size_insert :
    (s.insert d).2.size = if (s.get? d.uri).isSome then s.size else s.size + 1 := by
  rw [size, insert, Std.HashMap.size_insert]
  simp only [Std.HashMap.mem_iff_isSome_getElem?]
  rfl

/-! ### A list of documents -/

/-- The last document of a list that has a given address. -/
def latest? (ds : List Document) (uri : String) : Option Document :=
  (ds.filter (·.uri = uri)).getLast?

theorem latest?_append_singleton :
    latest? (ds ++ [d]) uri = if d.uri = uri then some d else latest? ds uri := by
  rw [latest?, List.filter_append]
  split
  next h => simp [h]
  next h => simp [h, latest?]

theorem isSome_latest?_iff : (latest? ds uri).isSome ↔ uri ∈ ds.map Document.uri := by
  simp [latest?]

theorem uri_of_latest? (h : latest? ds uri = some d) : d.uri = uri := by
  have hmem := List.mem_of_getLast? h
  simpa using (List.mem_filter.mp hmem).2

theorem ofList_append_singleton (ds : List Document) (d : Document) :
    ofList (ds ++ [d]) = ((ofList ds).insert d).2 := by
  rw [ofList, List.foldl_append]
  rfl

theorem get?_ofList (ds : List Document) (uri : String) :
    (ofList ds).get? uri = latest? ds uri := by
  induction ds using List.reverseRecOn with
  | nil => simp [ofList, get?, empty, latest?]
  | append_singleton ds d ih =>
    rw [ofList_append_singleton, get?_insert, ih, latest?_append_singleton]

theorem get?_ofList_singleton (d : Document) (uri : String) :
    (ofList [d]).get? uri = if d.uri = uri then some d else none := by
  rw [get?_ofList, ← List.nil_append [d], latest?_append_singleton]
  rfl

theorem size_ofList (ds : List Document) :
    (ofList ds).size = (ds.map Document.uri).toFinset.card := by
  induction ds using List.reverseRecOn with
  | nil => simp [ofList, size, empty]
  | append_singleton ds d ih =>
    have haddresses : ((ds ++ [d]).map Document.uri).toFinset =
        Insert.insert d.uri (ds.map Document.uri).toFinset := by
      simp
    rw [ofList_append_singleton, size_insert, get?_ofList, ih, haddresses,
      Finset.card_insert_eq_ite]
    simp only [isSome_latest?_iff, List.mem_toFinset]

theorem isEmpty_ofList_iff (ds : List Document) : (ofList ds).isEmpty = true ↔ ds = [] := by
  rw [isEmpty, Std.HashMap.isEmpty_eq_size_eq_zero, beq_iff_eq]
  show (ofList ds).size = 0 ↔ _
  rw [size_ofList, Finset.card_eq_zero]
  simp

/-- Every document is stored under its own address. -/
def Keyed (s : Store) : Prop :=
  ∀ u d, s.get? u = some d → d.uri = u

theorem keyed_ofList (ds : List Document) : (ofList ds).Keyed := by
  intro u d h
  rw [get?_ofList] at h
  exact uri_of_latest? h

/-- A destination is kept for each reference whose address is in the store, in the same order. -/
theorem map_destinations (s : Store) (references : List Outbound) :
    (s.destinations references).map (fun t => (t.source, some t.document)) =
      (references.filter (s.contains ·.uri)).map
        fun x => (x.reference.property, s.get? x.uri) := by
  rw [destinations, List.map_filterMap, ← List.filterMap_eq_map, List.filterMap_filter]
  refine List.filterMap_congr fun x _ => ?_
  rw [contains_eq_isSome_get?]
  cases hget : s.get? x.uri with
  | none => rfl
  | some d => simp [hget]

/-! ### A whole history -/

/-- A document that is put into a store, or the cause why its text was refused. -/
abbrev Attempt := Except ParseError Document

/-- What an attempt makes of a store. -/
def step (s : Store) : Attempt → Store
  | .ok d => (s.insert d).2
  | .error _ => s

/-- The store after a history of attempts. -/
def after (history : List Attempt) : Store :=
  history.foldl step empty

/-- The documents of the attempts that succeeded. -/
def inserted (history : List Attempt) : List Document :=
  history.filterMap Except.toOption

/-- Only the documents that were put into it make a store what it is. -/
theorem after_eq_ofList (history : List Attempt) : after history = ofList (inserted history) := by
  rw [after, ofList, inserted, List.foldl_filterMap]
  congr 1
  funext s a
  cases a with
  | error e => rfl
  | ok d => rfl

/-- After any history, an address leads to the last document with this address that was put into the
store, and to none if there was no such document.  The store has as many documents as different
addresses were put into it.  Putting a document into it hands back what its address led to before,
and changes what this address leads to and nothing else.  The destinations of references are those
whose addresses are in the store, in the same order, each with what its address leads to. -/
theorem answers_of_history (history : List Attempt) :
    let s := after history
    (∀ uri, s.get? uri = latest? (inserted history) uri) ∧
    (∀ uri, s.contains uri = (s.get? uri).isSome) ∧
    s.size = ((inserted history).map Document.uri).toFinset.card ∧
    (s.isEmpty = true ↔ inserted history = []) ∧
    (∀ d, (s.insert d).2 = after (history ++ [.ok d]) ∧ (s.insert d).1 = s.get? d.uri ∧
      ∀ uri, (s.insert d).2.get? uri = if d.uri = uri then some d else s.get? uri) ∧
    (∀ e, after (history ++ [.error e]) = s) ∧
    (∀ uri d, s.get? uri = some d → d.uri = uri) ∧
    ∀ references, (s.destinations references).map (fun t => (t.source, some t.document)) =
      (references.filter (s.contains ·.uri)).map
        fun x => (x.reference.property, s.get? x.uri) := by
  intro s
  have hs : s = ofList (inserted history) := after_eq_ofList history
  have happend (a : Attempt) : after (history ++ [a]) = s.step a := by
    rw [after, List.foldl_append]
    rfl
  refine ⟨fun uri => ?latest, s.contains_eq_isSome_get?, ?size, ?empty,
    fun d => ⟨(happend (.ok d)).symm, rfl, fun uri => get?_insert⟩, fun e => happend (.error e),
    ?keyed, s.map_destinations⟩
  case latest => rw [hs, get?_ofList]
  case size => rw [hs, size_ofList]
  case empty => rw [hs, isEmpty_ofList_iff]
  case keyed =>
    rw [hs]
    exact keyed_ofList (inserted history)

end JsonNav.Store
