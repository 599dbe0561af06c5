import Mathlib.Data.Fin.Basic
import Mathlib.Data.List.Forall2
import Mathlib.Data.List.Nodup
import Mathlib.Data.List.Perm.Subperm

/-! Lists in general: selections of members and of their places, readers that are run on all
members, lists that are related member by member, and a list that is cut at its last separator. -/

namespace JsonNav

variable {α β γ : Type} {as : List α} {bs : List β} {f g : α → Option β}

/-! ### Selections -/

/-- Whatever selects more selects the same members and others between them. -/
theorem filterMap_sublist_filterMap (h : ∀ a ∈ as, ∀ b, f a = some b → g a = some b) :
    (as.filterMap f).Sublist (as.filterMap g) := by
  have hf : as.filterMap f = (as.filter fun a => (f a).isSome).filterMap g := by
    rw [List.filterMap_filter]
    refine List.filterMap_congr fun a ha => ?_
    cases hfa : f a with
    | none => rfl
    | some b => exact (h a ha b hfa).symm
  rw [hf]
  exact List.filter_sublist.filterMap g

theorem filterMap_zipIdx_fst (as : List α) (f : α → Option β) :
    (as.zipIdx.filterMap fun (a, _) => f a) = as.filterMap f := by
  conv_rhs => rw [← List.zipIdx_map_fst 0 as]
  rw [List.filterMap_map]
  rfl

theorem filterMap_range_eq (as : List α) (f : Nat → α → Option β) :
    ((List.range as.length).filterMap fun i => as[i]?.bind (f i)) =
      as.zipIdx.filterMap fun (a, i) => f i a := by
  have hfrom (k : Nat) : ((List.range as.length).filterMap fun i => as[i]?.bind (f (k + i))) =
      (as.zipIdx k).filterMap fun (a, i) => f i a := by
    induction as generalizing k with
    | nil => rfl
    | cons a as ih =>
      have hsucc (i : Nat) : k + 1 + i = k + (i + 1) := by omega
      rw [List.length_cons, List.range_succ_eq_map, List.filterMap_cons, List.filterMap_map,
        List.zipIdx_cons, List.filterMap_cons, ← ih (k + 1)]
      simp only [Function.comp_def, List.getElem?_cons_zero, List.getElem?_cons_succ,
        Option.bind_some, Nat.add_zero, Nat.succ_eq_add_one, hsucc]
  simpa using hfrom 0

/-- Two selections of a list that share no member have different images when all members have. -/
theorem nodup_map_filterMap_append {h : β → γ} {k : α → γ} (hf : ∀ a b, f a = some b → h b = k a)
    (hg : ∀ a b, g a = some b → h b = k a) (hdisjoint : ∀ a ∈ as, f a = none ∨ g a = none)
    (hnodup : (as.map k).Nodup) : ((as.filterMap f ++ as.filterMap g).map h).Nodup := by
  have hselect (f : α → Option β) (hf : ∀ a b, f a = some b → h b = k a) :
      (as.filterMap f).map h = (as.filter fun a => (f a).isSome).map k := by
    rw [List.map_filterMap, ← List.filterMap_eq_map, List.filterMap_filter]
    refine List.filterMap_congr fun a _ => ?_
    cases hfa : f a with
    | none => rfl
    | some b => simp [hf a b hfa]
  have hsub (p : α → Bool) : ((as.filter p).map k).Nodup :=
    hnodup.sublist (List.filter_sublist.map k)
  rw [List.map_append, hselect f hf, hselect g hg, List.nodup_append]
  refine ⟨hsub _, hsub _, ?_⟩
  intro c hc c' hc' heq
  obtain ⟨a, ha, rfl⟩ := List.mem_map.mp hc
  obtain ⟨a', ha', rfl⟩ := List.mem_map.mp hc'
  obtain ⟨ha, hfa⟩ := List.mem_filter.mp ha
  obtain ⟨ha', hga⟩ := List.mem_filter.mp ha'
  obtain rfl := List.inj_on_of_nodup_map hnodup ha ha' heq
  rcases hdisjoint a ha with hnone | hnone
  · rw [hnone] at hfa
    exact nomatch hfa
  · rw [hnone] at hga
    exact nomatch hga

/-- A list whose images are among the members of another, each as often, has its images at different
places of the other. -/
theorem exists_injective_of_map_subperm {f : α → β} (h : (as.map f).Subperm bs) :
    ∃ place : Fin as.length → Fin bs.length,
      Function.Injective place ∧ ∀ i, bs[place i] = f as[i] := by
  classical
  refine ⟨fun i => h.idxInj (i.cast (List.length_map f).symm), ?_, ?_⟩
  · exact h.idxInj_injective.comp (Fin.cast_injective _)
  · intro i
    exact h.getElem_idxInj_eq_getElem.trans (List.getElem_map f)

/-! ### Member by member -/

theorem mapM_eq_some_iff : as.mapM f = some bs ↔ List.Forall₂ (fun a b => f a = some b) as bs := by
  induction as generalizing bs with
  | nil => cases bs <;> simp
  | cons a as ih =>
    rw [List.mapM_cons, List.forall₂_cons_left_iff]
    simp only [Option.bind_eq_bind, Option.bind_eq_some_iff, Option.pure_def, Option.some.injEq]
    constructor
    · rintro ⟨b, hb, bs, hbs, rfl⟩
      exact ⟨b, bs, hb, ih.mp hbs, rfl⟩
    · rintro ⟨b, bs, hb, hbs, rfl⟩
      exact ⟨b, hb, bs, ih.mpr hbs, rfl⟩

theorem exists_mem_zip {R : α → β → Prop} {a : α} (h : List.Forall₂ R as bs) (ha : a ∈ as) :
    ∃ b, (a, b) ∈ as.zip bs ∧ R a b := by
  induction h with
  | nil => exact nomatch ha
  | @cons a' b as bs hab _ ih =>
    rcases List.mem_cons.mp ha with rfl | ha
    · exact ⟨b, by simp, hab⟩
    · obtain ⟨b', hmem, hb'⟩ := ih ha
      exact ⟨b', List.mem_cons_of_mem _ hmem, hb'⟩

/-! ### Cutting -/

/-- A list is cut in one way at the last separator in it. -/
theorem eq_of_append_cons_eq {c : α} {before before' after after' : List α} (hc : c ∉ after)
    (hc' : c ∉ after') (h : before ++ c :: after = before' ++ c :: after') :
    before = before' ∧ after = after' := by
  have hcut {mid after after' : List α} (hc : c ∉ after)
      (h : c :: after = mid ++ c :: after') : mid = [] ∧ after = after' := by
    cases mid with
    | nil => exact ⟨rfl, (List.cons.inj h).2⟩
    | cons x mid =>
      refine absurd ?_ hc
      rw [(List.cons.inj h).2]
      simp
  rcases List.append_eq_append_iff.mp h with ⟨mid, rfl, hmid⟩ | ⟨mid, rfl, hmid⟩
  · obtain ⟨rfl, rfl⟩ := hcut hc hmid
    exact ⟨(List.append_nil _).symm, rfl⟩
  · obtain ⟨rfl, rfl⟩ := hcut hc' hmid
    exact ⟨List.append_nil _, rfl⟩

end JsonNav
