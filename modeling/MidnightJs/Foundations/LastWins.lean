import MidnightJs.Foundations.OrderedMap
import Mathlib.Data.List.Induction
import Mathlib.Data.List.Perm.Subperm

/-! # The last entry of a key

A map that is made of a list of entries holds the last entry of every key. -/

namespace Foundations
set_option autoImplicit false

variable {K U : Type} [DecidableEq K] (key : U → K)

/-- Those with no other of their key behind them. -/
def lasts : List U → List U
  | [] => []
  | u :: us => if key u ∈ us.map key then lasts us else u :: lasts us

variable {key}

theorem lasts_sublist (us : List U) : (lasts key us).Sublist us := by
  induction us with
  | nil => exact List.Sublist.refl []
  | cons u us ih =>
    unfold lasts
    split
    · exact ih.cons u
    · exact ih.cons_cons u

theorem lasts_map {V : Type} (f : V → U) (vs : List V) :
    lasts key (vs.map f) = (lasts (fun v => key (f v)) vs).map f := by
  induction vs with
  | nil => rfl
  | cons v vs ih =>
    simp only [List.map_cons, lasts, List.map_map, Function.comp_def]
    split
    · exact ih
    · rw [ih, List.map_cons]

theorem lasts_comp {K' : Type} [DecidableEq K'] {g : K → K'} (hg : Function.Injective g)
    (us : List U) : lasts (fun u => g (key u)) us = lasts key us := by
  induction us with
  | nil => rfl
  | cons u us ih =>
    have hmem : g (key u) ∈ us.map (fun u => g (key u)) ↔ key u ∈ us.map key := by
      simp [hg.eq_iff]
    simp only [lasts, ih, hmem]

theorem nodup_lasts (us : List U) : ((lasts key us).map key).Nodup := by
  induction us with
  | nil => exact List.nodup_nil
  | cons u us ih =>
    unfold lasts
    split
    · exact ih
    · rename_i hnew
      rw [List.map_cons, List.nodup_cons]
      refine ⟨fun hmem => hnew ?_, ih⟩
      exact ((lasts_sublist us).map key).subset hmem

theorem mem_lasts_append {us : List U} {u : U} {v : U} :
    v ∈ lasts key (us ++ [u]) ↔ v = u ∨ v ∈ lasts key us ∧ key v ≠ key u := by
  induction us with
  | nil => simp [lasts]
  | cons w us ih =>
    simp only [List.cons_append, lasts, List.map_append, List.map_cons, List.map_nil,
      List.mem_append, List.mem_singleton]
    by_cases hw : key w ∈ us.map key
    · simp only [hw, true_or, if_true, ih]
    · by_cases hu : key w = key u
      · rw [hu] at hw
        simp only [hw, hu, or_true, if_true, ih, if_false, List.mem_cons]
        constructor
        · rintro (rfl | ⟨hv, hne⟩)
          · exact .inl rfl
          · exact .inr ⟨.inr hv, hne⟩
        · rintro (rfl | ⟨rfl | hv, hne⟩)
          · exact .inl rfl
          · exact absurd hu hne
          · exact .inr ⟨hv, hne⟩
      · simp only [hw, hu, or_false, if_false, List.mem_cons, ih]
        constructor
        · rintro (rfl | rfl | ⟨hv, hne⟩)
          · exact .inr ⟨.inl rfl, hu⟩
          · exact .inl rfl
          · exact .inr ⟨.inr hv, hne⟩
        · rintro (rfl | ⟨rfl | hv, hne⟩)
          · exact .inr (.inl rfl)
          · exact .inl rfl
          · exact .inr (.inr ⟨hv, hne⟩)

/-! ## Maps -/

variable {V : Type}

theorem mem_set_iff {m : List (K × V)} (hnodup : (OrderedMap.keys m).Nodup) {k : K} {v : V}
    {e : K × V} : e ∈ OrderedMap.set m k v ↔ e = (k, v) ∨ e ∈ m ∧ e.1 ≠ k := by
  have hset := OrderedMap.nodup_keys_set k v hnodup
  constructor
  · intro he
    have hget := OrderedMap.get_of_mem hset he
    rw [OrderedMap.get_set] at hget
    by_cases hk : k = e.1
    · rw [if_pos hk, Option.some.injEq] at hget
      exact .inl (Prod.ext hk.symm hget.symm)
    · rw [if_neg hk] at hget
      exact .inr ⟨OrderedMap.mem_of_get hget, fun h => hk h.symm⟩
  · rintro (rfl | ⟨he, hk⟩)
    · apply OrderedMap.mem_of_get
      rw [OrderedMap.get_set, if_pos rfl]
    · apply OrderedMap.mem_of_get
      rw [OrderedMap.get_set, if_neg (Ne.symm hk)]
      exact OrderedMap.get_of_mem hnodup he

theorem ofEntries_concat (entries : List (K × V)) (e : K × V) :
    OrderedMap.ofEntries (entries ++ [e]) = OrderedMap.set (OrderedMap.ofEntries entries) e.1 e.2 := by
  simp [OrderedMap.ofEntries, List.foldl_append]

/-- The map made of a list of entries holds the last entry of every key. -/
theorem ofEntries_perm (entries : List (K × V)) :
    (OrderedMap.ofEntries entries).Perm (lasts Prod.fst entries) := by
  have hmap : (OrderedMap.ofEntries entries).Nodup := (OrderedMap.nodup_keys_ofEntries entries).of_map
  have hlasts : (lasts Prod.fst entries).Nodup := (nodup_lasts entries).of_map
  refine (List.perm_ext_iff_of_nodup hmap hlasts).mpr fun e => ?_
  clear hmap hlasts
  induction entries using List.reverseRecOn generalizing e with
  | nil => simp [OrderedMap.ofEntries, lasts]
  | append_singleton entries last ih =>
    rw [ofEntries_concat, mem_set_iff (OrderedMap.nodup_keys_ofEntries entries), mem_lasts_append, ih]

/-! ## Selecting -/

/-- Of those that satisfy `p` all are last ones and satisfy `r` exactly if none is lost. -/
theorem filter_lasts_eq_iff {p r : U → Bool} {us : List U} :
    (lasts key us).filter (fun u => p u && r u) = us.filter p ↔
      (∀ u ∈ us, p u = true → r u = true) ∧
        us.Pairwise fun u u' => p u = true → key u ≠ key u' := by
  induction us with
  | nil => simp [lasts]
  | cons u us ih =>
    have hsub : ((lasts key us).filter fun u => p u && r u).Sublist (us.filter p) := by
      have hfilter : ((lasts key us).filter fun u => p u && r u) =
          ((lasts key us).filter p).filter r := by
        rw [List.filter_filter]
        simp only [Bool.and_comm]
      rw [hfilter]
      exact List.filter_sublist.trans ((lasts_sublist us).filter p)
    have hshort : (lasts key us).filter (fun u => p u && r u) ≠ u :: us.filter p := by
      intro h
      have hle := hsub.length_le
      rw [h, List.length_cons] at hle
      omega
    rw [List.forall_mem_cons, List.pairwise_cons]
    by_cases hp : p u = true
    · rw [List.filter_cons_of_pos hp, lasts]
      by_cases hlast : key u ∈ us.map key
      · -- A later one takes its place, so that one is missing.
        rw [if_pos hlast]
        obtain ⟨u', hu', heq⟩ := List.mem_map.mp hlast
        refine iff_of_false hshort ?_
        rintro ⟨-, hpair, -⟩
        exact hpair u' hu' hp heq.symm
      · rw [if_neg hlast]
        have hkeys : ∀ u' ∈ us, p u = true → key u ≠ key u' := fun u' hu' _ heq =>
          hlast (heq ▸ List.mem_map_of_mem hu')
        by_cases hr : r u = true
        · rw [List.filter_cons_of_pos (by simp [hp, hr]), List.cons_inj_right, ih]
          tauto
        · rw [List.filter_cons_of_neg (by simp [hr])]
          refine iff_of_false hshort ?_
          rintro ⟨⟨hall, -⟩, -⟩
          exact hr (hall hp)
    · have hhead : ((lasts key (u :: us)).filter fun u => p u && r u) =
          (lasts key us).filter fun u => p u && r u := by
        rw [lasts]
        split
        · rfl
        · exact List.filter_cons_of_neg (by simp [hp])
      rw [List.filter_cons_of_neg hp, hhead, ih]
      simp only [hp, false_implies, implies_true, true_and, Bool.false_eq_true]

end Foundations
