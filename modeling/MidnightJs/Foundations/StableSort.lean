import Mathlib.Data.List.Basic
import Mathlib.Data.List.Pairwise

/-! # Stable sorting by a comparison with ties

Sorting by a total preorder. What ties with a greatest element stands at the end of the sorted list,
at the beginning of the list sorted the other way round, and in the order of the input in both. -/

namespace Foundations
set_option autoImplicit false

structure TotalPreorder (α : Type) where
  le : α → α → Bool
  trans : ∀ a b c, le a b = true → le b c = true → le a c = true
  total : ∀ a b, (le a b || le b a) = true

namespace TotalPreorder

variable {α : Type} (p : TotalPreorder α)

def flip : TotalPreorder α where
  le a b := p.le b a
  trans a b c hab hbc := p.trans c b a hbc hab
  total a b := p.total b a

def sort (l : List α) : List α := l.mergeSort p.le

def tied (v w : α) : Bool := p.le v w && p.le w v

/-- Nothing in the list is greater. -/
def Bounds (v : α) (l : List α) : Prop := ∀ w ∈ l, p.le w v = true

def ties (v : α) (l : List α) : List α := l.filter (p.tied v)

variable {p} {l : List α} {v w : α}

theorem le_refl (v : α) : p.le v v = true := by
  have h := p.total v v
  rwa [Bool.or_self] at h

theorem tied_self (v : α) : p.tied v v = true := by
  rw [tied, le_refl, Bool.and_self]

theorem tied_iff : p.tied v w = true ↔ p.le v w = true ∧ p.le w v = true := Bool.and_eq_true_iff

theorem tied_flip : p.flip.tied = p.tied := by
  funext v w
  exact Bool.and_comm _ _

theorem sort_perm (l : List α) : (p.sort l).Perm l := List.mergeSort_perm ..

theorem length_sort (l : List α) : (p.sort l).length = l.length := (sort_perm l).length_eq

theorem mem_sort : v ∈ p.sort l ↔ v ∈ l := (sort_perm l).mem_iff

theorem pairwise_sort (l : List α) : (p.sort l).Pairwise fun a b => p.le a b = true :=
  List.pairwise_mergeSort p.trans p.total l

/-- Stability: ties keep the order of the input. -/
theorem ties_sort (v : α) (l : List α) : p.ties v (p.sort l) = p.ties v l := by
  have hsorted : (p.ties v l).Pairwise fun a b => p.le a b = true := by
    refine List.pairwise_of_forall_mem_list fun a ha b hb => ?_
    have ha := tied_iff.mp (List.mem_filter.mp ha).2
    have hb := tied_iff.mp (List.mem_filter.mp hb).2
    exact p.trans a v b ha.2 hb.1
  have hsub : (p.ties v l).Sublist (p.sort l) :=
    List.sublist_mergeSort p.trans p.total hsorted List.filter_sublist
  have hself : (p.ties v l).filter (p.tied v) = p.ties v l := by
    rw [ties, List.filter_filter]
    simp only [Bool.and_self]
  have hsub' := hsub.filter (p.tied v)
  rw [hself] at hsub'
  exact (hsub'.eq_of_length ((sort_perm l).filter _).length_eq.symm).symm

/-- A sorted list that `v` bounds ends with what ties with `v`. -/
theorem append_ties {s : List α} (hs : s.Pairwise fun a b => p.le a b = true) (hv : p.Bounds v s) :
    s = s.filter (fun w => !p.tied v w) ++ p.ties v s := by
  induction s with
  | nil => rfl
  | cons a s ih =>
    rw [List.pairwise_cons] at hs
    have hvs : p.Bounds v s := fun w hw => hv w (List.mem_cons_of_mem a hw)
    by_cases ha : p.tied v a = true
    · -- All that follows is between `a` and `v`.
      have hall : ∀ w ∈ a :: s, p.tied v w = true := by
        intro w hw
        obtain rfl | hw := List.mem_cons.mp hw
        · exact ha
        · exact tied_iff.mpr ⟨p.trans v a w (tied_iff.mp ha).1 (hs.1 w hw), hvs w hw⟩
      have hnone : (a :: s).filter (fun w => !p.tied v w) = [] := by
        rw [List.filter_eq_nil_iff]
        intro w hw
        rw [hall w hw]
        decide
      rw [hnone, ties, List.filter_eq_self.mpr hall, List.nil_append]
    · have hfalse : p.tied v a = false := Bool.eq_false_iff.mpr ha
      rw [ties, List.filter_cons_of_neg ha, List.filter_cons_of_pos (by rw [hfalse]; rfl),
        List.cons_append, List.cons.injEq]
      exact ⟨rfl, ih hs.2 hvs⟩

theorem sort_eq_append (hv : p.Bounds v l) :
    p.sort l = (p.sort l).filter (fun w => !p.tied v w) ++ p.ties v l := by
  have h := append_ties (pairwise_sort l) (fun w hw => hv w (mem_sort.mp hw))
  rwa [ties_sort] at h

/-- What remains of a sorted list has a bound of the whole list. -/
theorem exists_bound_mem_drop {j : ℕ} (h : j < l.length) : ∃ v ∈ (p.sort l).drop j, p.Bounds v l := by
  have hlt : j < (p.sort l).length := by rwa [length_sort]
  have hne : (p.sort l).drop j ≠ [] := mt List.drop_eq_nil_iff.mp (Nat.not_le.mpr hlt)
  refine ⟨_, List.getLast_mem hne, fun w hw => ?_⟩
  rw [List.getLast_drop]
  exact (pairwise_sort l).rel_getLast_of_rel_getLast_getLast (mem_sort.mpr hw) (le_refl _)

/-! ## The latest -/

variable (p) in
/-- The first element when the greatest come first. -/
def latest (l : List α) : Option α := (p.flip.sort l).head?

theorem latest_eq_none : p.latest l = none ↔ l = [] := by
  rw [latest, List.head?_eq_none_iff, ← List.length_eq_zero_iff, length_sort,
    List.length_eq_zero_iff]

theorem latest_mem (h : p.latest l = some v) : v ∈ l := mem_sort.mp (List.mem_of_head? h)

theorem bounds_latest (h : p.latest l = some v) : p.Bounds v l := by
  intro w hw
  have hsorted := pairwise_sort (p := p.flip) l
  obtain ⟨rest, hrest⟩ := List.head?_eq_some_iff.mp h
  rw [hrest, List.pairwise_cons] at hsorted
  have hw := (mem_sort (p := p.flip)).mpr hw
  rw [hrest] at hw
  obtain rfl | hw := List.mem_cons.mp hw
  · exact le_refl w
  · exact hsorted.1 w hw

theorem exists_latest (h : l ≠ []) : ∃ v, p.latest l = some v :=
  Option.ne_none_iff_exists'.mp (mt latest_eq_none.mp h)

/-- The latest is the first, in the order of the input, of what ties with it. -/
theorem head?_ties (h : p.latest l = some v) : (p.ties v l).head? = some v := by
  have hbounds := bounds_latest h
  obtain ⟨rest, hrest⟩ := List.head?_eq_some_iff.mp h
  have hties := ties_sort (p := p.flip) v l
  rw [hrest, ties, List.filter_cons_of_pos (tied_self v)] at hties
  rw [ties, ← tied_flip]
  exact congrArg List.head? hties.symm

theorem ties_congr (h : p.tied v w = true) (l : List α) : p.ties v l = p.ties w l := by
  obtain ⟨hvw, hwv⟩ := tied_iff.mp h
  refine List.filter_congr fun u _ => Bool.eq_iff_iff.mpr ?_
  rw [tied_iff, tied_iff]
  constructor
  · rintro ⟨hvu, huv⟩
    exact ⟨p.trans w v u hwv hvu, p.trans u v w huv hvw⟩
  · rintro ⟨hwu, huw⟩
    exact ⟨p.trans v w u hvw hwu, p.trans u w v huw hwv⟩

/-- The latest remains the latest as long as it is there. -/
theorem latest_filter (h : p.latest l = some v) (q : α → Bool) :
    p.latest (l.filter q) = some v ↔ q v = true := by
  constructor
  · intro hlatest
    exact (List.mem_filter.mp (latest_mem hlatest)).2
  · intro hq
    have hmem : v ∈ l.filter q := List.mem_filter.mpr ⟨latest_mem h, hq⟩
    obtain ⟨w, hw⟩ := exists_latest (p := p) (List.ne_nil_of_mem hmem)
    have htied : p.tied v w = true :=
      tied_iff.mpr ⟨bounds_latest hw v hmem, bounds_latest h w (List.mem_of_mem_filter (latest_mem hw))⟩
    have hfirst := head?_ties hw
    obtain ⟨rest, hrest⟩ := List.head?_eq_some_iff.mp (head?_ties h)
    rw [← ties_congr htied, ties, List.filter_comm, ← ties, hrest, List.filter_cons_of_pos hq,
      List.head?_cons, Option.some.injEq] at hfirst
    rwa [← hfirst] at hw

/-- The latest is among the last `k` of the sorted list exactly if no more than `k` tie with it. -/
theorem latest_mem_drop (hnodup : l.Nodup) (h : p.latest l = some v) (k : ℕ) :
    v ∈ (p.sort l).drop (l.length - k) ↔ (p.ties v l).length ≤ k := by
  obtain ⟨rest, hrest⟩ := List.head?_eq_some_iff.mp (head?_ties h)
  have hsplit := sort_eq_append (bounds_latest h)
  have hlength := congrArg List.length hsplit
  have hfresh : v ∉ rest := by
    have hties : (p.ties v l).Nodup := hnodup.filter _
    rw [hrest, List.nodup_cons] at hties
    exact hties.1
  rw [length_sort, List.length_append] at hlength
  rw [hsplit, List.drop_append, List.mem_append]
  constructor
  · intro hmem
    by_contra hlt
    obtain hmem | hmem := hmem
    · have hfilter := (List.mem_filter.mp (List.mem_of_mem_drop hmem)).2
      rw [tied_self] at hfilter
      cases hfilter
    · rw [hrest] at hmem hlt hlength
      obtain ⟨j, hj⟩ : ∃ j, l.length - k -
          ((p.sort l).filter (fun w => !p.tied v w)).length = j + 1 := by
        rw [List.length_cons] at hlt hlength
        exact ⟨_, (Nat.succ_pred_eq_of_pos (by omega)).symm⟩
      rw [hj, List.drop_succ_cons] at hmem
      exact hfresh (List.mem_of_mem_drop hmem)
  · intro hle
    right
    have hdrop : l.length - k - ((p.sort l).filter (fun w => !p.tied v w)).length = 0 := by omega
    rw [hdrop, hrest]
    exact List.mem_cons_self

end TotalPreorder

end Foundations
