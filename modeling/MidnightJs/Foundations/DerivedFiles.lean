import Mathlib.Data.List.Basic
import Mathlib.Data.List.Pairwise

/-! # Files derived from a source

A source goes through versions, each written at some time, and a file is made from the version that
is there at the time. Times do not decrease, but several things may happen at one time. -/

namespace Foundations.Derived
set_option autoImplicit false

variable {V : Type} {versions : List (V × ℕ)} {v w : V × ℕ} {now t : ℕ}

/-- The versions are in order of time, and none is later than now. -/
structure Timed (versions : List (V × ℕ)) (now : ℕ) : Prop where
  sorted : versions.Pairwise fun w w' => w.2 ≤ w'.2
  past : ∀ w ∈ versions, w.2 ≤ now

/-- A file is made from `v` at time `t`: what came after `v` was not written before `t`. -/
def MadeFrom (versions : List (V × ℕ)) (v : V × ℕ) (t : ℕ) : Prop :=
  ∃ pre post, versions = pre ++ v :: post ∧ ∀ w ∈ post, t ≤ w.2

theorem Timed.write (h : Timed versions now) (v : V) : Timed (versions ++ [(v, now)]) now := by
  constructor
  · refine List.pairwise_append.mpr ⟨h.sorted, List.pairwise_singleton .., fun w hw w' hw' => ?_⟩
    rw [List.mem_singleton.mp hw']
    exact h.past w hw
  · intro w hw
    obtain hw | hw := List.mem_append.mp hw
    · exact h.past w hw
    · obtain rfl := List.mem_singleton.mp hw
      exact Nat.le_refl _

theorem Timed.later (h : Timed versions now) : Timed versions (now + 1) :=
  ⟨h.sorted, fun w hw => Nat.le_succ_of_le (h.past w hw)⟩

theorem Timed.le_last (h : Timed versions now) (hlast : versions.getLast? = some v)
    (hw : w ∈ versions) : w.2 ≤ v.2 := by
  obtain ⟨pre, rfl⟩ := List.getLast?_eq_some_iff.mp hlast
  obtain hw | hw := List.mem_append.mp hw
  · exact (List.pairwise_append.mp h.sorted).2.2 w hw v (List.mem_singleton.mpr rfl)
  · obtain rfl := List.mem_singleton.mp hw
    exact Nat.le_refl _

theorem MadeFrom.mem (h : MadeFrom versions v t) : v ∈ versions := by
  obtain ⟨pre, post, rfl, -⟩ := h
  exact List.mem_append_right pre List.mem_cons_self

theorem madeFrom_last (hlast : versions.getLast? = some v) (t : ℕ) : MadeFrom versions v t := by
  obtain ⟨pre, rfl⟩ := List.getLast?_eq_some_iff.mp hlast
  exact ⟨pre, [], rfl, fun _ hw => absurd hw List.not_mem_nil⟩

theorem MadeFrom.write (h : MadeFrom versions v t) (ht : t ≤ now) (w : V) :
    MadeFrom (versions ++ [(w, now)]) v t := by
  obtain ⟨pre, post, rfl, hpost⟩ := h
  refine ⟨pre, post ++ [(w, now)], by rw [List.append_assoc, List.cons_append], fun u hu => ?_⟩
  obtain hu | hu := List.mem_append.mp hu
  · exact hpost u hu
  · rw [List.mem_singleton.mp hu]
    exact ht

/-- A file that is later than a version was made from that version or a later one. -/
theorem MadeFrom.at_least (h : MadeFrom versions v t) (htimed : Timed versions now)
    (hw : w ∈ versions) (hlt : w.2 < t) : w.2 ≤ v.2 := by
  obtain ⟨pre, post, rfl, hpost⟩ := h
  obtain hw | hw := List.mem_append.mp hw
  · exact (List.pairwise_append.mp htimed.sorted).2.2 w hw v List.mem_cons_self
  · obtain rfl | hw := List.mem_cons.mp hw
    · exact Nat.le_refl _
    · exact absurd (hpost w hw) (Nat.not_le.mpr hlt)

end Foundations.Derived
