import Mathlib.Data.Set.Insert
import Mathlib.Logic.Function.Basic
import Mathlib.Logic.Relation

/-! # Optimistic writes

A shared board holds one content for each key. A client takes a copy of a content and prepares a
write from it, at any later time and as often as it likes. A write is accepted only while the version
of the content is the one the copy has, and an accepted write raises the version. What the version
does not guard may change between. -/

namespace Foundations.Versioned
set_option autoImplicit false

/-- The version of a content, and the part of the content that only a write changes. -/
structure Guard (C G : Type) where
  version : C → ℕ
  guarded : C → G
  version_congr : ∀ {c c' : C}, guarded c = guarded c' → version c = version c'

/-- An accepted write: the copy it was prepared from, and the content it was applied to. -/
structure Accepted (K C W : Type) where
  key : K
  copy : C
  write : W
  before : C

structure Board (K C W : Type) where
  contents : K → Option C
  copies : Set (K × C)
  prepared : Set (K × C × W)
  accepted : List (Accepted K C W)

variable {K C W G : Type} [DecidableEq K]

namespace Board

def put (n : Board K C W) (k : K) (c : C) : Board K C W :=
  { n with contents := Function.update n.contents k (some c) }

def take (n : Board K C W) (k : K) (c : C) : Board K C W :=
  { n with copies := insert (k, c) n.copies }

def prepare (n : Board K C W) (k : K) (c : C) (w : W) : Board K C W :=
  { n with prepared := insert (k, c, w) n.prepared }

def accept (n : Board K C W) (e : Accepted K C W) (after : C) : Board K C W :=
  { n.put e.key after with accepted := n.accepted ++ [e] }

inductive Steps (g : Guard C G) (n : Board K C W) : Board K C W → Prop
  | create {k : K} (absent : n.contents k = none) (c : C) : Steps g n (n.put k c)
  | change {k : K} {c c' : C} (content : n.contents k = some c)
      (unguarded : g.guarded c = g.guarded c') : Steps g n (n.put k c')
  | take {k : K} {c : C} (content : n.contents k = some c) : Steps g n (n.take k c)
  | prepare {k : K} {c : C} (copied : (k, c) ∈ n.copies) (w : W) : Steps g n (n.prepare k c w)
  | accept {e : Accepted K C W} {after : C} (prepared : (e.key, e.copy, e.write) ∈ n.prepared)
      (content : n.contents e.key = some e.before)
      (current : g.version e.copy = g.version e.before)
      (raised : g.version e.before < g.version after) : Steps g n (n.accept e after)

end Board

/-! ## The invariant -/

/-- The content is a later one of the copy, and the same while the version is. -/
def Follows (g : Guard C G) (copy content : C) : Prop :=
  g.version copy ≤ g.version content ∧
    (g.version copy = g.version content → g.guarded copy = g.guarded content)

structure Sound (g : Guard C G) (n : Board K C W) : Prop where
  copies : ∀ k c, (k, c) ∈ n.copies → ∃ s, n.contents k = some s ∧ Follows g c s
  prepared : ∀ k c w, (k, c, w) ∈ n.prepared → (k, c) ∈ n.copies
  accepted : ∀ e ∈ n.accepted, (e.key, e.copy, e.write) ∈ n.prepared ∧
    g.guarded e.copy = g.guarded e.before
  below : ∀ e ∈ n.accepted, ∃ s, n.contents e.key = some s ∧ g.version e.before < g.version s
  rising : n.accepted.Pairwise fun e e' => e.key = e'.key → g.version e.before < g.version e'.before

variable {g : Guard C G} {n n' n₀ : Board K C W}

theorem Follows.of_eq {c c' : C} (h : g.guarded c = g.guarded c') : Follows g c c' :=
  ⟨(g.version_congr h).le, fun _ => h⟩

theorem Follows.trans {c c' c'' : C} (h : Follows g c c') (h' : Follows g c' c'') :
    Follows g c c'' := by
  refine ⟨h.1.trans h'.1, fun heq => ?_⟩
  have hmid : g.version c = g.version c' := le_antisymm h.1 (heq ▸ h'.1)
  exact (h.2 hmid).trans (h'.2 (hmid ▸ heq))

theorem Follows.of_lt {c c' : C} (h : g.version c < g.version c') : Follows g c c' :=
  ⟨h.le, fun heq => absurd heq h.ne⟩

/-- What the content at one key may be replaced by. -/
theorem later_of_put {k k' : K} {c s : C} (hk : n.contents k' = some s)
    (hc : ∀ s, n.contents k = some s → Follows g s c) :
    ∃ s', (n.put k c).contents k' = some s' ∧ Follows g s s' := by
  by_cases hkk : k' = k
  · subst hkk
    exact ⟨c, Function.update_self .., hc s hk⟩
  · refine ⟨s, ?_, Follows.of_eq rfl⟩
    rw [← hk]
    exact Function.update_of_ne hkk ..

theorem Sound.put {k : K} {c : C} (h : Sound g n)
    (hc : ∀ s, n.contents k = some s → Follows g s c) : Sound g (n.put k c) := by
  refine ⟨fun k' c' hcopy => ?_, h.prepared, h.accepted, fun e he => ?_, h.rising⟩
  · obtain ⟨s, hs, hfollows⟩ := h.copies k' c' hcopy
    obtain ⟨s', hs', hlater⟩ := later_of_put hs hc
    exact ⟨s', hs', hfollows.trans hlater⟩
  · obtain ⟨s, hs, hlt⟩ := h.below e he
    obtain ⟨s', hs', hlater⟩ := later_of_put hs hc
    exact ⟨s', hs', hlt.trans_le hlater.1⟩

omit [DecidableEq K] in
theorem Sound.take {k : K} {c : C} (h : Sound g n) (hc : n.contents k = some c) :
    Sound g (n.take k c) := by
  refine ⟨fun k' c' hcopy => ?_, fun k' c' w hw => .inr (h.prepared k' c' w hw), h.accepted,
    h.below, h.rising⟩
  obtain heq | hcopy := hcopy
  · cases heq
    exact ⟨c, hc, Follows.of_eq rfl⟩
  · exact h.copies k' c' hcopy

omit [DecidableEq K] in
theorem Sound.prepare {k : K} {c : C} (h : Sound g n) (hc : (k, c) ∈ n.copies) (w : W) :
    Sound g (n.prepare k c w) := by
  refine ⟨h.copies, fun k' c' w' hw => ?_, fun e he => ?_, h.below, h.rising⟩
  · obtain heq | hw := hw
    · cases heq
      exact hc
    · exact h.prepared k' c' w' hw
  · obtain ⟨hprepared, hguarded⟩ := h.accepted e he
    exact ⟨.inr hprepared, hguarded⟩

theorem Sound.accept {e : Accepted K C W} {after : C} (h : Sound g n)
    (hprepared : (e.key, e.copy, e.write) ∈ n.prepared) (hcontent : n.contents e.key = some e.before)
    (hcurrent : g.version e.copy = g.version e.before)
    (hraised : g.version e.before < g.version after) : Sound g (n.accept e after) := by
  have hput : Sound g (n.put e.key after) := h.put fun s hs => by
    rw [hcontent, Option.some.injEq] at hs
    exact hs ▸ Follows.of_lt hraised
  have hguarded : g.guarded e.copy = g.guarded e.before := by
    obtain ⟨s, hs, hfollows⟩ := h.copies _ _ (h.prepared _ _ _ hprepared)
    rw [hcontent, Option.some.injEq] at hs
    subst hs
    exact hfollows.2 hcurrent
  refine ⟨hput.copies, h.prepared, fun e' he' => ?_, fun e' he' => ?_, ?_⟩
  · obtain he' | he' := List.mem_append.mp he'
    · exact h.accepted e' he'
    · rw [List.mem_singleton.mp he']
      exact ⟨hprepared, hguarded⟩
  · obtain he' | he' := List.mem_append.mp he'
    · exact hput.below e' he'
    · rw [List.mem_singleton.mp he']
      exact ⟨after, Function.update_self .., hraised⟩
  · refine List.pairwise_append.mpr ⟨h.rising, List.pairwise_singleton .., fun e' he' e'' he'' => ?_⟩
    rw [List.mem_singleton.mp he'']
    intro hkey
    obtain ⟨s, hs, hlt⟩ := h.below e' he'
    rw [hkey, hcontent, Option.some.injEq] at hs
    exact hs ▸ hlt

theorem Sound.step (h : Sound g n) (step : Board.Steps g n n') : Sound g n' := by
  cases step with
  | create absent c =>
    refine h.put fun s hs => ?_
    rw [absent] at hs
    cases hs
  | change content unguarded =>
    refine h.put fun s hs => ?_
    rw [content, Option.some.injEq] at hs
    exact hs ▸ Follows.of_eq unguarded
  | take content => exact h.take content
  | prepare copied w => exact h.prepare copied w
  | accept prepared content current raised => exact h.accept prepared content current raised

end Foundations.Versioned
