import Mathlib.Data.List.Induction
import Mathlib.Data.List.Infix
import Mathlib.Logic.Function.Basic

/-! # Read-modify-write on one register

Each party `i` reads a shared register and later writes `f i` of what it read. Nothing keeps the
others away in between, so a write may undo earlier ones. What is left is always the work of a
chain of parties, each of which read what the one before it wrote; if no write falls between the
read and the write of any party, it is the work of all of them, in the order of their writes. -/

namespace Foundations
set_option autoImplicit false

inductive Access (ι : Type)
  | read (i : ι)
  | write (i : ι)

/-- The shared value, and what each party has read last. -/
structure Register (ι α : Type) where
  value : α
  held : ι → Option α

namespace Register

variable {ι α : Type}

/-- The parties that wrote, in the order of their writes. -/
def writers (tr : List (Access ι)) : List ι :=
  tr.filterMap fun
    | .read _ => none
    | .write i => some i

/-- The parties of a list applied one after the other. -/
def applied (f : ι → α → α) (a : α) (order : List ι) : α := order.foldl (fun a i => f i a) a

/-- Every write comes after a read of the same party. -/
def ReadsFirst (tr : List (Access ι)) : Prop :=
  ∀ pre i post, tr = pre ++ .write i :: post → .read i ∈ pre

/-- No write falls between the last read of a party and its write. -/
def Exclusive (tr : List (Access ι)) : Prop :=
  ∀ pre i mid post, tr = pre ++ .read i :: (mid ++ .write i :: post) → .read i ∉ mid →
    ∀ j, .write j ∉ mid

/-- Each party of the chain last read, before its write, when the value was still the one that the
party before it in the chain had written (the first one: the initial value), and no write comes after
that of the last one. -/
inductive ReadChain : List (Access ι) → List ι → Prop
  | initial {tr : List (Access ι)} (hnone : ∀ j, .write j ∉ tr) : ReadChain tr []
  | write {pre mid post : List (Access ι)} {chain : List ι} {i : ι} (before : ReadChain pre chain)
      (hmid : .read i ∉ mid) (hpost : ∀ j, .write j ∉ post) :
      ReadChain (pre ++ .read i :: (mid ++ .write i :: post)) (chain ++ [i])

/-- A chain of the parties made the value, which ends with the last one to write. -/
structure MadeByChain (f : ι → α → α) (a : α) (tr : List (Access ι)) (value : α) (chain : List ι) :
    Prop where
  readChain : ReadChain tr chain
  sublist : chain.Sublist (writers tr)
  last : chain.getLast? = (writers tr).getLast?
  value_eq : value = applied f a chain

variable {f : ι → α → α} {a : α} {tr : List (Access ι)}

@[simp] theorem writers_append_read (i : ι) : writers (tr ++ [.read i]) = writers tr := by
  simp [writers]

@[simp] theorem writers_append_write (i : ι) : writers (tr ++ [.write i]) = writers tr ++ [i] := by
  simp [writers]

theorem writers_cons_read (i : ι) : writers (.read i :: tr) = writers tr := rfl

theorem writers_cons_write (i : ι) : writers (.write i :: tr) = i :: writers tr := rfl

theorem writers_append (tr tr' : List (Access ι)) :
    writers (tr ++ tr') = writers tr ++ writers tr' :=
  List.filterMap_append

theorem writers_of_no_write (h : ∀ j, .write j ∉ tr) : writers tr = [] := by
  refine List.filterMap_eq_nil_iff.mpr fun x hx => ?_
  cases x with
  | read j => rfl
  | write j => exact absurd hx (h j)

theorem applied_append_singleton (order : List ι) (i : ι) :
    applied f a (order ++ [i]) = f i (applied f a order) := by
  simp [applied]

theorem ReadChain.append {chain : List ι} {post : List (Access ι)} (h : ReadChain tr chain)
    (hpost : ∀ j, .write j ∉ post) : ReadChain (tr ++ post) chain := by
  cases h with
  | initial hnone =>
    refine .initial fun j hj => ?_
    exact (List.mem_append.mp hj).elim (hnone j) (hpost j)
  | @write pre mid post' chain i before hmid hpost' =>
    have hboth : ∀ j, .write j ∉ post' ++ post := fun j hj =>
      (List.mem_append.mp hj).elim (hpost' j) (hpost j)
    simpa using ReadChain.write before hmid hboth

/-- A chain is part of the writes, and ends with the last one. -/
theorem ReadChain.writers {chain : List ι} (h : ReadChain tr chain) :
    chain.Sublist (writers tr) ∧ chain.getLast? = (Register.writers tr).getLast? := by
  induction h with
  | initial hnone =>
    rw [writers_of_no_write hnone]
    exact ⟨.refl _, rfl⟩
  | @write pre mid post chain i before hmid hpost ih =>
    have hwriters : Register.writers (pre ++ .read i :: (mid ++ .write i :: post)) =
        Register.writers pre ++ (Register.writers mid ++ [i]) := by
      rw [writers_append, writers_cons_read, writers_append, writers_cons_write,
        writers_of_no_write hpost]
    rw [hwriters, ← List.append_assoc]
    exact ⟨(ih.1.trans (List.sublist_append_left _ _)).append_right [i], by simp⟩

theorem ReadsFirst.of_append {tr' : List (Access ι)} (h : ReadsFirst (tr ++ tr')) :
    ReadsFirst tr := by
  rintro pre i post rfl
  exact h pre i (post ++ tr') (by simp)

theorem ReadsFirst.snoc {x : Access ι} (h : ReadsFirst tr)
    (hx : ∀ i, x = .write i → .read i ∈ tr) : ReadsFirst (tr ++ [x]) := by
  intro pre i post heq
  obtain rfl | ⟨post', last, rfl⟩ := post.eq_nil_or_concat
  · obtain ⟨rfl, hlast⟩ := List.append_inj' heq rfl
    cases hlast
    exact hx i rfl
  · rw [List.concat_eq_append, ← List.cons_append, ← List.append_assoc] at heq
    exact h pre i post' (List.append_inj_left' heq rfl)

theorem Exclusive.of_append {tr' : List (Access ι)} (h : Exclusive (tr ++ tr')) : Exclusive tr := by
  rintro pre i mid post rfl
  exact h pre i mid (post ++ tr') (by simp)

/-! ## Runs -/

variable [DecidableEq ι]

/-- A party that has read nothing writes nothing. -/
def step (f : ι → α → α) (r : Register ι α) : Access ι → Register ι α
  | .read i => { r with held := Function.update r.held i (some r.value) }
  | .write i => { r with value := ((r.held i).map (f i)).getD r.value }

def after (f : ι → α → α) (a : α) (tr : List (Access ι)) : Register ι α :=
  tr.foldl (step f) ⟨a, fun _ => none⟩

@[simp] theorem after_append_singleton (x : Access ι) :
    after f a (tr ++ [x]) = step f (after f a tr) x := by
  simp [after]

/-- A party holds the value of the moment of its last read. -/
theorem held_cases {i : ι} {v : α} (h : (after f a tr).held i = some v) :
    ∃ pre mid, tr = pre ++ .read i :: mid ∧ .read i ∉ mid ∧ v = (after f a pre).value := by
  induction tr using List.reverseRecOn with
  | nil => cases h
  | append_singleton tr x ih =>
    rw [after_append_singleton] at h
    cases x with
    | write j =>
      obtain ⟨pre, mid, rfl, hmid, hv⟩ := ih h
      exact ⟨pre, mid ++ [.write j], by simp, by simp [hmid], hv⟩
    | read j =>
      by_cases hj : i = j
      · subst hj
        simp only [step, Function.update_self, Option.some.injEq] at h
        exact ⟨tr, [], rfl, by simp, h.symm⟩
      · simp only [step, Function.update_of_ne hj] at h
        obtain ⟨pre, mid, rfl, hmid, hv⟩ := ih h
        exact ⟨pre, mid ++ [.read j], by simp, by simp [hmid, hj], hv⟩

theorem read_mem_of_held {i : ι} {v : α} (h : (after f a tr).held i = some v) : .read i ∈ tr := by
  obtain ⟨pre, mid, rfl, _⟩ := held_cases h
  simp

theorem held_isSome {i : ι} (h : .read i ∈ tr) : ∃ v, (after f a tr).held i = some v := by
  induction tr using List.reverseRecOn with
  | nil => cases h
  | append_singleton tr x ih =>
    rw [after_append_singleton]
    rw [List.mem_append, List.mem_singleton] at h
    cases x with
    | write j => exact ih (h.resolve_right (by simp))
    | read j =>
      by_cases hj : i = j
      · subst hj
        exact ⟨(after f a tr).value, by simp [step]⟩
      · simp only [step, Function.update_of_ne hj]
        exact ih (h.resolve_right (by simpa using hj))

/-- The value is the work of a chain in which each party read what the one before it wrote. -/
theorem exists_readChain (h : ReadsFirst tr) :
    ∃ chain, ReadChain tr chain ∧ (after f a tr).value = applied f a chain := by
  induction hn : tr.length using Nat.strong_induction_on generalizing tr with
  | h n ih =>
    induction tr using List.reverseRecOn with
    | nil => exact ⟨[], .initial fun _ => List.not_mem_nil, rfl⟩
    | append_singleton tr x _ =>
      rw [List.length_append, List.length_singleton] at hn
      rw [after_append_singleton]
      cases x with
      | read i =>
        obtain ⟨chain, hchain, hvalue⟩ := ih tr.length (by omega) h.of_append rfl
        exact ⟨chain, hchain.append (by simp), hvalue⟩
      | write i =>
        -- the chain up to the read of the party that writes, and the party
        obtain ⟨v, hv⟩ := held_isSome (f := f) (a := a) (h tr i [] rfl)
        obtain ⟨pre, mid, rfl, hmid, rfl⟩ := held_cases hv
        have hpre : ReadsFirst pre := h.of_append.of_append
        obtain ⟨chain, hchain, hvalue⟩ := ih pre.length (by simp at hn; omega) hpre rfl
        refine ⟨chain ++ [i], ?_, ?_⟩
        · have hwrite : ReadChain (pre ++ .read i :: (mid ++ .write i :: [])) (chain ++ [i]) :=
            .write hchain hmid fun _ => List.not_mem_nil
          simpa using hwrite
        · rw [applied_append_singleton, ← hvalue]
          simp only [step, hv, Option.map_some, Option.getD_some]

theorem value_chain (h : ReadsFirst tr) :
    ∃ chain, MadeByChain f a tr (after f a tr).value chain := by
  obtain ⟨chain, hchain, hvalue⟩ := exists_readChain h
  exact ⟨chain, hchain, hchain.writers.1, hchain.writers.2, hvalue⟩

theorem value_of_no_write {mid : List (Access ι)} (h : ∀ j, .write j ∉ mid) :
    (after f a (tr ++ mid)).value = (after f a tr).value := by
  induction mid using List.reverseRecOn with
  | nil => simp
  | append_singleton mid x ih =>
    rw [← List.append_assoc, after_append_singleton]
    cases x with
    | write j => exact absurd (by simp) (h j)
    | read j => exact ih fun k hk => h k (List.mem_append_left _ hk)

/-- With no writes in between, the value is the work of all writers. -/
theorem value_exclusive (h : ReadsFirst tr) (hex : Exclusive tr) :
    (after f a tr).value = applied f a (writers tr) := by
  induction tr using List.reverseRecOn with
  | nil => rfl
  | append_singleton tr x ih =>
    have ih := ih h.of_append hex.of_append
    rw [after_append_singleton]
    cases x with
    | read i =>
      rw [writers_append_read]
      exact ih
    | write i =>
      obtain ⟨v, hv⟩ := held_isSome (f := f) (a := a) (h tr i [] rfl)
      have hvalue : v = (after f a tr).value := by
        obtain ⟨pre, mid, rfl, hmid, rfl⟩ := held_cases hv
        have hnone := hex pre i mid [] (by simp) hmid
        rw [value_of_no_write]
        intro j hj
        rcases List.mem_cons.mp hj with hj | hj
        · cases hj
        · exact hnone j hj
      rw [writers_append_write, applied_append_singleton, ← ih, ← hvalue]
      simp [step, hv]

end Register

end Foundations
