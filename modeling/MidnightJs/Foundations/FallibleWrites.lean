import MidnightJs.Foundations.OrderedMap
import Mathlib.Logic.Function.Basic

/-! # Writing files one after the other

A list of writes, each with a content that may fail to be made. They run in order up to the first
that fails. -/

namespace Foundations.Writes
set_option autoImplicit false

variable {P C E : Type}

/-- The writes that are made, and how the run ends. -/
def run (ws : List (P × Except E C)) : List (P × C) × Except E Unit :=
  match ws with
  | [] => ([], .ok ())
  | (p, .ok c) :: ws => ((p, c) :: (run ws).1, (run ws).2)
  | (_, .error e) :: _ => ([], .error e)

/-- Every content can be made. -/
def AllMade (ws : List (P × Except E C)) : Prop := ∀ w ∈ ws, ∃ c, w.2 = .ok c

/-- Writes to one path have one content. -/
def Consistent (ws : List (P × Except E C)) : Prop :=
  ∀ w ∈ ws, ∀ w' ∈ ws, w.1 = w'.1 → w.2 = w'.2

variable {ws : List (P × Except E C)} {files : P → Option C} {done : List (P × C)}

theorem allMade_nil : AllMade ([] : List (P × Except E C)) := nofun

theorem allMade_cons {w : P × Except E C} :
    AllMade (w :: ws) ↔ (∃ c, w.2 = .ok c) ∧ AllMade ws :=
  List.forall_mem_cons

/-- What is written is what comes before the first content that fails. -/
theorem run_eq (ws : List (P × Except E C)) :
    (∃ done, ws = done.map (fun w => (w.1, .ok w.2)) ∧ run ws = (done, .ok ())) ∨
      ∃ done p e rest, ws = done.map (fun w => (w.1, .ok w.2)) ++ (p, .error e) :: rest ∧
        run ws = (done, .error e) := by
  induction ws with
  | nil => exact .inl ⟨[], rfl, rfl⟩
  | cons w ws ih =>
    obtain ⟨p, x⟩ := w
    cases x with
    | error e => exact .inr ⟨[], p, e, ws, rfl, rfl⟩
    | ok c =>
      obtain ⟨done, hws, hrun⟩ | ⟨done, p', e, rest, hws, hrun⟩ := ih
      · refine .inl ⟨(p, c) :: done, ?_, ?_⟩
        · rw [hws, List.map_cons]
        · rw [run, hrun]
      · refine .inr ⟨(p, c) :: done, p', e, rest, ?_, ?_⟩
        · rw [hws, List.map_cons, List.cons_append]
        · rw [run, hrun]

theorem allMade_map (done : List (P × C)) :
    AllMade (E := E) (done.map fun w => (w.1, .ok w.2)) := by
  intro w hw
  obtain ⟨w', _, rfl⟩ := List.mem_map.mp hw
  exact ⟨w'.2, rfl⟩

theorem run_ok_iff : (run ws).2 = .ok () ↔ AllMade ws := by
  obtain ⟨done, hws, hrun⟩ | ⟨done, p, e, rest, hws, hrun⟩ := run_eq ws
  · rw [hrun, hws]
    exact iff_of_true rfl (allMade_map done)
  · rw [hrun, hws]
    refine iff_of_false nofun fun h => ?_
    obtain ⟨c, hc⟩ := h (p, .error e) (by simp)
    cases hc

/-! ## Files -/

variable [DecidableEq P]

def apply (files : P → Option C) (done : List (P × C)) : P → Option C :=
  done.foldl (fun files w => Function.update files w.1 (some w.2)) files

theorem apply_cons (w : P × C) (done : List (P × C)) :
    apply files (w :: done) = apply (Function.update files w.1 (some w.2)) done := rfl

theorem apply_eq_some {p : P} {c : C} (hsame : ∀ w ∈ done, w.1 = p → w.2 = c)
    (h : (∃ w ∈ done, w.1 = p) ∨ files p = some c) : apply files done p = some c := by
  induction done generalizing files with
  | nil =>
    obtain ⟨w, hw, -⟩ | h := h
    · cases hw
    · exact h
  | cons w done ih =>
    rw [List.forall_mem_cons] at hsame
    rw [apply_cons]
    apply ih hsame.2
    by_cases hw : w.1 = p
    · right
      rw [hw, Function.update_self, hsame.1 hw]
    · rw [Function.update_of_ne (Ne.symm hw)]
      refine h.imp_left ?_
      intro ⟨w', hw', hp⟩
      obtain rfl | hw' := List.mem_cons.mp hw'
      · exact absurd hp hw
      · exact ⟨w', hw', hp⟩

/-- Every file holds what was written to it exactly if no path is written with two contents. -/
theorem apply_all_iff : (∀ w ∈ done, apply files done w.1 = some w.2) ↔
    ∀ w ∈ done, ∀ w' ∈ done, w.1 = w'.1 → w.2 = w'.2 := by
  constructor
  · intro h w hw w' hw' hp
    have hheld := h w hw
    rw [hp, h w' hw', Option.some.injEq] at hheld
    exact hheld.symm
  · intro h w hw
    exact apply_eq_some (fun w' hw' hp => (h w hw w' hw' hp.symm).symm) (.inl ⟨w, hw, rfl⟩)

/-! ## Programs

A program finds out what to write, and then writes it. -/

variable {E' : Type} {outputs : Except E (List (P × Except E C))}
  {ran : List (P × C) × Except E' Unit}

def runAfter (outputs : Except E (List (P × Except E C))) : List (P × C) × Except E Unit :=
  match outputs with
  | .ok ws => run ws
  | .error e => ([], .error e)

/-- Nothing is written before all outputs are known, and then all of them up to the first whose
content fails. -/
structure InOrder (outputs : Except E (List (P × Except E C)))
    (ran : List (P × C) × Except E' Unit) : Prop where
  unknown : ∀ e, outputs = .error e → ran.1 = [] ∧ ∃ e', ran.2 = .error e'
  known : ∀ ws, outputs = .ok ws →
    (ws = ran.1.map (fun w => (w.1, .ok w.2)) ∧ ran.2 = .ok ()) ∨
      ∃ p e rest, ws = ran.1.map (fun w => (w.1, .ok w.2)) ++ (p, .error e) :: rest ∧
        ∃ e', ran.2 = .error e'

/-- If the program fails, nothing has been written; if it succeeds, every file holds its content. -/
structure Atomic (files : P → Option C) (outputs : Except E (List (P × Except E C)))
    (ran : List (P × C) × Except E' Unit) : Prop where
  failed : ∀ e, ran.2 = .error e → ran.1 = []
  succeeded : ran.2 = .ok () → ∃ ws, outputs = .ok ws ∧
    ∀ w ∈ ws, ∃ c, w.2 = .ok c ∧ apply files ran.1 w.1 = some c

/-- How the program ends is reported by something that keeps success and failure apart. -/
structure Reports (outputs : Except E (List (P × Except E C)))
    (ran : List (P × C) × Except E' Unit) : Prop where
  written : ran.1 = (runAfter outputs).1
  succeeded : ran.2 = .ok () ↔ (runAfter outputs).2 = .ok ()

omit [DecidableEq P] in
theorem Reports.failed (h : Reports outputs ran) {e : E} (he : (runAfter outputs).2 = .error e) :
    ∃ e', ran.2 = .error e' := by
  cases hran : ran.2 with
  | error e' => exact ⟨e', rfl⟩
  | ok u =>
    rw [h.succeeded.mp hran] at he
    cases he

omit [DecidableEq P] in
theorem inOrder (h : Reports outputs ran) : InOrder outputs ran := by
  refine ⟨fun e he => ?_, fun ws hws => ?_⟩
  · subst he
    exact ⟨h.written, h.failed rfl⟩
  · subst hws
    rw [h.written, h.succeeded]
    obtain ⟨done, hws, hrun⟩ | ⟨done, p, e, rest, hws, hrun⟩ := run_eq ws
    · left
      rw [runAfter, hrun]
      exact ⟨hws, rfl⟩
    · right
      refine ⟨p, e, rest, ?_, h.failed (e := e) ?_⟩
      · rw [runAfter, hrun]
        exact hws
      · rw [runAfter, hrun]

theorem consistent_map (files : P → Option C) {done : List (P × C)} :
    Consistent (E := E) (done.map fun w => (w.1, .ok w.2)) ↔
      ∀ w ∈ done, apply files done w.1 = some w.2 := by
  rw [apply_all_iff]
  unfold Consistent
  rw [List.forall_mem_map]
  refine forall₂_congr fun w _ => ?_
  rw [List.forall_mem_map]
  simp only [Except.ok.injEq]

/-- A program that writes everything. -/
theorem atomic_iff_consistent (h : Reports (.ok ws) ran) (hmade : AllMade ws) :
    Atomic files (.ok ws) ran ↔ Consistent ws := by
  obtain ⟨done, hws, hrun⟩ | ⟨_, p, e, _, hws, _⟩ := run_eq ws
  · have hwritten : ran.1 = done := by rw [h.written, runAfter, hrun]
    have hok : ran.2 = .ok () := h.succeeded.mpr (by rw [runAfter, hrun])
    rw [hws, consistent_map files]
    constructor
    · intro hatomic w hw
      obtain ⟨ws', hws', hheld⟩ := hatomic.succeeded hok
      cases hws'
      obtain ⟨c, hc, hheld⟩ := hheld _ (List.mem_map_of_mem hw)
      cases hc
      rw [hwritten] at hheld
      exact hheld
    · intro hheld
      refine ⟨fun e he => ?_, fun _ => ⟨_, rfl, fun w hw => ?_⟩⟩
      · rw [hok] at he
        cases he
      · obtain ⟨w', hw', rfl⟩ := List.mem_map.mp hw
        rw [hwritten]
        exact ⟨w'.2, rfl, hheld w' hw'⟩
  · obtain ⟨c, hc⟩ := hmade (p, .error e) (by simp [hws])
    cases hc

theorem atomic_of_unwritten (h : ran.1 = []) {e : E'} (he : ran.2 = .error e) :
    Atomic files outputs ran := by
  refine ⟨fun _ _ => h, fun hok => ?_⟩
  rw [he] at hok
  cases hok

/-- A program is atomic exactly if, once its first content can be made, all others can, and no path
is written with two contents. -/
theorem atomic_iff (h : Reports outputs ran) : Atomic files outputs ran ↔
    ∀ w ws, outputs = .ok (w :: ws) → (∃ c, w.2 = .ok c) → AllMade ws ∧ Consistent (w :: ws) := by
  match outputs with
  | .error e =>
    obtain ⟨e', he'⟩ := h.failed rfl
    exact iff_of_true (atomic_of_unwritten h.written he') nofun
  | .ok [] =>
    exact iff_of_true ⟨fun _ _ => h.written, fun _ => ⟨[], rfl, nofun⟩⟩ nofun
  | .ok ((p, .error e) :: ws) =>
    obtain ⟨e', he'⟩ := h.failed (e := e) rfl
    refine iff_of_true (atomic_of_unwritten h.written he') ?_
    intro w ws' heq hmade
    cases heq
    obtain ⟨c, hc⟩ := hmade
    cases hc
  | .ok ((p, .ok c) :: ws) =>
    by_cases hmade : AllMade ws
    · have hall : AllMade ((p, .ok c) :: ws) := allMade_cons.mpr ⟨⟨c, rfl⟩, hmade⟩
      rw [atomic_iff_consistent h hall]
      constructor
      · intro hconsistent w ws' heq _
        cases heq
        exact ⟨hmade, hconsistent⟩
      · intro hconsistent
        exact (hconsistent _ ws rfl ⟨c, rfl⟩).2
    · refine iff_of_false (fun hatomic => ?_) fun h => hmade (h _ ws rfl ⟨c, rfl⟩).1
      -- The first write is made, and a later content fails.
      cases houtcome : ran.2 with
      | ok u =>
        have hall : AllMade ((p, .ok c) :: ws) := run_ok_iff.mp (h.succeeded.mp houtcome)
        exact hmade (allMade_cons.mp hall).2
      | error e =>
        have hnone := hatomic.failed e houtcome
        rw [h.written] at hnone
        exact List.cons_ne_nil _ _ hnone

/-! ## What a program yields -/

variable {A F : Type} {files : Except E F} {writtenTo : F → List (P × C)}

/-- The program ends as the computation of some files does, and has then written them. -/
structure Yields (ran : List (P × C) × Except E Unit) (files : Except E F)
    (writtenTo : F → List (P × C)) : Prop where
  outcome : ran.2 = files.map fun _ => ()
  written : ∀ f, files = .ok f → ran.1 = writtenTo f

omit [DecidableEq P] in
theorem yields_bind {prepared : Except E A} {ws : A → List (P × Except E C)} {files : A → Except E F}
    (h : ∀ a, Yields (run (ws a)) (files a) writtenTo) :
    Yields (runAfter (prepared >>= fun a => pure (ws a))) (prepared >>= files) writtenTo := by
  cases prepared with
  | error e => exact ⟨rfl, nofun⟩
  | ok a => exact h a

end Foundations.Writes
