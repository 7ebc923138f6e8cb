import Mathlib.Data.List.Nodup
import Mathlib.Data.List.Perm.Basic

/-! # Matching inputs with outputs by a key

Inputs are taken in order. An input whose key is that of an output takes that output away; any other
is left over. With distinct output keys nothing gets lost. `spend` is the same with a coarser view of
what matches: an input takes any output of its kind. The two agree as long as, whenever an output of
the kind of an input is left, so is the one with its key. -/

namespace Foundations
set_option autoImplicit false

variable {I O K C : Type} [DecidableEq K] [DecidableEq C]

/-- The matched pairs, and the inputs and the outputs that are left over. -/
structure Matching (I O : Type) where
  pairs : List (I × O)
  inputs : List I
  outputs : List O

namespace Matching

def ofLists (inKey : I → K) (outKey : O → K) (outs : List O) : List I → Matching I O
  | [] => ⟨[], [], outs⟩
  | i :: ins =>
    match outs.find? fun o => outKey o = inKey i with
    | some o =>
      let rest := ofLists inKey outKey (outs.filter fun o => outKey o ≠ inKey i) ins
      { rest with pairs := (i, o) :: rest.pairs }
    | none =>
      let rest := ofLists inKey outKey outs ins
      { rest with inputs := i :: rest.inputs }

/-- The inputs that take an output of their kind, and those that find none. -/
def spend (kind : I → C) (unspent : List C) : List I → List I × List I
  | [] => ([], [])
  | i :: ins =>
    if kind i ∈ unspent then
      (i :: (spend kind (unspent.erase (kind i)) ins).1, (spend kind (unspent.erase (kind i)) ins).2)
    else ((spend kind unspent ins).1, i :: (spend kind unspent ins).2)

/-- Whenever an output of the kind of an input is left, the one with its key is left. -/
def KeysFollowKinds (inKey : I → K) (outKey : O → K) (inKind : I → C) (outKind : O → C)
    (outs : List O) : List I → Prop
  | [] => True
  | i :: ins => (inKind i ∈ outs.map outKind → inKey i ∈ outs.map outKey) ∧
    KeysFollowKinds inKey outKey inKind outKind (outs.filter fun o => outKey o ≠ inKey i) ins

variable {inKey : I → K} {outKey : O → K} {outs : List O} {ins : List I} {i : I} {o : O}

/-! ## One step -/

theorem find_eq_none : (outs.find? fun o => outKey o = inKey i) = none ↔
    inKey i ∉ outs.map outKey := by
  simp [List.find?_eq_none]

theorem find_eq_some (h : (outs.find? fun o => outKey o = inKey i) = some o) :
    o ∈ outs ∧ outKey o = inKey i :=
  ⟨List.mem_of_find?_eq_some h, of_decide_eq_true (List.find?_some h :)⟩

theorem ofLists_of_some (h : (outs.find? fun o => outKey o = inKey i) = some o) :
    ofLists inKey outKey outs (i :: ins) =
      let rest := ofLists inKey outKey (outs.filter fun o => outKey o ≠ inKey i) ins
      { rest with pairs := (i, o) :: rest.pairs } := by
  rw [ofLists, h]

theorem ofLists_of_none (h : (outs.find? fun o => outKey o = inKey i) = none) :
    ofLists inKey outKey outs (i :: ins) =
      let rest := ofLists inKey outKey outs ins
      { rest with inputs := i :: rest.inputs } := by
  rw [ofLists, h]

/-- An output and the ones with other keys. -/
theorem perm_cons_filter (hnodup : (outs.map outKey).Nodup) (ho : o ∈ outs) :
    outs.Perm (o :: outs.filter fun o' => outKey o' ≠ outKey o) := by
  induction outs with
  | nil => cases ho
  | cons o₁ outs ih =>
    obtain ⟨hnot, hnodup⟩ := List.nodup_cons.mp hnodup
    rcases List.mem_cons.mp ho with rfl | ho
    · rw [List.filter_cons_of_neg (by simp), List.filter_eq_self.mpr]
      intro o' ho'
      refine decide_eq_true fun heq => hnot ?_
      exact heq ▸ List.mem_map_of_mem ho'
    · have hne : outKey o₁ ≠ outKey o := fun heq => hnot (heq ▸ List.mem_map_of_mem ho)
      rw [List.filter_cons_of_pos (by simpa using hne)]
      exact ((ih hnodup ho).cons o₁).trans (.swap ..)

theorem filter_eq_self (h : inKey i ∉ outs.map outKey) :
    (outs.filter fun o => outKey o ≠ inKey i) = outs :=
  List.filter_eq_self.mpr fun _ ho => decide_eq_true fun heq => h (heq ▸ List.mem_map_of_mem ho)

omit [DecidableEq K] in
theorem nodup_filter (hnodup : (outs.map outKey).Nodup) (p : O → Bool) :
    ((outs.filter p).map outKey).Nodup :=
  hnodup.sublist (List.filter_sublist.map outKey)

/-! ## What a matching keeps -/

theorem inputs_perm (outs : List O) (ins : List I) :
    ((ofLists inKey outKey outs ins).pairs.map Prod.fst ++
      (ofLists inKey outKey outs ins).inputs).Perm ins := by
  induction ins generalizing outs with
  | nil => simp [ofLists]
  | cons i ins ih =>
    cases h : outs.find? fun o => outKey o = inKey i with
    | some o =>
      rw [ofLists_of_some h]
      exact (ih _).cons i
    | none =>
      rw [ofLists_of_none h]
      exact List.perm_middle.trans ((ih _).cons i)

theorem outputs_perm (hnodup : (outs.map outKey).Nodup) (ins : List I) :
    ((ofLists inKey outKey outs ins).pairs.map Prod.snd ++
      (ofLists inKey outKey outs ins).outputs).Perm outs := by
  induction ins generalizing outs with
  | nil => simp [ofLists]
  | cons i ins ih =>
    cases h : outs.find? fun o => outKey o = inKey i with
    | some o =>
      obtain ⟨ho, hkey⟩ := find_eq_some h
      rw [ofLists_of_some h]
      refine ((ih (nodup_filter hnodup _)).cons o).trans ?_
      rw [← hkey]
      exact (perm_cons_filter hnodup ho).symm
    | none =>
      rw [ofLists_of_none h]
      exact ih hnodup

theorem key_of_mem_pairs {p : I × O} (h : p ∈ (ofLists inKey outKey outs ins).pairs) :
    outKey p.2 = inKey p.1 := by
  induction ins generalizing outs with
  | nil => cases h
  | cons i ins ih =>
    cases hfind : outs.find? fun o => outKey o = inKey i with
    | some o =>
      rw [ofLists_of_some hfind] at h
      rcases List.mem_cons.mp h with rfl | h
      · exact (find_eq_some hfind).2
      · exact ih h
    | none =>
      rw [ofLists_of_none hfind] at h
      exact ih h

theorem pairs_keys : (ofLists inKey outKey outs ins).pairs.map (fun p => inKey p.1) =
    (ofLists inKey outKey outs ins).pairs.map (fun p => outKey p.2) :=
  List.map_congr_left fun _ hp => (key_of_mem_pairs hp).symm

/-- An input that is left over has no output with its key, or an earlier input has taken it. -/
theorem mem_pairs_of_key {k : K} (hout : k ∈ outs.map outKey) (hin : k ∈ ins.map inKey) :
    k ∈ (ofLists inKey outKey outs ins).pairs.map (fun p => inKey p.1) := by
  induction ins generalizing outs with
  | nil => cases hin
  | cons i ins ih =>
    rw [List.map_cons, List.mem_cons] at hin
    cases hfind : outs.find? fun o => outKey o = inKey i with
    | some o =>
      rw [ofLists_of_some hfind, List.map_cons, List.mem_cons]
      by_cases hk : k = inKey i
      · exact .inl hk
      · refine .inr (ih ?_ (hin.resolve_left hk))
        obtain ⟨o', ho', rfl⟩ := List.mem_map.mp hout
        exact List.mem_map_of_mem (List.mem_filter.mpr ⟨ho', by simpa using hk⟩)
    | none =>
      rw [ofLists_of_none hfind]
      refine ih hout (hin.resolve_left fun hk => find_eq_none.mp hfind (hk ▸ hout))

theorem count_inputs (inKey : I → K) (outKey : O → K) (outs : List O) (ins : List I) (k : K) :
    (ins.map inKey).count k = ((ofLists inKey outKey outs ins).pairs.map fun p => outKey p.2).count k +
      ((ofLists inKey outKey outs ins).inputs.map inKey).count k := by
  have h : (ins.map inKey).count k = (((ofLists inKey outKey outs ins).pairs.map Prod.fst ++
      (ofLists inKey outKey outs ins).inputs).map inKey).count k :=
    (((inputs_perm outs ins).map inKey).count_eq k).symm
  rw [h, List.map_append, List.count_append, List.map_map, ← pairs_keys]
  rfl

theorem count_outputs (inKey : I → K) (hnodup : (outs.map outKey).Nodup) (ins : List I) (k : K) :
    (outs.map outKey).count k = ((ofLists inKey outKey outs ins).pairs.map fun p => outKey p.2).count k +
      ((ofLists inKey outKey outs ins).outputs.map outKey).count k := by
  have h : (outs.map outKey).count k = (((ofLists inKey outKey outs ins).pairs.map Prod.snd ++
      (ofLists inKey outKey outs ins).outputs).map outKey).count k :=
    (((outputs_perm hnodup ins).map outKey).count_eq k).symm
  rw [h, List.map_append, List.count_append, List.map_map]
  rfl

/-- The inputs that are left over have distinct keys if and only if no key has two inputs more than
it has outputs. -/
theorem nodup_inputs_iff (hnodup : (outs.map outKey).Nodup) (ins : List I) :
    ((ofLists inKey outKey outs ins).inputs.map inKey).Nodup ↔
      ∀ k, (ins.map inKey).count k ≤ (outs.map outKey).count k + 1 := by
  rw [List.nodup_iff_count_le_one]
  refine forall_congr' fun k => ?_
  have hins := count_inputs inKey outKey outs ins k
  have houts := count_outputs inKey hnodup ins k
  constructor
  · omega
  · intro h
    by_cases hout : k ∈ outs.map outKey
    · by_cases hin : k ∈ ins.map inKey
      · -- One of the inputs has taken the only output.
        have hpair := mem_pairs_of_key hout hin
        rw [pairs_keys, ← List.count_pos_iff] at hpair
        have honce := List.nodup_iff_count_le_one.mp hnodup k
        omega
      · rw [← List.count_eq_zero] at hin
        omega
    · rw [← List.count_eq_zero] at hout
      omega

/-! ## Kinds -/

theorem spend_perm {kind : I → C} {unspent unspent' : List C} (h : unspent.Perm unspent')
    (ins : List I) : spend kind unspent ins = spend kind unspent' ins := by
  induction ins generalizing unspent unspent' with
  | nil => rfl
  | cons i ins ih => simp only [spend, h.mem_iff, ih h, ih (h.erase (kind i))]

variable {inKind : I → C} {outKind : O → C}

theorem erase_perm_filter (hnodup : (outs.map outKey).Nodup) (ho : o ∈ outs)
    (hkey : outKey o = inKey i) (hkind : outKind o = inKind i) :
    ((outs.map outKind).erase (inKind i)).Perm
      ((outs.filter fun o => outKey o ≠ inKey i).map outKind) := by
  have h := ((perm_cons_filter hnodup ho).map outKind).erase (inKind i)
  rwa [List.map_cons, hkind, List.erase_cons_head, hkey] at h

/-- The matching by keys takes the inputs that `spend` takes if and only if the keys follow the
kinds. -/
theorem spend_fst_eq_iff (hnodup : (outs.map outKey).Nodup)
    (hkind : ∀ i o, outKey o = inKey i → outKind o = inKind i) (ins : List I) :
    (ofLists inKey outKey outs ins).pairs.map Prod.fst = (spend inKind (outs.map outKind) ins).1 ↔
      KeysFollowKinds inKey outKey inKind outKind outs ins := by
  induction ins generalizing outs with
  | nil => simp [ofLists, spend, KeysFollowKinds]
  | cons i ins ih =>
    rw [KeysFollowKinds]
    cases hfind : outs.find? fun o => outKey o = inKey i with
    | some o =>
      obtain ⟨ho, hkey⟩ := find_eq_some hfind
      have hmem : inKind i ∈ outs.map outKind := hkind i o hkey ▸ List.mem_map_of_mem ho
      have hkeys : inKey i ∈ outs.map outKey := hkey ▸ List.mem_map_of_mem ho
      rw [ofLists_of_some hfind, spend, if_pos hmem,
        spend_perm (erase_perm_filter hnodup ho hkey (hkind i o hkey))]
      simp only [List.map_cons, List.cons_inj_right, ih (nodup_filter hnodup _), hkeys, implies_true,
        true_and]
    | none =>
      have hnot : inKey i ∉ outs.map outKey := find_eq_none.mp hfind
      rw [ofLists_of_none hfind, filter_eq_self hnot, spend]
      by_cases hmem : inKind i ∈ outs.map outKind
      · rw [if_pos hmem]
        constructor
        · intro heq
          -- The input would be matched later, by an output with its key.
          have hi : i ∈ (ofLists inKey outKey outs ins).pairs.map Prod.fst := by
            rw [show (ofLists inKey outKey outs ins).pairs.map Prod.fst = _ from heq]
            exact List.mem_cons_self ..
          obtain ⟨p, hp, rfl⟩ := List.mem_map.mp hi
          refine absurd ?_ hnot
          rw [← key_of_mem_pairs hp]
          exact List.mem_map_of_mem ((outputs_perm hnodup ins).subset
            (List.mem_append_left _ (List.mem_map_of_mem hp)))
        · rintro ⟨hfollows, _⟩
          exact absurd (hfollows hmem) hnot
      · rw [if_neg hmem]
        simp only [hmem, false_implies, true_and]
        exact ih hnodup

theorem spend_snd_eq (hnodup : (outs.map outKey).Nodup)
    (hkind : ∀ i o, outKey o = inKey i → outKind o = inKind i)
    (h : KeysFollowKinds inKey outKey inKind outKind outs ins) :
    (ofLists inKey outKey outs ins).inputs = (spend inKind (outs.map outKind) ins).2 := by
  induction ins generalizing outs with
  | nil => rfl
  | cons i ins ih =>
    obtain ⟨hfollows, hrest⟩ := h
    cases hfind : outs.find? fun o => outKey o = inKey i with
    | some o =>
      obtain ⟨ho, hkey⟩ := find_eq_some hfind
      have hmem : inKind i ∈ outs.map outKind := hkind i o hkey ▸ List.mem_map_of_mem ho
      rw [ofLists_of_some hfind, spend, if_pos hmem,
        spend_perm (erase_perm_filter hnodup ho hkey (hkind i o hkey))]
      exact ih (nodup_filter hnodup _) hrest
    | none =>
      have hnot : inKey i ∉ outs.map outKey := find_eq_none.mp hfind
      rw [filter_eq_self hnot] at hrest
      rw [ofLists_of_none hfind, spend, if_neg fun hmem => hnot (hfollows hmem)]
      exact congrArg (i :: ·) (ih hnodup hrest)

omit [DecidableEq C] in
theorem keysFollowKinds_map {O' : Type} (f : O' → O) (outs : List O') (ins : List I) :
    KeysFollowKinds inKey outKey inKind outKind (outs.map f) ins ↔
      KeysFollowKinds inKey (outKey ∘ f) inKind (outKind ∘ f) outs ins := by
  induction ins generalizing outs with
  | nil => exact Iff.rfl
  | cons i ins ih =>
    rw [KeysFollowKinds, KeysFollowKinds, List.map_map, List.map_map, List.filter_map, ih]
    rfl

end Matching

end Foundations
