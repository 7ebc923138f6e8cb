import Mathlib.Data.List.Nodup

/-! # Maps that remember insertion order

The `Map` of the language: its entries in the order in which their keys were first set. Setting a
key that is present replaces the value where it stands, setting a new one appends. -/

namespace Foundations.OrderedMap
set_option autoImplicit false

variable {K V : Type} [DecidableEq K]

abbrev keys (m : List (K × V)) : List K := m.map Prod.fst

def get (m : List (K × V)) (k : K) : Option V :=
  match m with
  | [] => none
  | e :: rest => if e.1 = k then some e.2 else get rest k

def set (m : List (K × V)) (k : K) (v : V) : List (K × V) :=
  match m with
  | [] => [(k, v)]
  | e :: rest => if e.1 = k then (k, v) :: rest else e :: set rest k v

def delete (m : List (K × V)) (k : K) : List (K × V) := m.filter fun e => e.1 ≠ k

/-- `new Map(entries)`. -/
def ofEntries (entries : List (K × V)) : List (K × V) :=
  entries.foldl (fun m e => set m e.1 e.2) []

def mapValues {W : Type} (f : V → W) (m : List (K × V)) : List (K × W) := m.map fun e => (e.1, f e.2)

/-! ## Lookups -/

omit [DecidableEq K] in
theorem keys_mapValues {W : Type} (f : V → W) (m : List (K × V)) : keys (mapValues f m) = keys m := by
  rw [keys, mapValues, List.map_map]
  rfl

theorem get_mapValues {W : Type} (f : V → W) (m : List (K × V)) (k : K) :
    get (mapValues f m) k = (get m k).map f := by
  induction m with
  | nil => rfl
  | cons e rest ih =>
    rw [mapValues, List.map_cons, get, get]
    split
    · rfl
    · exact ih

theorem get_eq_none {m : List (K × V)} {k : K} : get m k = none ↔ k ∉ keys m := by
  induction m with
  | nil => simp [get]
  | cons e rest ih =>
    by_cases h : e.1 = k
    · simp [get, h]
    · have h' : k ≠ e.1 := fun hk => h hk.symm
      simpa [get, h, h'] using ih

theorem get_of_mem {m : List (K × V)} (h : (keys m).Nodup) {e : K × V} (he : e ∈ m) :
    get m e.1 = some e.2 := by
  induction m with
  | nil => simp at he
  | cons e' rest ih =>
    simp only [keys, List.map_cons, List.nodup_cons] at h
    rcases List.mem_cons.mp he with hhead | htail
    · rw [get, hhead, if_pos rfl]
    · have hne : e'.1 ≠ e.1 := by
        intro heq
        exact h.1 (heq ▸ List.mem_map_of_mem htail)
      rw [get, if_neg hne]
      exact ih h.2 htail

theorem mem_of_get {m : List (K × V)} {k : K} {v : V} (h : get m k = some v) : (k, v) ∈ m := by
  induction m with
  | nil => simp [get] at h
  | cons e rest ih =>
    rw [get] at h
    split at h
    · rename_i hk
      simp only [Option.some.injEq] at h
      rw [← hk, ← h]
      exact List.mem_cons_self ..
    · exact List.mem_cons_of_mem _ (ih h)

/-- Maps with the same keys in the same order are told apart by a lookup. -/
theorem ext_of_get {m m' : List (K × V)} (hnodup : (keys m).Nodup) (hkeys : keys m = keys m')
    (hget : ∀ k ∈ keys m, get m k = get m' k) : m = m' := by
  induction m generalizing m' with
  | nil => exact (List.map_eq_nil_iff.mp hkeys.symm).symm
  | cons e rest ih =>
    cases m' with
    | nil => cases hkeys
    | cons e' rest' =>
      simp only [keys, List.map_cons, List.cons.injEq] at hkeys
      simp only [keys, List.map_cons, List.nodup_cons] at hnodup
      have hhead : e.2 = e'.2 := by
        have h := hget e.1 (by simp)
        rw [get, get, if_pos rfl, if_pos hkeys.1.symm] at h
        exact Option.some.inj h
      have hrest : ∀ k ∈ keys rest, get rest k = get rest' k := by
        intro k hk
        have hne : e.1 ≠ k := by
          intro heq
          exact hnodup.1 (heq ▸ hk)
        have h := hget k (List.mem_cons_of_mem _ hk)
        rwa [get, get, if_neg hne, if_neg (hkeys.1 ▸ hne)] at h
      rw [ih hnodup.2 hkeys.2 hrest, Prod.ext hkeys.1 hhead]

/-! ## Setting and deleting -/

theorem get_set (m : List (K × V)) (k k' : K) (v : V) :
    get (set m k v) k' = if k = k' then some v else get m k' := by
  induction m with
  | nil => simp [set, get]
  | cons e rest ih =>
    by_cases he : e.1 = k
    · by_cases hk : k = k' <;> simp [set, get, he, hk]
    · by_cases hk : k = k'
      · subst hk
        simp [set, get, he, ih]
      · simp [set, get, he, hk, ih]

theorem get_delete (m : List (K × V)) (k k' : K) :
    get (delete m k) k' = if k' = k then none else get m k' := by
  induction m with
  | nil => simp [delete, get]
  | cons e rest ih =>
    unfold delete at ih ⊢
    by_cases he : e.1 = k
    · rw [List.filter_cons_of_neg (by simpa using he), ih, get, he]
      by_cases hk : k' = k
      · rw [if_pos hk, if_pos hk]
      · rw [if_neg hk, if_neg hk, if_neg (Ne.symm hk)]
    · rw [List.filter_cons_of_pos (by simpa using he), get, ih, get]
      by_cases hk : e.1 = k'
      · rw [if_pos hk, if_pos hk, if_neg (hk ▸ he)]
      · rw [if_neg hk, if_neg hk]

theorem set_of_notMem {m : List (K × V)} {k : K} (v : V) (h : k ∉ keys m) :
    set m k v = m ++ [(k, v)] := by
  induction m with
  | nil => rfl
  | cons e rest ih =>
    simp only [keys, List.map_cons, List.mem_cons, not_or] at h
    rw [set, if_neg (fun he => h.1 he.symm), ih h.2]
    rfl

theorem keys_set_of_mem {m : List (K × V)} {k : K} (v : V) (h : k ∈ keys m) :
    keys (set m k v) = keys m := by
  induction m with
  | nil => simp at h
  | cons e rest ih =>
    by_cases he : e.1 = k
    · simp [set, he]
    · have hk : k ∈ keys rest := by
        rcases List.mem_cons.mp h with hk | hk
        · exact absurd hk.symm he
        · exact hk
      simp only [set, he, if_false, keys, List.map_cons]
      rw [show List.map Prod.fst (set rest k v) = List.map Prod.fst rest from ih hk]

theorem nodup_keys_set {m : List (K × V)} (k : K) (v : V) (h : (keys m).Nodup) :
    (keys (set m k v)).Nodup := by
  by_cases hk : k ∈ keys m
  · rwa [keys_set_of_mem v hk]
  · rw [set_of_notMem v hk]
    simp only [keys, List.map_append, List.map_cons, List.map_nil]
    exact List.Nodup.append h (by simp) (by simpa using hk)

/-! ## Building from entries -/

theorem foldl_set_of_nodup (entries m : List (K × V)) (h : (keys (m ++ entries)).Nodup) :
    entries.foldl (fun m e => set m e.1 e.2) m = m ++ entries := by
  induction entries generalizing m with
  | nil => simp
  | cons e rest ih =>
    have hk : e.1 ∉ keys m := by
      intro hm
      simp only [keys, List.map_append, List.map_cons] at h
      exact (List.disjoint_of_nodup_append h) hm (List.mem_cons_self ..)
    rw [List.foldl_cons, set_of_notMem _ hk, ih _ (by simpa [keys] using h)]
    simp

/-- Entries with distinct keys are the map they build. -/
theorem ofEntries_of_nodup {entries : List (K × V)} (h : (keys entries).Nodup) :
    ofEntries entries = entries := by
  simpa [ofEntries] using foldl_set_of_nodup entries [] (by simpa using h)

theorem mem_set {m : List (K × V)} {k : K} {v : V} {e : K × V} (h : e ∈ set m k v) :
    e = (k, v) ∨ e ∈ m := by
  induction m with
  | nil => exact .inl (List.mem_singleton.mp h)
  | cons e' rest ih =>
    by_cases he : e'.1 = k
    · rw [set, if_pos he] at h
      exact (List.mem_cons.mp h).imp_right (List.mem_cons_of_mem _)
    · rw [set, if_neg he] at h
      rcases List.mem_cons.mp h with rfl | h
      · exact .inr (List.mem_cons_self ..)
      · exact (ih h).imp_right (List.mem_cons_of_mem _)

theorem mem_foldl_set {entries m : List (K × V)} {e : K × V}
    (h : e ∈ entries.foldl (fun m e => set m e.1 e.2) m) : e ∈ m ∨ e ∈ entries := by
  induction entries generalizing m with
  | nil => exact .inl h
  | cons e' rest ih =>
    rcases ih h with hset | hrest
    · rcases mem_set hset with rfl | hm
      · exact .inr (List.mem_cons_self ..)
      · exact .inl hm
    · exact .inr (List.mem_cons_of_mem _ hrest)

theorem mem_ofEntries {entries : List (K × V)} {e : K × V} (h : e ∈ ofEntries entries) :
    e ∈ entries :=
  (mem_foldl_set h).resolve_left List.not_mem_nil

theorem nodup_keys_foldl_set (entries m : List (K × V)) (h : (keys m).Nodup) :
    (keys (entries.foldl (fun m e => set m e.1 e.2) m)).Nodup := by
  induction entries generalizing m with
  | nil => exact h
  | cons e rest ih => exact ih _ (nodup_keys_set _ _ h)

theorem nodup_keys_ofEntries (entries : List (K × V)) : (keys (ofEntries entries)).Nodup :=
  nodup_keys_foldl_set entries [] List.nodup_nil

end Foundations.OrderedMap
