import MidnightJs.Foundations.Utf8

/-! # Paths as text

The replacement of every occurrence of a string, and the file that a path names: its bytes between
slashes, where `.` and `..` are followed and nothing is a link. -/

namespace Foundations
open Js
set_option autoImplicit false

/-! ## Replacing every occurrence -/

/-- What is left of an occurrence is skipped. -/
def replaceFrom (search replacement : JsString) (skip : ℕ) (text : JsString) : JsString :=
  match skip, text with
  | _, [] => []
  | skip + 1, _ :: rest => replaceFrom search replacement skip rest
  | 0, u :: rest =>
    if search.isPrefixOf (u :: rest) then
      replacement ++ replaceFrom search replacement (search.length - 1) rest
    else u :: replaceFrom search replacement 0 rest

/-- `replaceAll`, of a string that is not empty. -/
def replaceAll (search replacement text : JsString) : JsString :=
  replaceFrom search replacement 0 text

section
variable {search replacement : JsString} {b : UInt16}

/-- An occurrence does not reach a unit that only its head may be. -/
theorem occurrence_iff (hb : b ∉ search.tail) (u : UInt16) (text rest : JsString) :
    search <+: u :: (text ++ b :: rest) ↔ search <+: u :: text := by
  constructor
  · rintro ⟨after, hafter⟩
    rw [← List.cons_append] at hafter
    rcases List.append_eq_append_iff.mp hafter with ⟨middle, htext, -⟩ | ⟨middle, hsearch, hmiddle⟩
    · exact ⟨middle, htext.symm⟩
    · cases middle with
      | nil => exact ⟨[], by rw [List.append_nil, hsearch, List.append_nil]⟩
      | cons c middle =>
        obtain ⟨rfl, -⟩ := List.cons.inj hmiddle
        refine absurd ?_ hb
        rw [hsearch, List.cons_append, List.tail_cons]
        exact List.mem_append_right _ (List.mem_cons_self ..)
  · intro h
    exact List.prefix_append_of_prefix h

theorem replaceFrom_append (hsearch : search ≠ []) (hb : b ∉ search.tail) {skip : ℕ}
    {text : JsString} (hskip : skip ≤ text.length) (rest : JsString) :
    replaceFrom search replacement skip (text ++ b :: rest) =
      replaceFrom search replacement skip text ++ replaceFrom search replacement 0 (b :: rest) := by
  induction text generalizing skip with
  | nil =>
    obtain rfl : skip = 0 := Nat.le_zero.mp hskip
    rfl
  | cons u text ih =>
    rw [List.cons_append]
    cases skip with
    | succ skip =>
      rw [replaceFrom, replaceFrom, ih (Nat.le_of_succ_le_succ hskip)]
    | zero =>
      have hpositive := List.length_pos_iff.mpr hsearch
      rw [replaceFrom, replaceFrom]
      by_cases hoccurs : search <+: u :: text
      · have hlength := hoccurs.length_le
        rw [List.length_cons] at hlength
        rw [if_pos, if_pos, ih (by omega), List.append_assoc]
        · exact List.isPrefixOf_iff_prefix.mpr hoccurs
        · exact List.isPrefixOf_iff_prefix.mpr ((occurrence_iff hb u text rest).mpr hoccurs)
      · rw [if_neg, if_neg, ih (Nat.zero_le _), List.cons_append]
        · rwa [List.isPrefixOf_iff_prefix]
        · rwa [List.isPrefixOf_iff_prefix, occurrence_iff hb u text rest]

/-- A text is replaced in two parts where no occurrence is cut. -/
theorem replaceAll_append (hsearch : search ≠ []) (hb : b ∉ search.tail) (text rest : JsString) :
    replaceAll search replacement (text ++ b :: rest) =
      replaceAll search replacement text ++ replaceAll search replacement (b :: rest) :=
  replaceFrom_append hsearch hb (Nat.zero_le _) rest

/-- A text without an occurrence stays as it is. -/
theorem replaceAll_eq_self {text : JsString} (h : ¬ search <:+: text) :
    replaceAll search replacement text = text := by
  rw [replaceAll]
  induction text with
  | nil => rfl
  | cons u text ih =>
    rw [List.infix_cons_iff, not_or] at h
    rw [replaceFrom, if_neg, ih h.2]
    rw [List.isPrefixOf_iff_prefix]
    exact h.1

end

/-! ## The file of a path -/

/-- The names on the way from the root. -/
abbrev Location : Type := List (List UInt8)

def enter (location : Location) (name : List UInt8) : Location :=
  if name = [] ∨ name = [0x2E] then location
  else if name = [0x2E, 0x2E] then location.dropLast
  else location ++ [name]

def walk (location : Location) (name : List UInt8) (bytes : List UInt8) : Location :=
  match bytes with
  | [] => enter location name
  | b :: rest =>
    if b = 0x2F then walk (enter location name) [] rest else walk location (name ++ [b]) rest

/-- The file that an absolute path names. -/
def locate (path : JsString) : Location := walk [] [] (Utf8.encodeString path)

/-! ## Files in one directory -/

theorem walk_append (location : Location) (name bytes : List UInt8) :
    ∃ directory start, ∀ last, 0x2F ∉ last →
      walk location name (bytes ++ last) = enter directory (start ++ last) := by
  induction bytes generalizing location name with
  | nil =>
    refine ⟨location, name, ?_⟩
    intro last hlast
    induction last generalizing name with
    | nil => rw [List.append_nil, List.append_nil, walk]
    | cons b last ih =>
      rw [List.mem_cons, not_or] at hlast
      have hrest := ih (name ++ [b]) hlast.2
      rw [List.nil_append] at hrest ⊢
      rw [walk, if_neg fun h => hlast.1 h.symm, hrest, List.append_assoc, List.singleton_append]
  | cons b bytes ih =>
    by_cases hb : b = 0x2F
    · obtain ⟨directory, start, h⟩ := ih (enter location name) []
      refine ⟨directory, start, ?_⟩
      intro last hlast
      rw [List.cons_append, walk, if_pos hb, h last hlast]
    · obtain ⟨directory, start, h⟩ := ih location (name ++ [b])
      refine ⟨directory, start, ?_⟩
      intro last hlast
      rw [List.cons_append, walk, if_neg hb, h last hlast]

theorem enter_long {name : List UInt8} (h : 2 < name.length) (location : Location) :
    enter location name = location ++ [name] := by
  have hne : ∀ short : List UInt8, short.length ≤ 2 → name ≠ short := by
    intro short hshort heq
    rw [heq] at h
    omega
  rw [enter, if_neg, if_neg (hne _ (le_refl _))]
  rw [not_or]
  exact ⟨hne _ (Nat.zero_le _), hne _ (by decide)⟩

/-- The file of a name that has grown is another one. -/
theorem walk_ne {last more : List UInt8} (hlast : 0x2F ∉ last) (hmore : 0x2F ∉ more)
    (hlong : 2 < last.length) (hne : more ≠ []) (bytes : List UInt8) :
    walk [] [] (bytes ++ last) ≠ walk [] [] (bytes ++ (last ++ more)) := by
  obtain ⟨directory, start, h⟩ := walk_append [] [] bytes
  have hboth : 0x2F ∉ last ++ more := by
    rw [List.mem_append, not_or]
    exact ⟨hlast, hmore⟩
  rw [h _ hlast, h _ hboth, enter_long, enter_long]
  · intro heq
    have hname := List.singleton_inj.mp (List.append_cancel_left heq)
    rw [← List.append_assoc] at hname
    exact hne (List.self_eq_append_right.mp hname)
  · rw [List.length_append, List.length_append]
    omega
  · rw [List.length_append]
    omega

end Foundations
