import MidnightJs.Foundations.Json
import Mathlib.Tactic.IntervalCases

/-! # Written JSON reads back

`parse_stringify`: the text of a value whose member names are distinct and whose number literals
are numbers of the grammar is read as that value. Hence such a value is determined by its text
(`stringify_injective`). -/

namespace Foundations.Js
set_option autoImplicit false

/-! ## Strings -/

theorem stringBody_unicodeEscape (u : UInt16) (tail : JsString) :
    stringBody .plain (unicodeEscape u ++ tail) =
      (stringBody .plain tail).map fun p => (u :: p.1, p.2) := by
  have hu : u.toNat < 65536 := u.toNat_lt
  have h1 : u.toNat / 4096 < 16 := by omega
  have h2 : u.toNat / 256 % 16 < 16 := by omega
  have h3 : u.toNat / 16 % 16 < 16 := by omega
  have h4 : u.toNat % 16 < 16 := by omega
  have hvalue : (((0 * 16 + u.toNat / 4096) * 16 + u.toNat / 256 % 16) * 16 +
      u.toNat / 16 % 16) * 16 + u.toNat % 16 = u.toNat := by omega
  have hunit : (u.toNat).toUInt16 = u := UInt16.ofNat_toNat
  simp only [unicodeEscape, List.cons_append, List.nil_append, stringBody, digitValue_hexDigit h1,
    digitValue_hexDigit h2, digitValue_hexDigit h3, digitValue_hexDigit h4, h1, h2, h3, h4, hvalue,
    hunit, if_true]
  rfl

theorem stringBody_plain {u : UInt16} (tail : JsString) (hquote : u ≠ 0x22) (hslash : u ≠ 0x5C)
    (hcontrol : ¬ u < 0x20) :
    stringBody .plain (u :: tail) = (stringBody .plain tail).map fun p => (u :: p.1, p.2) := by
  rw [stringBody, if_neg hquote, if_neg hslash, if_neg hcontrol]

theorem shortEscape_some {u e : UInt16} (h : shortEscape u = some e) :
    e ≠ 0x75 ∧ unescape e = some u := by
  unfold shortEscape at h
  split_ifs at h <;> cases h <;> subst_vars <;> decide

theorem shortEscape_none {u : UInt16} (h : shortEscape u = none) : u ≠ 0x22 ∧ u ≠ 0x5C := by
  constructor <;> rintro rfl <;> cases h

theorem stringBody_unitText (paired : Bool) (u : UInt16) (next tail : JsString) :
    stringBody .plain (unitText paired u next ++ tail) =
      (stringBody .plain tail).map fun p => (u :: p.1, p.2) := by
  unfold unitText
  cases hs : shortEscape u with
  | some e =>
    obtain ⟨hne, hback⟩ := shortEscape_some hs
    simp only [List.cons_append, List.nil_append]
    rw [stringBody, if_neg (by decide), if_pos rfl, stringBody, if_neg hne, hback]
  | none =>
    obtain ⟨hquote, hslash⟩ := shortEscape_none hs
    have raw : ¬ u < 0x20 → stringBody .plain ([u] ++ tail) =
        (stringBody .plain tail).map fun p => (u :: p.1, p.2) :=
      fun h => stringBody_plain tail hquote hslash h
    simp only
    split
    · exact stringBody_unicodeEscape u tail
    · rename_i hcontrol
      split
      · split
        · exact raw hcontrol
        · exact stringBody_unicodeEscape u tail
      · split
        · split
          · exact raw hcontrol
          · exact stringBody_unicodeEscape u tail
        · exact raw hcontrol

theorem stringBody_quoteBody (s tail : JsString) (paired : Bool) :
    stringBody .plain (quoteBody paired s ++ 0x22 :: tail) = some (s, tail) := by
  induction s generalizing paired with
  | nil =>
    rw [quoteBody, List.nil_append, stringBody, if_pos rfl]
  | cons u s ih =>
    rw [quoteBody, List.append_assoc, stringBody_unitText, ih]
    rfl

theorem stringBody_quote (s tail : JsString) :
    stringBody .plain (quoteBody false s ++ [0x22] ++ tail) = some (s, tail) := by
  rw [List.append_assoc]
  exact stringBody_quoteBody s tail false

/-! ## Values that have a text of their own -/

mutual
/-- Number literals are numbers of the grammar, and the member names of an object are distinct. -/
def Json.WellFormed (v : Json) : Prop :=
  match v with
  | .number literal => validNumber literal = true ∧ literal.all isNumberUnit = true
  | .array vs => elementsWellFormed vs
  | .object ms => (OrderedMap.keys ms).Nodup ∧ membersWellFormed ms
  | _ => True

def elementsWellFormed (vs : List Json) : Prop :=
  match vs with
  | [] => True
  | v :: vs => v.WellFormed ∧ elementsWellFormed vs

def membersWellFormed (ms : List (JsString × Json)) : Prop :=
  match ms with
  | [] => True
  | m :: ms => m.2.WellFormed ∧ membersWellFormed ms
end

/-- What may follow a value: nothing that could go on with a number. -/
def Stops (rest : JsString) : Prop := ∀ u t, rest = u :: t → isNumberUnit u = false

theorem stops_nil : Stops [] := by
  intro u t h
  cases h

theorem stops_cons {u : UInt16} (t : JsString) (h : isNumberUnit u = false) : Stops (u :: t) := by
  intro u' t' he
  cases he
  exact h

theorem stops_elementsText (vs : List Json) (rest : JsString) : Stops (elementsText vs ++ rest) := by
  cases vs <;> exact stops_cons _ (by decide)

theorem stops_membersText (ms : List (JsString × Json)) (rest : JsString) :
    Stops (membersText ms ++ rest) := by
  rcases ms with _ | ⟨m, ms⟩ <;> exact stops_cons _ (by decide)

theorem skipSpace_cons {u : UInt16} (t : JsString) (h : isJsonSpace u = false) :
    skipSpace (u :: t) = u :: t := by
  simp [skipSpace, h]

/-! ## Numbers -/

theorem numberUnit_plain {u : UInt16} (h : isNumberUnit u = true) : isJsonSpace u = false ∧
    u ≠ 0x22 ∧ u ≠ 0x5B ∧ u ≠ 0x5D ∧ u ≠ 0x7B ∧ u ≠ 0x74 ∧ u ≠ 0x66 ∧ u ≠ 0x6E := by
  have key : ∀ w : UInt16, isNumberUnit w = false → u ≠ w := by
    rintro w hw rfl
    rw [h] at hw
    cases hw
  refine ⟨?_, key _ rfl, key _ rfl, key _ rfl, key _ rfl, key _ rfl, key _ rfl, key _ rfl⟩
  simp [isJsonSpace, key 0x20 rfl, key 0x09 rfl, key 0x0A rfl, key 0x0D rfl]

theorem takeWhile_number {literal rest : JsString} (h : literal.all isNumberUnit = true)
    (hrest : Stops rest) : (literal ++ rest).takeWhile isNumberUnit = literal ∧
      (literal ++ rest).dropWhile isNumberUnit = rest := by
  induction literal with
  | nil =>
    cases rest with
    | nil => exact ⟨rfl, rfl⟩
    | cons u t => simp [hrest u t rfl]
  | cons u literal ih =>
    simp only [List.all_cons, Bool.and_eq_true] at h
    obtain ⟨ih1, ih2⟩ := ih h.2
    simp [h.1, ih1, ih2]

theorem numberToken_literal {literal rest : JsString} (hv : validNumber literal = true)
    (h : literal.all isNumberUnit = true) (hrest : Stops rest) :
    numberToken (literal ++ rest) = some (.number literal, rest) := by
  obtain ⟨htake, hdrop⟩ := takeWhile_number h hrest
  rw [numberToken, htake, hdrop, if_pos hv]

/-! ## The head of a text -/

theorem stringify_head {v : Json} (h : v.WellFormed) :
    ∃ u t, v.stringify = u :: t ∧ isJsonSpace u = false ∧ u ≠ 0x5D := by
  cases v with
  | null => exact ⟨_, _, rfl, rfl, by decide⟩
  | bool b => cases b <;> exact ⟨_, _, rfl, rfl, by decide⟩
  | number literal =>
    cases literal with
    | nil => simp [Json.WellFormed, validNumber] at h
    | cons u t =>
      simp only [Json.WellFormed, List.all_cons, Bool.and_eq_true] at h
      obtain ⟨hs, -, -, hb, -⟩ := numberUnit_plain h.2.1
      exact ⟨u, t, by rw [Json.stringify], hs, hb⟩
  | string s => exact ⟨0x22, _, by rw [Json.stringify, quote], rfl, by decide⟩
  | array vs => cases vs <;> exact ⟨0x5B, _, by rw [Json.stringify], rfl, by decide⟩
  | object ms =>
    rcases ms with _ | ⟨⟨k, v⟩, ms⟩ <;> exact ⟨0x7B, _, by rw [Json.stringify], rfl, by decide⟩

theorem separator_elements (vs : List Json) (rest : JsString) :
    separator 0x5D (elementsText vs ++ rest) =
      match vs with
      | [] => some (false, rest)
      | v :: vs => some (true, v.stringify ++ elementsText vs ++ rest) := by
  cases vs <;> simp [elementsText, separator, skipSpace, isJsonSpace]

theorem separator_members (ms : List (JsString × Json)) (rest : JsString) :
    separator 0x7D (membersText ms ++ rest) =
      match ms with
      | [] => some (false, rest)
      | (k, v) :: ms => some (true, quote k ++ 0x3A :: (v.stringify ++ membersText ms) ++ rest) := by
  rcases ms with _ | ⟨⟨k, v⟩, ms⟩ <;> simp [membersText, separator, skipSpace, isJsonSpace]

theorem memberName_quote (k tail : JsString) :
    memberName (quote k ++ 0x3A :: tail) = some (k, tail) := by
  have h := stringBody_quote k (0x3A :: tail)
  simp only [List.append_assoc, List.cons_append, List.nil_append] at h
  simp [memberName, quote, skipSpace, isJsonSpace, h]

/-! ## The round trip -/

mutual
theorem parseValue_stringify : ∀ (v : Json) (n : ℕ) (rest : JsString), v.WellFormed →
    v.stringify.length ≤ n → Stops rest → parseValue (n + 1) (v.stringify ++ rest) = some (v, rest)
  | .null, n, rest, _, _, _ => by
    simp [Json.stringify, parseValue, js, utf16, skipSpace, isJsonSpace, wordToken]
  | .bool true, n, rest, _, _, _ => by
    simp [Json.stringify, parseValue, js, utf16, skipSpace, isJsonSpace, wordToken]
  | .bool false, n, rest, _, _, _ => by
    simp [Json.stringify, parseValue, js, utf16, skipSpace, isJsonSpace, wordToken]
  | .number literal, n, rest, h, _, hrest => by
    simp only [Json.WellFormed] at h
    have htoken := numberToken_literal h.1 h.2 hrest
    cases literal with
    | nil => simp [validNumber] at h
    | cons u t =>
      have hall := h.2
      simp only [List.all_cons, Bool.and_eq_true] at hall
      obtain ⟨hs, h1, h2, -, h3, h4, h5, h6⟩ := numberUnit_plain hall.1
      rw [List.cons_append] at htoken
      rw [Json.stringify, parseValue, List.cons_append, skipSpace_cons _ hs]
      simp only [h1, h2, h3, h4, h5, h6, if_false]
      exact htoken
  | .string s, n, rest, _, _, _ => by
    have h := stringBody_quote s rest
    rw [Json.stringify, quote, List.cons_append, parseValue, skipSpace_cons _ rfl]
    simp only [if_true, h, Option.map_some]
  | .array [], n, rest, _, _, _ => by
    simp [Json.stringify, parseValue, skipSpace, isJsonSpace]
  | .array (v :: vs), n, rest, h, hn, _ => by
    simp only [Json.stringify, List.length_cons] at hn
    obtain ⟨m, rfl⟩ : ∃ m, n = m + 1 := ⟨n - 1, by omega⟩
    have hloop := parseElements_text v vs m rest h (by omega)
    obtain ⟨u, t, htext, hs, hb⟩ := stringify_head h.1
    rw [Json.stringify, List.cons_append, parseValue, skipSpace_cons _ rfl]
    dsimp only
    rw [if_neg (by decide), if_pos rfl, hloop]
    rw [htext, List.cons_append, List.cons_append, skipSpace_cons _ hs]
    simp only [hb, if_false, Option.map_some]
  | .object [], n, rest, _, _, _ => by
    simp [Json.stringify, parseValue, skipSpace, isJsonSpace]
  | .object ((k, v) :: ms), n, rest, h, hn, _ => by
    simp only [Json.stringify, List.length_cons] at hn
    obtain ⟨m, rfl⟩ : ∃ m, n = m + 1 := ⟨n - 1, by omega⟩
    have hloop := parseMembers_text k v ms m rest h.2 (by omega)
    rw [Json.stringify, List.cons_append, parseValue, skipSpace_cons _ rfl]
    dsimp only
    rw [if_neg (by decide), if_neg (by decide), if_pos rfl, hloop]
    rw [quote, List.cons_append, List.cons_append, skipSpace_cons _ rfl]
    rw [Option.map_some, OrderedMap.ofEntries_of_nodup h.1]
    rfl
termination_by _ n => n

theorem parseElements_text : ∀ (v : Json) (vs : List Json) (n : ℕ) (rest : JsString),
    elementsWellFormed (v :: vs) → (v.stringify ++ elementsText vs).length ≤ n →
    parseElements (n + 1) (v.stringify ++ elementsText vs ++ rest) = some (v :: vs, rest)
  | v, vs, n, rest, h, hn => by
    obtain ⟨u, t, htext, -⟩ := stringify_head h.1
    have hpos : 0 < v.stringify.length := by simp [htext]
    rw [List.length_append] at hn
    obtain ⟨m, rfl⟩ : ∃ m, n = m + 1 := ⟨n - 1, by omega⟩
    rw [parseElements, List.append_assoc, parseValue_stringify v m (elementsText vs ++ rest) h.1
      (by cases vs <;> simp [elementsText] at hn <;> omega) (stops_elementsText vs rest)]
    simp only [separator_elements]
    cases vs with
    | nil => rfl
    | cons w ws =>
      simp only [elementsText, List.length_cons] at hn
      have hrest := parseElements_text w ws m rest h.2 (by omega)
      simp only [hrest, Option.map_some]
termination_by _ _ n => n

theorem parseMembers_text : ∀ (k : JsString) (v : Json) (ms : List (JsString × Json)) (n : ℕ)
    (rest : JsString), membersWellFormed ((k, v) :: ms) →
    (quote k ++ 0x3A :: (v.stringify ++ membersText ms)).length ≤ n →
    parseMembers (n + 1) (quote k ++ 0x3A :: (v.stringify ++ membersText ms) ++ rest) =
      some ((k, v) :: ms, rest)
  | k, v, ms, n, rest, h, hn => by
    simp only [List.length_append, List.length_cons] at hn
    obtain ⟨m, rfl⟩ : ∃ m, n = m + 1 := ⟨n - 1, by omega⟩
    rw [parseMembers, List.append_assoc, List.cons_append, List.append_assoc, memberName_quote]
    simp only
    rw [parseValue_stringify v m (membersText ms ++ rest) h.1 (by omega) (stops_membersText ms rest)]
    simp only [separator_members]
    rcases ms with _ | ⟨⟨k', w⟩, ms⟩
    · rfl
    · simp only [membersText, List.length_cons, List.length_append] at hn
      have hrest := parseMembers_text k' w ms m rest h.2
        (by simp only [List.length_cons, List.length_append]; omega)
      simp only [hrest, Option.map_some]
termination_by _ _ _ n => n
end

theorem parse_stringify {v : Json} (h : v.WellFormed) : Json.parse v.stringify = some v := by
  have hv := parseValue_stringify v v.stringify.length [] h le_rfl stops_nil
  rw [List.append_nil] at hv
  simp [Json.parse, hv, skipSpace]

theorem stringify_injective {v w : Json} (hv : v.WellFormed) (hw : w.WellFormed)
    (h : v.stringify = w.stringify) : v = w := by
  have h' := parse_stringify hv
  rw [h, parse_stringify hw] at h'
  exact (Option.some.inj h').symm

end Foundations.Js
