import MidnightJs.CompactCommand.ByteArguments

/-! # Arguments that are accepted

`Admits` says of what JSON5 reads whether the parser accepts it as a value of a type, in terms of the
type and the value alone. Numbers, strings and types that are not supported take more than their own
literals, and a missing member counts as a number. -/

namespace MidnightJs.CompactJs
open Foundations Foundations.Js Foundations.Js.JsValue PlatformJs
set_option autoImplicit false

/-! ## Types and what is read for them -/

mutual
/-- The members of every type literal have different names. -/
def Distinct (type : TypeNode) : Prop :=
  match type with
  | .array elementType => Distinct elementType
  | .tuple elements => DistinctElements elements
  | .typeLiteral members => (OrderedMap.keys members).Nodup ∧ DistinctMembers members
  | _ => True

def DistinctElements (types : List TypeNode) : Prop :=
  match types with
  | [] => True
  | type :: types => Distinct type ∧ DistinctElements types

def DistinctMembers (members : List (JsString × TypeNode)) : Prop :=
  match members with
  | [] => True
  | (_, type) :: members => Distinct type ∧ DistinctMembers members
end

theorem distinctMembers_iff {members : List (JsString × TypeNode)} :
    DistinctMembers members ↔ ∀ e ∈ members, Distinct e.2 := by
  induction members with
  | nil => simp [DistinctMembers]
  | cons e members ih => simp [DistinctMembers, ih]

/-- The text of a number is read as a hex text like that of a string. -/
def AdmitsBytes (w : Option JsValue) : Prop :=
  (∃ s bytes, w = some (.string s) ∧ HexText s bytes) ∨
    ∃ x : Number, ∃ bytes, w = some (.number x) ∧ HexText x.text bytes

/-- What `typeof` calls an object. -/
def ObjectLike (w : JsValue) : Prop := w = .null ∨ (∃ ms, w = .object ms) ∨ ∃ ws, w = .array ws

/-- What is accepted as the length of a list of `n` elements, and put in its place. A number or a text
of it is the length again; as a byte string, the digits of the length stand for bytes, the text of
which has to be a length. -/
def AdmitsLength (type : TypeNode) (n : ℕ) : Prop :=
  match type with
  | .number => n < 2 ^ 32
  | .string => n < 2 ^ 32
  | .typeReference typeName => typeName = some (js "Uint8Array") ∧
      ∃ bytes, HexText (Number.ofInt n).text bytes ∧
        (SrcObject.arrayLength (stringToNumber (SrcObject.bufferText bytes))).isSome
  | _ => False

mutual
/-- `w` is accepted as a value of the type; there is none where an object lacks a member. -/
def Admits (type : TypeNode) (w : Option JsValue) : Prop :=
  match type with
  | .number => True
  | .bigint => ∃ x : Number, ∃ n, w = some (.number x) ∧ stringToBigInt x.text = some n
  | .string => w ≠ none
  | .boolean => ∃ b, w = some (.boolean b)
  | .array elementType => ∃ ws, w = some (.array ws) ∧ ∀ w ∈ ws, Admits elementType (some w)
  | .tuple elements => ∃ ws, w = some (.array ws) ∧ AdmitsElements elements ws
  | .typeLiteral members => ∃ src, w = some src ∧ ObjectLike src ∧ AdmitsMembers members src
  | .typeReference typeName => typeName = some (js "Uint8Array") → AdmitsBytes w
  | .unknown => True

def AdmitsElements (types : List TypeNode) (ws : List JsValue) : Prop :=
  match types, ws with
  | [], [] => True
  | type :: types, w :: ws => Admits type (some w) ∧ AdmitsElements types ws
  | _, _ => False

/-- A list has a length and no other member; of `null` no member can be read. -/
def AdmitsMembers (members : List (JsString × TypeNode)) (src : JsValue) : Prop :=
  match members with
  | [] => True
  | (name, type) :: members =>
    (match src with
      | .object ms => Admits type (OrderedMap.get ms (escapedText name))
      | .array ws =>
        if escapedText name = js "length" then AdmitsLength type ws.length
        else Admits type none
      | _ => False) ∧ AdmitsMembers members src
end

variable (json5 : Json5)

/-! ## Texts of values -/

theorem trim_cons {u : UInt16} {rest : JsString} (hspace : isStrWhiteSpace u = false) :
    ∃ rest', trim (u :: rest) = u :: rest' := by
  have hlast : ∀ s : JsString, (s ++ [u]).dropWhile isStrWhiteSpace =
      s.dropWhile isStrWhiteSpace ++ [u] := by
    intro s
    induction s with
    | nil => simp [hspace]
    | cons v s ih =>
      rw [List.cons_append, List.dropWhile_cons, List.dropWhile_cons, ih]
      split <;> rfl
  refine ⟨(rest.reverse.dropWhile isStrWhiteSpace).reverse, ?_⟩
  rw [trim, List.dropWhile_cons, hspace, if_neg (by decide), List.reverse_cons, hlast,
    List.reverse_append]
  rfl

theorem stringToBigInt_other {u : UInt16} {rest : JsString} (hspace : isStrWhiteSpace u = false)
    (hdigit : digitValue u = none) (hsign : u ≠ 0x2D ∧ u ≠ 0x2B) :
    stringToBigInt (u :: rest) = none := by
  obtain ⟨rest', htrim⟩ : ∃ rest', trim (u :: rest) = u :: rest' := trim_cons hspace
  have hzero : u ≠ 0x30 := by
    rintro rfl
    cases hdigit
  have hnone : naturalOfText 10 (u :: rest') = none := by
    rw [naturalOfText, if_neg (by simp), digitsValue, hdigit]
  rw [stringToBigInt, htrim]
  split
  · simp_all
  · simp_all
  · simp_all
  · simp_all
  · rw [hnone]
    rfl

/-- What JSON5 writes for a value that is no number is no integer. -/
theorem stringToBigInt_stringify {w : JsValue} (hback : json5.ReadsBackThroughout w)
    {text : JsString} (htext : json5.stringify w = some text) {n : ℤ}
    (h : stringToBigInt text = some n) : ∃ x : Number, w = .number x := by
  cases w with
  | number x => exact ⟨x, rfl⟩
  | null =>
    rw [json5.stringify_null, Option.some.injEq] at htext
    have hnone : stringToBigInt (js "null") = none := by decide
    rw [← htext, hnone] at h
    cases h
  | boolean b =>
    rw [stringify_boolean, Option.some.injEq] at htext
    have hnone : stringToBigInt (booleanText b) = none := by cases b <;> decide
    rw [← htext, hnone] at h
    cases h
  | string s =>
    rw [json5.stringify_string, Option.some.injEq] at htext
    rw [← htext, Json5.quoteString] at h
    rcases Json5.quoteChar_cases s with hquote | hquote
    · rw [hquote, stringToBigInt_other (by decide) (by decide) (by decide)] at h
      cases h
    · rw [hquote, stringToBigInt_other (by decide) (by decide) (by decide)] at h
      cases h
  | array ws =>
    obtain ⟨body, hbody⟩ := json5.stringify_array ws
    rw [hbody, Option.some.injEq] at htext
    rw [← htext, stringToBigInt_other (by decide) (by decide) (by decide)] at h
    cases h
  | object ms =>
    obtain ⟨body, hbody⟩ := json5.stringify_object ms
    rw [hbody, Option.some.injEq] at htext
    rw [← htext, stringToBigInt_other (by decide) (by decide) (by decide)] at h
    cases h
  | _ => exact hback.elim

theorem quote_notMem_text (x : Number) : 0x27 ∉ x.text := by
  intro hmem
  have hunit := List.all_eq_true.mp x.all_text _ hmem
  exact absurd hunit (by decide)

theorem not_hexText {s : JsString} {bytes : List UInt8} (h : (PlatformJs.parseHex s).isOk = false) :
    ¬ HexText s bytes := by
  intro hhex
  obtain ⟨parsedHex, hparse, -⟩ := parseHex_hexText.mp hhex
  rw [hparse] at h
  cases h

/-- What is left of the text without its quotes is a hex text only for numbers and hex texts. -/
theorem hexText_stringify {w : JsValue} (hback : json5.ReadsBackThroughout w) {text : JsString}
    (htext : json5.stringify w = some text) {bytes : List UInt8}
    (h : HexText (withoutQuotes text) bytes) : AdmitsBytes (some w) := by
  have hunits := HexText.unit_digit h
  have hother : ∀ {u : UInt16} {rest : JsString}, u ≠ 0x27 → digitValue u = none →
      text ≠ u :: rest := by
    intro u rest hquote hnone heq
    have hmem : u ∈ withoutQuotes text :=
      mem_withoutQuotes.mpr ⟨heq ▸ List.mem_cons_self, hquote⟩
    obtain ⟨d, hd⟩ := hunits u hmem
    rw [hnone] at hd
    cases hd
  cases w with
  | number x =>
    rw [json5.stringify_number, Option.some.injEq] at htext
    rw [← htext, withoutQuotes_of_notMem (quote_notMem_text x)] at h
    exact .inr ⟨x, bytes, rfl, h⟩
  | string s =>
    rw [json5.stringify_string, Option.some.injEq] at htext
    rw [← htext] at h
    exact .inl ⟨s, bytes, rfl, hexText_of_quoted h⟩
  | null =>
    rw [json5.stringify_null, Option.some.injEq] at htext
    rw [← htext] at h
    exact absurd h (not_hexText (by decide))
  | boolean b =>
    rw [stringify_boolean, Option.some.injEq] at htext
    rw [← htext] at h
    exact absurd h (not_hexText (by cases b <;> decide))
  | array ws =>
    obtain ⟨body, hbody⟩ := json5.stringify_array ws
    rw [hbody, Option.some.injEq] at htext
    exact absurd htext.symm (hother (by decide) (by decide))
  | object ms =>
    obtain ⟨body, hbody⟩ := json5.stringify_object ms
    rw [hbody, Option.some.injEq] at htext
    exact absurd htext.symm (hother (by decide) (by decide))
  | _ => exact hback.elim

/-- Every value that JSON5 reads is written, and what is written reads as that kind of value. -/
theorem readsAlike_stringify {w : JsValue} (hback : json5.ReadsBackThroughout w) :
    ∃ text, json5.stringify w = some text ∧ json5.ReadsAlike text w := by
  cases w with
  | null => exact ⟨_, json5.stringify_null, .null, json5.parse_null, trivial⟩
  | boolean b =>
    cases b with
    | true => exact ⟨_, json5.stringify_true, .boolean true, json5.parse_true, trivial⟩
    | false => exact ⟨_, json5.stringify_false, .boolean false, json5.parse_false, trivial⟩
  | number x =>
    obtain ⟨y, hy⟩ := json5.parse_number x
    exact ⟨_, json5.stringify_number x, .number y, hy, trivial⟩
  | string s =>
    obtain ⟨s', hs'⟩ := json5.parse_string s
    exact ⟨_, json5.stringify_string s, .string s', hs', trivial⟩
  | array ws => exact hback.1
  | object ms => exact hback.1
  | _ => exact hback.elim

/-! ## Single values -/

/-- Between two characters of which neither begins `true` nor ends `false`. -/
theorem trueOrFalse_between {u v : UInt16} (body : JsString) (hu : u ≠ 0x74) (hv : v ≠ 0x65) :
    trueOrFalse (u :: (body ++ [v])) = false := by
  have htrue : js "true" = [0x74, 0x72, 0x75, 0x65] := by decide
  have hfalse : js "false" = [0x66, 0x61, 0x6C, 0x73] ++ [0x65] := by decide
  rw [trueOrFalse, Bool.or_eq_false_iff]
  constructor
  · rw [htrue, List.isPrefixOf_cons_cons, beq_eq_false_iff_ne.mpr (Ne.symm hu), Bool.false_and]
  · by_contra h
    rw [Bool.not_eq_false, List.isSuffixOf_iff_suffix] at h
    obtain ⟨front, h⟩ := h
    rw [hfalse, ← List.append_assoc, ← List.cons_append] at h
    have hlast := (List.append_inj' h rfl).2
    exact hv (List.cons.inj hlast).1.symm

theorem trueOrFalse_number (x : Number) : trueOrFalse x.text = false := by
  have hno : ∀ u, Number.isNumberTextUnit u = false → u ∉ x.text := by
    intro u hu hmem
    have hunit := List.all_eq_true.mp x.all_text u hmem
    rw [hu] at hunit
    cases hunit
  rw [trueOrFalse, Bool.or_eq_false_iff]
  constructor
  · by_contra h
    rw [Bool.not_eq_false, List.isPrefixOf_iff_prefix] at h
    have hr : (0x72 : UInt16) ∈ js "true" := by decide
    exact hno 0x72 (by decide) (h.subset hr)
  · by_contra h
    rw [Bool.not_eq_false, List.isSuffixOf_iff_suffix] at h
    have hl : (0x6C : UInt16) ∈ js "false" := by decide
    exact hno 0x6C (by decide) (h.subset hl)

theorem trueOrFalse_stringify {w : JsValue} (hback : json5.ReadsBackThroughout w)
    {text : JsString} (htext : json5.stringify w = some text) (h : trueOrFalse text = true) :
    ∃ b, w = .boolean b := by
  cases w with
  | boolean b => exact ⟨b, rfl⟩
  | null =>
    rw [json5.stringify_null, Option.some.injEq] at htext
    rw [← htext] at h
    exact absurd h (by decide)
  | number x =>
    rw [json5.stringify_number, Option.some.injEq] at htext
    rw [← htext, trueOrFalse_number] at h
    cases h
  | string s =>
    rw [json5.stringify_string, Option.some.injEq] at htext
    rw [← htext, Json5.quoteString] at h
    rcases Json5.quoteChar_cases s with hquote | hquote
    · rw [hquote, trueOrFalse_between _ (by decide) (by decide)] at h
      cases h
    · rw [hquote, trueOrFalse_between _ (by decide) (by decide)] at h
      cases h
  | array ws =>
    obtain ⟨body, hbody⟩ := json5.stringify_array ws
    rw [hbody, Option.some.injEq] at htext
    rw [← htext, trueOrFalse_between _ (by decide) (by decide)] at h
    cases h
  | object ms =>
    obtain ⟨body, hbody⟩ := json5.stringify_object ms
    rw [hbody, Option.some.injEq] at htext
    rw [← htext, trueOrFalse_between _ (by decide) (by decide)] at h
    cases h
  | _ => exact hback.elim

/-- The types whose values are neither lists nor objects. -/
def SingleType (type : TypeNode) : Prop :=
  match type with
  | .array _ => False
  | .tuple _ => False
  | .typeLiteral _ => False
  | _ => True

theorem accepted_bigint {w : JsValue} {text : JsString} (hback : json5.ReadsBackThroughout w)
    (htext : json5.stringify w = some text) :
    (∃ v, parseBigInt (some text) = .ok v) ↔ Admits .bigint (some w) := by
  rw [Admits, parseBigInt]
  constructor
  · intro h
    cases hn : stringToBigInt text with
    | none =>
      rw [hn] at h
      obtain ⟨v, hv⟩ := h
      cases hv
    | some n =>
      obtain ⟨x, rfl⟩ := stringToBigInt_stringify json5 hback htext hn
      rw [json5.stringify_number, Option.some.injEq] at htext
      exact ⟨x, n, rfl, htext ▸ hn⟩
  · intro h
    obtain ⟨x, n, heq, hn⟩ := h
    cases heq
    rw [json5.stringify_number, Option.some.injEq] at htext
    rw [← htext, hn]
    exact ⟨_, rfl⟩

theorem accepted_boolean {w : JsValue} {text : JsString} (hback : json5.ReadsBackThroughout w)
    (htext : json5.stringify w = some text) :
    (∃ v, parseBoolean (some text) = .ok v) ↔ Admits .boolean (some w) := by
  rw [Admits, parseBoolean, argText, Option.getD_some]
  constructor
  · intro h
    by_cases htest : trueOrFalse text = true
    · obtain ⟨b, rfl⟩ := trueOrFalse_stringify json5 hback htext htest
      exact ⟨b, rfl⟩
    · rw [if_neg htest] at h
      obtain ⟨v, hv⟩ := h
      cases hv
  · intro h
    obtain ⟨b, heq⟩ := h
    cases heq
    rw [stringify_boolean, Option.some.injEq] at htext
    have htest : trueOrFalse (booleanText b) = true := by cases b <;> decide
    rw [← htext, if_pos htest]
    exact ⟨_, rfl⟩

theorem accepted_bytes {w : JsValue} {text : JsString} (hback : json5.ReadsBackThroughout w)
    (htext : json5.stringify w = some text) :
    (∃ v, parseBytes true (some text) = .ok v) ↔ AdmitsBytes (some w) := by
  constructor
  · intro h
    obtain ⟨v, hv⟩ := h
    obtain ⟨bytes, hbytes⟩ := parseBytes_hexText hv
    exact hexText_stringify json5 hback htext hbytes
  · intro h
    obtain ⟨s, bytes, heq, hbytes⟩ | ⟨x, bytes, heq, hbytes⟩ := h
    · cases heq
      rw [json5.stringify_string, Option.some.injEq] at htext
      rw [← htext]
      exact ⟨_, parseBytes_quoted hbytes⟩
    · cases heq
      rw [json5.stringify_number, Option.some.injEq] at htext
      rw [← htext]
      refine ⟨.buffer bytes, parseBytes_eq_ok.mpr ⟨some x.text, ?_, bytes, rfl, hbytes⟩⟩
      rw [unquoted, withoutQuotes_of_notMem (quote_notMem_text x)]

theorem accepted_leaf {type : TypeNode} (hsingle : SingleType type) {w : JsValue}
    (hback : json5.ReadsBackThroughout w) :
    (∃ v, transformParam json5 true type (json5.stringify w) = .ok v) ↔ Admits type (some w) := by
  obtain ⟨text, htext, -⟩ := readsAlike_stringify json5 hback
  rw [htext]
  cases type with
  | array _ => exact hsingle.elim
  | tuple _ => exact hsingle.elim
  | typeLiteral _ => exact hsingle.elim
  | number => exact iff_of_true ⟨_, rfl⟩ trivial
  | string => exact iff_of_true ⟨_, rfl⟩ nofun
  | unknown => exact iff_of_true ⟨_, rfl⟩ trivial
  | bigint => exact accepted_bigint json5 hback htext
  | boolean => exact accepted_boolean json5 hback htext
  | typeReference typeName =>
    rw [transformParam, Admits]
    by_cases hname : typeName = some (js "Uint8Array")
    · rw [if_pos hname, accepted_bytes json5 hback htext]
      exact (imp_iff_right hname).symm
    · rw [if_neg hname]
      exact iff_of_true ⟨_, rfl⟩ fun h => absurd h hname

/-! ## Missing arguments -/

theorem parseElements_none : ∃ err, parseElements json5 none = .error err := by
  obtain ⟨e, he⟩ := json5.parse_undefined
  exact ⟨.thrown e, by rw [parseElements, argText, Option.getD_none, he]⟩

theorem parseObject_none : ∃ err, parseObject json5 none = .error err := by
  obtain ⟨e, he⟩ := json5.parse_undefined
  exact ⟨.thrown e, by rw [parseObject, argText, Option.getD_none, he]⟩

theorem accepted_none (type : TypeNode) :
    (∃ v, transformParam json5 true type none = .ok v) ↔ Admits type none := by
  have rejected : ∀ {x : Except ContractError JsValue}, (∃ err, x = .error err) →
      ¬ ∃ v, x = .ok v := by
    intro x hx hv
    obtain ⟨err, rfl⟩ := hx
    obtain ⟨v, hv⟩ := hv
    cases hv
  cases type with
  | number => exact iff_of_true ⟨_, rfl⟩ trivial
  | unknown => exact iff_of_true ⟨_, rfl⟩ trivial
  | bigint => exact iff_of_false (rejected ⟨_, rfl⟩) (by simp [Admits])
  | string => exact iff_of_false (rejected ⟨_, rfl⟩) (by simp [Admits])
  | boolean =>
    have htest : trueOrFalse (argText none) = false := by decide
    rw [transformParam, parseBoolean, htest, if_neg (by decide)]
    exact iff_of_false (rejected ⟨_, rfl⟩) (by simp [Admits])
  | array elementType =>
    obtain ⟨err, herr⟩ := parseElements_none json5
    rw [transformParam, herr]
    exact iff_of_false (rejected ⟨_, rfl⟩) (by simp [Admits])
  | tuple elements =>
    obtain ⟨err, herr⟩ := parseElements_none json5
    rw [transformParam, herr]
    exact iff_of_false (rejected ⟨_, rfl⟩) (by simp [Admits])
  | typeLiteral members =>
    obtain ⟨err, herr⟩ := parseObject_none json5
    rw [transformParam, herr]
    exact iff_of_false (rejected ⟨_, rfl⟩) (by simp [Admits])
  | typeReference typeName =>
    rw [transformParam, Admits]
    by_cases hname : typeName = some (js "Uint8Array")
    · rw [if_pos hname]
      exact iff_of_false (rejected ⟨_, rfl⟩) (by simp [AdmitsBytes, hname])
    · rw [if_neg hname]
      exact iff_of_true ⟨_, rfl⟩ fun h => absurd h hname

/-! ## Lists and objects -/

theorem parseElements_array {arg : Option JsString} {w : JsValue} {ws' : List JsValue}
    (h : json5.ReadsAlike (argText arg) w) (hok : parseElements json5 arg = .ok ws') :
    ∃ ws, w = .array ws := by
  obtain ⟨w', hparse, halike⟩ := h
  rw [parseElements, hparse] at hok
  cases w' with
  | array ws'' =>
    cases w with
    | array ws => exact ⟨ws, rfl⟩
    | _ => exact halike.elim
  | _ => cases hok

/-- An argument of a type of lists is accepted only if a list is read. -/
theorem array_of_accepted {type : TypeNode} {quotedStrings : Bool} {arg : Option JsString}
    {w v : JsValue} (htype : (∃ elementType, type = .array elementType) ∨
      ∃ elements, type = .tuple elements)
    (h : json5.ReadsAlike (argText arg) w)
    (hv : transformParam json5 quotedStrings type arg = .ok v) : ∃ ws, w = .array ws := by
  obtain ⟨elementType, rfl⟩ | ⟨elements, rfl⟩ := htype
  · rw [transformParam, except_bind_ok] at hv
    obtain ⟨ws, hws, -⟩ := hv
    exact parseElements_array json5 h hws
  · rw [transformParam, except_bind_ok] at hv
    obtain ⟨ws, hws, -⟩ := hv
    exact parseElements_array json5 h hws

/-- The object that the loop over the members starts with. -/
inductive SrcAlike : SrcObject → JsValue → Prop
  | null : SrcAlike .null .null
  | object {ms ms' : List (JsString × JsValue)}
      (h : OrderedMap.mapValues json5.stringify ms' = OrderedMap.mapValues json5.stringify ms) :
      SrcAlike (.object ms') (.object ms)
  | list {ws ws' : List JsValue} (h : ws'.length = ws.length) : SrcAlike (.list ws' []) (.array ws)

theorem parseObject_alike {arg : Option JsString} {w : JsValue}
    (h : json5.ReadsAlike (argText arg) w) :
    (∃ srcObj, parseObject json5 arg = .ok srcObj ∧ SrcAlike json5 srcObj w ∧ ObjectLike w) ∨
      ((∃ err, parseObject json5 arg = .error err) ∧ ¬ ObjectLike w) := by
  obtain ⟨w', hparse, halike⟩ := h
  rw [parseObject, hparse]
  cases w with
  | null =>
    cases w' <;> first | exact halike.elim | exact .inl ⟨_, rfl, .null, .inl rfl⟩
  | object ms =>
    cases w' <;> first
      | exact halike.elim
      | exact .inl ⟨_, rfl, .object halike, .inr (.inl ⟨ms, rfl⟩)⟩
  | array ws =>
    cases w' <;> first
      | exact halike.elim
      | exact .inl ⟨_, rfl, .list (by simpa using congrArg List.length halike),
          .inr (.inr ⟨ws, rfl⟩)⟩
  | _ =>
    cases w' <;> first
      | exact halike.elim
      | exact .inr ⟨⟨_, rfl⟩, by simp [ObjectLike]⟩

theorem arrayLength_ofInt (n : ℕ) :
    SrcObject.arrayLength (.ofInt n) = if n < 2 ^ 32 then some n else none := by
  by_cases hsmall : n < 2 ^ 53
  · have hint : Number.ofInt n = .finite false n (isDouble_natCast hsmall) := by
      rw [Number.ofInt_of_lt (n := n) (by simpa using hsmall)]
      simp [Int.not_lt.mpr (Int.natCast_nonneg n)]
    have hcast : (n : ℚ) < 2 ^ 32 ↔ n < 2 ^ 32 := by exact_mod_cast Iff.rfl
    rw [hint, SrcObject.arrayLength]
    simp [hcast]
  · rw [if_neg (by omega), Number.ofInt, if_neg (by omega), Int.natAbs_natCast, Number.ofMagnitude]
    split_ifs with hdouble
    · have hlarge : (2 : ℚ) ^ 53 ≤ nearestDouble n := by
        exact_mod_cast le_nearestDouble (n := n) (by omega)
      rw [SrcObject.arrayLength, if_neg]
      intro h
      exact absurd (hlarge.trans_lt h.2.1) (by norm_num)
    · rfl

/-- A length is read from its text. -/
theorem stringToNumber_length (n : ℕ) : stringToNumber (Number.ofInt n).text = .ofInt n := by
  rw [Number.ofInt, if_neg (by omega), Number.ofMagnitude]
  split_ifs
  · exact stringToNumber_text fun _ => rfl
  · rfl

/-- What is parsed from the text of a length is a length again exactly for these types. -/
theorem length_accepted {type : TypeNode} {n : ℕ} :
    (∃ v, transformParam json5 true type (some (Number.ofInt n).text) = .ok v ∧
      ∃ x, SrcObject.lengthNumber v = .ok x ∧ (SrcObject.arrayLength x).isSome) ↔
      AdmitsLength type n := by
  have hlength : (SrcObject.arrayLength (.ofInt n)).isSome ↔ n < 2 ^ 32 := by
    rw [arrayLength_ofInt]
    split_ifs with h
    · exact iff_of_true rfl h
    · exact iff_of_false nofun h
  obtain ⟨y, hparse⟩ := json5.parse_number (.ofInt n)
  cases type with
  | number =>
    rw [AdmitsLength, ← hlength]
    simp [transformParam, parseNumber, SrcObject.lengthNumber, stringToNumber_length]
  | string =>
    rw [AdmitsLength, ← hlength]
    simp [transformParam, parseString, unquoted, bind, Except.bind, pure, Except.pure,
      SrcObject.lengthNumber, withoutQuotes_of_notMem (quote_notMem_text _), stringToNumber_length]
  | bigint =>
    refine iff_of_false ?_ id
    rintro ⟨v, hv, x, hx, -⟩
    rw [transformParam, parseBigInt] at hv
    split at hv <;> cases hv
    cases hx
  | boolean =>
    refine iff_of_false ?_ id
    rintro ⟨v, hv, -⟩
    rw [transformParam, parseBoolean, argText, Option.getD_some, trueOrFalse_number] at hv
    cases hv
  | array elementType =>
    refine iff_of_false ?_ id
    rintro ⟨v, hv, -⟩
    rw [transformParam, parseElements, argText, Option.getD_some, hparse] at hv
    cases hv
  | tuple elements =>
    refine iff_of_false ?_ id
    rintro ⟨v, hv, -⟩
    rw [transformParam, parseElements, argText, Option.getD_some, hparse] at hv
    cases hv
  | typeLiteral members =>
    refine iff_of_false ?_ id
    rintro ⟨v, hv, -⟩
    rw [transformParam, parseObject, argText, Option.getD_some, hparse] at hv
    cases hv
  | typeReference typeName =>
    rw [AdmitsLength, transformParam]
    by_cases hname : typeName = some (js "Uint8Array")
    · rw [if_pos hname]
      constructor
      · rintro ⟨v, hv, x, hx, hsome⟩
        obtain ⟨source, hsource, bytes, rfl, hbytes⟩ := parseBytes_eq_ok.mp hv
        cases hx
        rw [unquoted, withoutQuotes_of_notMem (quote_notMem_text _), Except.ok.injEq] at hsource
        subst hsource
        exact ⟨hname, bytes, hbytes, hsome⟩
      · rintro ⟨-, bytes, hbytes, hsome⟩
        refine ⟨.buffer bytes, parseBytes_eq_ok.mpr ⟨some (Number.ofInt n).text, ?_, bytes, rfl,
          hbytes⟩, _, rfl, hsome⟩
        rw [unquoted, withoutQuotes_of_notMem (quote_notMem_text _)]
    · rw [if_neg hname]
      refine iff_of_false ?_ fun h => hname h.1
      rintro ⟨v, hv, x, hx, hsome⟩
      cases hv
      cases hx
      cases hsome
  | unknown =>
    refine iff_of_false ?_ id
    rintro ⟨v, hv, x, hx, hsome⟩
    cases hv
    cases hx
    cases hsome

-- The digits of the length 20 are those of a space, whose text counts as zero.
example : SrcObject.arrayLength (stringToNumber (SrcObject.bufferText [0x20])) = some 0 := by decide

theorem memberAccepted_list {elements : List JsValue} {name : JsString} {type : TypeNode} :
    MemberAccepted json5 (.list elements []) (name, type) ↔
      if escapedText name = js "length" then AdmitsLength type elements.length
      else Admits type none := by
  unfold MemberAccepted
  by_cases hlength : escapedText name = js "length"
  · simp only [hlength, SrcObject.get, if_true, Except.ok.injEq, exists_and_left,
      exists_eq_left', json5.stringify_number, set_length_iff, length_accepted]
  · simp only [SrcObject.get, SrcObject.set, hlength, if_false, Except.ok.injEq,
      exists_and_left, exists_eq_left', exists_eq', and_true, OrderedMap.get, Option.getD_none,
      json5.stringify_undefined, accepted_none]

/-! ## Whole arguments -/

theorem readAs_of_back (type : TypeNode) {w : JsValue} (hback : json5.ReadsBackThroughout w) :
    ReadAs json5 true type (json5.stringify w) w := by
  have hread : json5.ReadsAlike (argText (json5.stringify w)) w := by
    obtain ⟨text, htext, hread⟩ := readsAlike_stringify json5 hback
    rw [htext]
    exact hread
  cases type with
  | array _ => exact hread
  | tuple _ => exact hread
  | typeLiteral _ => exact hread
  | _ => exact ⟨rfl, rfl⟩

/-- An argument of which `w` is read is accepted exactly if the type admits `w`. -/
def AcceptedAs (type : TypeNode) : Prop :=
  ∀ {quotedStrings : Bool} {arg : Option JsString} {w : JsValue}, Distinct type →
    json5.ReadsBackThroughout w → ReadAs json5 quotedStrings type arg w →
    ((∃ v, transformParam json5 quotedStrings type arg = .ok v) ↔ Admits type (some w))

theorem AcceptedAs.inside {type : TypeNode} (h : AcceptedAs json5 type) (hdistinct : Distinct type)
    {w : JsValue} (hback : json5.ReadsBackThroughout w) :
    (∃ v, transformParam json5 true type (json5.stringify w) = .ok v) ↔ Admits type (some w) :=
  h hdistinct hback (readAs_of_back json5 type hback)

theorem elementsReadBack_iff {ws : List JsValue} :
    json5.ElementsReadBack ws ↔ ∀ w ∈ ws, json5.ReadsBackThroughout w := by
  induction ws with
  | nil => simp [Json5.ElementsReadBack]
  | cons w ws ih => simp [Json5.ElementsReadBack, ih]

theorem readAs_single {type : TypeNode} (hsingle : SingleType type) {quotedStrings : Bool}
    {arg : Option JsString} {w : JsValue} (h : ReadAs json5 quotedStrings type arg w) :
    quotedStrings = true ∧ arg = json5.stringify w := by
  cases type <;> first | exact h | exact hsingle.elim

theorem acceptedAs_single (type : TypeNode) (hsingle : SingleType type) : AcceptedAs json5 type := by
  intro quotedStrings arg w _ hback harg
  have hread := readAs_single json5 hsingle harg
  rw [hread.1, hread.2]
  exact accepted_leaf json5 hsingle hback

theorem acceptedAs_array {elementType : TypeNode} (ih : AcceptedAs json5 elementType) :
    AcceptedAs json5 (.array elementType) := by
  intro quotedStrings arg w hdistinct hback harg
  rw [Admits]
  cases w with
  | array ws =>
    have hws := (elementsReadBack_iff json5).mp hback.2
    simp only [transformParam_array json5 harg, Option.some.injEq, JsValue.array.injEq,
      exists_eq_left']
    constructor
    · intro h w hw
      obtain ⟨v, vs, -, hvs⟩ := h
      exact (ih.inside json5 hdistinct (hws w hw)).mp (exists_forall₂.mp ⟨vs, hvs⟩ w hw)
    · intro h
      obtain ⟨vs, hvs⟩ := exists_forall₂.mpr fun w hw =>
        (ih.inside json5 hdistinct (hws w hw)).mpr (h w hw)
      exact ⟨_, vs, rfl, hvs⟩
  | _ =>
    refine iff_of_false ?_ (by simp)
    intro h
    obtain ⟨v, hv⟩ := h
    obtain ⟨ws, hws⟩ := array_of_accepted json5 (.inl ⟨elementType, rfl⟩) harg hv
    cases hws

theorem accepted_elementTypes {types : List TypeNode} (ih : ∀ type ∈ types, AcceptedAs json5 type)
    (hdistinct : DistinctElements types) {ws : List JsValue} (idx : ℕ)
    (hlength : types.length = ws.length) (hback : json5.ElementsReadBack ws) :
    (∃ vs, transformTypes json5 true types idx (ws.map json5.stringify) = .ok vs) ↔
      AdmitsElements types ws := by
  induction types generalizing ws idx with
  | nil =>
    cases ws with
    | nil => exact iff_of_true ⟨[], rfl⟩ trivial
    | cons w ws => cases hlength
  | cons type types ihs =>
    cases ws with
    | nil => cases hlength
    | cons w ws =>
      rw [List.forall_mem_cons] at ih
      have hhead := AcceptedAs.inside json5 ih.1 hdistinct.1 hback.1
      have hrest := ihs ih.2 hdistinct.2 (idx + 1) (Nat.succ.inj hlength) hback.2
      rw [AdmitsElements, ← hhead, ← hrest, List.map_cons]
      simp only [transformTypes_cons]
      constructor
      · intro h
        obtain ⟨_, v, rest, hv, hvs, -⟩ := h
        exact ⟨⟨v, hv⟩, rest, hvs⟩
      · intro h
        obtain ⟨⟨v, hv⟩, rest, hvs⟩ := h
        exact ⟨_, v, rest, hv, hvs, rfl⟩

theorem admitsElements_length {types : List TypeNode} {ws : List JsValue}
    (h : AdmitsElements types ws) : types.length = ws.length := by
  induction types generalizing ws with
  | nil =>
    cases ws with
    | nil => rfl
    | cons w ws => exact h.elim
  | cons type types ih =>
    cases ws with
    | nil => exact h.elim
    | cons w ws => exact congrArg (· + 1) (ih h.2)

theorem acceptedAs_tuple {elements : List TypeNode} (ih : ∀ type ∈ elements, AcceptedAs json5 type) :
    AcceptedAs json5 (.tuple elements) := by
  intro quotedStrings arg w hdistinct hback harg
  rw [Admits]
  cases w with
  | array ws =>
    simp only [transformParam_tuple json5 harg, Option.some.injEq, JsValue.array.injEq,
      exists_eq_left']
    constructor
    · intro h
      obtain ⟨_, hlength, vs, -, hvs⟩ := h
      exact (accepted_elementTypes json5 ih hdistinct 0 hlength hback.2).mp ⟨vs, hvs⟩
    · intro h
      have hlength := admitsElements_length h
      obtain ⟨vs, hvs⟩ := (accepted_elementTypes json5 ih hdistinct 0 hlength hback.2).mpr h
      exact ⟨_, hlength, vs, rfl, hvs⟩
  | _ =>
    refine iff_of_false ?_ (by simp)
    intro h
    obtain ⟨v, hv⟩ := h
    obtain ⟨ws, hws⟩ := array_of_accepted json5 (.inr ⟨elements, rfl⟩) harg hv
    cases hws

/-- One member of the type, with the object that the loop starts with. -/
theorem memberAccepted_iff {name : JsString} {type : TypeNode} (ih : AcceptedAs json5 type)
    (hdistinct : Distinct type) {srcObj : SrcObject} {w : JsValue}
    (hback : json5.ReadsBackThroughout w) (hsrc : SrcAlike json5 srcObj w)
    {members : List (JsString × TypeNode)} :
    MemberAccepted json5 srcObj (name, type) ∧ AdmitsMembers members w ↔
      AdmitsMembers ((name, type) :: members) w := by
  cases hsrc with
  | null =>
    change _ ∧ _ ↔ False ∧ _
    refine and_congr_left fun _ => iff_of_false ?_ id
    intro h
    obtain ⟨x, v, r, hx, -⟩ := h
    cases hx
  | @list ws ws' hlength =>
    rw [AdmitsMembers, ← hlength]
    exact and_congr_left fun _ => memberAccepted_list json5
  | @object ms ms' halike =>
    rw [AdmitsMembers, memberAccepted_object, memberArg_alike json5 halike, memberArg]
    refine and_congr_left fun _ => ?_
    cases hget : OrderedMap.get ms (escapedText name) with
    | none =>
      rw [Option.getD_none, json5.stringify_undefined]
      exact accepted_none json5 type
    | some w =>
      rw [Option.getD_some]
      exact ih.inside json5 hdistinct (hback.2.of_mem (OrderedMap.mem_of_get hget))

theorem admitsMembers_iff {members : List (JsString × TypeNode)}
    (ih : ∀ e ∈ members, AcceptedAs json5 e.2) (hdistinct : DistinctMembers members)
    {srcObj : SrcObject} {w : JsValue} (hback : json5.ReadsBackThroughout w)
    (hsrc : SrcAlike json5 srcObj w) :
    (∀ e ∈ members, MemberAccepted json5 srcObj e) ↔ AdmitsMembers members w := by
  induction members with
  | nil => exact iff_of_true (by simp) trivial
  | cons e members ihs =>
    obtain ⟨name, type⟩ := e
    rw [List.forall_mem_cons] at ih ⊢
    rw [ihs ih.2 hdistinct.2]
    exact memberAccepted_iff json5 ih.1 hdistinct.1 hback hsrc

theorem acceptedAs_typeLiteral {members : List (JsString × TypeNode)}
    (ih : ∀ e ∈ members, AcceptedAs json5 e.2) : AcceptedAs json5 (.typeLiteral members) := by
  intro quotedStrings arg w hdistinct hback harg
  rw [Admits, transformParam]
  simp only [Option.some.injEq, exists_eq_left', except_bind_ok, pure, Except.pure]
  obtain ⟨srcObj, hparse, hsrc, hobject⟩ | ⟨⟨err, herr⟩, hobject⟩ := parseObject_alike json5 harg
  · rw [← admitsMembers_iff json5 ih hdistinct.2 hback hsrc,
      ← transformMembers_accepted json5 hdistinct.1]
    constructor
    · intro h
      obtain ⟨v, srcObj', hparse', r, hr, -⟩ := h
      rw [hparse, Except.ok.injEq] at hparse'
      exact ⟨hobject, r, hparse' ▸ hr⟩
    · intro h
      obtain ⟨-, r, hr⟩ := h
      exact ⟨_, srcObj, hparse, r, hr, rfl⟩
  · refine iff_of_false ?_ fun h => hobject h.1
    intro h
    obtain ⟨v, srcObj, hparse, -⟩ := h
    rw [herr] at hparse
    cases hparse

mutual
theorem acceptedAs : ∀ type : TypeNode, AcceptedAs json5 type
  | .array elementType => acceptedAs_array json5 (acceptedAs elementType)
  | .tuple elements => acceptedAs_tuple json5 (acceptedAs_elements elements)
  | .typeLiteral members => acceptedAs_typeLiteral json5 (acceptedAs_members members)
  | .number => acceptedAs_single json5 .number trivial
  | .bigint => acceptedAs_single json5 .bigint trivial
  | .string => acceptedAs_single json5 .string trivial
  | .boolean => acceptedAs_single json5 .boolean trivial
  | .typeReference typeName => acceptedAs_single json5 (.typeReference typeName) trivial
  | .unknown => acceptedAs_single json5 .unknown trivial

theorem acceptedAs_elements : ∀ types : List TypeNode, ∀ type ∈ types, AcceptedAs json5 type
  | [] => fun _ h => absurd h List.not_mem_nil
  | type :: types => List.forall_mem_cons.mpr ⟨acceptedAs type, acceptedAs_elements types⟩

theorem acceptedAs_members : ∀ members : List (JsString × TypeNode),
    ∀ e ∈ members, AcceptedAs json5 e.2
  | [] => fun _ h => absurd h List.not_mem_nil
  | (_, type) :: members => List.forall_mem_cons.mpr ⟨acceptedAs type, acceptedAs_members members⟩
end

end MidnightJs.CompactJs
