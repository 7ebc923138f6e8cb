import MidnightJs.CompactCommand.AcceptedArguments

/-! # Literals and what becomes of them

A literal of a type is what the documentation of the commands calls an argument of that type. The
parser accepts other texts besides: it is exact as long as it is given none of them. -/

namespace MidnightJs.CompactJs
open Foundations Foundations.Js Foundations.Js.JsValue PlatformJs
set_option autoImplicit false

/-! ## Shapes -/

section
variable (leaf : TypeNode → JsValue → Prop) (name : JsString → Prop)

mutual
/-- Lists and objects are as the type has them, an object with the members of the type in any order;
`leaf` holds of the single values, and `name` of the names of the members. -/
def Shaped (type : TypeNode) (w : JsValue) : Prop :=
  match type with
  | .array elementType => ∃ ws, w = .array ws ∧ ∀ w ∈ ws, Shaped elementType w
  | .tuple elements => ∃ ws, w = .array ws ∧ ShapedElements elements ws
  | .typeLiteral members => ∃ ms, w = .object ms ∧
      (OrderedMap.keys ms).Perm (OrderedMap.keys members) ∧ ShapedMembers members ms
  | type => leaf type w

def ShapedElements (types : List TypeNode) (ws : List JsValue) : Prop :=
  match types, ws with
  | [], [] => True
  | type :: types, w :: ws => Shaped type w ∧ ShapedElements types ws
  | _, _ => False

def ShapedMembers (members : List (JsString × TypeNode)) (ms : List (JsString × JsValue)) : Prop :=
  match members with
  | [] => True
  | (k, type) :: members =>
    (name k ∧ ∃ w, OrderedMap.get ms k = some w ∧ Shaped type w) ∧ ShapedMembers members ms
end
end

/-- A literal of a type without parts, as JSON5 reads it. -/
def LeafLiteral (type : TypeNode) (w : JsValue) : Prop :=
  match type with
  | .number => ∃ x, w = .number x ∧ x ≠ .nan
  | .bigint => ∃ x : Number, ∃ n, w = .number x ∧ stringToBigInt x.text = some n
  | .string => ∃ s, w = .string s
  | .boolean => ∃ b, w = .boolean b
  | .typeReference typeName => typeName = some (js "Uint8Array") ∧
      ∃ s bytes, w = .string s ∧ HexText s bytes
  | _ => False

def LeafValue (type : TypeNode) (v : JsValue) : Prop :=
  match type with
  | .number => ∃ x, v = .number x ∧ x ≠ .nan
  | .bigint => ∃ n, v = .bigint n
  | .string => ∃ s, v = .string s
  | .boolean => ∃ b, v = .boolean b
  | .typeReference typeName => typeName = some (js "Uint8Array") ∧ ∃ bytes, v = .buffer bytes
  | _ => False

/-- `w` is a literal of the type, with member names of which `name` holds. -/
def Literal (name : JsString → Prop) (type : TypeNode) (w : JsValue) : Prop :=
  Shaped LeafLiteral name type w

def Inhabits (type : TypeNode) (v : JsValue) : Prop := Shaped LeafValue AnyName type v

section
variable {leaf : TypeNode → JsValue → Prop} {name : JsString → Prop}

theorem shapedMembers_iff {members : List (JsString × TypeNode)}
    {ms : List (JsString × JsValue)} : ShapedMembers leaf name members ms ↔
      ∀ e ∈ members, name e.1 ∧ ∃ w, OrderedMap.get ms e.1 = some w ∧ Shaped leaf name e.2 w := by
  induction members with
  | nil => simp [ShapedMembers]
  | cons e members ih => simp [ShapedMembers, ih]

end

mutual
theorem literal_anyName : ∀ {type : TypeNode} {w : JsValue},
    Literal PlainName type w → Literal AnyName type w
  | .array _, _, ⟨ws, hw, hws⟩ => ⟨ws, hw, fun w hw => literal_anyName (hws w hw)⟩
  | .tuple _, _, ⟨ws, hw, hws⟩ => ⟨ws, hw, literalElements_anyName hws⟩
  | .typeLiteral _, _, ⟨ms, hw, hperm, hms⟩ => ⟨ms, hw, hperm, literalMembers_anyName hms⟩
  | .number, _, h => h
  | .bigint, _, h => h
  | .string, _, h => h
  | .boolean, _, h => h
  | .typeReference _, _, h => h
  | .unknown, _, h => h

theorem literalElements_anyName : ∀ {types : List TypeNode} {ws : List JsValue},
    ShapedElements LeafLiteral PlainName types ws → ShapedElements LeafLiteral AnyName types ws
  | [], [], h => h
  | _ :: _, _ :: _, ⟨h, hs⟩ => ⟨literal_anyName h, literalElements_anyName hs⟩

theorem literalMembers_anyName : ∀ {members : List (JsString × TypeNode)}
    {ms : List (JsString × JsValue)}, ShapedMembers LeafLiteral PlainName members ms →
    ShapedMembers LeafLiteral AnyName members ms
  | [], _, h => h
  | (_, _) :: _, _, ⟨⟨_, w, hw, h⟩, hs⟩ =>
    ⟨⟨trivial, w, hw, literal_anyName h⟩, literalMembers_anyName hs⟩
end

/-! ## Single values -/

variable (json5 : Json5)

theorem stringToNumber_text_ne_nan {x : Number} (h : x ≠ .nan) : stringToNumber x.text ≠ .nan := by
  cases x with
  | nan => exact absurd rfl h
  | infinity negative => cases negative <;> decide
  | finite negative magnitude isDouble =>
    by_cases hliteral : Number.HasLiteral (.finite negative magnitude isDouble)
    · rw [stringToNumber_text hliteral]
      exact h
    · -- Negative zero is written as zero.
      have hzero : magnitude = 0 := by
        by_contra hne
        exact hliteral fun heq => absurd heq hne
      have htext : Number.zero.text = js "0" := by
        simp [Number.zero, Number.text]
      have hread : stringToNumber Number.zero.text = .zero := stringToNumber_text fun _ => rfl
      have hne : Number.zero ≠ .nan := by simp [Number.zero]
      rw [Number.text, if_pos hzero, ← htext, hread]
      exact hne

theorem leafValue_of_literal {type : TypeNode} {w v : JsValue} (hliteral : LeafLiteral type w)
    (h : transformParam json5 true type (json5.stringify w) = .ok v) : LeafValue type v := by
  cases type with
  | number =>
    obtain ⟨x, rfl, hx⟩ := hliteral
    rw [json5.stringify_number] at h
    cases h
    exact ⟨_, rfl, stringToNumber_text_ne_nan hx⟩
  | bigint =>
    obtain ⟨x, n, rfl, hn⟩ := hliteral
    rw [json5.stringify_number, transformParam, parseBigInt, hn] at h
    cases h
    exact ⟨n, rfl⟩
  | string =>
    obtain ⟨s, rfl⟩ := hliteral
    rw [json5.stringify_string] at h
    cases h
    exact ⟨_, rfl⟩
  | boolean =>
    obtain ⟨b, rfl⟩ := hliteral
    rw [stringify_boolean, transformParam, parseBoolean_booleanText] at h
    cases h
    exact ⟨b, rfl⟩
  | typeReference typeName =>
    obtain ⟨rfl, s, bytes, rfl, hbytes⟩ := hliteral
    rw [transformParam, if_pos rfl] at h
    obtain ⟨_, -, bytes', rfl, -⟩ := parseBytes_eq_ok.mp h
    exact ⟨rfl, bytes', rfl⟩
  | _ => exact hliteral.elim

/-! ## Lists and objects -/

theorem forall_iff_of_forall₂ {α β : Type} {r : α → β → Prop} {p : α → Prop} {q : β → Prop}
    {as : List α} {bs : List β} (h : List.Forall₂ r as bs)
    (hpq : ∀ a ∈ as, ∀ b, r a b → (q b ↔ p a)) : (∀ b ∈ bs, q b) ↔ ∀ a ∈ as, p a := by
  induction h with
  | nil => simp
  | cons hr _ ih =>
    rw [List.forall_mem_cons] at hpq
    rw [List.forall_mem_cons, List.forall_mem_cons, hpq.1 _ hr, ih hpq.2]

theorem forall₂_iff_of_forall₂ {α β : Type} {r q : α → β → Prop} {p : α → Prop} {as : List α}
    {bs : List β} (h : List.Forall₂ r as bs) (hpq : ∀ a ∈ as, ∀ b, r a b → (q a b ↔ p a)) :
    List.Forall₂ q as bs ↔ ∀ a ∈ as, p a := by
  induction h with
  | nil => simp
  | cons hr _ ih =>
    rw [List.forall_mem_cons] at hpq
    rw [List.forall₂_cons, List.forall_mem_cons, hpq.1 _ hr, ih hpq.2]

/-- What is made of a literal inhabits the type exactly if the names of members in it are plain. -/
def InhabitedAs (type : TypeNode) : Prop :=
  ∀ (quotedStrings : Bool) (arg : Option JsString) (w v : JsValue), Distinct type →
    json5.ReadsBackThroughout w → ReadAs json5 quotedStrings type arg w → Literal AnyName type w →
    transformParam json5 quotedStrings type arg = .ok v →
    (Inhabits type v ↔ Literal PlainName type w)

theorem InhabitedAs.inside {type : TypeNode} (h : InhabitedAs json5 type)
    (hdistinct : Distinct type) {w v : JsValue} (hback : json5.ReadsBackThroughout w)
    (hliteral : Literal AnyName type w)
    (hok : transformParam json5 true type (json5.stringify w) = .ok v) :
    Inhabits type v ↔ Literal PlainName type w :=
  h true _ w v hdistinct hback (readAs_of_back json5 type hback) hliteral hok

theorem inhabitedAs_single (type : TypeNode) (hsingle : SingleType type) :
    InhabitedAs json5 type := by
  intro quotedStrings arg w v _ _ harg hliteral hok
  have hread := readAs_single json5 hsingle harg
  have hleaf : LeafLiteral type w := by
    cases type <;> first | exact hliteral | exact hsingle.elim
  rw [hread.1, hread.2] at hok
  have hvalue := leafValue_of_literal json5 hleaf hok
  cases type <;> first | exact iff_of_true hvalue hleaf | exact hsingle.elim

theorem inhabitedAs_array {elementType : TypeNode} (ih : InhabitedAs json5 elementType) :
    InhabitedAs json5 (.array elementType) := by
  intro quotedStrings arg w v hdistinct hback harg hliteral hok
  obtain ⟨ws, rfl, hws⟩ := hliteral
  obtain ⟨vs, rfl, hvs⟩ := (transformParam_array json5 harg).mp hok
  have hbacks := (elementsReadBack_iff json5).mp hback.2
  have hall : (∀ v ∈ vs, Inhabits elementType v) ↔ ∀ w ∈ ws, Literal PlainName elementType w :=
    forall_iff_of_forall₂ hvs fun w hw v hv =>
      ih.inside json5 hdistinct (hbacks w hw) (hws w hw) hv
  constructor
  · intro h
    obtain ⟨vs', heq, hvs'⟩ := h
    cases heq
    exact ⟨ws, rfl, hall.mp hvs'⟩
  · intro h
    obtain ⟨ws', heq, hws'⟩ := h
    cases heq
    exact ⟨vs, rfl, hall.mpr hws'⟩

theorem inhabited_elements {types : List TypeNode} (ih : ∀ type ∈ types, InhabitedAs json5 type)
    (hdistinct : DistinctElements types) {ws vs : List JsValue} (idx : ℕ)
    (hback : json5.ElementsReadBack ws)
    (hliteral : ShapedElements LeafLiteral AnyName types ws)
    (hok : transformTypes json5 true types idx (ws.map json5.stringify) = .ok vs) :
    ShapedElements LeafValue AnyName types vs ↔ ShapedElements LeafLiteral PlainName types ws := by
  induction types generalizing ws vs idx with
  | nil =>
    cases ws with
    | nil =>
      cases hok
      exact Iff.rfl
    | cons w ws => exact hliteral.elim
  | cons type types ihs =>
    cases ws with
    | nil => exact hliteral.elim
    | cons w ws =>
      rw [List.forall_mem_cons] at ih
      rw [List.map_cons] at hok
      obtain ⟨v, rest, hv, hrest, rfl⟩ := (transformTypes_cons json5).mp hok
      have hhead := InhabitedAs.inside json5 ih.1 hdistinct.1 hback.1 hliteral.1 hv
      exact and_congr hhead (ihs ih.2 hdistinct.2 (idx + 1) hback.2 hliteral.2 hrest)

theorem inhabitedAs_tuple {elements : List TypeNode}
    (ih : ∀ type ∈ elements, InhabitedAs json5 type) : InhabitedAs json5 (.tuple elements) := by
  intro quotedStrings arg w v hdistinct hback harg hliteral hok
  obtain ⟨ws, rfl, hws⟩ := hliteral
  obtain ⟨-, vs, rfl, hvs⟩ := (transformParam_tuple json5 harg).mp hok
  have hall := inhabited_elements json5 ih hdistinct 0 hback.2 hws hvs
  constructor
  · intro h
    obtain ⟨vs', heq, hvs'⟩ := h
    cases heq
    exact ⟨ws, rfl, hall.mp hvs'⟩
  · intro h
    obtain ⟨ws', heq, hws'⟩ := h
    cases heq
    exact ⟨vs, rfl, hall.mpr hws'⟩

theorem inhabitedAs_typeLiteral {members : List (JsString × TypeNode)}
    (ih : ∀ e ∈ members, InhabitedAs json5 e.2) : InhabitedAs json5 (.typeLiteral members) := by
  intro quotedStrings arg w v hdistinct hback harg hliteral hok
  obtain ⟨ms, rfl, hperm, hms⟩ := hliteral
  rw [shapedMembers_iff] at hms
  obtain ⟨cur, hcurkeys, hcur, hloop⟩ :=
    transformParam_object json5 quotedStrings hdistinct.1 harg
  obtain ⟨after, rfl, hafter⟩ := (hloop v).mp hok
  obtain ⟨after', heq, hparsed⟩ := transformMembers_ok json5 hdistinct.1 hafter
  cases heq
  have hmember : ∀ e ∈ members, Distinct e.2 := distinctMembers_iff.mp hdistinct.2
  by_cases hplain : ∀ e ∈ members, PlainName e.1
  · have hkeys : OrderedMap.keys after = OrderedMap.keys ms := by
      rw [← hcurkeys]
      refine hparsed.keys fun e he => ?_
      rw [escapedText_of_plain (hplain e he), hcurkeys]
      exact hperm.mem_iff.mpr (List.mem_map_of_mem he)
    have hall : (∀ e ∈ members, AnyName e.1 ∧ ∃ v, OrderedMap.get after e.1 = some v ∧
        Inhabits e.2 v) ↔ ∀ e ∈ members, PlainName e.1 ∧ ∃ w, OrderedMap.get ms e.1 = some w ∧
        Literal PlainName e.2 w := by
      refine forall₂_congr fun e he => ?_
      obtain ⟨-, w, hw, hwliteral⟩ := hms e he
      obtain ⟨v, hv, hput⟩ := hparsed.parsed e he
      rw [hcur, memberArg_plain json5 (hplain e he) hw] at hv
      rw [escapedText_of_plain (hplain e he)] at hput
      have hinside := InhabitedAs.inside json5 (ih e he) (hmember e he)
        (hback.2.of_mem (OrderedMap.mem_of_get hw)) hwliteral hv
      simp only [hput, hw, Option.some.injEq, exists_eq_left', hinside, hplain e he, AnyName]
    constructor
    · intro h
      obtain ⟨_, heq, -, hvs⟩ := h
      cases heq
      exact ⟨ms, rfl, hperm, shapedMembers_iff.mpr (hall.mp (shapedMembers_iff.mp hvs))⟩
    · intro h
      obtain ⟨_, heq, -, hws⟩ := h
      cases heq
      exact ⟨after, rfl, hkeys ▸ hperm,
        shapedMembers_iff.mpr (hall.mpr (shapedMembers_iff.mp hws))⟩
  · simp only [not_forall] at hplain
    obtain ⟨e, he, hname⟩ := hplain
    refine iff_of_false ?_ ?_
    · intro h
      obtain ⟨_, heq, hafterkeys, -⟩ := h
      cases heq
      exact hname (hparsed.plain json5 hafterkeys e he)
    · intro h
      obtain ⟨_, -, -, hws⟩ := h
      exact hname (shapedMembers_iff.mp hws e he).1

mutual
theorem inhabitedAs : ∀ type : TypeNode, InhabitedAs json5 type
  | .array elementType => inhabitedAs_array json5 (inhabitedAs elementType)
  | .tuple elements => inhabitedAs_tuple json5 (inhabitedAs_elements elements)
  | .typeLiteral members => inhabitedAs_typeLiteral json5 (inhabitedAs_members members)
  | .number => inhabitedAs_single json5 .number trivial
  | .bigint => inhabitedAs_single json5 .bigint trivial
  | .string => inhabitedAs_single json5 .string trivial
  | .boolean => inhabitedAs_single json5 .boolean trivial
  | .typeReference typeName => inhabitedAs_single json5 (.typeReference typeName) trivial
  | .unknown => inhabitedAs_single json5 .unknown trivial

theorem inhabitedAs_elements : ∀ types : List TypeNode, ∀ type ∈ types, InhabitedAs json5 type
  | [] => fun _ h => absurd h List.not_mem_nil
  | type :: types => List.forall_mem_cons.mpr ⟨inhabitedAs type, inhabitedAs_elements types⟩

theorem inhabitedAs_members : ∀ members : List (JsString × TypeNode),
    ∀ e ∈ members, InhabitedAs json5 e.2
  | [] => fun _ h => absurd h List.not_mem_nil
  | (_, type) :: members =>
    List.forall_mem_cons.mpr ⟨inhabitedAs type, inhabitedAs_members members⟩
end

/-! ## Texts -/

/-- What the parser accepts of a command line: a word that begins with `true` or ends with `false` as
a boolean, an empty word as the integer zero, anything as a number. -/
def TextAdmits (type : TypeNode) (text : JsString) : Prop :=
  match type with
  | .number => True
  | .bigint => ∃ n, stringToBigInt text = some n
  | .string => True
  | .boolean => trueOrFalse text = true
  | .typeReference typeName => typeName = some (js "Uint8Array") → ∃ bytes, HexText text bytes
  | .unknown => True
  | type => ∃ w, json5.parse text = .ok w ∧ Admits type (some w)

def TextLiteral (name : JsString → Prop) (type : TypeNode) (text : JsString) : Prop :=
  match type with
  | .number => trim text ≠ [] ∧ stringToNumber text ≠ .nan
  | .bigint => trim text ≠ [] ∧ ∃ n, stringToBigInt text = some n
  | .string => True
  | .boolean => text = js "true" ∨ text = js "false"
  | .typeReference typeName => typeName = some (js "Uint8Array") ∧ ∃ bytes, HexText text bytes
  | .unknown => False
  | type => ∃ w, json5.parse text = .ok w ∧ Literal name type w

/-- A text for a parameter. What JSON5 reads of the text it writes and reads again. -/
structure TypedText where
  type : TypeNode
  text : JsString
  distinct : Distinct type
  readsBack : ∀ w, json5.parse text = .ok w → json5.ReadsBackThroughout w

theorem accepted_list {type : TypeNode} {text : JsString} (hdistinct : Distinct type)
    (hback : ∀ w, json5.parse text = .ok w → json5.ReadsBackThroughout w)
    (hread : ∀ w, ReadAs json5 false type (some text) w ↔ json5.ReadsAlike text w)
    (hfail : ∀ err, json5.parse text = .error err →
      ∃ err', transformParam json5 false type (some text) = .error err') :
    (∃ v, transformParam json5 false type (some text) = .ok v) ↔
      ∃ w, json5.parse text = .ok w ∧ Admits type (some w) := by
  cases hparse : json5.parse text with
  | error err =>
    obtain ⟨err', herr'⟩ := hfail err hparse
    rw [herr']
    exact iff_of_false (by simp) (by simp)
  | ok w =>
    have halike := (hread w).mpr (Json5.readsAlike_of_parse hparse (hback w hparse))
    rw [acceptedAs json5 type hdistinct (hback w hparse) halike]
    simp

theorem accepted_text (arg : TypedText json5) :
    (∃ v, transformParam json5 false arg.type (some arg.text) = .ok v) ↔
      TextAdmits json5 arg.type arg.text := by
  obtain ⟨type, text, hdistinct, hback⟩ := arg
  dsimp only
  cases type with
  | number => exact iff_of_true ⟨_, rfl⟩ trivial
  | string => exact iff_of_true ⟨_, rfl⟩ trivial
  | unknown => exact iff_of_true ⟨_, rfl⟩ trivial
  | bigint =>
    rw [transformParam, TextAdmits, parseBigInt]
    cases stringToBigInt text <;> simp
  | boolean =>
    rw [transformParam, TextAdmits, parseBoolean, argText, Option.getD_some]
    cases trueOrFalse text <;> simp
  | typeReference typeName =>
    rw [transformParam, TextAdmits]
    by_cases hname : typeName = some (js "Uint8Array")
    · rw [if_pos hname]
      constructor
      · intro h _
        obtain ⟨v, hv⟩ := h
        exact parseBytes_hexText hv
      · intro h
        obtain ⟨bytes, hbytes⟩ := h hname
        exact ⟨_, parseBytes_alone hbytes⟩
    · rw [if_neg hname]
      exact iff_of_true ⟨_, rfl⟩ fun h => absurd h hname
  | array elementType =>
    refine accepted_list json5 hdistinct hback (fun w => Iff.rfl) fun err herr => ?_
    exact ⟨.thrown err, by rw [transformParam, parseElements, argText, Option.getD_some, herr]; rfl⟩
  | tuple elements =>
    refine accepted_list json5 hdistinct hback (fun w => Iff.rfl) fun err herr => ?_
    exact ⟨.thrown err, by rw [transformParam, parseElements, argText, Option.getD_some, herr]; rfl⟩
  | typeLiteral members =>
    refine accepted_list json5 hdistinct hback (fun w => Iff.rfl) fun err herr => ?_
    exact ⟨.thrown err, by rw [transformParam, parseObject, argText, Option.getD_some, herr]; rfl⟩

theorem textLiteral_anyName {type : TypeNode} {text : JsString}
    (h : TextLiteral json5 PlainName type text) : TextLiteral json5 AnyName type text := by
  cases type with
  | array _ => exact h.imp fun w hw => ⟨hw.1, literal_anyName hw.2⟩
  | tuple _ => exact h.imp fun w hw => ⟨hw.1, literal_anyName hw.2⟩
  | typeLiteral _ => exact h.imp fun w hw => ⟨hw.1, literal_anyName hw.2⟩
  | _ => exact h

theorem inhabited_list {type : TypeNode} {text : JsString} {v : JsValue}
    (hdistinct : Distinct type)
    (hback : ∀ w, json5.parse text = .ok w → json5.ReadsBackThroughout w)
    (hread : ∀ w, ReadAs json5 false type (some text) w ↔ json5.ReadsAlike text w)
    (hok : transformParam json5 false type (some text) = .ok v)
    (h : ∃ w, json5.parse text = .ok w ∧ Literal AnyName type w) :
    Inhabits type v ↔ ∃ w, json5.parse text = .ok w ∧ Literal PlainName type w := by
  obtain ⟨w, hparse, hliteral⟩ := h
  have halike := (hread w).mpr (Json5.readsAlike_of_parse hparse (hback w hparse))
  rw [inhabitedAs json5 type false (some text) w v hdistinct (hback w hparse) halike hliteral hok]
  simp [hparse]

theorem inhabited_text (arg : TypedText json5) {v : JsValue}
    (hok : transformParam json5 false arg.type (some arg.text) = .ok v)
    (h : TextLiteral json5 AnyName arg.type arg.text) :
    Inhabits arg.type v ↔ TextLiteral json5 PlainName arg.type arg.text := by
  obtain ⟨type, text, hdistinct, hback⟩ := arg
  dsimp only at hok h ⊢
  cases type with
  | array elementType =>
    exact inhabited_list json5 hdistinct hback (fun w => Iff.rfl) hok h
  | tuple elements =>
    exact inhabited_list json5 hdistinct hback (fun w => Iff.rfl) hok h
  | typeLiteral members =>
    exact inhabited_list json5 hdistinct hback (fun w => Iff.rfl) hok h
  | number =>
    cases hok
    exact iff_of_true ⟨_, rfl, h.2⟩ h
  | string =>
    cases hok
    exact iff_of_true ⟨_, rfl⟩ h
  | bigint =>
    obtain ⟨n, hn⟩ := h.2
    rw [transformParam, parseBigInt, hn] at hok
    cases hok
    exact iff_of_true ⟨n, rfl⟩ h
  | boolean =>
    have htest : trueOrFalse text = true := by obtain rfl | rfl := h <;> decide
    rw [transformParam, parseBoolean, argText, Option.getD_some, if_pos htest] at hok
    cases hok
    exact iff_of_true ⟨_, rfl⟩ h
  | typeReference typeName =>
    obtain ⟨rfl, hbytes⟩ := h
    rw [transformParam, if_pos rfl] at hok
    obtain ⟨_, -, bytes, rfl, -⟩ := parseBytes_eq_ok.mp hok
    exact iff_of_true ⟨rfl, bytes, rfl⟩ ⟨rfl, hbytes⟩
  | unknown => exact h.elim

/-! ## Lists of arguments -/

/-- Arguments are parsed only if each is a literal of its type, and then to values of the types. -/
def SoundlyParsed (args : List (TypedText json5)) : Prop :=
  ∀ vs, ParsedAs json5 (args.map TypedText.type) (args.map TypedText.text) vs →
    (∀ arg ∈ args, TextLiteral json5 AnyName arg.type arg.text) ∧
      List.Forall₂ (fun arg v => Inhabits arg.type v) args vs

theorem inhabited_texts (args : List (TypedText json5)) {vs : List JsValue}
    (hvs : List.Forall₂ (fun arg v => transformParam json5 false arg.type (some arg.text) = .ok v)
      args vs)
    (hliteral : ∀ arg ∈ args, TextLiteral json5 AnyName arg.type arg.text) :
    List.Forall₂ (fun arg v => Inhabits arg.type v) args vs ↔
      ∀ arg ∈ args, TextLiteral json5 PlainName arg.type arg.text :=
  forall₂_iff_of_forall₂ hvs fun arg harg _ hv => inhabited_text json5 arg hv (hliteral arg harg)

theorem soundlyParsed_iff (args : List (TypedText json5)) : SoundlyParsed json5 args ↔
    ((∀ arg ∈ args, TextAdmits json5 arg.type arg.text) →
      ∀ arg ∈ args, TextLiteral json5 PlainName arg.type arg.text) := by
  simp only [SoundlyParsed, parsedAs_iff, transformParams_each]
  constructor
  · intro h hadmits
    obtain ⟨vs, hvs⟩ := exists_forall₂.mpr fun arg harg =>
      (accepted_text json5 arg).mpr (hadmits arg harg)
    obtain ⟨hliteral, hinhabits⟩ := h vs hvs
    exact (inhabited_texts json5 args hvs hliteral).mp hinhabits
  · intro h vs hvs
    have hadmits : ∀ arg ∈ args, TextAdmits json5 arg.type arg.text := fun arg harg =>
      (accepted_text json5 arg).mp (exists_forall₂.mp ⟨vs, hvs⟩ arg harg)
    have hplain := h hadmits
    have hliteral : ∀ arg ∈ args, TextLiteral json5 AnyName arg.type arg.text := fun arg harg =>
      textLiteral_anyName json5 (hplain arg harg)
    exact ⟨hliteral, (inhabited_texts json5 args hvs hliteral).mpr hplain⟩

/-- Another number of arguments than there are parameters. -/
theorem rejected_of_length {types : List TypeNode} {texts : List JsString}
    (h : texts.length ≠ types.length) : Rejected json5 types texts := by
  have hcount : checkCount types.length (texts.map some).length = .error (.contractRuntimeError
      (js "Invalid number of arguments. Expected " ++ naturalText types.length ++
        js " arguments, but got " ++ naturalText texts.length) none) := by
    rw [checkCount, List.length_map, if_neg (Ne.symm h)]
  have hparams : ∃ err, transformParams json5 (texts.map some) types false = .error err := by
    rw [transformParams, hcount]
    exact ⟨_, rfl⟩
  obtain ⟨err, herr⟩ := hparams
  exact rejected_of_params json5 herr

end MidnightJs.CompactJs
