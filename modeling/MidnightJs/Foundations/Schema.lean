import MidnightJs.Foundations.JsonValues

/-! # Schemas

A schema writes the values of a type as JSON data and reads them back. Each carries its law, so that
a schema built by the combinators below reads what it writes (`Schema.decode_encode`), and what it
writes survives `JSON.stringify` and `JSON.parse` (`Schema.isJson`). -/

namespace Foundations.Js
set_option autoImplicit false

structure Schema (α : Type) where
  encode : α → JsValue
  /-- `none` is a parse error. -/
  decode : JsValue → Option α
  isJson : ∀ a, (encode a).IsJson
  decode_encode : ∀ a, decode (encode a) = some a

namespace Schema

variable {α β : Type}

/-! ## Primitive schemas -/

def boolean : Schema Bool where
  encode b := .boolean b
  decode
    | .boolean b => some b
    | _ => none
  isJson _ := trivial
  decode_encode _ := rfl

theorem trim_bigintText (n : ℤ) : trim (bigintText n) ≠ [] := by
  intro h
  have hvalue := stringToBigInt_bigintText n
  rw [stringToBigInt, h] at hvalue
  simp only [Option.some.injEq] at hvalue
  subst hvalue
  revert h
  decide

/-- Decimal text; unlike `BigInt`, the schema rejects blank text. -/
def bigint : Schema ℤ where
  encode n := .string (bigintText n)
  decode
    | .string s => if (trim s).isEmpty then none else stringToBigInt s
    | _ => none
  isJson _ := trivial
  decode_encode n := by
    have hne := trim_bigintText n
    simp only [List.isEmpty_iff, hne, if_false]
    exact stringToBigInt_bigintText n

/-- A number between 0 and 255 becomes the byte of its whole part. -/
def decodeByte : JsValue → Option UInt8
  | .number (.finite negative magnitude _) =>
    if (negative = true → magnitude = 0) ∧ magnitude ≤ 255 then some ⌊magnitude⌋.toNat.toUInt8
    else none
  | _ => none

theorem byte_natAbs_lt (b : UInt8) : (b.toNat : ℤ).natAbs < 2 ^ 53 := by
  have := b.toNat_lt
  omega

theorem decodeByte_ofInt (b : UInt8) : decodeByte (.number (.ofInt b.toNat)) = some b := by
  have hle : ((b.toNat : ℤ).natAbs : ℚ) ≤ 255 := by
    have : b.toNat ≤ 255 := by
      have := b.toNat_lt
      omega
    exact_mod_cast this
  have hpositive : decide ((b.toNat : ℤ) < 0) = false := by simp
  rw [Number.ofInt_of_lt (byte_natAbs_lt b), decodeByte, hpositive,
    if_pos ⟨fun h => absurd h Bool.false_ne_true, hle⟩]
  simp

def encodeBytes (bytes : List UInt8) : List JsValue :=
  bytes.map fun b => .number (.ofInt b.toNat)

theorem encodeBytes_isJson (bytes : List UInt8) : elementsAreJson (encodeBytes bytes) := by
  induction bytes with
  | nil => trivial
  | cons b bytes ih => exact ⟨Number.ofInt_hasLiteral (byte_natAbs_lt b), ih⟩

/-- A list of numbers. -/
def uint8Array : Schema (List UInt8) where
  encode bytes := .array (encodeBytes bytes)
  decode
    | .array elements => elements.mapM decodeByte
    | _ => none
  isJson := encodeBytes_isJson
  decode_encode bytes := by
    induction bytes with
    | nil => rfl
    | cons b bytes ih =>
      simp only [encodeBytes, List.map_cons, List.mapM_cons, decodeByte_ofInt] at ih ⊢
      rw [ih]
      rfl

/-! ## Lists -/

theorem map_encode_isJson (s : Schema α) (as : List α) : elementsAreJson (as.map s.encode) := by
  induction as with
  | nil => trivial
  | cons a as ih => exact ⟨s.isJson a, ih⟩

def array (s : Schema α) : Schema (List α) where
  encode as := .array (as.map s.encode)
  decode
    | .array elements => elements.mapM s.decode
    | _ => none
  isJson := map_encode_isJson s
  decode_encode as := by
    induction as with
    | nil => rfl
    | cons a as ih =>
      simp only [List.map_cons, List.mapM_cons, s.decode_encode] at ih ⊢
      rw [ih]
      rfl

/-! ## Records -/

/-- Some of the members of an object, under their names. A member is read wherever it stands, and
other members are ignored. -/
structure Fields (α : Type) where
  names : List JsString
  encode : α → List (JsString × JsValue)
  decode : List (JsString × JsValue) → Option α
  keys_encode : ∀ a, OrderedMap.keys (encode a) = names
  isJson : ∀ a, membersAreJson (encode a)
  decode_encode : ∀ a ms, (∀ e ∈ encode a, OrderedMap.get ms e.1 = some e.2) → decode ms = some a

theorem membersAreJson_append {ms ms' : List (JsString × JsValue)} (h : membersAreJson ms)
    (h' : membersAreJson ms') : membersAreJson (ms ++ ms') := by
  induction ms with
  | nil => exact h'
  | cons e ms ih => exact ⟨h.1, ih h.2⟩

def field (name : JsString) (s : Schema α) : Fields α where
  names := [name]
  encode a := [(name, s.encode a)]
  decode ms := (OrderedMap.get ms name).bind s.decode
  keys_encode _ := rfl
  isJson a := ⟨s.isJson a, trivial⟩
  decode_encode a ms h := by
    have hget : OrderedMap.get ms name = some (s.encode a) := h (name, s.encode a) (by simp)
    rw [hget]
    exact s.decode_encode a

def Fields.and (f : Fields α) (g : Fields β) : Fields (α × β) where
  names := f.names ++ g.names
  encode p := f.encode p.1 ++ g.encode p.2
  decode ms :=
    match f.decode ms, g.decode ms with
    | some a, some b => some (a, b)
    | _, _ => none
  keys_encode p := by
    rw [OrderedMap.keys, List.map_append]
    exact congrArg₂ _ (f.keys_encode p.1) (g.keys_encode p.2)
  isJson p := membersAreJson_append (f.isJson p.1) (g.isJson p.2)
  decode_encode p ms h := by
    have hf := f.decode_encode p.1 ms fun e he => h e (List.mem_append_left _ he)
    have hg := g.decode_encode p.2 ms fun e he => h e (List.mem_append_right _ he)
    simp only [hf, hg]

def Fields.imap (f : Fields α) (make : α → β) (fields : β → α) (h : ∀ b, make (fields b) = b) :
    Fields β where
  names := f.names
  encode b := f.encode (fields b)
  decode ms := (f.decode ms).map make
  keys_encode b := f.keys_encode (fields b)
  isJson b := f.isJson (fields b)
  decode_encode b ms hms := by
    rw [f.decode_encode (fields b) ms hms, Option.map_some, h]

def struct (f : Fields α) (h : f.names.Nodup) : Schema α where
  encode a := .object (f.encode a)
  decode
    | .object ms => f.decode ms
    | _ => none
  isJson a := ⟨f.keys_encode a ▸ h, f.isJson a⟩
  decode_encode a := by
    have hnodup : (OrderedMap.keys (f.encode a)).Nodup := f.keys_encode a ▸ h
    exact f.decode_encode a _ fun e he => OrderedMap.get_of_mem hnodup he

/-! ## The text of a value -/

/-- What a schema writes as text reads back as the value. -/
theorem decode_text (s : Schema α) (a : α) :
    ∃ text, jsonStringify (s.encode a) = .ok (some text) ∧
      ∃ v, jsonParse text = .ok v ∧ s.decode v = some a := by
  obtain ⟨text, hwrite, hread⟩ := jsonParse_jsonStringify (s.isJson a)
  exact ⟨text, hwrite, s.encode a, hread, s.decode_encode a⟩

end Schema

end Foundations.Js
