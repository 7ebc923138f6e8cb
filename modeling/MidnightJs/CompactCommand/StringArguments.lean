import MidnightJs.CompactCommand.IntegerArguments
import MidnightJs.CompactCommand.QuotedStrings

/-! # String arguments

A string that stands alone is taken as it is. In a list or an object, among values of any other type,
it is quoted and escaped by JSON5, and the parser removes the single quotes but no escapes. -/

namespace MidnightJs.CompactJs
open Foundations Foundations.Js Foundations.Js.JsValue PlatformJs
set_option autoImplicit false

def uint8ArrayType : TypeNode := .typeReference (some (js "Uint8Array"))

def booleanText (b : Bool) : JsString := if b then js "true" else js "false"

/-- The single values beside the strings are ones that the parser reads as they are meant. -/
inductive LeafInside : TypeNode → JsValue → JsValue → Prop
  | string (s : JsString) : LeafInside .string (.string s) (.string s)
  | boolean (b : Bool) : LeafInside .boolean (.boolean b) (.boolean b)
  | number (x : Number) (h : x.HasLiteral) : LeafInside .number (.number x) (.number x)
  | bigint (n : ℤ) (h : PrintedExactly n) : LeafInside .bigint (.number (.ofInt n)) (.bigint n)
  | bytes (text : JsString) (bytes : List UInt8) (h : HexText text bytes) :
      LeafInside uint8ArrayType (.string text) (.buffer bytes)

inductive LeafAlone : TypeNode → JsString → JsValue → Prop
  | string (s : JsString) : LeafAlone .string s (.string s)
  | boolean (b : Bool) : LeafAlone .boolean (booleanText b) (.boolean b)
  | number (x : Number) (h : x.HasLiteral) : LeafAlone .number x.text (.number x)
  | bigint (n : ℤ) : LeafAlone .bigint (bigintText n) (.bigint n)
  | bytes (text : JsString) (bytes : List UInt8) (h : HexText text bytes) :
      LeafAlone uint8ArrayType text (.buffer bytes)

/-- JSON5 has nothing to escape in the strings. -/
def StringsPlain (v : JsValue) : Prop := ∀ s, v = .string s → PlainText s

/-! ## Single values -/

theorem parseString_quoted {s s' : JsString} :
    parseString true (some (Json5.quoteString s)) = .ok (.string s') ↔
      withoutQuotes (Json5.quoteString s) = s' := by
  change Except.ok (JsValue.string (withoutQuotes (Json5.quoteString s))) = _ ↔ _
  simp

theorem parseBoolean_booleanText (b : Bool) :
    parseBoolean (some (booleanText b)) = .ok (.boolean b) := by
  have htest : trueOrFalse (booleanText b) = true := by cases b <;> decide
  have hvalue : decide (some (booleanText b) = some (js "true")) = b := by cases b <;> decide
  rw [parseBoolean, argText, Option.getD_some, if_pos htest, hvalue]

theorem transformParam_bytes (json5 : Json5) (quotedStrings : Bool) (arg : Option JsString) :
    transformParam json5 quotedStrings uint8ArrayType arg = parseBytes quotedStrings arg := by
  rw [uint8ArrayType, transformParam, if_pos rfl]

theorem parseBytes_alone {text : JsString} {bytes : List UInt8} (h : HexText text bytes) :
    parseBytes false (some text) = .ok (.buffer bytes) :=
  parseBytes_eq_ok.mpr ⟨some text, rfl, bytes, rfl, h⟩

theorem parseBytes_quoted {text : JsString} {bytes : List UInt8} (h : HexText text bytes) :
    parseBytes true (some (Json5.quoteString text)) = .ok (.buffer bytes) := by
  have hplain := withoutQuotes_quoteString_plain (plainText_of_hexText h)
  refine parseBytes_eq_ok.mpr ⟨some text, ?_, bytes, rfl, h⟩
  rw [unquoted, hplain]

theorem stringify_boolean (json5 : Json5) (b : Bool) :
    json5.stringify (.boolean b) = some (booleanText b) := by
  cases b with
  | true => exact json5.stringify_true
  | false => exact json5.stringify_false

variable (json5 : Json5)

theorem leafInside_values : SingleValues json5 LeafInside StringsPlain where
  single := by
    intro type w v h
    cases h <;> rfl
  parsed := by
    intro type w v h
    cases h with
    | string s =>
      rw [transformParam, json5.stringify_string, parseString_quoted, withoutQuotes_quoteString]
      simp [StringsPlain]
    | boolean b =>
      rw [transformParam, stringify_boolean, parseBoolean_booleanText]
      simp [StringsPlain]
    | number x hx =>
      rw [transformParam, json5.stringify_number, parseNumber, stringToNumber_text hx]
      simp [StringsPlain]
    | bigint n hn =>
      have hplain : StringsPlain (.bigint n) := by
        intro s hs
        cases hs
      rw [transformParam, json5.stringify_number, parseBigInt_eq_ok, Number.stringToBigInt_text]
      exact iff_of_true hn hplain
    | bytes text bytes hbytes =>
      rw [transformParam_bytes, json5.stringify_string, parseBytes_quoted hbytes]
      simp [StringsPlain]

theorem leafAlone_texts : SingleTexts json5 LeafAlone where
  single := by
    intro type text v h
    cases h <;> rfl
  parsed := by
    intro type text v h
    cases h with
    | string s => rfl
    | boolean b => rw [transformParam, parseBoolean_booleanText]
    | number x hx => rw [transformParam, parseNumber, stringToNumber_text hx]
    | bigint n => rw [transformParam, parseBigInt_eq_ok, stringToBigInt_bigintText]
    | bytes text bytes hbytes => rw [transformParam_bytes, parseBytes_alone hbytes]

/-- Arguments are parsed to the values they write exactly if in lists and objects no string has an
apostrophe, a backslash, a control character or a line separator in it, and every member name is
plain. A string that stands alone is itself. -/
theorem string_arguments_survive (args : List (WrittenArgument json5 LeafInside LeafAlone)) :
    ParsedAs json5 (args.map WrittenArgument.type) (args.map WrittenArgument.text)
        (args.map WrittenArgument.value) ↔
      ∀ arg ∈ args, Survives StringsPlain arg.value :=
  parsedAs_arguments json5 (leafInside_values json5) (leafAlone_texts json5) args

end MidnightJs.CompactJs

/-! ## A string with an apostrophe -/

namespace MidnightJs.CompactJs.Sample
open Foundations Foundations.Js

def notes : JsValue := .array [.string (js "it's")]

def notesTable : List (JsString × JsValue) := [(js "[\"it's\"]", notes)]

theorem notes_text : text notes = some (js "[\"it's\"]") := by decide

theorem notes_readBack : (json5 notesTable).ReadsBackThroughout notes :=
  ⟨⟨js "[\"it's\"]", notes_text, notes, rfl, rfl⟩, trivial, trivial⟩

/-- In the list the apostrophe is lost, and the quotes that JSON5 wrote are kept. -/
theorem note_altered :
    WritesArgument (json5 notesTable) LeafInside LeafAlone (.array .string) (js "[\"it's\"]") notes ∧
      transformParams (json5 notesTable) [some (js "[\"it's\"]")] [.array .string] false =
        .ok [.array [.string (js "\"its\"")]] ∧
      transformParams (json5 notesTable) [some (js "it's")] [.string] false =
        .ok [.string (js "it's")] := by
  refine ⟨⟨notes, rfl, ⟨_, _, rfl, rfl, .cons (.string _) .nil⟩, notes_readBack⟩, ?_, ?_⟩
  · have hread : (json5 notesTable).ReadsAlike (js "[\"it's\"]") notes := ⟨notes, rfl, rfl⟩
    rw [transformParams_one]
    refine (transformParam_array _ hread).mpr ⟨_, rfl, .cons ?_ .nil⟩
    change transformParam _ true .string (some (Json5.quoteString (js "it's"))) = _
    rw [transformParam, parseString_quoted]
    decide
  · rw [transformParams_one]
    rfl

end MidnightJs.CompactJs.Sample
