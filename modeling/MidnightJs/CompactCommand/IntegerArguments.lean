import MidnightJs.CompactCommand.WrittenArguments
import MidnightJs.Foundations.ExactIntegers

/-! # Integer arguments

An integer that stands alone is read from its digits. In a list or an object the number nearest to it
is read, and the text of that number is parsed. -/

namespace MidnightJs.CompactJs
open Foundations Foundations.Js Foundations.Js.JsValue
set_option autoImplicit false

inductive IntegerInside : TypeNode → JsValue → JsValue → Prop
  | bigint (n : ℤ) : IntegerInside .bigint (.number (.ofInt n)) (.bigint n)

inductive IntegerAlone : TypeNode → JsString → JsValue → Prop
  | bigint (n : ℤ) : IntegerAlone .bigint (bigintText n) (.bigint n)

/-- The number nearest to an integer is printed as that integer. -/
def PrintedExactly (n : ℤ) : Prop := (Number.ofInt n).text = bigintText n

def IntegersPrintedExactly (v : JsValue) : Prop := ∀ n, v = .bigint n → PrintedExactly n

theorem printedExactly_of_lt {n : ℤ} (h : n.natAbs < 2 ^ 53) : PrintedExactly n := Number.text_ofInt h

theorem not_printedExactly_of_large {n : ℤ} (h : 10 ^ 21 ≤ n.natAbs) : ¬ PrintedExactly n :=
  Number.text_ne_bigintText h (Number.ofInt n)

theorem parseBigInt_eq_ok {text : JsString} {n : ℤ} :
    parseBigInt (some text) = .ok (.bigint n) ↔ stringToBigInt text = some n := by
  rw [parseBigInt]
  cases stringToBigInt text <;> simp

variable (json5 : Json5)

theorem integerInside_values : SingleValues json5 IntegerInside IntegersPrintedExactly where
  single := by
    rintro _ _ _ ⟨n⟩
    rfl
  parsed := by
    rintro _ _ _ ⟨n⟩
    rw [transformParam, json5.stringify_number, parseBigInt_eq_ok, Number.stringToBigInt_text]
    simp [IntegersPrintedExactly, PrintedExactly]

theorem integerAlone_texts : SingleTexts json5 IntegerAlone where
  single := by
    rintro _ _ _ ⟨n⟩
    rfl
  parsed := by
    rintro _ _ _ ⟨n⟩
    rw [transformParam, parseBigInt_eq_ok]
    exact stringToBigInt_bigintText n

/-- Integer arguments are parsed to the integers they write exactly if in lists and objects every
integer is one that its number prints as, and every member name is plain. -/
theorem integer_arguments_exact (args : List (WrittenArgument json5 IntegerInside IntegerAlone)) :
    ParsedAs json5 (args.map WrittenArgument.type) (args.map WrittenArgument.text)
        (args.map WrittenArgument.value) ↔
      ∀ arg ∈ args, Survives IntegersPrintedExactly arg.value :=
  parsedAs_arguments json5 (integerInside_values json5) (integerAlone_texts json5) args

end MidnightJs.CompactJs

/-! ## An amount that is rounded -/

namespace MidnightJs.CompactJs.Sample
open Foundations Foundations.Js

/-- What JSON5 reads for `[9007199254740993]`, and what it writes for that. -/
def amounts : JsValue := .array [.number (.ofInt 9007199254740993)]

def amountsTable : List (JsString × JsValue) :=
  [(js "[9007199254740993]", amounts), (js "[9007199254740992]", amounts)]

theorem text_amount : (Number.ofInt 9007199254740993).text = js "9007199254740992" := by
  decide +kernel

theorem amounts_text : text amounts = some (js "[9007199254740992]") := by
  rw [amounts, text, elementsText, text, text_amount]
  decide

theorem amounts_readBack : (json5 amountsTable).ReadsBackThroughout amounts :=
  ⟨⟨js "[9007199254740992]", amounts_text, amounts, rfl, rfl⟩, trivial, trivial⟩

/-- The argument `[9007199254740993]` writes an integer of that value; parsed is another one. -/
theorem amount_rounded :
    WritesArgument (json5 amountsTable) IntegerInside IntegerAlone (.array .bigint)
        (js "[9007199254740993]") (.array [.bigint 9007199254740993]) ∧
      transformParams (json5 amountsTable) [some (js "[9007199254740993]")] [.array .bigint] false =
        .ok [.array [.bigint 9007199254740992]] ∧
      transformParams (json5 amountsTable) [some (js "9007199254740993")] [.bigint] false =
        .ok [.bigint 9007199254740993] := by
  refine ⟨⟨amounts, rfl, ⟨_, _, rfl, rfl, .cons (.bigint _) .nil⟩, amounts_readBack⟩, ?_, ?_⟩
  · have hread : (json5 amountsTable).ReadsAlike (js "[9007199254740993]") amounts :=
      ⟨amounts, rfl, rfl⟩
    rw [transformParams_one]
    refine (transformParam_array _ hread).mpr ⟨_, rfl, .cons ?_ .nil⟩
    change transformParam _ true .bigint (some (Number.ofInt 9007199254740993).text) = _
    rw [transformParam, text_amount, parseBigInt_eq_ok]
    decide
  · rw [transformParams_one, transformParam, parseBigInt_eq_ok]
    decide

end MidnightJs.CompactJs.Sample
