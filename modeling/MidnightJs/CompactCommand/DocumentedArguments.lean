import MidnightJs.CompactCommand.LiteralArguments

/-! # Arguments as they are documented

In the documentation of the commands the integers in tuples and objects carry the suffix `n`, and
strings in them stand in single quotes. JSON5 has no such integers. -/

namespace MidnightJs.CompactJs
open Foundations Foundations.Js Foundations.Js.JsValue PlatformJs
set_option autoImplicit false

/-! ## Texts -/

mutual
/-- The text of a value in a tuple or an object. -/
def documentedText (v : JsValue) : JsString :=
  match v with
  | .bigint n => bigintText n ++ js "n"
  | .boolean b => booleanText b
  | .string s => 0x27 :: (s ++ [0x27])
  | .array vs => 0x5B :: (joined (documentedElements vs) ++ [0x5D])
  | .object ms => 0x7B :: (joined (documentedMembers ms) ++ [0x7D])
  | _ => []

def documentedElements (vs : List JsValue) : List JsString :=
  match vs with
  | [] => []
  | v :: vs => documentedText v :: documentedElements vs

def documentedMembers (ms : List (JsString × JsValue)) : List JsString :=
  match ms with
  | [] => []
  | (k, v) :: ms => (k ++ js ": " ++ documentedText v) :: documentedMembers ms
end

/-- An integer and a string that stand alone are given as they are. -/
def argumentText (v : JsValue) : JsString :=
  match v with
  | .bigint n => bigintText n
  | .string s => s
  | v => documentedText v

def LeafDocumented (type : TypeNode) (v : JsValue) : Prop :=
  match type with
  | .bigint => ∃ n, v = .bigint n
  | .boolean => ∃ b, v = .boolean b
  | .string => ∃ s, v = .string s
  | _ => False

def NoInteger (v : JsValue) : Prop := ∀ n, v ≠ .bigint n

variable (json5 : Json5)

/-- A documented argument. JSON5 reads lists and objects without integers as they are written, and
nothing from the others. -/
structure DocumentedArgument where
  type : TypeNode
  value : JsValue
  distinct : Distinct type
  shaped : Shaped LeafDocumented AnyName type value
  plain : value.isSingle = false → Throughout StringsPlain AnyName value
  reads : value.isSingle = false → Throughout NoInteger AnyName value →
    json5.parse (documentedText value) = .ok value ∧ json5.ReadsBackThroughout value
  fails : value.isSingle = false → ¬ Throughout NoInteger AnyName value →
    ∃ err, json5.parse (documentedText value) = .error err

/-! ## Which of them are accepted -/

theorem documented_none {type : TypeNode} {v : JsValue}
    (h : Shaped LeafDocumented AnyName type v) : ¬ Admits type none := by
  cases type <;> first | exact absurd h id | simp [Admits]

theorem documented_leaf {type : TypeNode} {v : JsValue} (h : LeafDocumented type v) :
    Admits type (some v) ↔ Throughout NoInteger PlainName v := by
  cases type with
  | bigint =>
    obtain ⟨n, rfl⟩ := h
    simp [Admits, Throughout, NoInteger]
  | boolean =>
    obtain ⟨b, rfl⟩ := h
    simp [Admits, Throughout, NoInteger]
  | string =>
    obtain ⟨s, rfl⟩ := h
    simp [Admits, Throughout, NoInteger]
  | _ => exact h.elim

theorem admitsMembers_object {members : List (JsString × TypeNode)}
    {ms : List (JsString × JsValue)} : AdmitsMembers members (.object ms) ↔
      ∀ e ∈ members, Admits e.2 (OrderedMap.get ms (escapedText e.1)) := by
  induction members with
  | nil => simp [AdmitsMembers]
  | cons e members ih => simp [AdmitsMembers, ih]

theorem documented_object {members : List (JsString × TypeNode)}
    (hnodup : (OrderedMap.keys members).Nodup) {ms : List (JsString × JsValue)}
    (hperm : (OrderedMap.keys ms).Perm (OrderedMap.keys members))
    (hms : ∀ e ∈ members, ∃ v, OrderedMap.get ms e.1 = some v ∧ ¬ Admits e.2 none ∧
      (Admits e.2 (some v) ↔ Throughout NoInteger PlainName v)) :
    AdmitsMembers members (.object ms) ↔ ThroughoutMembers NoInteger PlainName ms := by
  rw [admitsMembers_object, throughoutMembers_iff]
  have hdistinct := hperm.nodup_iff.mpr hnodup
  constructor
  · intro h
    have hplain : ∀ e ∈ members, PlainName e.1 := by
      refine plain_of_escaped fun e he => ?_
      by_contra habsent
      obtain ⟨v, -, hnone, -⟩ := hms e he
      have hadmits := h e he
      rw [OrderedMap.get_eq_none.mpr fun hmem => habsent (hperm.mem_iff.mp hmem)] at hadmits
      exact hnone hadmits
    intro m hm
    obtain ⟨e, he, hname⟩ := List.mem_map.mp (hperm.mem_iff.mp (List.mem_map_of_mem hm))
    obtain ⟨v, hv, -, hiff⟩ := hms e he
    have hadmits := h e he
    rw [escapedText_of_plain (hplain e he), hv] at hadmits
    rw [hname, OrderedMap.get_of_mem hdistinct hm, Option.some.injEq] at hv
    refine ⟨hname ▸ hplain e he, ?_⟩
    rw [hv]
    exact hiff.mp hadmits
  · intro h e he
    obtain ⟨v, hv, -, hiff⟩ := hms e he
    obtain ⟨hname, hall⟩ := h _ (OrderedMap.mem_of_get hv)
    rw [escapedText_of_plain hname, hv]
    exact hiff.mpr hall

mutual
/-- A documented value is admitted exactly if there are no integers in it and the names are plain. -/
theorem documented_admits : ∀ (type : TypeNode) {v : JsValue}, Distinct type →
    Shaped LeafDocumented AnyName type v →
    (Admits type (some v) ↔ Throughout NoInteger PlainName v)
  | .array elementType, _, hdistinct, ⟨vs, rfl, hvs⟩ => by
    simp only [Admits, Option.some.injEq, JsValue.array.injEq, exists_eq_left', Throughout,
      throughoutElements_iff]
    exact forall₂_congr fun v hv => documented_admits elementType hdistinct (hvs v hv)
  | .tuple elements, _, hdistinct, ⟨vs, rfl, hvs⟩ => by
    simp only [Admits, Option.some.injEq, JsValue.array.injEq, exists_eq_left', Throughout]
    exact documented_elements elements hdistinct hvs
  | .typeLiteral members, _, hdistinct, ⟨ms, rfl, hperm, hms⟩ => by
    have hobject : ObjectLike (.object ms) := .inr (.inl ⟨ms, rfl⟩)
    simp only [Admits, Option.some.injEq, exists_eq_left', hobject, true_and, Throughout]
    exact documented_object hdistinct.1 hperm (documented_members members hdistinct.2 hms)
  | .bigint, _, _, h => documented_leaf h
  | .boolean, _, _, h => documented_leaf h
  | .string, _, _, h => documented_leaf h
  | .number, _, _, h => absurd h id
  | .typeReference _, _, _, h => absurd h id
  | .unknown, _, _, h => absurd h id

theorem documented_elements : ∀ (types : List TypeNode) {vs : List JsValue},
    DistinctElements types → ShapedElements LeafDocumented AnyName types vs →
    (AdmitsElements types vs ↔ ThroughoutElements NoInteger PlainName vs)
  | [], [], _, _ => Iff.rfl
  | type :: types, _ :: _, hdistinct, ⟨h, hs⟩ =>
    and_congr (documented_admits type hdistinct.1 h) (documented_elements types hdistinct.2 hs)

theorem documented_members : ∀ (members : List (JsString × TypeNode))
    {ms : List (JsString × JsValue)}, DistinctMembers members →
    ShapedMembers LeafDocumented AnyName members ms →
    ∀ e ∈ members, ∃ v, OrderedMap.get ms e.1 = some v ∧ ¬ Admits e.2 none ∧
      (Admits e.2 (some v) ↔ Throughout NoInteger PlainName v)
  | [], _, _, _ => fun _ he => absurd he List.not_mem_nil
  | (_, type) :: members, _, hdistinct, ⟨⟨_, v, hv, h⟩, hs⟩ =>
    List.forall_mem_cons.mpr ⟨⟨v, hv, documented_none h, documented_admits type hdistinct.1 h⟩,
      documented_members members hdistinct.2 hs⟩
end

/-! ## Lists of arguments -/

theorem documented_single {type : TypeNode} {v : JsValue} (hsingle : v.isSingle = true)
    (h : Shaped LeafDocumented AnyName type v) :
    ∃ v', transformParam json5 false type (some (argumentText v)) = .ok v' := by
  cases type with
  | bigint =>
    obtain ⟨n, rfl⟩ := h
    rw [transformParam, parseBigInt, argumentText, stringToBigInt_bigintText]
    exact ⟨_, rfl⟩
  | boolean =>
    obtain ⟨b, rfl⟩ := h
    rw [transformParam, argumentText, documentedText]
    · exact ⟨_, parseBoolean_booleanText b⟩
    · intro n h
      cases h
    · intro s h
      cases h
  | string => exact ⟨_, rfl⟩
  | array _ =>
    obtain ⟨vs, rfl, -⟩ := h
    cases hsingle
  | tuple _ =>
    obtain ⟨vs, rfl, -⟩ := h
    cases hsingle
  | typeLiteral _ =>
    obtain ⟨ms, rfl, -⟩ := h
    cases hsingle
  | _ => exact absurd h id

theorem argumentText_list {v : JsValue} (h : v.isSingle = false) :
    argumentText v = documentedText v := by
  cases v <;> first | rfl | cases h

theorem documented_list {type : TypeNode} {v : JsValue} (h : v.isSingle = false)
    (hshaped : Shaped LeafDocumented AnyName type v) (text : JsString) :
    TextAdmits json5 type text ↔ ∃ w, json5.parse text = .ok w ∧ Admits type (some w) := by
  cases type with
  | array _ => exact Iff.rfl
  | tuple _ => exact Iff.rfl
  | typeLiteral _ => exact Iff.rfl
  | bigint =>
    obtain ⟨n, rfl⟩ := hshaped
    cases h
  | boolean =>
    obtain ⟨b, rfl⟩ := hshaped
    cases h
  | string =>
    obtain ⟨s, rfl⟩ := hshaped
    cases h
  | _ => exact absurd hshaped id

theorem documented_accepted (arg : DocumentedArgument json5) :
    (∃ v, transformParam json5 false arg.type (some (argumentText arg.value)) = .ok v) ↔
      Survives NoInteger arg.value := by
  by_cases hsingle : arg.value.isSingle = true
  · exact iff_of_true (documented_single json5 hsingle arg.shaped) (.inl hsingle)
  · have hlist : arg.value.isSingle = false := by simpa using hsingle
    have hadmits := documented_admits arg.type arg.distinct arg.shaped
    have hback : ∀ w, json5.parse (documentedText arg.value) = .ok w →
        json5.ReadsBackThroughout w := by
      intro w hparse
      by_cases hno : Throughout NoInteger AnyName arg.value
      · obtain ⟨hread, hback⟩ := arg.reads hlist hno
        rw [hread, Except.ok.injEq] at hparse
        exact hparse ▸ hback
      · obtain ⟨err, herr⟩ := arg.fails hlist hno
        rw [herr] at hparse
        cases hparse
    have haccepted := accepted_text json5
      ⟨arg.type, documentedText arg.value, arg.distinct, hback⟩
    dsimp only at haccepted
    rw [argumentText_list hlist, haccepted, documented_list json5 hlist arg.shaped, Survives, hlist]
    by_cases hno : Throughout NoInteger AnyName arg.value
    · rw [(arg.reads hlist hno).1, ← hadmits]
      simp
    · obtain ⟨err, herr⟩ := arg.fails hlist hno
      have hnot : ¬ Throughout NoInteger PlainName arg.value := fun h =>
        hno (h.imp (fun _ hv => hv) fun _ _ => trivial)
      rw [herr]
      simp [hnot]

theorem documented_arguments (args : List (DocumentedArgument json5)) :
    (∃ vs, ParsedAs json5 (args.map DocumentedArgument.type)
        (args.map fun arg => argumentText arg.value) vs) ↔
      ∀ arg ∈ args, Survives NoInteger arg.value := by
  simp only [parsedAs_iff]
  constructor
  · intro h arg harg
    obtain ⟨vs, hvs⟩ := h
    rw [transformParams_each json5 DocumentedArgument.type (fun arg => argumentText arg.value)] at hvs
    exact (documented_accepted json5 arg).mp (exists_forall₂.mp ⟨vs, hvs⟩ arg harg)
  · intro h
    obtain ⟨vs, hvs⟩ := exists_forall₂.mpr fun arg harg =>
      (documented_accepted json5 arg).mpr (h arg harg)
    exact ⟨vs, (transformParams_each json5 _ _ args).mpr hvs⟩

/-- Another number of arguments is rejected; arguments are parsed as literals of their types, to
values of these, exactly if the parser admits none of them, or no others, with plain member names;
and documented arguments are accepted exactly if in lists and objects there are no integers and the
member names are plain. -/
theorem arguments_accepted :
    (∀ (types : List TypeNode) (texts : List JsString), texts.length ≠ types.length →
      Rejected json5 types texts) ∧
      (∀ args : List (TypedText json5), SoundlyParsed json5 args ↔
        ((∀ arg ∈ args, TextAdmits json5 arg.type arg.text) →
          ∀ arg ∈ args, TextLiteral json5 PlainName arg.type arg.text)) ∧
      ∀ args : List (DocumentedArgument json5),
        (∃ vs, ParsedAs json5 (args.map DocumentedArgument.type)
            (args.map fun arg => argumentText arg.value) vs) ↔
          ∀ arg ∈ args, Survives NoInteger arg.value :=
  ⟨fun _ _ => rejected_of_length json5, soundlyParsed_iff json5, documented_arguments json5⟩

end MidnightJs.CompactJs

/-! ## A wrong word and a documented tuple -/

namespace MidnightJs.CompactJs.Sample
open Foundations Foundations.Js Foundations.Js.JsValue

def trueish : TypedText (json5 []) where
  type := .boolean
  text := js "trueish"
  distinct := trivial
  readsBack := by
    intro w h
    cases h
    trivial

def exampleValue : JsValue := .array [.bigint 100, .bigint 200, .boolean true]

theorem exampleValue_text : argumentText exampleValue = js "[100n, 200n, true]" := by decide

theorem exampleValue_integers : ¬ Throughout NoInteger AnyName exampleValue := fun h => h.1 100 rfl

/-- The first example of the documentation. -/
def exampleTuple : DocumentedArgument (json5 []) where
  type := .tuple [.bigint, .bigint, .boolean]
  value := exampleValue
  distinct := ⟨trivial, trivial, trivial, trivial⟩
  shaped := ⟨_, rfl, ⟨_, rfl⟩, ⟨_, rfl⟩, ⟨_, rfl⟩, trivial⟩
  plain _ := ⟨nofun, nofun, nofun, trivial⟩
  reads _ h := absurd h exampleValue_integers
  fails _ _ := ⟨.syntaxError [], rfl⟩

/-- The word `trueish` is parsed as a boolean, and the tuple of the documentation is rejected. -/
theorem word_accepted_tuple_rejected :
    ¬ SoundlyParsed (json5 []) [trueish] ∧
      ¬ ∃ vs, ParsedAs (json5 []) [.tuple [.bigint, .bigint, .boolean]]
        [js "[100n, 200n, true]"] vs := by
  constructor
  · rw [soundlyParsed_iff]
    intro h
    have hadmits : trueOrFalse (js "trueish") = true := by decide
    have hliteral := h (List.forall_mem_singleton.mpr hadmits) trueish List.mem_cons_self
    exact absurd hliteral (by unfold TextLiteral trueish; decide)
  · intro h
    rw [← exampleValue_text] at h
    have hsurvives := (documented_arguments (json5 []) [exampleTuple]).mp h exampleTuple
      List.mem_cons_self
    obtain hsingle | hall := hsurvives
    · cases hsingle
    · exact hall.1 100 rfl

end MidnightJs.CompactJs.Sample
