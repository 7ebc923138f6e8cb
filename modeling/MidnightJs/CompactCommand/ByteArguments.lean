import MidnightJs.CompactCommand.StringArguments

/-! # Byte strings and truth values as arguments

A byte string is written as hex digits, in single quotes if it stands in a list or an object. A text
with a byte string that is no hex text is rejected as a whole. -/

namespace MidnightJs.CompactJs
open Foundations Foundations.Js Foundations.Js.JsValue PlatformJs
set_option autoImplicit false

inductive ByteInside : TypeNode → JsValue → JsValue → Prop
  | boolean (b : Bool) : ByteInside .boolean (.boolean b) (.boolean b)
  | bytes (text : JsString) (bytes : List UInt8) (h : HexText text bytes) :
      ByteInside uint8ArrayType (.string text) (.buffer bytes)

inductive ByteAlone : TypeNode → JsString → JsValue → Prop
  | boolean (b : Bool) : ByteAlone .boolean (booleanText b) (.boolean b)
  | bytes (text : JsString) (bytes : List UInt8) (h : HexText text bytes) :
      ByteAlone uint8ArrayType text (.buffer bytes)

/-- Any texts in the place of byte strings. -/
inductive TextInside : TypeNode → JsValue → JsValue → Prop
  | boolean (b : Bool) : TextInside .boolean (.boolean b) (.boolean b)
  | bytes (text : JsString) : TextInside uint8ArrayType (.string text) (.string text)

inductive TextAlone : TypeNode → JsString → JsValue → Prop
  | boolean (b : Bool) : TextAlone .boolean (booleanText b) (.boolean b)
  | bytes (text : JsString) : TextAlone uint8ArrayType text (.string text)

def AnyValue (_ : JsValue) : Prop := True

def AnyName (_ : JsString) : Prop := True

/-- No text is empty, has an odd number of digits or has other characters in it. -/
def HexTexts (v : JsValue) : Prop := ∀ s, v = .string s → ∃ bytes, HexText s bytes

variable (json5 : Json5)

/-! ## Byte strings that are read -/

theorem byteInside_values : SingleValues json5 ByteInside AnyValue where
  single := by
    intro type w v h
    cases h <;> rfl
  parsed := by
    intro type w v h
    cases h with
    | boolean b =>
      rw [transformParam, stringify_boolean, parseBoolean_booleanText]
      simp [AnyValue]
    | bytes text bytes hbytes =>
      rw [transformParam_bytes, json5.stringify_string, parseBytes_quoted hbytes]
      simp [AnyValue]

theorem byteAlone_texts : SingleTexts json5 ByteAlone where
  single := by
    intro type text v h
    cases h <;> rfl
  parsed := by
    intro type text v h
    cases h with
    | boolean b => rw [transformParam, parseBoolean_booleanText]
    | bytes text bytes hbytes => rw [transformParam_bytes, parseBytes_alone hbytes]

/-! ## Byte strings that are rejected -/

theorem parseBytes_hexText {quotedStrings : Bool} {text : JsString} {v : JsValue}
    (h : parseBytes quotedStrings (some text) = .ok v) :
    ∃ bytes, HexText (if quotedStrings then withoutQuotes text else text) bytes := by
  obtain ⟨source, hsource, bytes, -, hbytes⟩ := parseBytes_eq_ok.mp h
  cases quotedStrings <;> cases hsource <;> exact ⟨bytes, hbytes⟩

/-- What is left of a quoted string is a hex text only if the string is one. -/
theorem hexText_of_quoted {s : JsString} {bytes : List UInt8}
    (h : HexText (withoutQuotes (Json5.quoteString s)) bytes) : HexText s bytes := by
  have hplain : PlainText s := by
    by_contra hplain
    have hnone : digitValue 0x5C = none ∧ digitValue 0x22 = none := by decide
    rcases withoutQuotes_quoteString_escaped hplain with hmem | hmem
    · obtain ⟨d, hd⟩ := HexText.unit_digit h _ hmem
      rw [hnone.1] at hd
      cases hd
    · obtain ⟨d, hd⟩ := HexText.unit_digit h _ hmem
      rw [hnone.2] at hd
      cases hd
  rwa [withoutQuotes_quoteString_plain hplain] at h

/-! ## Accepted arguments

Of a missing argument neither a truth value nor a byte string, a list or an object is made. -/

theorem transformParam_none_single {type : TypeNode} {w u v : JsValue} (h : TextInside type w u) :
    transformParam json5 true type none ≠ .ok v := by
  intro hok
  cases h with
  | boolean b =>
    rw [transformParam, parseBoolean, if_neg (by decide)] at hok
    cases hok
  | bytes text => cases hok

theorem transformParam_none {type : TypeNode} {w u v : JsValue} (h : Written TextInside type w u) :
    transformParam json5 true type none ≠ .ok v := by
  obtain ⟨e, he⟩ := json5.parse_undefined
  have helements : parseElements json5 none = .error (.thrown e) := by
    rw [parseElements, argText, Option.getD_none, he]
  have hobject : parseObject json5 none = .error (.thrown e) := by
    rw [parseObject, argText, Option.getD_none, he]
  intro hok
  cases type with
  | array _ =>
    rw [transformParam, helements] at hok
    cases hok
  | tuple _ =>
    rw [transformParam, helements] at hok
    cases hok
  | typeLiteral _ =>
    rw [transformParam, hobject] at hok
    cases hok
  | _ => exact transformParam_none_single json5 h hok

theorem accepted_single {type : TypeNode} {w u v : JsValue} {quotedStrings : Bool}
    {arg : Option JsString} (h : TextInside type w u)
    (harg : quotedStrings = true ∧ arg = json5.stringify w)
    (hok : transformParam json5 quotedStrings type arg = .ok v) : Throughout HexTexts AnyName u := by
  rw [harg.1, harg.2] at hok
  cases h with
  | boolean b =>
    intro s hs
    cases hs
  | bytes text =>
    rw [transformParam_bytes, json5.stringify_string] at hok
    intro s hs
    cases hs
    obtain ⟨bytes, hbytes⟩ := parseBytes_hexText hok
    exact ⟨bytes, hexText_of_quoted hbytes⟩

theorem accepted_elements {elementType : TypeNode} {ws us vs : List JsValue}
    (ih : ∀ w u v, Written TextInside elementType w u → json5.ReadsBackThroughout w →
      transformParam json5 true elementType (json5.stringify w) = .ok v →
      Throughout HexTexts AnyName u)
    (hwritten : List.Forall₂ (Written TextInside elementType) ws us)
    (hback : json5.ElementsReadBack ws)
    (hok : List.Forall₂
      (fun w v => transformParam json5 true elementType (json5.stringify w) = .ok v) ws vs) :
    ThroughoutElements HexTexts AnyName us := by
  induction hwritten generalizing vs with
  | nil => trivial
  | cons hw _ ihs =>
    cases hok with
    | cons hv hvs => exact ⟨ih _ _ _ hw hback.1 hv, ihs hback.2 hvs⟩

mutual
/-- An argument is accepted only if all byte strings in it are hex texts. -/
theorem accepted_hexTexts : ∀ (type : TypeNode) {quotedStrings : Bool} {arg : Option JsString}
    {w u v : JsValue}, Written TextInside type w u → json5.ReadsBackThroughout w →
    ReadAs json5 quotedStrings type arg w → transformParam json5 quotedStrings type arg = .ok v →
    Throughout HexTexts AnyName u
  | .array elementType, _, _, _, _, _, ⟨ws, us, rfl, rfl, hwritten⟩, hback, harg, hok => by
    obtain ⟨vs, -, hvs⟩ := (transformParam_array json5 harg).mp hok
    exact accepted_elements json5 (fun w u v hw hb hv =>
      accepted_hexTexts elementType hw hb (readAs_stringify json5 hw hb) hv) hwritten hback.2 hvs
  | .tuple elements, _, _, _, _, _, ⟨ws, us, rfl, rfl, hwritten⟩, hback, harg, hok => by
    obtain ⟨-, vs, -, hvs⟩ := (transformParam_tuple json5 harg).mp hok
    exact accepted_types elements hwritten hback.2 hvs
  | .typeLiteral members, _, _, _, _, _, ⟨ws, us, rfl, rfl, hkeys, hperm, hnodup, hwritten⟩, hback,
      harg, hok => by
    obtain ⟨cur, hcurkeys, hcur, hloop⟩ := transformParam_object json5 _ hnodup harg
    obtain ⟨after, -, hafter⟩ := (hloop _).mp hok
    obtain ⟨_, -, hparsed⟩ := transformMembers_ok json5 hnodup hafter
    have hread := accepted_members members hwritten hback.2
    have hplain : ∀ e ∈ members, PlainName e.1 := by
      refine plain_of_escaped fun e he => ?_
      by_contra habsent
      obtain ⟨v, hv, -⟩ := hparsed.parsed e he
      obtain ⟨w, u, -, -, hwu, -⟩ := hread e he
      have hcurabsent : escapedText e.1 ∉ OrderedMap.keys cur := by
        rw [hcurkeys, hkeys, hperm.mem_iff]
        exact habsent
      rw [memberArg, OrderedMap.get_eq_none.mpr hcurabsent, Option.getD_none,
        json5.stringify_undefined] at hv
      exact transformParam_none json5 hwu hv
    rw [Throughout, throughoutMembers_iff]
    intro e he
    refine ⟨trivial, ?_⟩
    obtain ⟨m, hm, hname⟩ := List.mem_map.mp (hperm.mem_iff.mp (List.mem_map_of_mem he))
    obtain ⟨w, u, hw, hu, -, haccepted⟩ := hread m hm
    obtain ⟨v, hv, -⟩ := hparsed.parsed m hm
    rw [hcur, memberArg_plain json5 (hplain m hm) hw] at hv
    rw [hname, OrderedMap.get_of_mem (hperm.nodup_iff.mpr hnodup) he, Option.some.injEq] at hu
    rw [hu]
    exact haccepted v hv
  | .number, _, _, _, _, _, h, _, harg, hok => accepted_single json5 h harg hok
  | .bigint, _, _, _, _, _, h, _, harg, hok => accepted_single json5 h harg hok
  | .string, _, _, _, _, _, h, _, harg, hok => accepted_single json5 h harg hok
  | .boolean, _, _, _, _, _, h, _, harg, hok => accepted_single json5 h harg hok
  | .typeReference _, _, _, _, _, _, h, _, harg, hok => accepted_single json5 h harg hok
  | .unknown, _, _, _, _, _, h, _, harg, hok => accepted_single json5 h harg hok

theorem accepted_types : ∀ (types : List TypeNode) {ws us vs : List JsValue} {idx : ℕ},
    WrittenElements TextInside types ws us → json5.ElementsReadBack ws →
    transformTypes json5 true types idx (ws.map json5.stringify) = .ok vs →
    ThroughoutElements HexTexts AnyName us
  | [], [], [], _, _, _, _, _ => trivial
  | type :: types, w :: ws, u :: us, vs, _, hwritten, hback, hok => by
    rw [List.map_cons] at hok
    obtain ⟨v, rest, hv, hrest, -⟩ := (transformTypes_cons json5).mp hok
    exact ⟨accepted_hexTexts type hwritten.1 hback.1
      (readAs_stringify json5 hwritten.1 hback.1) hv, accepted_types types hwritten.2 hback.2 hrest⟩

theorem accepted_members : ∀ (members : List (JsString × TypeNode))
    {ws us : List (JsString × JsValue)}, WrittenMembers TextInside members ws us →
    json5.MembersReadBack ws → ∀ e ∈ members, ∃ w u, OrderedMap.get ws e.1 = some w ∧
      OrderedMap.get us e.1 = some u ∧ Written TextInside e.2 w u ∧
      ∀ v, transformParam json5 true e.2 (json5.stringify w) = .ok v → Throughout HexTexts AnyName u
  | [], _, _, _, _ => by simp
  | (name, type) :: members, ws, us, hwritten, hback => by
    intro e he
    rcases List.mem_cons.mp he with rfl | he
    · obtain ⟨w, u, hw, hu, hwu⟩ := hwritten.1
      have hb := hback.of_mem (OrderedMap.mem_of_get hw)
      exact ⟨w, u, hw, hu, hwu, fun v hv =>
        accepted_hexTexts type hwu hb (readAs_stringify json5 hwu hb) hv⟩
    · exact accepted_members members hwritten.2 hback e he
end

/-! ## Lists of arguments -/

theorem accepted_single_alone {type : TypeNode} {text : JsString} {u v : JsValue}
    (h : TextAlone type text u) (hok : transformParam json5 false type (some text) = .ok v) :
    Throughout HexTexts AnyName u := by
  cases h with
  | boolean b =>
    intro s hs
    cases hs
  | bytes =>
    rw [transformParam_bytes] at hok
    intro s hs
    cases hs
    exact parseBytes_hexText hok

theorem accepted_argument {type : TypeNode} {text : JsString} {u v : JsValue}
    (h : WritesArgument json5 TextInside TextAlone type text u)
    (hok : transformParam json5 false type (some text) = .ok v) : Throughout HexTexts AnyName u := by
  cases type with
  | array elementType =>
    obtain ⟨w, hparse, hwritten, hback⟩ := h
    have hread : ReadAs json5 false (.array elementType) (some text) w :=
      Json5.readsAlike_of_parse hparse hback
    exact accepted_hexTexts json5 _ hwritten hback hread hok
  | tuple elements =>
    obtain ⟨w, hparse, hwritten, hback⟩ := h
    have hread : ReadAs json5 false (.tuple elements) (some text) w :=
      Json5.readsAlike_of_parse hparse hback
    exact accepted_hexTexts json5 _ hwritten hback hread hok
  | typeLiteral members =>
    obtain ⟨w, hparse, hwritten, hback⟩ := h
    have hread : ReadAs json5 false (.typeLiteral members) (some text) w :=
      Json5.readsAlike_of_parse hparse hback
    exact accepted_hexTexts json5 _ hwritten hback hread hok
  | _ => exact accepted_single_alone json5 h hok

/-- The parser rejects these texts, and so it does for a constructor or a circuit with parameters of
these types. -/
structure Rejected (types : List TypeNode) (texts : List JsString) : Prop where
  params : ∃ err, transformParams json5 (texts.map some) types false = .error err
  initialization : ∀ declaration : ContractDeclaration, declaration.initialState.drop 1 = types →
    ∃ err, (makeArgumentParser json5 declaration).parseInitializationArgs texts = .error err
  circuit : ∀ (declaration : ContractDeclaration) (circuitId : CircuitId)
    (circuitNode : JsString × List TypeNode),
    declaration.impureCircuits.find? (fun circuit => escapedText circuit.1 = circuitId) =
      some circuitNode → circuitNode.2.drop 1 = types →
    ∃ err, (makeArgumentParser json5 declaration).parseCircuitArgs circuitId texts = .error err

theorem rejected_of_params {types : List TypeNode} {texts : List JsString} {err : ContractError}
    (h : transformParams json5 (texts.map some) types false = .error err) :
    Rejected json5 types texts := by
  refine ⟨⟨err, h⟩, ?_, ?_⟩
  · intro declaration htypes
    simp only [makeArgumentParser, htypes, h]
    exact ⟨err, rfl⟩
  · intro declaration circuitId circuitNode hfind htypes
    simp only [makeArgumentParser, hfind, htypes, h]
    exact ⟨err, rfl⟩

theorem rejected_arguments (args : List (WrittenArgument json5 TextInside TextAlone))
    (h : ∃ arg ∈ args, ¬ Throughout HexTexts AnyName arg.value) :
    Rejected json5 (args.map WrittenArgument.type) (args.map WrittenArgument.text) := by
  cases hparams : transformParams json5 ((args.map WrittenArgument.text).map some)
      (args.map WrittenArgument.type) false with
  | error err => exact rejected_of_params json5 hparams
  | ok vs =>
    rw [transformParams_each] at hparams
    obtain ⟨arg, harg, hnot⟩ := h
    obtain ⟨v, hv⟩ := exists_forall₂.mp ⟨vs, hparams⟩ arg harg
    exact absurd (accepted_argument json5 arg.writes hv) hnot

/-- Truth values and byte strings are parsed to what they write exactly if every member name in a
list or an object is plain, and arguments with a text in the place of a byte string that is no hex
text are always rejected. -/
theorem byte_arguments :
    (∀ args : List (WrittenArgument json5 ByteInside ByteAlone),
      ParsedAs json5 (args.map WrittenArgument.type) (args.map WrittenArgument.text)
          (args.map WrittenArgument.value) ↔
        ∀ arg ∈ args, Survives AnyValue arg.value) ∧
      ∀ args : List (WrittenArgument json5 TextInside TextAlone),
        (∃ arg ∈ args, ¬ Throughout HexTexts AnyName arg.value) →
        Rejected json5 (args.map WrittenArgument.type) (args.map WrittenArgument.text) :=
  ⟨parsedAs_arguments json5 (byteInside_values json5) (byteAlone_texts json5),
    rejected_arguments json5⟩

end MidnightJs.CompactJs

/-! ## A member that is not found -/

namespace MidnightJs.CompactJs.Sample
open Foundations Foundations.Js PlatformJs

def flagType : TypeNode := .typeLiteral [(js "__flag", .boolean)]

def flag : JsValue := .object [(js "__flag", .boolean true)]

def flagTable : List (JsString × JsValue) := [(js "\x7b__flag:true\x7d", flag)]

theorem flag_text : text flag = some (js "\x7b__flag:true\x7d") := by decide

theorem flag_readBack : (json5 flagTable).ReadsBackThroughout flag :=
  ⟨⟨js "\x7b__flag:true\x7d", flag_text, flag, rfl, rfl⟩, trivial, trivial⟩

theorem flag_written : Written ByteInside flagType flag flag :=
  ⟨_, _, rfl, rfl, rfl, List.Perm.refl [js "__flag"], by decide,
    ⟨_, _, rfl, rfl, .boolean true⟩, trivial⟩

/-- A member name with two underscores in front is a plain identifier, and its object is rejected. -/
theorem flag_not_found :
    WritesArgument (json5 flagTable) ByteInside ByteAlone flagType (js "\x7b__flag:true\x7d") flag ∧
      transformParams (json5 flagTable) [some (js "\x7b__flag:true\x7d")] [flagType] false ≠
        .ok [flag] := by
  refine ⟨⟨flag, rfl, flag_written, flag_readBack⟩, ?_⟩
  have hread : ReadAs (json5 flagTable) false flagType (some (js "\x7b__flag:true\x7d")) flag :=
    ⟨flag, rfl, rfl⟩
  rw [Ne, transformParams_one]
  intro h
  have hnames := (transformParam_written (json5 flagTable) (byteInside_values (json5 flagTable))
    flagType flag_written flag_readBack hread).mp h
  exact absurd hnames.1.1 (by unfold PlainName; decide)

end MidnightJs.CompactJs.Sample
