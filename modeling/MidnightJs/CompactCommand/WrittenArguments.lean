import MidnightJs.CompactCommand.ArgumentLoops

/-! # Arguments that write a value

A value of a type is written as an argument: a single value by its own text, a list or an object by a
JSON5 text. How single values are written is a parameter here; what the parser makes of a
whole argument follows from what it makes of the single values in it. -/

namespace MidnightJs.CompactJs
open Foundations Foundations.Js Foundations.Js.JsValue
set_option autoImplicit false

variable (json5 : Json5)

/-! ## Values and what writes them -/

section
variable (inside : TypeNode → JsValue → JsValue → Prop)

mutual
/-- `w` is what the JSON5 text of the value `v` reads as: lists and objects as such, with the members
of the type in any order, and single values as `inside` says. -/
def Written (type : TypeNode) (w v : JsValue) : Prop :=
  match type with
  | .array elementType => ∃ ws vs, w = .array ws ∧ v = .array vs ∧
      List.Forall₂ (Written elementType) ws vs
  | .tuple elements => ∃ ws vs, w = .array ws ∧ v = .array vs ∧ WrittenElements elements ws vs
  | .typeLiteral members => ∃ ws vs, w = .object ws ∧ v = .object vs ∧
      OrderedMap.keys ws = OrderedMap.keys vs ∧
      (OrderedMap.keys vs).Perm (OrderedMap.keys members) ∧ (OrderedMap.keys members).Nodup ∧
      WrittenMembers members ws vs
  | type => inside type w v

def WrittenElements (types : List TypeNode) (ws vs : List JsValue) : Prop :=
  match types, ws, vs with
  | [], [], [] => True
  | type :: types, w :: ws, v :: vs => Written type w v ∧ WrittenElements types ws vs
  | _, _, _ => False

def WrittenMembers (members : List (JsString × TypeNode)) (ws vs : List (JsString × JsValue)) :
    Prop :=
  match members with
  | [] => True
  | (name, type) :: members =>
    (∃ w v, OrderedMap.get ws name = some w ∧ OrderedMap.get vs name = some v ∧ Written type w v) ∧
      WrittenMembers members ws vs
end
end

variable {inside : TypeNode → JsValue → JsValue → Prop}

/-- The argument from which `w` is read: any JSON5 text of a list or an object, and of a single value
the text that JSON5 writes. -/
def ReadAs (quotedStrings : Bool) (type : TypeNode) (arg : Option JsString) (w : JsValue) : Prop :=
  match type with
  | .array _ => json5.ReadsAlike (argText arg) w
  | .tuple _ => json5.ReadsAlike (argText arg) w
  | .typeLiteral _ => json5.ReadsAlike (argText arg) w
  | _ => quotedStrings = true ∧ arg = json5.stringify w

theorem readsBack_parse {w : JsValue} (h : json5.ReadsBack w) :
    json5.ReadsAlike (argText (json5.stringify w)) w := by
  obtain ⟨text, hwrite, hread⟩ := h
  rw [hwrite]
  exact hread

theorem readAs_stringify {type : TypeNode} {w v : JsValue} (hwritten : Written inside type w v)
    (hback : json5.ReadsBackThroughout w) : ReadAs json5 true type (json5.stringify w) w := by
  cases type with
  | array _ =>
    obtain ⟨ws, vs, rfl, -⟩ := hwritten
    exact readsBack_parse json5 hback.1
  | tuple _ =>
    obtain ⟨ws, vs, rfl, -⟩ := hwritten
    exact readsBack_parse json5 hback.1
  | typeLiteral _ =>
    obtain ⟨ws, vs, rfl, -⟩ := hwritten
    exact readsBack_parse json5 hback.1
  | _ => exact ⟨rfl, rfl⟩

/-- What the parser makes of single values inside lists and objects: exactly the good ones are read as
they are meant. -/
structure SingleValues (inside : TypeNode → JsValue → JsValue → Prop) (good : JsValue → Prop) :
    Prop where
  single : ∀ type w v, inside type w v → v.isSingle = true
  parsed : ∀ type w v, inside type w v →
    (transformParam json5 true type (json5.stringify w) = .ok v ↔ good v)

/-- A member name that the parser looks up as it is. -/
def PlainName (name : JsString) : Prop := (js "__").isPrefixOf name = false

/-- Names that are looked up and put back under a name of a member are plain. -/
theorem plain_of_escaped {members : List (JsString × TypeNode)}
    (h : ∀ e ∈ members, escapedText e.1 ∈ OrderedMap.keys members) :
    ∀ e ∈ members, PlainName e.1 := by
  intro e he
  by_contra hname
  have hunderscored : (js "__").isPrefixOf e.1 = true := by simpa [PlainName] using hname
  obtain ⟨e', he', habsent⟩ := exists_underscored (List.mem_map_of_mem he) hunderscored
  exact habsent (h e' he')

theorem MembersParsed.plain {members : List (JsString × TypeNode)}
    {cur after : List (JsString × JsValue)} (h : MembersParsed json5 members cur after)
    (hperm : (OrderedMap.keys after).Perm (OrderedMap.keys members)) :
    ∀ e ∈ members, PlainName e.1 := by
  refine plain_of_escaped fun e he => ?_
  obtain ⟨v, -, hput⟩ := h.parsed e he
  exact hperm.mem_iff.mp (List.mem_map_of_mem (OrderedMap.mem_of_get hput))

variable {good : JsValue → Prop}

theorem transformParam_single (hsingle : SingleValues json5 inside good) {type : TypeNode}
    {w v : JsValue} {quotedStrings : Bool} {arg : Option JsString} (h : inside type w v)
    (harg : quotedStrings = true ∧ arg = json5.stringify w) :
    transformParam json5 quotedStrings type arg = .ok v ↔ Throughout good PlainName v := by
  rw [harg.1, harg.2, hsingle.parsed type w v h, throughout_single (hsingle.single type w v h)]

/-! ## Lists -/

theorem throughout_forall₂ {elementType : TypeNode} {ws vs : List JsValue}
    (ih : ∀ w v, Written inside elementType w v → json5.ReadsBackThroughout w →
      (transformParam json5 true elementType (json5.stringify w) = .ok v ↔
        Throughout good PlainName v))
    (h : List.Forall₂ (Written inside elementType) ws vs) (hback : json5.ElementsReadBack ws) :
    List.Forall₂ (fun w v => transformParam json5 true elementType (json5.stringify w) = .ok v) ws vs ↔
      ThroughoutElements good PlainName vs := by
  induction h with
  | nil => simp [ThroughoutElements]
  | cons hwritten _ ihs =>
    rw [List.forall₂_cons, ThroughoutElements, ih _ _ hwritten hback.1, ihs hback.2]

theorem writtenElements_length {elements : List TypeNode} {ws vs : List JsValue}
    (h : WrittenElements inside elements ws vs) : elements.length = ws.length := by
  induction elements generalizing ws vs with
  | nil =>
    cases ws with
    | nil => rfl
    | cons w ws => exact h.elim
  | cons type elements ih =>
    cases ws with
    | nil => exact h.elim
    | cons w ws =>
      cases vs with
      | nil => exact h.elim
      | cons v vs => exact congrArg (· + 1) (ih h.2)

/-! ## Objects -/

theorem memberArg_plain {ws : List (JsString × JsValue)} {name : JsString} {w : JsValue}
    (hplain : PlainName name) (hget : OrderedMap.get ws name = some w) :
    memberArg json5 ws name = json5.stringify w := by
  rw [memberArg, escapedText_of_plain hplain, hget, Option.getD_some]

/-- A member of the type, with its value and with what is read for it. -/
structure MemberRead (good : JsValue → Prop) (ws vs : List (JsString × JsValue)) (name : JsString)
    (type : TypeNode) (w v : JsValue) : Prop where
  read : OrderedMap.get ws name = some w
  meant : OrderedMap.get vs name = some v
  parsed : transformParam json5 true type (json5.stringify w) = .ok v ↔ Throughout good PlainName v

/-- Members that are parsed to those of an object make up that object. -/
theorem transformMembers_meant {members : List (JsString × TypeNode)}
    {cur vs : List (JsString × JsValue)} (hkeys : OrderedMap.keys cur = OrderedMap.keys vs)
    (hperm : (OrderedMap.keys vs).Perm (OrderedMap.keys members))
    (hnodup : (OrderedMap.keys members).Nodup) (hplain : ∀ e ∈ members, PlainName e.1)
    (hok : ∀ e ∈ members, ∃ v, transformParam json5 true e.2 (memberArg json5 cur e.1) = .ok v ∧
      OrderedMap.get vs e.1 = some v) :
    transformMembers json5 members (.object cur) = .ok (.object vs) := by
  have hdistinct : (OrderedMap.keys vs).Nodup := hperm.nodup_iff.mpr hnodup
  obtain ⟨r, hr⟩ : ∃ r, transformMembers json5 members (.object cur) = .ok r :=
    (transformMembers_accepted json5 hnodup).mpr fun e he =>
      (memberAccepted_object json5).mpr ((hok e he).imp fun _ hv => hv.1)
  obtain ⟨after, rfl, hparsed⟩ := transformMembers_ok json5 hnodup hr
  have hall : ∀ e ∈ members, escapedText e.1 ∈ OrderedMap.keys cur := by
    intro e he
    rw [escapedText_of_plain (hplain e he), hkeys]
    exact hperm.mem_iff.mpr (List.mem_map_of_mem he)
  have hafter : OrderedMap.keys after = OrderedMap.keys vs := (hparsed.keys hall).trans hkeys
  rw [hr, OrderedMap.ext_of_get (hafter ▸ hdistinct) hafter]
  intro k hk
  obtain ⟨e, he, rfl⟩ := List.mem_map.mp (hperm.mem_iff.mp (hafter ▸ hk))
  obtain ⟨v, hv, hget⟩ := hparsed.parsed e he
  obtain ⟨v', hv', hmeant⟩ := hok e he
  rw [escapedText_of_plain (hplain e he)] at hget
  rw [hv, Except.ok.injEq] at hv'
  rw [hget, hmeant, hv']

theorem transformMembers_plain {members : List (JsString × TypeNode)}
    {cur ws vs : List (JsString × JsValue)} (hkeys : OrderedMap.keys cur = OrderedMap.keys vs)
    (hcur : ∀ name, memberArg json5 cur name = memberArg json5 ws name)
    (hperm : (OrderedMap.keys vs).Perm (OrderedMap.keys members))
    (hnodup : (OrderedMap.keys members).Nodup)
    (hread : ∀ e ∈ members, ∃ w v, MemberRead json5 good ws vs e.1 e.2 w v)
    (hplain : ∀ e ∈ members, PlainName e.1) :
    transformMembers json5 members (.object cur) = .ok (.object vs) ↔
      ∀ e ∈ vs, Throughout good PlainName e.2 := by
  have hdistinct : (OrderedMap.keys vs).Nodup := hperm.nodup_iff.mpr hnodup
  have harg : ∀ e ∈ members, ∀ {w v}, MemberRead json5 good ws vs e.1 e.2 w v →
      memberArg json5 cur e.1 = json5.stringify w := fun e he _ _ hmember => by
    rw [hcur, memberArg_plain json5 (hplain e he) hmember.read]
  constructor
  · intro h e' he'
    obtain ⟨after, hafter, hparsed⟩ := transformMembers_ok json5 hnodup h
    cases hafter
    obtain ⟨e, he, hname⟩ := List.mem_map.mp (hperm.mem_iff.mp (List.mem_map_of_mem he'))
    obtain ⟨w, v, hmember⟩ := hread e he
    obtain ⟨v', hv', hget⟩ := hparsed.parsed e he
    rw [escapedText_of_plain (hplain e he)] at hget
    rw [harg e he hmember] at hv'
    have hv : v = e'.2 := by
      have hmeant := hmember.meant
      rw [hname, OrderedMap.get_of_mem hdistinct he', Option.some.injEq] at hmeant
      exact hmeant.symm
    have hvv : v' = v := by
      rw [hmember.meant, Option.some.injEq] at hget
      exact hget.symm
    rw [← hv]
    exact hmember.parsed.mp (hvv ▸ hv')
  · intro h
    refine transformMembers_meant json5 hkeys hperm hnodup hplain fun e he => ?_
    obtain ⟨w, v, hmember⟩ := hread e he
    refine ⟨v, ?_, hmember.meant⟩
    rw [harg e he hmember]
    exact hmember.parsed.mpr (h _ (OrderedMap.mem_of_get hmember.meant))

theorem transformParam_typeLiteral {quotedStrings : Bool} {members : List (JsString × TypeNode)}
    {arg : Option JsString} {ws vs : List (JsString × JsValue)}
    (hkeys : OrderedMap.keys ws = OrderedMap.keys vs)
    (hperm : (OrderedMap.keys vs).Perm (OrderedMap.keys members))
    (hnodup : (OrderedMap.keys members).Nodup)
    (hread : ∀ e ∈ members, ∃ w v, MemberRead json5 good ws vs e.1 e.2 w v)
    (h : json5.ReadsAlike (argText arg) (.object ws)) :
    transformParam json5 quotedStrings (.typeLiteral members) arg = .ok (.object vs) ↔
      ThroughoutMembers good PlainName vs := by
  obtain ⟨cur, hcurkeys, hcur, hloop⟩ := transformParam_object json5 quotedStrings hnodup h
  simp only [hloop, JsValue.object.injEq, exists_eq_left', throughoutMembers_iff]
  have hcurvs := hcurkeys.trans hkeys
  by_cases hplain : ∀ e ∈ members, PlainName e.1
  · rw [transformMembers_plain json5 hcurvs hcur hperm hnodup hread hplain]
    constructor
    · intro h e he
      obtain ⟨e', he', hname⟩ := List.mem_map.mp (hperm.mem_iff.mp (List.mem_map_of_mem he))
      exact ⟨hname ▸ hplain e' he', h e he⟩
    · exact fun h e he => (h e he).2
  · simp only [not_forall] at hplain
    obtain ⟨e, he, hname⟩ := hplain
    constructor
    · intro h
      obtain ⟨after, hafter, hparsed⟩ := transformMembers_ok json5 hnodup h
      cases hafter
      exact absurd (hparsed.plain json5 hperm e he) hname
    · intro h
      obtain ⟨e', he', hname'⟩ := List.mem_map.mp (hperm.mem_iff.mpr (List.mem_map_of_mem he))
      exact absurd (hname' ▸ (h e' he').1) hname

/-! ## Whole arguments -/

mutual
/-- An argument that writes a value is parsed to that value exactly if the single values in it are
good and the parser finds the members of its objects. -/
theorem transformParam_written (hsingle : SingleValues json5 inside good) : ∀ (type : TypeNode)
    {quotedStrings : Bool} {arg : Option JsString} {w v : JsValue}, Written inside type w v →
    json5.ReadsBackThroughout w → ReadAs json5 quotedStrings type arg w →
    (transformParam json5 quotedStrings type arg = .ok v ↔ Throughout good PlainName v)
  | .array elementType, _, _, _, _, ⟨ws, vs, rfl, rfl, hwritten⟩, hback, harg => by
    rw [transformParam_array json5 harg, Throughout]
    simp only [JsValue.array.injEq, exists_eq_left']
    exact throughout_forall₂ json5 (fun w v hw hb => transformParam_written hsingle elementType hw hb
      (readAs_stringify json5 hw hb)) hwritten hback.2
  | .tuple elements, _, _, _, _, ⟨ws, vs, rfl, rfl, hwritten⟩, hback, harg => by
    rw [transformParam_tuple json5 harg, Throughout]
    simp only [JsValue.array.injEq, exists_eq_left', writtenElements_length hwritten, true_and]
    exact transformTypes_written hsingle elements hwritten hback.2
  | .typeLiteral members, _, _, _, _, ⟨ws, vs, rfl, rfl, hkeys, hperm, hnodup, hwritten⟩, hback,
      harg => by
    rw [transformParam_typeLiteral json5 hkeys hperm hnodup
      (members_written hsingle members hwritten hback.2) harg, Throughout]
  | .number, _, _, _, _, h, _, harg => transformParam_single json5 hsingle h harg
  | .bigint, _, _, _, _, h, _, harg => transformParam_single json5 hsingle h harg
  | .string, _, _, _, _, h, _, harg => transformParam_single json5 hsingle h harg
  | .boolean, _, _, _, _, h, _, harg => transformParam_single json5 hsingle h harg
  | .typeReference _, _, _, _, _, h, _, harg => transformParam_single json5 hsingle h harg
  | .unknown, _, _, _, _, h, _, harg => transformParam_single json5 hsingle h harg

theorem transformTypes_written (hsingle : SingleValues json5 inside good) : ∀ (types : List TypeNode)
    {ws vs : List JsValue} {idx : ℕ}, WrittenElements inside types ws vs → json5.ElementsReadBack ws →
    (transformTypes json5 true types idx (ws.map json5.stringify) = .ok vs ↔
      ThroughoutElements good PlainName vs)
  | [], [], [], _, _, _ => by simp [transformTypes, ThroughoutElements]
  | type :: types, w :: ws, v :: vs, _, hwritten, hback => by
    rw [List.map_cons, transformTypes_cons, ThroughoutElements,
      ← transformParam_written hsingle type hwritten.1 hback.1
        (readAs_stringify json5 hwritten.1 hback.1),
      ← transformTypes_written hsingle types hwritten.2 hback.2]
    constructor
    · rintro ⟨v', rest, hv, hrest, heq⟩
      cases heq
      exact ⟨hv, hrest⟩
    · rintro ⟨hv, hrest⟩
      exact ⟨v, vs, hv, hrest, rfl⟩

theorem members_written (hsingle : SingleValues json5 inside good) :
    ∀ (members : List (JsString × TypeNode)) {ws vs : List (JsString × JsValue)},
    WrittenMembers inside members ws vs → json5.MembersReadBack ws →
    ∀ e ∈ members, ∃ w v, MemberRead json5 good ws vs e.1 e.2 w v
  | [], _, _, _, _ => by simp
  | (name, type) :: members, ws, vs, hwritten, hback => by
    intro e he
    rcases List.mem_cons.mp he with rfl | he
    · obtain ⟨w, v, hw, hv, hwv⟩ := hwritten.1
      have hb := hback.of_mem (OrderedMap.mem_of_get hw)
      exact ⟨w, v, hw, hv,
        transformParam_written hsingle type hwv hb (readAs_stringify json5 hwv hb)⟩
    · exact members_written hsingle members hwritten.2 hback e he
end

/-! ## Lists of arguments -/

section
variable (inside : TypeNode → JsValue → JsValue → Prop) (alone : TypeNode → JsString → JsValue → Prop)

/-- An argument text that writes a value: any JSON5 text of a list or an object, and for a single value
what `alone` says. -/
def WritesArgument (type : TypeNode) (text : JsString) (v : JsValue) : Prop :=
  match type with
  | .array _ => ∃ w, json5.parse text = .ok w ∧ Written inside type w v ∧ json5.ReadsBackThroughout w
  | .tuple _ => ∃ w, json5.parse text = .ok w ∧ Written inside type w v ∧ json5.ReadsBackThroughout w
  | .typeLiteral _ =>
    ∃ w, json5.parse text = .ok w ∧ Written inside type w v ∧ json5.ReadsBackThroughout w
  | type => alone type text v

/-- An argument for a parameter of some type, with the value that is meant. -/
structure WrittenArgument where
  type : TypeNode
  text : JsString
  value : JsValue
  writes : WritesArgument json5 inside alone type text value
end

/-- A single value stands alone; in a list or an object the single values have to be good and the
member names plain. -/
def Survives (good : JsValue → Prop) (v : JsValue) : Prop :=
  v.isSingle = true ∨ Throughout good PlainName v

variable {alone : TypeNode → JsString → JsValue → Prop}

/-- What the parser makes of single values that stand alone. -/
structure SingleTexts (alone : TypeNode → JsString → JsValue → Prop) : Prop where
  single : ∀ type text v, alone type text v → v.isSingle = true
  parsed : ∀ type text v, alone type text v →
    transformParam json5 false type (some text) = .ok v

theorem transformParam_alone (htexts : SingleTexts json5 alone) {type : TypeNode} {text : JsString}
    {v : JsValue} (h : alone type text v) :
    transformParam json5 false type (some text) = .ok v ↔ Survives good v := by
  simp [htexts.parsed type text v h, Survives, htexts.single type text v h]

theorem transformParam_writesArgument (hsingle : SingleValues json5 inside good)
    (htexts : SingleTexts json5 alone) {type : TypeNode} {text : JsString} {v : JsValue}
    (h : WritesArgument json5 inside alone type text v) :
    transformParam json5 false type (some text) = .ok v ↔ Survives good v := by
  have container : v.isSingle = false → (∃ w, json5.parse text = .ok w ∧ Written inside type w v ∧
      json5.ReadsBackThroughout w ∧ ReadAs json5 false type (some text) w) →
      (transformParam json5 false type (some text) = .ok v ↔ Survives good v) := by
    rintro hcontainer ⟨w, -, hwritten, hback, harg⟩
    rw [transformParam_written json5 hsingle type hwritten hback harg, Survives, hcontainer]
    simp
  cases type with
  | array elementType =>
    obtain ⟨w, hparse, hwritten, hback⟩ := h
    refine container ?_ ⟨w, hparse, hwritten, hback, Json5.readsAlike_of_parse hparse hback⟩
    obtain ⟨_, _, -, rfl, -⟩ := hwritten
    rfl
  | tuple elements =>
    obtain ⟨w, hparse, hwritten, hback⟩ := h
    refine container ?_ ⟨w, hparse, hwritten, hback, Json5.readsAlike_of_parse hparse hback⟩
    obtain ⟨_, _, -, rfl, -⟩ := hwritten
    rfl
  | typeLiteral members =>
    obtain ⟨w, hparse, hwritten, hback⟩ := h
    refine container ?_ ⟨w, hparse, hwritten, hback, Json5.readsAlike_of_parse hparse hback⟩
    obtain ⟨_, _, -, rfl, -⟩ := hwritten
    rfl
  | _ => exact transformParam_alone json5 htexts h

/-- The parser makes these values of these texts, and so it does for a constructor or a circuit with
parameters of these types. -/
structure ParsedAs (types : List TypeNode) (texts : List JsString) (vs : List JsValue) : Prop where
  params : transformParams json5 (texts.map some) types false = .ok vs
  initialization : ∀ declaration : ContractDeclaration, declaration.initialState.drop 1 = types →
    (makeArgumentParser json5 declaration).parseInitializationArgs texts = .ok vs
  circuit : ∀ (declaration : ContractDeclaration) (circuitId : CircuitId)
    (circuitNode : JsString × List TypeNode),
    declaration.impureCircuits.find? (fun circuit => escapedText circuit.1 = circuitId) =
      some circuitNode → circuitNode.2.drop 1 = types →
    (makeArgumentParser json5 declaration).parseCircuitArgs circuitId texts = .ok vs

theorem parsedAs_iff {types : List TypeNode} {texts : List JsString} {vs : List JsValue} :
    ParsedAs json5 types texts vs ↔ transformParams json5 (texts.map some) types false = .ok vs := by
  constructor
  · exact fun h => h.params
  · intro h
    refine ⟨h, ?_, ?_⟩
    · intro declaration htypes
      simp only [makeArgumentParser, htypes, h]
    · intro declaration circuitId circuitNode hfind htypes
      simp only [makeArgumentParser, hfind, htypes, h]

/-- The arguments are parsed to the values that are meant exactly if these survive. -/
theorem parsedAs_arguments (hsingle : SingleValues json5 inside good)
    (htexts : SingleTexts json5 alone) (args : List (WrittenArgument json5 inside alone)) :
    ParsedAs json5 (args.map WrittenArgument.type) (args.map WrittenArgument.text)
        (args.map WrittenArgument.value) ↔
      ∀ arg ∈ args, Survives good arg.value := by
  rw [parsedAs_iff, transformParams_each, List.forall₂_map_right_iff, List.forall₂_same]
  exact forall₂_congr fun arg _ => transformParam_writesArgument json5 hsingle htexts arg.writes

end MidnightJs.CompactJs

/-! ## The package, as far as samples need it -/

namespace MidnightJs.CompactJs.Sample
open Foundations Foundations.Js

def isIdentifierUnit (u : UInt16) : Bool :=
  (0x41 ≤ u && u ≤ 0x5A) || (0x61 ≤ u && u ≤ 0x7A) || u == 0x24 || u == 0x5F

/-- A name that is an identifier of ASCII letters and digits is written without quotes. -/
def keyText (k : JsString) : JsString :=
  match k with
  | [] => Json5.quoteString k
  | u :: rest =>
    if isIdentifierUnit u && rest.all (fun u => isIdentifierUnit u || isDecimalDigit u) then k
    else Json5.quoteString k

mutual
def text (v : JsValue) : Option JsString :=
  match v with
  | .null => some (js "null")
  | .boolean true => some (js "true")
  | .boolean false => some (js "false")
  | .number x => some x.text
  | .string s => some (Json5.quoteString s)
  | .array vs => some (0x5B :: (elementsText vs ++ [0x5D]))
  | .object ms => some (0x7B :: (membersText ms ++ [0x7D]))
  | _ => none

def elementsText (vs : List JsValue) : JsString :=
  match vs with
  | [] => []
  | [v] => (text v).getD (js "null")
  | v :: vs => (text v).getD (js "null") ++ 0x2C :: elementsText vs

def membersText (ms : List (JsString × JsValue)) : JsString :=
  match ms with
  | [] => []
  | [(k, v)] => keyText k ++ 0x3A :: (text v).getD (js "null")
  | (k, v) :: ms => keyText k ++ 0x3A :: ((text v).getD (js "null") ++ 0x2C :: membersText ms)
end

/-- Lists and objects are looked up in a table. -/
def json5Parse (table : List (JsString × JsValue)) (text : JsString) : Except JsError JsValue :=
  match text with
  | [] => .error (.syntaxError (js "JSON5: invalid end of input at 1:1"))
  | u :: rest =>
    if u = 0x5B ∨ u = 0x7B then
      match OrderedMap.get table text with
      | some w => .ok w
      | none => .error (.syntaxError [])
    else if u = 0x27 ∨ u = 0x22 then .ok (.string rest.dropLast)
    else if text = js "undefined" then
      .error (.syntaxError (js "JSON5: invalid character 'u' at 1:1"))
    else if text = js "null" then .ok .null
    else if text = js "true" then .ok (.boolean true)
    else if text = js "false" then .ok (.boolean false)
    else .ok (.number (stringToNumber text))

def json5 (table : List (JsString × JsValue)) : Json5 where
  parse := json5Parse table
  stringify := text
  stringify_undefined := rfl
  stringify_null := rfl
  stringify_true := rfl
  stringify_false := rfl
  stringify_number _ := rfl
  stringify_string _ := rfl
  stringify_array vs := ⟨elementsText vs, rfl⟩
  stringify_object ms := ⟨membersText ms, rfl⟩
  parse_undefined := ⟨.syntaxError (js "JSON5: invalid character 'u' at 1:1"), rfl⟩
  parse_null := rfl
  parse_true := rfl
  parse_false := rfl
  parse_number x := by
    refine ⟨stringToNumber x.text, ?_⟩
    have hundefined := x.text_ne (s := js "undefined") (by decide)
    have hnull := x.text_ne (s := js "null") (by decide)
    have htrue := x.text_ne (s := js "true") (by decide)
    have hfalse := x.text_ne (s := js "false") (by decide)
    cases htext : x.text with
    | nil => exact absurd htext x.text_ne_nil
    | cons u rest =>
      rw [htext] at hundefined hnull htrue hfalse
      have hne : ∀ v, Number.isNumberTextUnit v = false → u ≠ v := by
        rintro v hv rfl
        exact x.text_ne (s := u :: rest) (by rw [List.all_cons, hv, Bool.false_and]) htext
      have hbracket : ¬ (u = 0x5B ∨ u = 0x7B) := not_or.mpr ⟨hne _ (by decide), hne _ (by decide)⟩
      have hquote : ¬ (u = 0x27 ∨ u = 0x22) := not_or.mpr ⟨hne _ (by decide), hne _ (by decide)⟩
      rw [json5Parse, if_neg hbracket, if_neg hquote, if_neg hundefined, if_neg hnull,
        if_neg htrue, if_neg hfalse]
  parse_string s := by
    refine ⟨(Json5.quoteBody (Json5.quoteChar s) s ++ [Json5.quoteChar s]).dropLast, ?_⟩
    rw [Json5.quoteString]
    rcases Json5.quoteChar_cases s with h | h <;> rw [h] <;> rfl

end MidnightJs.CompactJs.Sample
