import MidnightJs.CompactCommand.CompiledContractReflection

/-! # The loops of the argument parser

What the parser does with several arguments, with the elements of a list and with the members of an
object, in terms of what it does with each. -/

namespace MidnightJs.CompactJs
open Foundations Foundations.Js
set_option autoImplicit false

/-! ## Loops over arguments -/

theorem exists_forall₂ {α β : Type} {r : α → β → Prop} {as : List α} :
    (∃ bs, List.Forall₂ r as bs) ↔ ∀ a ∈ as, ∃ b, r a b := by
  induction as with
  | nil => exact iff_of_true ⟨[], .nil⟩ (by simp)
  | cons a as ih =>
    rw [List.forall_mem_cons, ← ih]
    constructor
    · intro h
      obtain ⟨_, h⟩ := h
      cases h with
      | cons hb hbs => exact ⟨⟨_, hb⟩, _, hbs⟩
    · intro h
      obtain ⟨⟨b, hb⟩, bs, hbs⟩ := h
      exact ⟨b :: bs, .cons hb hbs⟩

theorem atIndex_eq_ok {idx : ℕ} {type : TypeNode} {arg : Option JsString}
    {x : Except ContractError JsValue} {v : JsValue} : atIndex idx type arg x = .ok v ↔ x = .ok v := by
  cases x <;> simp [atIndex, Except.mapError]

theorem transformRepeated_eq_ok {type : TypeNode}
    {transform : Option JsString → Except ContractError JsValue} {idx : ℕ}
    {args : List (Option JsString)} {vs : List JsValue} :
    transformRepeated type transform idx args = .ok vs ↔
      List.Forall₂ (fun arg v => transform arg = .ok v) args vs := by
  induction args generalizing idx vs with
  | nil => cases vs <;> simp [transformRepeated]
  | cons arg args ih =>
    rw [transformRepeated, except_bind_ok]
    simp only [atIndex_eq_ok, except_bind_ok, ih, pure, Except.pure, Except.ok.injEq]
    constructor
    · rintro ⟨v, hv, rest, hrest, rfl⟩
      exact .cons hv hrest
    · intro h
      cases h with
      | cons hv hrest => exact ⟨_, hv, _, hrest, rfl⟩

variable (json5 : Json5)

theorem transformTypes_cons {quotedStrings : Bool} {type : TypeNode} {types : List TypeNode} {idx : ℕ}
    {arg : Option JsString} {args : List (Option JsString)} {vs : List JsValue} :
    transformTypes json5 quotedStrings (type :: types) idx (arg :: args) = .ok vs ↔
      ∃ v rest, transformParam json5 quotedStrings type arg = .ok v ∧
        transformTypes json5 quotedStrings types (idx + 1) args = .ok rest ∧ vs = v :: rest := by
  rw [transformTypes]
  simp only [atIndex_eq_ok, except_bind_ok, pure, Except.pure, Except.ok.injEq]
  constructor
  · rintro ⟨v, hv, rest, hrest, rfl⟩
    exact ⟨v, rest, hv, hrest, rfl⟩
  · rintro ⟨v, rest, hv, hrest, rfl⟩
    exact ⟨v, hv, rest, hrest, rfl⟩

theorem checkCount_eq_ok {expected got : ℕ} : checkCount expected got = .ok () ↔ expected = got := by
  by_cases h : expected = got <;> simp [checkCount, h]

theorem transformParams_one {quotedStrings : Bool} {type : TypeNode} {arg : Option JsString}
    {v : JsValue} : transformParams json5 [arg] [type] quotedStrings = .ok [v] ↔
      transformParam json5 quotedStrings type arg = .ok v := by
  have hcount : checkCount [type].length [arg].length = .ok () := checkCount_eq_ok.mpr rfl
  rw [transformParams, hcount]
  change transformTypes json5 quotedStrings [type] 0 [arg] = .ok [v] ↔ _
  rw [transformTypes_cons]
  constructor
  · rintro ⟨v', rest, hv, -, hcons⟩
    rw [(List.cons.inj hcons).1]
    exact hv
  · exact fun h => ⟨v, [], h, by simp [transformTypes], rfl⟩

section
variable {α : Type} (type : α → TypeNode) (text : α → JsString)

theorem transformTypes_each (args : List α) (idx : ℕ) {vs : List JsValue} :
    transformTypes json5 false (args.map type) idx (args.map fun arg => some (text arg)) = .ok vs ↔
      List.Forall₂ (fun arg v => transformParam json5 false (type arg) (some (text arg)) = .ok v)
        args vs := by
  induction args generalizing idx vs with
  | nil =>
    rw [List.forall₂_nil_left_iff]
    simp [transformTypes, eq_comm]
  | cons arg args ih =>
    rw [List.map_cons, List.map_cons, transformTypes_cons, List.forall₂_cons_left_iff]
    simp only [ih, exists_and_left]

/-- As many arguments as types are parsed one by one. -/
theorem transformParams_each (args : List α) {vs : List JsValue} :
    transformParams json5 ((args.map text).map some) (args.map type) false = .ok vs ↔
      List.Forall₂ (fun arg v => transformParam json5 false (type arg) (some (text arg)) = .ok v)
        args vs := by
  have hcount : checkCount (args.map type).length (args.map fun arg => some (text arg)).length =
      .ok () := checkCount_eq_ok.mpr (by simp)
  rw [List.map_map, ← transformTypes_each json5 type text args 0, transformParams, except_bind_ok]
  change (∃ u, checkCount _ (args.map fun arg => some (text arg)).length = .ok u ∧
    transformTypes json5 false _ 0 (args.map fun arg => some (text arg)) = .ok _) ↔ _
  simp only [hcount, true_and, exists_const]

end

/-! ## Members -/

theorem escapedText_of_plain {name : JsString} (h : (js "__").isPrefixOf name = false) :
    escapedText name = name := by
  rw [escapedText, h]
  rfl

theorem underscored_iff {name : JsString} :
    (js "__").isPrefixOf name = true ↔ ∃ rest, name = 0x5F :: 0x5F :: rest := by
  rw [List.isPrefixOf_iff_prefix]
  constructor
  · rintro ⟨rest, rfl⟩
    exact ⟨rest, rfl⟩
  · rintro ⟨rest, rfl⟩
    exact ⟨rest, rfl⟩

theorem escapedText_injective : Function.Injective escapedText := by
  intro name name' h
  unfold escapedText at h
  by_cases hp : (js "__").isPrefixOf name = true
  · by_cases hp' : (js "__").isPrefixOf name' = true
    · rw [if_pos hp, if_pos hp'] at h
      exact (List.cons.inj h).2
    · rw [if_pos hp, if_neg hp'] at h
      obtain ⟨rest, rfl⟩ := underscored_iff.mp hp
      exact absurd (underscored_iff.mpr ⟨0x5F :: rest, h.symm⟩) hp'
  · by_cases hp' : (js "__").isPrefixOf name' = true
    · rw [if_neg hp, if_pos hp'] at h
      obtain ⟨rest, rfl⟩ := underscored_iff.mp hp'
      exact absurd (underscored_iff.mpr ⟨0x5F :: rest, h⟩) hp
    · rwa [if_neg hp, if_neg hp'] at h

/-- The text that a member of an object is parsed from. -/
def memberArg (cur : List (JsString × JsValue)) (name : JsString) : Option JsString :=
  json5.stringify ((OrderedMap.get cur (escapedText name)).getD .undefined)

theorem memberArg_alike {cur ws : List (JsString × JsValue)}
    (h : OrderedMap.mapValues json5.stringify cur = OrderedMap.mapValues json5.stringify ws)
    (name : JsString) : memberArg json5 cur name = memberArg json5 ws name := by
  have hget : (OrderedMap.get cur (escapedText name)).map json5.stringify =
      (OrderedMap.get ws (escapedText name)).map json5.stringify := by
    rw [← OrderedMap.get_mapValues, ← OrderedMap.get_mapValues, h]
  have harg : ∀ x : Option JsValue,
      json5.stringify (x.getD .undefined) = (x.map json5.stringify).getD none := by
    intro x
    cases x with
    | none => exact json5.stringify_undefined
    | some w => rfl
  rw [memberArg, memberArg, harg, harg, hget]

theorem memberArg_set {cur : List (JsString × JsValue)} {name name' : JsString} (v : JsValue)
    (h : name ≠ name') :
    memberArg json5 (OrderedMap.set cur (escapedText name) v) name' = memberArg json5 cur name' := by
  have hne : escapedText name ≠ escapedText name' := fun heq => h (escapedText_injective heq)
  rw [memberArg, OrderedMap.get_set, if_neg hne, memberArg]

theorem transformMembers_cons {name : JsString} {type : TypeNode}
    {members : List (JsString × TypeNode)} {cur : List (JsString × JsValue)} {r : SrcObject} :
    transformMembers json5 ((name, type) :: members) (.object cur) = .ok r ↔
      ∃ v, transformParam json5 true type (memberArg json5 cur name) = .ok v ∧
        transformMembers json5 members (.object (OrderedMap.set cur (escapedText name) v)) = .ok r := by
  rw [transformMembers]
  simp only [SrcObject.get, SrcObject.set, except_bind_ok, atIndex_eq_ok, Except.ok.injEq, memberArg]
  constructor
  · rintro ⟨_, rfl, v, hv, _, rfl, hr⟩
    exact ⟨v, hv, hr⟩
  · rintro ⟨v, hv, hr⟩
    exact ⟨_, rfl, v, hv, _, rfl, hr⟩

/-- What a successful loop over the members leaves: each member parsed, everything else untouched. -/
structure MembersParsed (members : List (JsString × TypeNode)) (cur after : List (JsString × JsValue)) :
    Prop where
  parsed : ∀ e ∈ members, ∃ v, transformParam json5 true e.2 (memberArg json5 cur e.1) = .ok v ∧
    OrderedMap.get after (escapedText e.1) = some v
  untouched : ∀ k, (∀ e ∈ members, escapedText e.1 ≠ k) →
    OrderedMap.get after k = OrderedMap.get cur k
  keys : (∀ e ∈ members, escapedText e.1 ∈ OrderedMap.keys cur) →
    OrderedMap.keys after = OrderedMap.keys cur

theorem transformMembers_ok {members : List (JsString × TypeNode)}
    {cur : List (JsString × JsValue)} {r : SrcObject} (hnodup : (OrderedMap.keys members).Nodup)
    (h : transformMembers json5 members (.object cur) = .ok r) :
    ∃ after, r = .object after ∧ MembersParsed json5 members cur after := by
  induction members generalizing cur with
  | nil =>
    rw [transformMembers, Except.ok.injEq] at h
    exact ⟨cur, h.symm, by simp, fun _ _ => rfl, fun _ => rfl⟩
  | cons e members ih =>
    obtain ⟨name, type⟩ := e
    simp only [OrderedMap.keys, List.map_cons, List.nodup_cons] at hnodup
    obtain ⟨v, hv, hrest⟩ := (transformMembers_cons json5).mp h
    obtain ⟨after, rfl, hafter⟩ := ih hnodup.2 hrest
    have hother : ∀ e ∈ members, escapedText e.1 ≠ escapedText name := by
      intro e he heq
      exact hnodup.1 (escapedText_injective heq ▸ List.mem_map_of_mem he)
    refine ⟨after, rfl, ?_, ?_, ?_⟩
    · intro e he
      rcases List.mem_cons.mp he with rfl | he
      · refine ⟨v, hv, ?_⟩
        rw [hafter.untouched _ hother, OrderedMap.get_set, if_pos rfl]
      · have hne : name ≠ e.1 := fun heq => hother e he (congrArg escapedText heq).symm
        rw [← memberArg_set json5 v hne]
        exact hafter.parsed e he
    · intro k hk
      rw [hafter.untouched k fun e he => hk e (List.mem_cons_of_mem _ he), OrderedMap.get_set,
        if_neg (hk (name, type) (List.mem_cons_self ..))]
    · intro hkeys
      have hset := OrderedMap.keys_set_of_mem v (hkeys (name, type) (List.mem_cons_self ..))
      rw [← hset]
      apply hafter.keys
      intro e he
      rw [hset]
      exact hkeys e (List.mem_cons_of_mem _ he)

/-- The member is read, parsed and put back. -/
def MemberAccepted (srcObj : SrcObject) (e : JsString × TypeNode) : Prop :=
  ∃ x v r, srcObj.get (escapedText e.1) = .ok x ∧
    transformParam json5 true e.2 (json5.stringify x) = .ok v ∧
    srcObj.set (escapedText e.1) v = .ok r

/-- A value is put in the place of a length exactly if the number made of it is one. -/
theorem set_length_iff {elements : List JsValue} {members : List (JsString × JsValue)} {v : JsValue} :
    (∃ r, (SrcObject.list elements members).set (js "length") v = .ok r) ↔
      ∃ x, SrcObject.lengthNumber v = .ok x ∧ (SrcObject.arrayLength x).isSome := by
  rw [SrcObject.set, if_pos rfl]
  simp only [except_bind_ok]
  constructor
  · rintro ⟨r, x, hx, hr⟩
    refine ⟨x, hx, ?_⟩
    cases hlength : SrcObject.arrayLength x with
    | some length => rfl
    | none =>
      rw [hlength] at hr
      cases hr
  · rintro ⟨x, hx, hlength⟩
    obtain ⟨length, hlength⟩ := Option.isSome_iff_exists.mp hlength
    exact ⟨_, x, hx, by rw [hlength]; rfl⟩

theorem set_length_ok {elements : List JsValue} {members : List (JsString × JsValue)} {v : JsValue}
    {r : SrcObject} (h : (SrcObject.list elements members).set (js "length") v = .ok r) :
    ∃ elements', r = .list elements' members := by
  rw [SrcObject.set, if_pos rfl, except_bind_ok] at h
  obtain ⟨x, -, h⟩ := h
  split at h
  · cases h
    exact ⟨_, rfl⟩
  · cases h

/-- Setting one member changes nothing for the others. -/
theorem set_other {srcObj srcObj' : SrcObject} {k k' : JsString} {v : JsValue}
    (h : srcObj.set k v = .ok srcObj') (hne : k ≠ k') :
    srcObj'.get k' = srcObj.get k' ∧
      ∀ v', (∃ r, srcObj'.set k' v' = .ok r) ↔ ∃ r, srcObj.set k' v' = .ok r := by
  cases srcObj with
  | null =>
    cases h
    exact ⟨rfl, fun _ => Iff.rfl⟩
  | object members =>
    cases h
    refine ⟨?_, fun v' => by simp [SrcObject.set]⟩
    simp only [SrcObject.get, OrderedMap.get_set, if_neg hne]
  | list elements members =>
    by_cases hlength : k = js "length"
    · -- a new length leaves the named members
      have hother : k' ≠ js "length" := fun hk' => hne (hlength.trans hk'.symm)
      obtain ⟨elements', rfl⟩ := set_length_ok (hlength ▸ h)
      simp only [SrcObject.get, SrcObject.set, if_neg hother, Except.ok.injEq, exists_eq',
        implies_true, and_self]
    · rw [SrcObject.set, if_neg hlength, Except.ok.injEq] at h
      subst h
      refine ⟨?_, fun v' => ?_⟩
      · simp only [SrcObject.get, OrderedMap.get_set, if_neg hne]
      · by_cases hother : k' = js "length"
        · subst hother
          rw [set_length_iff, set_length_iff]
        · simp only [SrcObject.set, if_neg hother, Except.ok.injEq, exists_eq']

theorem transformMembers_accepted {members : List (JsString × TypeNode)} {srcObj : SrcObject}
    (hnodup : (OrderedMap.keys members).Nodup) :
    (∃ r, transformMembers json5 members srcObj = .ok r) ↔
      ∀ e ∈ members, MemberAccepted json5 srcObj e := by
  induction members generalizing srcObj with
  | nil => simp [transformMembers]
  | cons e members ih =>
    obtain ⟨name, type⟩ := e
    simp only [OrderedMap.keys, List.map_cons, List.nodup_cons] at hnodup
    have hother : ∀ e ∈ members, escapedText name ≠ escapedText e.1 := fun e he heq =>
      hnodup.1 (escapedText_injective heq ▸ List.mem_map_of_mem he)
    have hrest : ∀ {v srcObj'}, srcObj.set (escapedText name) v = .ok srcObj' →
        ((∃ r, transformMembers json5 members srcObj' = .ok r) ↔
          ∀ e ∈ members, MemberAccepted json5 srcObj e) := by
      intro v srcObj' hset
      rw [ih hnodup.2]
      refine forall₂_congr fun e he => ?_
      obtain ⟨hget, hsets⟩ := set_other hset (hother e he)
      simp only [MemberAccepted, hget, exists_and_left, hsets]
    rw [List.forall_mem_cons, transformMembers]
    simp only [except_bind_ok, atIndex_eq_ok]
    constructor
    · rintro ⟨r, x, hx, v, hv, srcObj', hset, hr⟩
      exact ⟨⟨x, v, srcObj', hx, hv, hset⟩, (hrest hset).mp ⟨r, hr⟩⟩
    · rintro ⟨⟨x, v, srcObj', hx, hv, hset⟩, hall⟩
      obtain ⟨r, hr⟩ := (hrest hset).mpr hall
      exact ⟨r, x, hx, v, hv, srcObj', hset, hr⟩

theorem memberAccepted_object {cur : List (JsString × JsValue)} {e : JsString × TypeNode} :
    MemberAccepted json5 (.object cur) e ↔
      ∃ v, transformParam json5 true e.2 (memberArg json5 cur e.1) = .ok v := by
  simp [MemberAccepted, SrcObject.get, SrcObject.set, memberArg]

/-- Of the members whose name begins with two underscores, the one with the longest name is looked up
and put back under a name that no member has. -/
theorem exists_underscored {members : List (JsString × TypeNode)} {name : JsString}
    (hname : name ∈ OrderedMap.keys members) (hunderscored : (js "__").isPrefixOf name = true) :
    ∃ e ∈ members, escapedText e.1 ∉ OrderedMap.keys members := by
  obtain ⟨longest, hlongest, hmax⟩ := Finset.exists_max_image
    ((OrderedMap.keys members).toFinset.filter fun name => (js "__").isPrefixOf name = true)
    List.length ⟨name, Finset.mem_filter.mpr ⟨List.mem_toFinset.mpr hname, hunderscored⟩⟩
  obtain ⟨hmem, hprefix⟩ := Finset.mem_filter.mp hlongest
  obtain ⟨e, he, rfl⟩ := List.mem_map.mp (List.mem_toFinset.mp hmem)
  refine ⟨e, he, fun hin => ?_⟩
  have hescaped : escapedText e.1 = 0x5F :: e.1 := if_pos hprefix
  have hlonger : escapedText e.1 ∈ (OrderedMap.keys members).toFinset.filter
      fun name => (js "__").isPrefixOf name = true := by
    obtain ⟨rest, hrest⟩ := underscored_iff.mp hprefix
    refine Finset.mem_filter.mpr ⟨List.mem_toFinset.mpr hin, ?_⟩
    exact underscored_iff.mpr ⟨0x5F :: rest, by rw [hescaped, hrest]⟩
  have hle := hmax _ hlonger
  rw [hescaped, List.length_cons] at hle
  omega

/-! ## Lists and objects that are read -/

theorem parseElements_eq_ok {arg : Option JsString} {ws : List JsValue}
    (h : json5.parse (argText arg) = .ok (.array ws)) : parseElements json5 arg = .ok ws := by
  rw [parseElements, h]

theorem parseObject_eq_ok {arg : Option JsString} {ms : List (JsString × JsValue)}
    (h : json5.parse (argText arg) = .ok (.object ms)) :
    parseObject json5 arg = .ok (.object ms) := by
  rw [parseObject, h]

theorem transformParam_array {quotedStrings : Bool} {elementType : TypeNode} {arg : Option JsString}
    {ws : List JsValue} {v : JsValue} (h : json5.ReadsAlike (argText arg) (.array ws)) :
    transformParam json5 quotedStrings (.array elementType) arg = .ok v ↔ ∃ vs, v = .array vs ∧
      List.Forall₂ (fun w v => transformParam json5 true elementType (json5.stringify w) = .ok v)
        ws vs := by
  obtain ⟨ws', hparse, halike⟩ := Json5.readsAlike_array h
  rw [transformParam, parseElements_eq_ok json5 hparse]
  simp only [except_bind_ok, Except.ok.injEq, pure, Except.pure, exists_eq_left', halike]
  simp only [transformRepeated_eq_ok, List.forall₂_map_left_iff]
  constructor
  · rintro ⟨vs, hvs, rfl⟩
    exact ⟨vs, rfl, hvs⟩
  · rintro ⟨vs, rfl, hvs⟩
    exact ⟨vs, hvs, rfl⟩

theorem transformParam_tuple {quotedStrings : Bool} {elements : List TypeNode}
    {arg : Option JsString} {ws : List JsValue} {v : JsValue}
    (h : json5.ReadsAlike (argText arg) (.array ws)) :
    transformParam json5 quotedStrings (.tuple elements) arg = .ok v ↔
      elements.length = ws.length ∧ ∃ vs, v = .array vs ∧
        transformTypes json5 true elements 0 (ws.map json5.stringify) = .ok vs := by
  obtain ⟨ws', hparse, halike⟩ := Json5.readsAlike_array h
  have hlength : ws'.length = ws.length := by
    simpa using congrArg List.length halike
  rw [transformParam, parseElements_eq_ok json5 hparse]
  simp only [except_bind_ok, Except.ok.injEq, pure, Except.pure, exists_eq_left', halike, hlength]
  constructor
  · rintro ⟨_, hcount, vs, hvs, rfl⟩
    exact ⟨checkCount_eq_ok.mp hcount, vs, rfl, hvs⟩
  · rintro ⟨hcount, vs, rfl, hvs⟩
    exact ⟨(), checkCount_eq_ok.mpr hcount, vs, hvs, rfl⟩

/-- Of an object the loop over the members sees the same texts as if it were read unchanged. -/
theorem transformParam_object (quotedStrings : Bool) {members : List (JsString × TypeNode)}
    {arg : Option JsString} {ws : List (JsString × JsValue)}
    (hnodup : (OrderedMap.keys members).Nodup)
    (h : json5.ReadsAlike (argText arg) (.object ws)) :
    ∃ cur, OrderedMap.keys cur = OrderedMap.keys ws ∧
      (∀ name, memberArg json5 cur name = memberArg json5 ws name) ∧
      ∀ v, transformParam json5 quotedStrings (.typeLiteral members) arg = .ok v ↔
        ∃ after, v = .object after ∧
          transformMembers json5 members (.object cur) = .ok (.object after) := by
  obtain ⟨cur, hparse, halike⟩ := Json5.readsAlike_object h
  refine ⟨cur, ?_, memberArg_alike json5 halike, fun v => ?_⟩
  · rw [← OrderedMap.keys_mapValues json5.stringify, halike, OrderedMap.keys_mapValues]
  rw [transformParam, parseObject_eq_ok json5 hparse]
  simp only [except_bind_ok, Except.ok.injEq, exists_eq_left', pure, Except.pure]
  constructor
  · rintro ⟨r, hr, rfl⟩
    obtain ⟨after, rfl, -⟩ := transformMembers_ok json5 hnodup hr
    exact ⟨after, rfl, hr⟩
  · rintro ⟨after, rfl, hr⟩
    exact ⟨_, hr, rfl⟩

end MidnightJs.CompactJs
