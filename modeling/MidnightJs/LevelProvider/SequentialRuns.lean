import MidnightJs.LevelProvider.LevelPrivateStateProvider
import MidnightJs.Contracts.PrivateStore

/-! # The provider as two maps

What a private state provider is for: a map of private states and a map of signing keys. A run of
the Level provider answers as the two maps do, unless it is given `null` or `undefined` to store. -/

namespace MidnightJs
open Foundations Foundations.Js Foundations.Async
set_option autoImplicit false

/-! ## The two maps -/

namespace PrivateStore

variable {PS : Type}

def remove (s : PrivateStore PS) (privateStateId : PrivateStateId) : PrivateStore PS :=
  { s with privateStates := Function.update s.privateStates privateStateId none }

def clear (s : PrivateStore PS) : PrivateStore PS := { s with privateStates := fun _ => none }

def removeSigningKey (s : PrivateStore PS) (address : ContractAddress) : PrivateStore PS :=
  { s with signingKeys := Function.update s.signingKeys address none }

def clearSigningKeys (s : PrivateStore PS) : PrivateStore PS := { s with signingKeys := fun _ => none }

end PrivateStore

namespace ProviderOp

def effect (op : ProviderOp) (m : PrivateStore JsValue) : PrivateStore JsValue :=
  match op with
  | get _ => m
  | remove privateStateId => m.remove privateStateId
  | set privateStateId state => m.set privateStateId state
  | clear => m.clear
  | getSigningKey _ => m
  | removeSigningKey address => m.removeSigningKey address
  | setSigningKey address signingKey => m.setSigningKey address signingKey
  | clearSigningKeys => m.clearSigningKeys

/-- What an operation looks up. -/
def entry (op : ProviderOp) (m : PrivateStore JsValue) : Option JsValue :=
  match op with
  | get privateStateId => m.privateStates privateStateId
  | getSigningKey address => (m.signingKeys address).map .string
  | _ => none

def answer (op : ProviderOp) (m : PrivateStore JsValue) : JsValue :=
  if op.isGet then (op.entry m).getD .null else .undefined

/-- The maps after some operations. -/
def after (m : PrivateStore JsValue) (ops : List ProviderOp) : PrivateStore JsValue :=
  ops.foldl (fun m op => op.effect m) m

/-- The operation sets, removes or clears the private state. -/
def Touches (op : ProviderOp) (privateStateId : PrivateStateId) : Prop :=
  match op with
  | set id _ => id = privateStateId
  | remove id => id = privateStateId
  | clear => True
  | _ => False

/-- The operation sets, removes or clears the signing key. -/
def TouchesKey (op : ProviderOp) (address : ContractAddress) : Prop :=
  match op with
  | setSigningKey a _ => a = address
  | removeSigningKey a => a = address
  | clearSigningKeys => True
  | _ => False

variable {op : ProviderOp} {m : PrivateStore JsValue} {id : PrivateStateId} {a : ContractAddress}

theorem effect_privateStates (h : ¬ op.Touches id) :
    (op.effect m).privateStates id = m.privateStates id := by
  cases op with
  | set id' v => exact Function.update_of_ne (Ne.symm h) _ _
  | remove id' => exact Function.update_of_ne (Ne.symm h) _ _
  | clear => exact absurd trivial h
  | _ => rfl

/-- A private state of the map is the one last set and not touched since. -/
theorem privateStates_after {ops : List ProviderOp} {v : JsValue}
    (h : (after m ops).privateStates id = some v) :
    (∃ pre post, ops = pre ++ set id v :: post ∧ ∀ op ∈ post, ¬ op.Touches id) ∨
      (m.privateStates id = some v ∧ ∀ op ∈ ops, ¬ op.Touches id) := by
  induction ops using List.reverseRecOn with
  | nil => exact .inr ⟨h, by simp⟩
  | append_singleton ops op ih =>
    rw [after, List.foldl_append] at h
    by_cases ht : op.Touches id
    · cases op with
      | set id' v' =>
        have hid : id' = id := ht
        subst hid
        have hv : v' = v := by simpa [effect, PrivateStore.set] using h
        subst hv
        exact .inl ⟨ops, [], rfl, by simp⟩
      | remove id' =>
        have hid : id' = id := ht
        subst hid
        simp [effect, PrivateStore.remove] at h
      | clear => cases h
      | _ => exact ht.elim
    · rw [List.foldl_cons, List.foldl_nil, effect_privateStates ht] at h
      obtain ⟨pre, post, rfl, hpost⟩ | ⟨hm, hops⟩ := ih h
      · refine .inl ⟨pre, post ++ [op], by simp, fun op' hop => ?_⟩
        rcases List.mem_append.mp hop with hop | hop
        · exact hpost op' hop
        · rwa [List.mem_singleton.mp hop]
      · refine .inr ⟨hm, fun op' hop => ?_⟩
        rcases List.mem_append.mp hop with hop | hop
        · exact hops op' hop
        · rwa [List.mem_singleton.mp hop]

end ProviderOp

/-! ## One store and its map -/

section Refinement

variable [SuperJson]

/-- The texts of a store are those of the values of a map. -/
structure Holds (texts : SubLevel) (values : JsString → Option JsValue) : Prop where
  reads : ∀ key, (texts key).map SuperJson.parse = (values key).map .ok
  defined : ∀ key value, values key = some value → value.isNullish = false

namespace LevelAccess

omit [SuperJson] in
def Storable : LevelAccess → Prop
  | put _ value => value.isNullish = false
  | _ => True

/-- superjson reads back what the access stores. -/
def Lossless : LevelAccess → Prop
  | put _ value => SuperJson.parse (SuperJson.stringify value) = .ok value
  | _ => True

omit [SuperJson] in
def effect (a : LevelAccess) (values : JsString → Option JsValue) : JsString → Option JsValue :=
  match a with
  | get _ => values
  | put key value => Function.update values key (some value)
  | del key => Function.update values key none
  | clear => fun _ => none

omit [SuperJson] in
def answer (a : LevelAccess) (values : JsString → Option JsValue) : JsValue :=
  match a with
  | get key => (values key).getD .undefined
  | _ => .undefined

variable {a : LevelAccess} {texts : SubLevel} {values : JsString → Option JsValue}

theorem perform_unstorable (h : ¬ a.Storable) : (a.perform texts).1 = .error .invalidValue := by
  cases a with
  | put key value =>
    have hnull : value.isNullish = true := by simpa [Storable] using h
    simp [perform, hnull]
  | _ => exact absurd trivial h

theorem perform_holds (h : Holds texts values) (hlossless : a.Lossless) (hstorable : a.Storable) :
    (a.perform texts).1 = .ok (a.answer values) ∧ Holds (a.perform texts).2 (a.effect values) := by
  cases a with
  | get key =>
    have hkey := h.reads key
    cases ht : texts key with
    | none =>
      have hv : values key = none := by simpa [ht] using hkey.symm
      simp only [perform, ht, answer, hv]
      exact ⟨rfl, h⟩
    | some text =>
      obtain ⟨value, hv, hparse⟩ : ∃ value, values key = some value ∧
          SuperJson.parse text = .ok value := by
        cases hv : values key with
        | none => simp [ht, hv] at hkey
        | some value => exact ⟨value, rfl, by simpa [ht, hv] using hkey⟩
      simp only [perform, ht, answer, hv, hparse]
      exact ⟨rfl, h⟩
  | put key value =>
    have hnull : value.isNullish = false := hstorable
    simp only [perform, hnull, Bool.false_eq_true, if_false]
    refine ⟨rfl, fun key' => ?_, fun key' value' hv => ?_⟩
    · by_cases hk : key' = key
      · subst hk
        simpa [effect, Lossless] using hlossless
      · simpa [effect, Function.update_of_ne hk] using h.reads key'
    · by_cases hk : key' = key
      · subst hk
        have heq : value = value' := by simpa [effect] using hv
        subst heq
        exact hnull
      · exact h.defined key' value' (by simpa [effect, Function.update_of_ne hk] using hv)
  | del key =>
    refine ⟨rfl, fun key' => ?_, fun key' value' hv => ?_⟩
    · by_cases hk : key' = key
      · subst hk
        simp [effect, perform]
      · simpa [effect, perform, Function.update_of_ne hk] using h.reads key'
    · by_cases hk : key' = key
      · subst hk
        simp [effect] at hv
      · exact h.defined key' value' (by simpa [effect, Function.update_of_ne hk] using hv)
  | clear => exact ⟨rfl, fun key' => rfl, fun key' value' hv => by cases hv⟩

end LevelAccess

/-! ## The databases and the two maps -/

/-- The database is closed, and its two stores hold the two maps. -/
structure Represents (config : LevelPrivateStateProviderConfig) (s : Databases)
    (m : PrivateStore JsValue) : Prop where
  closed : s.holder config.midnightDbName = none
  privateStates : Holds (s.content config.midnightDbName config.privateStateStoreName) m.privateStates
  signingKeys : Holds (s.content config.midnightDbName config.signingKeyStoreName)
    fun address => (m.signingKeys address).map .string

variable {config : LevelPrivateStateProviderConfig} {s s' : Databases} {m : PrivateStore JsValue}
  {op : ProviderOp} {tr : List (Event LevelLibrary)} {out : Except LevelError JsValue}

omit [SuperJson] in
/-- The map in whose store the operation makes its access. -/
def ProviderOp.values (op : ProviderOp) (m : PrivateStore JsValue) : JsString → Option JsValue :=
  match op with
  | get _ | remove _ | set _ _ | clear => m.privateStates
  | _ => fun address => (m.signingKeys address).map .string

omit [SuperJson] in
theorem ProviderOp.values_effect (op : ProviderOp) (m : PrivateStore JsValue) :
    op.values (op.effect m) = op.access.effect (op.values m) := by
  cases op with
  | setSigningKey address signingKey =>
    funext a
    by_cases ha : a = address
    · subst ha
      simp [values, effect, access, LevelAccess.effect, PrivateStore.setSigningKey]
    · simp [values, effect, access, LevelAccess.effect, PrivateStore.setSigningKey, ha]
  | removeSigningKey address =>
    funext a
    by_cases ha : a = address
    · subst ha
      simp [values, effect, access, LevelAccess.effect, PrivateStore.removeSigningKey]
    · simp [values, effect, access, LevelAccess.effect, PrivateStore.removeSigningKey, ha]
  | _ => rfl

omit [SuperJson] in
theorem ProviderOp.result_answer
    (h : ∀ key value, op.values m key = some value → value.isNullish = false) :
    op.result (op.access.answer (op.values m)) = op.answer m := by
  have found : ∀ value : Option JsValue, (∀ v, value = some v → v.isNullish = false) →
      (if (value.getD .undefined).isUndefined then .null else value.getD .undefined) =
        value.getD .null := by
    intro value hvalue
    cases value with
    | none => rfl
    | some v =>
      have hv := hvalue v rfl
      cases v <;> first | rfl | cases hv
  cases op with
  | get privateStateId => exact found _ (h privateStateId)
  | getSigningKey address => exact found _ (h address)
  | _ => rfl

theorem Represents.holds (h : Represents config s m) (op : ProviderOp) :
    Holds (s.content config.midnightDbName (op.levelName config)) (op.values m) := by
  cases op <;> first | exact h.privateStates | exact h.signingKeys

/-- An operation that stores neither `null` nor `undefined` does what the two maps do. -/
theorem Represents.exec (h : Represents config s m)
    (apart : config.privateStateStoreName ≠ config.signingKeyStoreName)
    (run : Exec levelEnv (levelPrivateStateProvider config op) s tr out s')
    (hlossless : op.access.Lossless) (hstorable : op.access.Storable) :
    out = .ok (op.answer m) ∧ Represents config s' (op.effect m) := by
  obtain ⟨rfl, hcontent, hholder⟩ := exec_provider h.closed run
  obtain ⟨hanswer, hholds⟩ := LevelAccess.perform_holds (h.holds op) hlossless hstorable
  have hself : s'.content config.midnightDbName (op.levelName config) =
      (op.access.perform (s.content config.midnightDbName (op.levelName config))).2 := by
    simp [hcontent, ProviderOp.perform]
  have hother : ∀ levelName, levelName ≠ op.levelName config →
      s'.content config.midnightDbName levelName = s.content config.midnightDbName levelName := by
    intro levelName hne
    simp [hcontent, ProviderOp.perform, hne]
  rw [← hself, ← op.values_effect m] at hholds
  refine ⟨?_, (congrFun hholder _).trans h.closed, ?_, ?_⟩
  · rw [ProviderOp.perform, hanswer, ← ProviderOp.result_answer (h.holds op).defined]
    rfl
  · cases op with
    | get _ | remove _ | set _ _ | clear => exact hholds
    | _ =>
      rw [hother _ apart]
      exact h.privateStates
  · cases op with
    | get _ | remove _ | set _ _ | clear =>
      rw [hother _ apart.symm]
      exact h.signingKeys
    | _ => exact hholds

theorem exec_unstorable (h : s.holder config.midnightDbName = none)
    (run : Exec levelEnv (levelPrivateStateProvider config op) s tr out s')
    (hop : ¬ op.access.Storable) : out = .error .invalidValue := by
  obtain ⟨rfl, -, -⟩ := exec_provider h run
  rw [ProviderOp.perform, LevelAccess.perform_unstorable hop]
  rfl

/-! ## Runs -/

/-- Every operation of the run answered as the two maps, and the databases hold the maps in the end. -/
structure AnswersAsMaps (config : LevelPrivateStateProviderConfig) (m : PrivateStore JsValue)
    (done : List (Performed providerService Databases)) (s : Databases) : Prop where
  answers : ∀ pre d post, done = pre ++ d :: post →
    d.outcome = .ok (d.op.2.answer (ProviderOp.after m (pre.map fun d => d.op.2)))
  absent : ∀ pre d post, done = pre ++ d :: post → d.op.2.isGet = true →
    (d.outcome = .ok .null ↔ d.op.2.entry (ProviderOp.after m (pre.map fun d => d.op.2)) = none)
  represents : Represents config s (ProviderOp.after m (done.map fun d => d.op.2))

variable {s₀ : Databases} {m₀ : PrivateStore JsValue}
  {done : List (Performed providerService Databases)}

omit [SuperJson] in
theorem ProviderOp.answer_eq_null
    (h : ∀ key value, op.values m key = some value → value.isNullish = false) (hget : op.isGet = true) :
    op.answer m = .null ↔ op.entry m = none := by
  have hentry : ∀ value, op.entry m = some value → value.isNullish = false := by
    intro value hvalue
    cases op with
    | get privateStateId => exact h privateStateId value hvalue
    | getSigningKey address => exact h address value hvalue
    | _ => cases hvalue
  rw [answer, if_pos hget]
  cases he : op.entry m with
  | none => simp
  | some value =>
    have hvalue := hentry value he
    simp only [Option.getD_some, reduceCtorEq, iff_false]
    rintro rfl
    cases hvalue

theorem answersAsMaps_of_storable (h₀ : Represents config s₀ m₀)
    (apart : config.privateStateStoreName ≠ config.signingKeyStoreName)
    (session : Session levelEnv s₀ done s) (hconfig : ∀ d ∈ done, d.op.1 = config)
    (hlossless : ∀ d ∈ done, d.op.2.access.Lossless)
    (hstorable : ∀ d ∈ done, d.op.2.access.Storable) : AnswersAsMaps config m₀ done s := by
  have hrepresents : ∀ {done' s'}, Session levelEnv s₀ done' s' → (∀ d ∈ done', d ∈ done) →
      Represents config s' (ProviderOp.after m₀ (done'.map fun d => d.op.2)) := by
    intro done' s' session' hsub
    induction session' with
    | nil => exact h₀
    | @snoc done' d before valid ih =>
      have hd := hsub d (by simp)
      have hrun : Exec levelEnv (levelPrivateStateProvider config d.op.2) d.before d.trace d.outcome
          d.after := by
        rw [← hconfig d hd]
        exact valid
      have ih := ih fun d' h => hsub d' (List.mem_append_left _ h)
      rw [List.map_append, ProviderOp.after, List.foldl_append]
      exact (ih.exec apart hrun (hlossless d hd) (hstorable d hd)).2
  have hout : ∀ pre d post, done = pre ++ d :: post →
      d.outcome = .ok (d.op.2.answer (ProviderOp.after m₀ (pre.map fun d => d.op.2))) ∧
        Represents config d.before (ProviderOp.after m₀ (pre.map fun d => d.op.2)) := by
    intro pre d post hdone
    obtain ⟨before, valid, -⟩ := (hdone ▸ session).split
    have hd : d ∈ done := by simp [hdone]
    have hbefore := hrepresents before fun d' h => by simp [hdone, h]
    have hrun : Exec levelEnv (levelPrivateStateProvider config d.op.2) d.before d.trace d.outcome
        d.after := by
      rw [← hconfig d hd]
      exact valid
    exact ⟨(hbefore.exec apart hrun (hlossless d hd) (hstorable d hd)).1, hbefore⟩
  refine ⟨fun pre d post hdone => (hout pre d post hdone).1, fun pre d post hdone hget => ?_,
    hrepresents session fun d h => h⟩
  obtain ⟨houtcome, hbefore⟩ := hout pre d post hdone
  rw [houtcome]
  exact Iff.trans ⟨fun h => Except.ok.inj h, fun h => congrArg Except.ok h⟩
    (ProviderOp.answer_eq_null (hbefore.holds d.op.2).defined hget)

/-- A run of the provider answers as the two maps exactly when nothing that it is given to store is
`null` or `undefined`. -/
theorem level_provider_refines_maps (apart : config.privateStateStoreName ≠ config.signingKeyStoreName)
    (h₀ : Represents config s₀ m₀) (session : Session levelEnv s₀ done s)
    (hconfig : ∀ d ∈ done, d.op.1 = config) (hlossless : ∀ d ∈ done, d.op.2.access.Lossless) :
    AnswersAsMaps config m₀ done s ↔
      ∀ d ∈ done, ∀ id state, d.op.2 = .set id state → state ≠ .null ∧ state ≠ .undefined := by
  constructor
  · intro h d hd id state hset
    obtain ⟨pre, post, rfl⟩ := List.append_of_mem hd
    obtain ⟨before, valid, -⟩ := session.split
    have hclosed : d.before.holder config.midnightDbName = none := by
      refine before.invariant (I := fun s => s.holder config.midnightDbName = none) h₀.closed ?_
      intro d' hd' valid' hbefore
      have hrun : Exec levelEnv (levelPrivateStateProvider config d'.op.2) d'.before d'.trace
          d'.outcome d'.after := by
        rw [← hconfig d' (List.mem_append_left _ hd')]
        exact valid'
      exact (congrFun (exec_provider hbefore hrun).2.2 _).trans hbefore
    have hrun : Exec levelEnv (levelPrivateStateProvider config d.op.2) d.before d.trace d.outcome
        d.after := by
      rw [← hconfig d hd]
      exact valid
    by_contra hnull
    have hunstorable : ¬ d.op.2.access.Storable := by
      rw [hset]
      intro hstorable
      refine hnull ⟨?_, ?_⟩
      · rintro rfl
        cases hstorable
      · rintro rfl
        cases hstorable
    have hanswer := h.answers pre d post rfl
    rw [exec_unstorable hclosed hrun hunstorable] at hanswer
    cases hanswer
  · intro h
    refine answersAsMaps_of_storable h₀ apart session hconfig hlossless fun d hd => ?_
    cases hop : d.op.2 with
    | set id state =>
      obtain ⟨hnull, hundefined⟩ := h d hd id state hop
      change state.isNullish = false
      cases state <;> first | rfl | exact absurd rfl hnull | exact absurd rfl hundefined
    | setSigningKey a k => rfl
    | _ => trivial

end Refinement

/-! ## Runs on concrete inputs -/

namespace Sample

/-- A session of one provider on an empty database. -/
def session (ops : List ProviderOp) : List (Performed providerService Databases) × Databases :=
  providerService.perform levelHandler (ops.map fun op => (DEFAULT_CONFIG, op)) noDatabases

/-- How the operations of a session settled. -/
def outcomes (ops : List ProviderOp) : List (Except LevelError JsValue) :=
  (session ops).1.map fun d => d.outcome

def emptyStore : PrivateStore JsValue := ⟨fun _ => none, fun _ => none⟩

theorem represents_emptyStore : Represents DEFAULT_CONFIG noDatabases emptyStore :=
  ⟨rfl, ⟨fun _ => rfl, fun _ _ h => by cases h⟩, ⟨fun _ => rfl, fun _ _ h => by cases h⟩⟩

/-- The same string is used as an id and as an address. -/
def storedAndRemoved : List ProviderOp :=
  [.get id, .set id (.string (js "one")), .setSigningKey id (js "key"), .get id, .remove id, .get id,
    .getSigningKey id]

theorem level_provider_refines_maps_stored :
    AnswersAsMaps DEFAULT_CONFIG emptyStore (session storedAndRemoved).1 (session storedAndRemoved).2 ∧
      outcomes storedAndRemoved = [.ok .null, .ok .undefined, .ok .undefined,
        .ok (.string (js "one")), .ok .undefined, .ok .null, .ok (.string (js "key"))] := by
  have hmem : ∀ d ∈ (session storedAndRemoved).1,
      d.op ∈ storedAndRemoved.map fun op => (DEFAULT_CONFIG, op) :=
    fun d hd => (mem_perform hd).1
  refine ⟨(level_provider_refines_maps defaults_stores_ne represents_emptyStore
    (session_perform (fun _ _ => rfl) _ _) (fun d hd => ?_) (fun d hd => ?_)).mpr ?_, rfl⟩
  · obtain ⟨op, -, hop⟩ := List.mem_map.mp (hmem d hd)
    rw [← hop]
  · obtain ⟨op, hin, hop⟩ := List.mem_map.mp (hmem d hd)
    rw [← hop]
    simp only [storedAndRemoved, List.mem_cons, List.not_mem_nil, or_false] at hin
    rcases hin with rfl | rfl | rfl | rfl | rfl | rfl | rfl <;> trivial
  · intro d hd i state hset
    obtain ⟨op, hin, hop⟩ := List.mem_map.mp (hmem d hd)
    rw [← hop] at hset
    simp only [storedAndRemoved, List.mem_cons, List.not_mem_nil, or_false] at hin
    rcases hin with rfl | rfl | rfl | rfl | rfl | rfl | rfl <;> cases hset
    exact ⟨by simp, by simp⟩

/-- A private state `undefined` is not stored: `set` rejects, and `get` goes on to return `null`. -/
theorem undefined_private_state_rejected :
    outcomes [.set id .undefined, .get id] = [.error .invalidValue, .ok .null] ∧
      ¬ AnswersAsMaps DEFAULT_CONFIG emptyStore (session [.set id .undefined, .get id]).1
        (session [.set id .undefined, .get id]).2 := by
  refine ⟨rfl, fun h => ?_⟩
  have hfirst := h.answers [] _ _ rfl
  cases hfirst

end Sample

end MidnightJs
