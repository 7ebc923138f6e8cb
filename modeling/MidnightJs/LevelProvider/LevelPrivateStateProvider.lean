import MidnightJs.LevelProvider.Level
import MidnightJs.Foundations.Sessions
import MidnightJs.Contracts.Providers

/-! # The Level private state provider

`level-private-state-provider.ts`. Every operation constructs an instance of the database, opens it and
the sublevel it needs, makes one access, and closes both again. -/

namespace MidnightJs
open Foundations Foundations.Js Foundations.Async
set_option autoImplicit false

structure LevelPrivateStateProviderConfig where
  midnightDbName : JsString
  privateStateStoreName : JsString
  signingKeyStoreName : JsString

/-- `Partial<LevelPrivateStateProviderConfig>`. -/
structure PartialConfig where
  midnightDbName : Option JsString
  privateStateStoreName : Option JsString
  signingKeyStoreName : Option JsString

def MN_LDB_DEFAULT_DB_NAME : JsString := js "midnight-level-db"

def MN_LDB_DEFAULT_PRIS_STORE_NAME : JsString := js "private-states"

def MN_LDB_DEFAULT_KEY_STORE_NAME : JsString := js "signing-keys"

def DEFAULT_CONFIG : LevelPrivateStateProviderConfig where
  midnightDbName := MN_LDB_DEFAULT_DB_NAME
  privateStateStoreName := MN_LDB_DEFAULT_PRIS_STORE_NAME
  signingKeyStoreName := MN_LDB_DEFAULT_KEY_STORE_NAME

/-- `_.defaults(partialConfig, DEFAULT_CONFIG)`. -/
def PartialConfig.defaults (partialConfig : PartialConfig) : LevelPrivateStateProviderConfig where
  midnightDbName := partialConfig.midnightDbName.getD DEFAULT_CONFIG.midnightDbName
  privateStateStoreName :=
    partialConfig.privateStateStoreName.getD DEFAULT_CONFIG.privateStateStoreName
  signingKeyStoreName := partialConfig.signingKeyStoreName.getD DEFAULT_CONFIG.signingKeyStoreName

/-- The default configuration keeps the two stores apart. -/
theorem defaults_stores_ne :
    DEFAULT_CONFIG.privateStateStoreName ≠ DEFAULT_CONFIG.signingKeyStoreName := by
  decide

abbrev LevelPromise := Program LevelLibrary LevelError

def level (c : LevelCall) : LevelPromise c.Reply := Program.call (E := LevelLibrary) id c

def withSubLevel (dbName levelName : JsString) (thunk : LevelId → LevelPromise JsValue) :
    LevelPromise JsValue := do
  let instanceId ← level (.construct dbName)
  Program.withFinally
    (do
      level (.openLevel instanceId)
      level (.openSubLevel instanceId levelName)
      thunk instanceId)
    (do
      level (.closeSubLevel instanceId levelName)
      level (.closeLevel instanceId))

def subLevelMaybeGet (dbName levelName key : JsString) : LevelPromise JsValue :=
  withSubLevel dbName levelName fun subLevel => do
    let value ← level (.access subLevel levelName (.get key))
    if value.isUndefined then
      return .null
    return value

/-- The eight operations of a provider, with their arguments. -/
inductive ProviderOp
  | get (privateStateId : PrivateStateId)
  | remove (privateStateId : PrivateStateId)
  | set (privateStateId : PrivateStateId) (state : JsValue)
  | clear
  | getSigningKey (address : ContractAddress)
  | removeSigningKey (address : ContractAddress)
  | setSigningKey (address : ContractAddress) (signingKey : SigningKey)
  | clearSigningKeys

/-- The methods of `levelPrivateStateProvider(config)`; `Promise<void>` resolves with `undefined`. -/
def levelPrivateStateProvider (config : LevelPrivateStateProviderConfig) :
    ProviderOp → LevelPromise JsValue
  | .get privateStateId =>
    subLevelMaybeGet config.midnightDbName config.privateStateStoreName privateStateId
  | .remove privateStateId =>
    withSubLevel config.midnightDbName config.privateStateStoreName fun subLevel =>
      level (.access subLevel config.privateStateStoreName (.del privateStateId))
  | .set privateStateId state =>
    withSubLevel config.midnightDbName config.privateStateStoreName fun subLevel =>
      level (.access subLevel config.privateStateStoreName (.put privateStateId state))
  | .clear =>
    withSubLevel config.midnightDbName config.privateStateStoreName fun subLevel =>
      level (.access subLevel config.privateStateStoreName .clear)
  | .getSigningKey address =>
    subLevelMaybeGet config.midnightDbName config.signingKeyStoreName address
  | .removeSigningKey address =>
    withSubLevel config.midnightDbName config.signingKeyStoreName fun subLevel =>
      level (.access subLevel config.signingKeyStoreName (.del address))
  | .setSigningKey address signingKey =>
    withSubLevel config.midnightDbName config.signingKeyStoreName fun subLevel =>
      level (.access subLevel config.signingKeyStoreName (.put address (.string signingKey)))
  | .clearSigningKeys =>
    withSubLevel config.midnightDbName config.signingKeyStoreName fun subLevel =>
      level (.access subLevel config.signingKeyStoreName .clear)

/-! ## One access in one store -/

namespace ProviderOp

def access : ProviderOp → LevelAccess
  | get privateStateId => .get privateStateId
  | remove privateStateId => .del privateStateId
  | set privateStateId state => .put privateStateId state
  | clear => .clear
  | getSigningKey address => .get address
  | removeSigningKey address => .del address
  | setSigningKey address signingKey => .put address (.string signingKey)
  | clearSigningKeys => .clear

def levelName (config : LevelPrivateStateProviderConfig) : ProviderOp → JsString
  | get _ | remove _ | set _ _ | clear => config.privateStateStoreName
  | getSigningKey _ | removeSigningKey _ | setSigningKey _ _ | clearSigningKeys =>
    config.signingKeyStoreName

def isGet : ProviderOp → Bool
  | get _ | getSigningKey _ => true
  | _ => false

/-- What an operation makes of the value of its access. -/
def result (op : ProviderOp) (value : JsValue) : JsValue :=
  if op.isGet && value.isUndefined then .null else value

end ProviderOp

/-- Every operation is one access between the opening and the closing of its store. -/
theorem levelPrivateStateProvider_eq (config : LevelPrivateStateProviderConfig) (op : ProviderOp) :
    levelPrivateStateProvider config op =
      withSubLevel config.midnightDbName (op.levelName config) fun subLevel =>
        (level (.access subLevel (op.levelName config) op.access)).bind fun value =>
          .resolve (op.result value) := by
  have hresult : ∀ (result : JsValue → JsValue) (value : JsValue),
      (result value = if value.isUndefined then .null else value) →
      (if value.isUndefined then .resolve .null else .resolve value : LevelPromise JsValue) =
        .resolve (result value) := by
    intro result value h
    rw [h]
    split <;> rfl
  have hget : ∀ (dbName levelName key : JsString) (result : JsValue → JsValue),
      (∀ value, result value = if value.isUndefined then .null else value) →
      subLevelMaybeGet dbName levelName key = withSubLevel dbName levelName fun subLevel =>
        (level (.access subLevel levelName (.get key))).bind fun value => .resolve (result value) := by
    intro dbName levelName key result h
    unfold subLevelMaybeGet
    congr 1
    funext subLevel
    simp only [Program.bind_eq, Program.pure_eq]
    congr 1
    funext value
    exact hresult result value (h value)
  have hplain : ∀ (subLevel : LevelId) (levelName : JsString) (a : LevelAccess),
      level (.access subLevel levelName a) =
        (level (.access subLevel levelName a)).bind fun value => .resolve value :=
    fun subLevel levelName a => (Program.bind_resolve _).symm
  cases op with
  | get privateStateId => exact hget _ _ _ _ fun _ => rfl
  | getSigningKey address => exact hget _ _ _ _ fun _ => rfl
  | _ => exact congrArg (withSubLevel _ _) (funext fun subLevel => hplain subLevel _ _)

/-! ## An operation that runs alone -/

section Alone

variable [SuperJson] {config : LevelPrivateStateProviderConfig} {op : ProviderOp}

/-- The content of all databases. -/
abbrev Content := JsString → JsString → SubLevel

/-- What an operation replies and does when nobody has the database open. -/
def ProviderOp.perform (config : LevelPrivateStateProviderConfig) (op : ProviderOp)
    (content : Content) : Except LevelError JsValue × Content :=
  let dbName := config.midnightDbName
  let r := op.access.perform (content dbName (op.levelName config))
  (r.1.map op.result, Function.update content dbName
    (Function.update (content dbName) (op.levelName config) r.2))

theorem settle_level {c : LevelCall} {s s' : Databases} {r : LevelLibrary.Settled c}
    (h : levelHandler c s = (r, s')) : (level c).settle levelHandler s = (r, s') := by
  refine Eq.trans (Program.settle_call (E := LevelLibrary) h) ?_
  cases r <;> rfl

/-- The access with its result, in a state where the store is open. -/
theorem settle_access {s : Databases} {id : LevelId} {dbName levelName : JsString}
    (h : s.opened id = some dbName) (hopen : levelName ∈ s.subLevels id) (op : ProviderOp) :
    ((level (.access id levelName op.access)).bind fun value => .resolve (op.result value) :
        LevelPromise JsValue).settle levelHandler s =
      ((op.access.perform (s.content dbName levelName)).1.map op.result,
        s.setContent dbName levelName (op.access.perform (s.content dbName levelName)).2) := by
  have hsettle := settle_level (access_opened h hopen op.access)
  cases hr : (op.access.perform (s.content dbName levelName)).1 with
  | ok value =>
    rw [hr] at hsettle
    exact Program.settle_bind_ok hsettle
  | error e =>
    rw [hr] at hsettle
    exact Program.settle_bind_error hsettle

theorem settle_provider {s : Databases} (h : s.holder config.midnightDbName = none) :
    ∃ s', (levelPrivateStateProvider config op).settle levelHandler s =
        ((op.perform config s.content).1, s') ∧
      s'.content = (op.perform config s.content).2 ∧ s'.holder = s.holder := by
  obtain ⟨dbName, hdb⟩ : ∃ dbName, dbName = config.midnightDbName := ⟨_, rfl⟩
  obtain ⟨levelName, hname⟩ : ∃ levelName, levelName = op.levelName config := ⟨_, rfl⟩
  rw [levelPrivateStateProvider_eq, ProviderOp.perform, ← hdb, ← hname]
  rw [← hdb] at h
  let id := s.instances.length
  let constructed : Databases := { s with instances := s.instances ++ [dbName] }
  let opened : Databases :=
    { constructed with holder := Function.update s.holder dbName (some id) }
  let ready : Databases :=
    { opened with subLevels := Function.update s.subLevels id (levelName :: s.subLevels id) }
  let texts := (op.access.perform (s.content dbName levelName)).2
  let closing := (ready.setContent dbName levelName texts).closeSubLevel id levelName
  have hopened : opened.opened id = some dbName := by
    simp [Databases.opened, opened, constructed, id]
  have hconstruct : levelHandler (.construct dbName) s = (.ok id, constructed) := rfl
  have hopen : levelHandler (.openLevel id) constructed = (.ok (), opened) :=
    openLevel_free List.getElem?_concat_length h
  have hopenSub : levelHandler (.openSubLevel id levelName) opened = (.ok (), ready) :=
    openSubLevel_opened hopened
  have hready : levelName ∈ ready.subLevels id := by simp [ready]
  have haccess := settle_access (s := ready) hopened hready op
  have hcloseSub : levelHandler (.closeSubLevel id levelName)
      (ready.setContent dbName levelName texts) = (.ok (), closing) := rfl
  have hclose : levelHandler (.closeLevel id) closing = (.ok (), closing.closeLevel id) := rfl
  refine ⟨closing.closeLevel id, ?_, ?_, ?_⟩
  · refine (Program.settle_bind_ok (settle_level hconstruct)).trans ?_
    have hcleanup : ((level (.closeSubLevel id levelName)).bind fun _ =>
        level (.closeLevel id)).settle levelHandler (ready.setContent dbName levelName texts) =
          (.ok (), closing.closeLevel id) :=
      (Program.settle_bind_ok (settle_level hcloseSub)).trans (settle_level hclose)
    refine Program.settle_withFinally ?_ hcleanup
    refine (Program.settle_bind_ok (settle_level hopen)).trans ?_
    exact (Program.settle_bind_ok (settle_level hopenSub)).trans haccess
  · have hclosing : closing.opened id = some dbName := hopened
    simp only [Databases.closeLevel, hclosing]
    rfl
  · have hclosing : closing.opened id = some dbName := hopened
    simp only [Databases.closeLevel, hclosing]
    change Function.update (Function.update s.holder dbName (some id)) dbName none = s.holder
    rw [Function.update_idem, ← h, Function.update_eq_self]

/-- An operation that begins while the database is closed runs as `perform` says. -/
theorem exec_provider {s s' : Databases} {tr : List (Event LevelLibrary)}
    {out : Except LevelError JsValue} (h : s.holder config.midnightDbName = none)
    (run : Exec levelEnv (levelPrivateStateProvider config op) s tr out s') :
    out = (op.perform config s.content).1 ∧ s'.content = (op.perform config s.content).2 ∧
      s'.holder = s.holder := by
  obtain ⟨s₁, hsettle, hcontent, hholder⟩ : ∃ s₁, (levelPrivateStateProvider config op).settle
      levelHandler s = ((op.perform config s.content).1, s₁) ∧
      s₁.content = (op.perform config s.content).2 ∧ s₁.holder = s.holder := settle_provider h
  have hrun := Program.exec_unique (fun _ _ _ _ replied => replied) run
  unfold Program.settle at hsettle
  rw [← hrun] at hsettle
  cases hsettle
  exact ⟨rfl, hcontent, hholder⟩

end Alone

/-- Providers for one or several configurations; an operation names the one it is issued through. -/
def providerService : Service LevelLibrary LevelError where
  Op := LevelPrivateStateProviderConfig × ProviderOp
  Result _ := JsValue
  program o := levelPrivateStateProvider o.1 o.2

/-! ## Concrete inputs -/

namespace Sample

/-- Strings only. -/
instance superJson : SuperJson where
  stringify
    | .string s => Json.stringify (.object [(js "json", .string s)])
    | _ => []
  parse text :=
    match Json.parse text with
    | some (.object [(_, .string s)]) => .ok (.string s)
    | _ => .error (.syntaxError (js "Unexpected end of JSON input"))

def noDatabases : Databases := ⟨[], fun _ => none, fun _ => [], fun _ _ _ => none⟩

def id : PrivateStateId := js "counter"

end Sample

end MidnightJs
