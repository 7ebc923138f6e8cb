import MidnightJs.Foundations.Async
import MidnightJs.Foundations.JsValue
import Mathlib.Logic.Function.Basic

/-! # Level databases

What `level-private-state-provider.ts` uses of its database library. A database is a set of sublevels,
each of which maps keys to texts, and one instance at a time can have it open. An access of a sublevel
is atomic; it encodes and decodes values with the encoding that the provider passes, which is
superjson's. -/

namespace MidnightJs
open Foundations.Js Foundations.Async
set_option autoImplicit false

class SuperJson where
  stringify : JsValue → JsString
  parse : JsString → Except JsError JsValue

/-- An instance of `Level`, by the order of construction. -/
abbrev LevelId := ℕ

/-- Why the library rejects: the database is locked by another instance, the instance or its sublevel
is not open, a value is `null` or `undefined`, or a text cannot be decoded. -/
inductive LevelError
  | locked
  | notOpen
  | invalidValue
  | encoding (error : JsError)
  deriving DecidableEq

/-- What is done with a sublevel. -/
inductive LevelAccess
  | get (key : JsString)
  | put (key : JsString) (value : JsValue)
  | del (key : JsString)
  | clear

/-- The texts of a sublevel. -/
abbrev SubLevel := JsString → Option JsString

inductive LevelCall
  | construct (dbName : JsString)
  | openLevel (level : LevelId)
  | openSubLevel (level : LevelId) (levelName : JsString)
  | access (level : LevelId) (levelName : JsString) (a : LevelAccess)
  | closeSubLevel (level : LevelId) (levelName : JsString)
  | closeLevel (level : LevelId)

def LevelCall.Reply : LevelCall → Type
  | construct _ => LevelId
  | access _ _ _ => JsValue
  | _ => Unit

def LevelLibrary : Interface := ⟨LevelCall, LevelCall.Reply, LevelError⟩

/-- The databases, and which of them an instance has been constructed for or has open. -/
structure Databases where
  instances : List JsString
  holder : JsString → Option LevelId
  subLevels : LevelId → List JsString
  content : JsString → JsString → SubLevel

section Library

variable [SuperJson]

/-- One access; an absent key reads as `undefined`. -/
def LevelAccess.perform (a : LevelAccess) (texts : SubLevel) : Except LevelError JsValue × SubLevel :=
  match a with
  | get key =>
    match texts key with
    | none => (.ok .undefined, texts)
    | some text => ((SuperJson.parse text).mapError .encoding, texts)
  | put key value =>
    if value.isNullish then (.error .invalidValue, texts)
    else (.ok .undefined, Function.update texts key (some (SuperJson.stringify value)))
  | del key => (.ok .undefined, Function.update texts key none)
  | clear => (.ok .undefined, fun _ => none)

namespace Databases

/-- The database that the instance has open. -/
def opened (s : Databases) (level : LevelId) : Option JsString :=
  match s.instances[level]? with
  | some dbName => if s.holder dbName = some level then some dbName else none
  | none => none

def setContent (s : Databases) (dbName levelName : JsString) (texts : SubLevel) : Databases :=
  { s with
    content := Function.update s.content dbName (Function.update (s.content dbName) levelName texts) }

def construct (s : Databases) (dbName : JsString) : LevelId × Databases :=
  (s.instances.length, { s with instances := s.instances ++ [dbName] })

def openLevel (s : Databases) (level : LevelId) : Except LevelError Unit × Databases :=
  match s.instances[level]? with
  | none => (.error .notOpen, s)
  | some dbName =>
    match s.holder dbName with
    | none => (.ok (), { s with holder := Function.update s.holder dbName (some level) })
    | some other => if other = level then (.ok (), s) else (.error .locked, s)

def openSubLevel (s : Databases) (level : LevelId) (levelName : JsString) :
    Except LevelError Unit × Databases :=
  match s.opened level with
  | none => (.error .notOpen, s)
  | some _ =>
    (.ok (), { s with
      subLevels := Function.update s.subLevels level (levelName :: s.subLevels level) })

def access (s : Databases) (level : LevelId) (levelName : JsString) (a : LevelAccess) :
    Except LevelError JsValue × Databases :=
  match s.opened level with
  | none => (.error .notOpen, s)
  | some dbName =>
    if levelName ∈ s.subLevels level then
      let r := a.perform (s.content dbName levelName)
      (r.1, s.setContent dbName levelName r.2)
    else (.error .notOpen, s)

/-- Closing what is not open does nothing. -/
def closeSubLevel (s : Databases) (level : LevelId) (levelName : JsString) : Databases :=
  { s with subLevels := Function.update s.subLevels level ((s.subLevels level).filter (· ≠ levelName)) }

def closeLevel (s : Databases) (level : LevelId) : Databases :=
  match s.opened level with
  | none => s
  | some dbName =>
    { s with
      holder := Function.update s.holder dbName none
      subLevels := Function.update s.subLevels level [] }

end Databases

def levelHandler (c : LevelCall) (s : Databases) : LevelLibrary.Settled c × Databases :=
  match c with
  | .construct dbName => (.ok (s.construct dbName).1, (s.construct dbName).2)
  | .openLevel level => s.openLevel level
  | .openSubLevel level levelName => s.openSubLevel level levelName
  | .access level levelName a => s.access level levelName a
  | .closeSubLevel level levelName => (.ok (), s.closeSubLevel level levelName)
  | .closeLevel level => (.ok (), s.closeLevel level)

def levelEnv : Env LevelLibrary Databases := fun c s r s' => (r, s') = levelHandler c s

/-! ## What the calls reply -/

section Replies

variable {s : Databases} {id : LevelId} {dbName levelName : JsString}

theorem openLevel_free (hid : s.instances[id]? = some dbName) (hfree : s.holder dbName = none) :
    levelHandler (.openLevel id) s =
      (.ok (), { s with holder := Function.update s.holder dbName (some id) }) := by
  simp only [levelHandler, Databases.openLevel, hid, hfree]
  rfl

theorem openLevel_held {other : LevelId} (hid : s.instances[id]? = some dbName)
    (hheld : s.holder dbName = some other) (hne : other ≠ id) :
    levelHandler (.openLevel id) s = (.error .locked, s) := by
  simp only [levelHandler, Databases.openLevel, hid, hheld, hne, if_false]
  rfl

theorem openSubLevel_opened (hopened : s.opened id = some dbName) :
    levelHandler (.openSubLevel id levelName) s =
      (.ok (), { s with
        subLevels := Function.update s.subLevels id (levelName :: s.subLevels id) }) := by
  simp only [levelHandler, Databases.openSubLevel, hopened]
  rfl

theorem access_opened (hopened : s.opened id = some dbName) (hsub : levelName ∈ s.subLevels id)
    (a : LevelAccess) : levelHandler (.access id levelName a) s =
      ((a.perform (s.content dbName levelName)).1,
        s.setContent dbName levelName (a.perform (s.content dbName levelName)).2) := by
  simp only [levelHandler, Databases.access, hopened, hsub, if_true]
  rfl

theorem closeLevel_opened (hopened : s.opened id = some dbName) :
    levelHandler (.closeLevel id) s =
      (.ok (), { s with
        holder := Function.update s.holder dbName none
        subLevels := Function.update s.subLevels id [] }) := by
  simp only [levelHandler, Databases.closeLevel, hopened]

theorem closeLevel_unopened (h : s.opened id = none) :
    levelHandler (.closeLevel id) s = (.ok (), s) := by
  simp only [levelHandler, Databases.closeLevel, h]

end Replies

end Library

end MidnightJs
