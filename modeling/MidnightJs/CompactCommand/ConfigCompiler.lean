import MidnightJs.Foundations.Async
import MidnightJs.Foundations.DerivedFiles
import MidnightJs.Foundations.JsString
import Mathlib.Logic.Function.Basic
import Mathlib.Logic.Relation

/-! # Compiling the configuration file

`compact-js-command/src/effect/ConfigCompiler.ts`. A command compiles the configuration file to a
JavaScript file beside it, unless that file is newer, and imports the JavaScript file. The
configuration file is a TypeScript file, so the two are different files. -/

namespace MidnightJs.CompactJs
open Foundations Foundations.Js Foundations.Async Foundations.Derived
set_option autoImplicit false

/-! ## The compiler -/

inductive ConfigFailure
  /-- A call of the file system failed, or the import did. -/
  | failedCall (e : JsError)
  | configCompilationError (message : JsString) (diagnostics : List JsString)
  | configError (message : JsString) (cause : ConfigFailure)

/-- What `tsNodeService.compile` throws. -/
inductive TsFailure
  | tsError (diagnostics : List JsString)
  | other (e : JsError)

/-- `ts-node`. What it makes of a file is determined by the text of the file. -/
class TsNode where
  compile : JsString → Except TsFailure JsString

inductive ConfigFile
  | absoluteFilePath
  | absoluteFileImportPath

inductive FileCall
  | stat (file : ConfigFile)
  | fileExists (file : ConfigFile)
  | readFileString (file : ConfigFile)
  | writeFileString (file : ConfigFile) (text : JsString)
  | importModule (file : ConfigFile)

/-- A module stands for the text of the file it is imported from. -/
abbrev FileCall.Reply (c : FileCall) : Type :=
  match c with
  | .stat _ => ℕ
  | .fileExists _ => Bool
  | .readFileString _ => JsString
  | .writeFileString _ _ => Unit
  | .importModule _ => JsString

abbrev ConfigFileSystem : Interface where
  Call := FileCall
  Reply := FileCall.Reply
  Reason := JsError

abbrev ConfigEffect := Program ConfigFileSystem ConfigFailure

section
variable [TsNode] (filePath : JsString)

omit [TsNode] in
def configFailure (err : ConfigFailure) : ConfigFailure :=
  .configError (js "Error loading configuration '" ++ filePath ++ js "'") err

omit [TsNode] in
def configCall (c : FileCall) : ConfigEffect c.Reply :=
  Program.call (E := ConfigFileSystem) (fun e => configFailure filePath (.failedCall e)) c

omit [TsNode] in
/-- Whether the JavaScript file is not newer than the given time; one that is missing counts as of
that time. -/
def importNotNewer (filePathModifiedTime : ℕ) : ConfigEffect Bool := do
  let found ← configCall filePath (.fileExists .absoluteFileImportPath)
  let fileImportPathModifiedTime ←
    if found then configCall filePath (.stat .absoluteFileImportPath)
    else pure filePathModifiedTime
  return Nat.ble fileImportPathModifiedTime filePathModifiedTime

omit [TsNode] in
def requiresCompilation : ConfigEffect Bool := do
  let filePathModifiedTime ← configCall filePath (.stat .absoluteFilePath)
  importNotNewer filePath filePathModifiedTime

def compileText (text : JsString) : Except ConfigFailure JsString :=
  (TsNode.compile text).mapError fun err => configFailure filePath (match err with
    | .tsError diagnostics => .configCompilationError
        (js "Failed to compile TypeScript configuration") diagnostics
    | .other e => .configError (js "Unexpected error while compiling TypeScript configuration")
        (.failedCall e))

def transpileTypeScript (required : Bool) : ConfigEffect Unit :=
  if !required then return ()
  else do
    let text ← configCall filePath (.readFileString .absoluteFilePath)
    let output ← Program.ofExcept (compileText filePath text)
    configCall filePath (.writeFileString .absoluteFileImportPath output)

/-- `compile(filePath)`. -/
def compileConfig : ConfigEffect JsString := do
  let required ← requiresCompilation filePath
  transpileTypeScript filePath required
  configCall filePath (.importModule .absoluteFileImportPath)

/-! ## Where a command is -/

/-- How far a command is, from the time on that it found the configuration file to have. -/
inductive ConfigPhase
  | start
  | statted (since : ℕ)
  | existing (since : ℕ)
  | compiling (since : ℕ)
  | writing (since : ℕ) (text output : JsString)
  | loading (since : ℕ)
  | ended (since : ℕ) (out : Except ConfigFailure JsString)

namespace ConfigPhase

/-- What is left of the code. -/
def program (phase : ConfigPhase) : ConfigEffect JsString :=
  match phase with
  | start => compileConfig filePath
  | statted m => do
    let required ← importNotNewer filePath m
    transpileTypeScript filePath required
    configCall filePath (.importModule .absoluteFileImportPath)
  | existing m => do
    let m' ← configCall filePath (.stat .absoluteFileImportPath)
    transpileTypeScript filePath (Nat.ble m' m)
    configCall filePath (.importModule .absoluteFileImportPath)
  | compiling _ => do
    transpileTypeScript filePath true
    configCall filePath (.importModule .absoluteFileImportPath)
  | writing _ _ output => do
    configCall filePath (.writeFileString .absoluteFileImportPath output)
    configCall filePath (.importModule .absoluteFileImportPath)
  | loading _ => configCall filePath (.importModule .absoluteFileImportPath)
  | ended _ out => .ofExcept out

omit [TsNode] in
def since (phase : ConfigPhase) : Option ℕ :=
  match phase with
  | start => none
  | statted m | existing m | compiling m | writing m _ _ | loading m | ended m _ => some m

/-- One awaited call of a command. -/
inductive Moves : ConfigPhase → Event ConfigFileSystem → ConfigPhase → Prop
  | stat {m : ℕ} : Moves start ⟨.stat .absoluteFilePath, .ok m⟩ (statted m)
  | found {m : ℕ} : Moves (statted m) ⟨.fileExists .absoluteFileImportPath, .ok true⟩ (existing m)
  | missing {m : ℕ} : Moves (statted m) ⟨.fileExists .absoluteFileImportPath, .ok false⟩ (compiling m)
  | old {m m' : ℕ} (h : m' ≤ m) :
      Moves (existing m) ⟨.stat .absoluteFileImportPath, .ok m'⟩ (compiling m)
  | new {m m' : ℕ} (h : m < m') :
      Moves (existing m) ⟨.stat .absoluteFileImportPath, .ok m'⟩ (loading m)
  | compiled {m : ℕ} {text output : JsString} (h : TsNode.compile text = .ok output) :
      Moves (compiling m) ⟨.readFileString .absoluteFilePath, .ok text⟩ (writing m text output)
  | notCompiled {m : ℕ} {text : JsString} {e : ConfigFailure}
      (h : compileText filePath text = .error e) :
      Moves (compiling m) ⟨.readFileString .absoluteFilePath, .ok text⟩ (ended m (.error e))
  | written {m : ℕ} {text output : JsString} : Moves (writing m text output)
      ⟨.writeFileString .absoluteFileImportPath output, .ok ()⟩ (loading m)
  | loaded {m : ℕ} {text : JsString} :
      Moves (loading m) ⟨.importModule .absoluteFileImportPath, .ok text⟩ (ended m (.ok text))
  | rejected {phase : ConfigPhase} {c : FileCall} {e : JsError} {err : ConfigFailure}
      {k : ConfigFileSystem.Settled c → ConfigEffect JsString}
      (h : phase.program filePath = .await c k) (hk : k (.error e) = .reject err) :
      Moves phase ⟨c, .error e⟩ (ended (phase.since.getD 0) (.error err))

variable {filePath} {phase phase' : ConfigPhase} {e : Event ConfigFileSystem}

theorem compileText_ok {text output : JsString} (h : TsNode.compile text = .ok output) :
    compileText filePath text = .ok output := by
  rw [compileText, h]
  rfl

/-- A command makes the calls of the code and is then where the code is. -/
theorem Moves.program_eq (h : Moves filePath phase e phase') :
    ∃ k, phase.program filePath = .await e.call k ∧ k e.settled = phase'.program filePath := by
  cases h with
  | stat => exact ⟨_, rfl, rfl⟩
  | @found m =>
    have hassoc := Program.bind_assoc (configCall filePath (.stat .absoluteFileImportPath))
      (fun m' => (.resolve (Nat.ble m' m) : ConfigEffect Bool)) fun required =>
        (transpileTypeScript filePath required).bind fun _ =>
          configCall filePath (.importModule .absoluteFileImportPath)
    exact ⟨_, rfl, hassoc⟩
  | @missing m =>
    have hble : Nat.ble m m = true := Nat.ble_eq_true_of_le (Nat.le_refl m)
    have hleft : transpileTypeScript filePath (Nat.ble m m) = transpileTypeScript filePath true := by
      rw [hble]
    exact ⟨_, rfl, congrArg (fun p : ConfigEffect Unit => p.bind fun _ =>
      configCall filePath (.importModule .absoluteFileImportPath)) hleft⟩
  | @old m m' h =>
    have hleft : transpileTypeScript filePath (Nat.ble m' m) = transpileTypeScript filePath true := by
      rw [Nat.ble_eq_true_of_le h]
    exact ⟨_, rfl, congrArg (fun p : ConfigEffect Unit => p.bind fun _ =>
      configCall filePath (.importModule .absoluteFileImportPath)) hleft⟩
  | @new m m' h =>
    have hble : Nat.ble m' m = false :=
      Bool.eq_false_iff.mpr (mt Nat.le_of_ble_eq_true (Nat.not_le.mpr h))
    have hleft : transpileTypeScript filePath (Nat.ble m' m) = .resolve () := by
      rw [hble]
      rfl
    exact ⟨_, rfl, congrArg (fun p : ConfigEffect Unit => p.bind fun _ =>
      configCall filePath (.importModule .absoluteFileImportPath)) hleft⟩
  | compiled h =>
    refine ⟨_, rfl, ?_⟩
    simp only [program, configCall, Program.call, Program.bind_eq, Program.bind,
      compileText_ok h, Program.ofExcept]
  | notCompiled h =>
    refine ⟨_, rfl, ?_⟩
    simp only [program, Program.bind_eq, Program.bind, h, Program.ofExcept]
  | written => exact ⟨_, rfl, rfl⟩
  | loaded => exact ⟨_, rfl, rfl⟩
  | rejected h hk => exact ⟨_, h, hk⟩

/-- Whatever the reply to the next call of the code is, the command goes on. -/
theorem moves_of_program {c : FileCall} {k : ConfigFileSystem.Settled c → ConfigEffect JsString}
    (h : phase.program filePath = .await c k) (r : ConfigFileSystem.Settled c) :
    ∃ phase', Moves filePath phase ⟨c, r⟩ phase' := by
  cases r with
  | error e =>
    match phase with
    | start | statted _ | existing _ | compiling _ | writing _ _ _ | loading _ =>
      cases h
      exact ⟨_, .rejected rfl rfl⟩
    | ended _ (.ok _) => cases h
    | ended _ (.error _) => cases h
  | ok reply =>
    match phase with
    | start =>
      cases h
      exact ⟨_, .stat⟩
    | statted m =>
      cases h
      cases reply with
      | true => exact ⟨_, .found⟩
      | false => exact ⟨_, .missing⟩
    | existing m =>
      cases h
      obtain hlt | hle := Nat.lt_or_ge m reply
      · exact ⟨_, .new hlt⟩
      · exact ⟨_, .old hle⟩
    | compiling m =>
      cases h
      cases hcompile : TsNode.compile reply with
      | ok output => exact ⟨_, .compiled hcompile⟩
      | error err => exact ⟨_, .notCompiled (by rw [compileText, hcompile]; rfl)⟩
    | writing m text output =>
      cases h
      exact ⟨_, .written⟩
    | loading m =>
      cases h
      exact ⟨_, .loaded⟩
    | ended _ (.ok _) => cases h
    | ended _ (.error _) => cases h

end ConfigPhase

end

/-! ## The files -/

/-- All that the configuration file has held, with the times it was written at, the JavaScript file,
and the time. -/
structure ConfigFiles where
  versions : List (JsString × ℕ)
  imported : Option (JsString × ℕ)
  now : ℕ

namespace ConfigFiles

def file (s : ConfigFiles) (f : ConfigFile) : Option (JsString × ℕ) :=
  match f with
  | .absoluteFilePath => s.versions.getLast?
  | .absoluteFileImportPath => s.imported

def write (s : ConfigFiles) (f : ConfigFile) (text : JsString) : ConfigFiles :=
  match f with
  | .absoluteFilePath => { s with versions := s.versions ++ [(text, s.now)] }
  | .absoluteFileImportPath => { s with imported := some (text, s.now) }

end ConfigFiles

/-- A call may always fail, and then changes nothing. -/
def configFilesEnv : Env ConfigFileSystem ConfigFiles := fun c s r s' =>
  match r with
  | .error _ => s' = s
  | .ok reply =>
    match c with
    | .stat f => (s.file f).map Prod.snd = some reply ∧ s' = s
    | .fileExists f => reply = (s.file f).isSome ∧ s' = s
    | .readFileString f => (s.file f).map Prod.fst = some reply ∧ s' = s
    | .writeFileString f text => s' = s.write f text
    | .importModule f => (s.file f).map Prod.fst = some reply ∧ s' = s

/-! ## Several commands and an editor -/

/-- The files, and how far the commands are. -/
structure Compilations (ι : Type) where
  files : ConfigFiles
  phase : ι → ConfigPhase

section
variable [TsNode] {ι : Type} [DecidableEq ι] (filePath : JsString)

namespace Compilations

inductive Steps (n : Compilations ι) : Compilations ι → Prop
  | turn (i : ι) {e : Event ConfigFileSystem} {phase : ConfigPhase} {files : ConfigFiles}
      (moves : ConfigPhase.Moves filePath (n.phase i) e phase)
      (replied : configFilesEnv e.call n.files e.settled files) :
      Steps n ⟨files, Function.update n.phase i phase⟩
  | tick : Steps n { n with files := { n.files with now := n.files.now + 1 } }

/-- The configuration file is edited. -/
def edit (n : Compilations ι) (text : JsString) : Compilations ι :=
  { n with files := n.files.write .absoluteFilePath text }

/-- No command is between reading the configuration file and writing what it made of it. -/
def NoneWriting (n : Compilations ι) : Prop :=
  ∀ i m text output, n.phase i ≠ .writing m text output

/-- The configuration file is edited at any time, but not while a command compiles it. -/
inductive EditedSteps (n : Compilations ι) : Compilations ι → Prop
  | step {n' : Compilations ι} (step : n.Steps filePath n') : EditedSteps n n'
  | edit (text : JsString) (free : n.NoneWriting) : EditedSteps n (n.edit text)

end Compilations

variable {filePath} {n n' n₀ : Compilations ι}

/-! ## No command imports what is out of date -/

/-- The JavaScript file is made from a version that is not older than `since`. -/
def ImportedSince (files : ConfigFiles) (since : ℕ) : Prop :=
  ∃ output t v, files.imported = some (output, t) ∧ TsNode.compile v.1 = .ok output ∧
    MadeFrom files.versions v t ∧ since ≤ v.2

/-- What is known about the files when a command is in a phase. -/
def ConfigPhase.Knows (files : ConfigFiles) (phase : ConfigPhase) : Prop :=
  match phase with
  | .start => True
  | .statted m | .existing m | .compiling m => ∃ w ∈ files.versions, w.2 = m
  | .writing m text output => (∃ w ∈ files.versions, w.2 = m) ∧
    (∃ t, files.versions.getLast? = some (text, t)) ∧ TsNode.compile text = .ok output
  | .loading m => ImportedSince files m
  | .ended m (.ok output) => ∃ v ∈ files.versions, TsNode.compile v.1 = .ok output ∧ m ≤ v.2
  | .ended _ (.error _) => True

structure UpToDate (n : Compilations ι) : Prop where
  timed : Timed n.files.versions n.files.now
  imported : ∀ output t, n.files.imported = some (output, t) → t ≤ n.files.now ∧
    ∃ v, TsNode.compile v.1 = .ok output ∧ MadeFrom n.files.versions v t
  knows : ∀ i, (n.phase i).Knows n.files

/-- A version that is written takes nothing away from what is known, unless a command is about to
write what it made of the one before. -/
theorem ConfigPhase.Knows.edit {files : ConfigFiles} {phase : ConfigPhase} (h : phase.Knows files)
    (hpast : ∀ output t, files.imported = some (output, t) → t ≤ files.now)
    (hphase : ∀ m text output, phase ≠ .writing m text output) (text : JsString) :
    phase.Knows (files.write .absoluteFilePath text) := by
  have hsub : ∀ w ∈ files.versions, w ∈ (files.write .absoluteFilePath text).versions :=
    fun w hw => List.mem_append_left _ hw
  match phase with
  | .start => trivial
  | .statted m | .existing m | .compiling m =>
    obtain ⟨w, hw, hm⟩ := h
    exact ⟨w, hsub w hw, hm⟩
  | .writing m text output => exact absurd rfl (hphase m text output)
  | .loading m =>
    obtain ⟨output, t, v, himported, hcompile, hmade, hle⟩ := h
    exact ⟨output, t, v, himported, hcompile, hmade.write (hpast output t himported) text, hle⟩
  | .ended m (.ok output) =>
    obtain ⟨v, hv, hcompile, hle⟩ := h
    exact ⟨v, hsub v hv, hcompile, hle⟩
  | .ended m (.error _) => trivial

/-- What is compiled from the current version is not older than any other. -/
theorem ConfigPhase.Knows.compile {files : ConfigFiles} {phase : ConfigPhase} (h : phase.Knows files)
    (htimed : Timed files.versions files.now) {text output : JsString} {t : ℕ}
    (hlast : files.versions.getLast? = some (text, t)) (hcompile : TsNode.compile text = .ok output) :
    phase.Knows (files.write .absoluteFileImportPath output) := by
  match phase with
  | .start => trivial
  | .statted m | .existing m | .compiling m => exact h
  | .writing m text output => exact h
  | .loading m =>
    obtain ⟨_, _, v, _, _, hmade, hle⟩ := h
    exact ⟨output, files.now, (text, t), rfl, hcompile, madeFrom_last hlast _,
      Nat.le_trans hle (htimed.le_last hlast hmade.mem)⟩
  | .ended m (.ok _) => exact h
  | .ended m (.error _) => trivial

omit [DecidableEq ι] in
/-- What a command knows after its next call, and what the call leaves the others. -/
theorem UpToDate.moves (h : UpToDate n) {i : ι} {e : Event ConfigFileSystem} {phase : ConfigPhase}
    {files : ConfigFiles} (moves : ConfigPhase.Moves filePath (n.phase i) e phase)
    (replied : configFilesEnv e.call n.files e.settled files) :
    phase.Knows files ∧ UpToDate { n with files := files } := by
  have hi := h.knows i
  generalize hphase : n.phase i = before at moves hi
  cases moves with
  | @stat m =>
    obtain ⟨hstat, rfl⟩ := replied
    obtain ⟨w, hw, hm⟩ := Option.map_eq_some_iff.mp hstat
    exact ⟨⟨w, List.mem_of_getLast? hw, hm⟩, h⟩
  | found =>
    obtain ⟨-, rfl⟩ := replied
    exact ⟨hi, h⟩
  | missing =>
    obtain ⟨-, rfl⟩ := replied
    exact ⟨hi, h⟩
  | old hle =>
    obtain ⟨-, rfl⟩ := replied
    exact ⟨hi, h⟩
  | @new m m' hlt =>
    obtain ⟨hstat, rfl⟩ := replied
    obtain ⟨⟨output, t⟩, himported, rfl⟩ := Option.map_eq_some_iff.mp hstat
    obtain ⟨-, v, hcompile, hmade⟩ := h.imported output t himported
    obtain ⟨w, hw, rfl⟩ := hi
    exact ⟨⟨output, t, v, himported, hcompile, hmade, hmade.at_least h.timed hw hlt⟩, h⟩
  | @compiled m text output hcompile =>
    obtain ⟨hread, rfl⟩ := replied
    obtain ⟨⟨_, t⟩, hlast, rfl⟩ := Option.map_eq_some_iff.mp hread
    exact ⟨⟨hi, ⟨t, hlast⟩, hcompile⟩, h⟩
  | notCompiled =>
    obtain ⟨-, rfl⟩ := replied
    exact ⟨trivial, h⟩
  | @written m text output =>
    have hfiles : files = n.files.write .absoluteFileImportPath output := replied
    subst hfiles
    obtain ⟨⟨w, hw, rfl⟩, ⟨t, hlast⟩, hcompile⟩ := hi
    refine ⟨⟨output, _, (text, t), rfl, hcompile, madeFrom_last hlast _,
      h.timed.le_last hlast hw⟩, h.timed, fun output' t' himported => ?_, fun j => ?_⟩
    · cases himported
      exact ⟨Nat.le_refl _, (text, t), hcompile, madeFrom_last hlast _⟩
    · exact (h.knows j).compile h.timed hlast hcompile
  | @loaded m text =>
    obtain ⟨himport, rfl⟩ := replied
    obtain ⟨output, t, v, himported, hcompile, hmade, hle⟩ := hi
    have htext : text = output := by
      have hfile : n.files.imported.map Prod.fst = some text := himport
      rw [himported] at hfile
      exact (Option.some.inj hfile).symm
    subst htext
    exact ⟨⟨v, hmade.mem, hcompile, hle⟩, h⟩
  | rejected =>
    have hfiles : files = n.files := replied
    subst hfiles
    exact ⟨trivial, h⟩

theorem UpToDate.step (h : UpToDate n) (step : n.EditedSteps filePath n') : UpToDate n' := by
  cases step with
  | step step =>
    cases step with
    | turn i moves replied =>
      obtain ⟨hknows, htimed, himported, hothers⟩ := h.moves moves replied
      refine ⟨htimed, himported, fun j => ?_⟩
      dsimp only
      by_cases hj : j = i
      · subst hj
        rw [Function.update_self]
        exact hknows
      · rw [Function.update_of_ne hj]
        exact hothers j
    | tick =>
      refine ⟨h.timed.later, fun output t himported => ?_, h.knows⟩
      obtain ⟨hle, hmade⟩ := h.imported output t himported
      exact ⟨Nat.le_succ_of_le hle, hmade⟩
  | edit text free =>
    refine ⟨h.timed.write text, fun output t himported => ?_, fun i => ?_⟩
    · obtain ⟨hle, v, hcompile, hmade⟩ := h.imported output t himported
      exact ⟨hle, v, hcompile, hmade.write hle text⟩
    · exact (h.knows i).edit (fun output t himported => (h.imported output t himported).1)
        (free i) text

/-- The JavaScript file is newer than the last version. -/
structure Newer (files : ConfigFiles) (output : JsString) (t : ℕ) : Prop where
  imported : files.imported = some (output, t)
  last : ∃ v, files.versions.getLast? = some v ∧ v.2 < t

/-- A command has not found that it has to compile. -/
def ConfigPhase.Reuses (output : JsString) (t : ℕ) (phase : ConfigPhase) : Prop :=
  match phase with
  | .start | .loading _ | .ended _ (.error _) => True
  | .statted m | .existing m => m < t
  | .compiling _ | .writing _ _ _ => False
  | .ended _ (.ok output') => output' = output

omit [DecidableEq ι] in
theorem Newer.moves {output : JsString} {t : ℕ} {phase phase' : ConfigPhase}
    {e : Event ConfigFileSystem} {files files' : ConfigFiles} (h : Newer files output t)
    (hphase : phase.Reuses output t) (moves : ConfigPhase.Moves filePath phase e phase')
    (replied : configFilesEnv e.call files e.settled files') :
    files' = files ∧ phase'.Reuses output t := by
  cases moves with
  | @stat m =>
    obtain ⟨hstat, rfl⟩ := replied
    obtain ⟨v, hlast, hlt⟩ := h.last
    refine ⟨rfl, ?_⟩
    obtain ⟨w, hw, rfl⟩ := Option.map_eq_some_iff.mp hstat
    rw [ConfigFiles.file, hlast, Option.some.injEq] at hw
    exact hw ▸ hlt
  | found => exact ⟨replied.2, hphase⟩
  | missing =>
    obtain ⟨hfound, -⟩ := replied
    rw [ConfigFiles.file, h.imported] at hfound
    cases hfound
  | @old m m' hle =>
    obtain ⟨hstat, -⟩ := replied
    rw [ConfigFiles.file, h.imported, Option.map_some, Option.some.injEq] at hstat
    subst hstat
    exact absurd hphase (Nat.not_lt.mpr hle)
  | new => exact ⟨replied.2, trivial⟩
  | compiled => exact hphase.elim
  | notCompiled => exact hphase.elim
  | written => exact hphase.elim
  | @loaded m text =>
    obtain ⟨himport, rfl⟩ := replied
    rw [ConfigFiles.file, h.imported, Option.map_some, Option.some.injEq] at himport
    exact ⟨rfl, himport.symm⟩
  | rejected => exact ⟨replied, trivial⟩

/-- While the configuration file is not edited, a newer JavaScript file stays as it is, and every
command imports it: also when it was compiled from a version that has since been replaced. -/
theorem newer_import_reused {output : JsString} {t : ℕ} (newer : Newer n₀.files output t)
    (phase : ∀ i, n₀.phase i = .start)
    (reached : Relation.ReflTransGen (Compilations.Steps filePath) n₀ n) :
    n.files.imported = some (output, t) ∧
      ∀ i since output', n.phase i = .ended since (.ok output') → output' = output := by
  suffices h : Newer n.files output t ∧ ∀ i, (n.phase i).Reuses output t by
    refine ⟨h.1.imported, fun i since output' hended => ?_⟩
    have hi := h.2 i
    rw [hended] at hi
    exact hi
  induction reached with
  | refl =>
    refine ⟨newer, fun i => ?_⟩
    rw [phase i]
    trivial
  | tail _ step ih =>
    obtain ⟨hnewer, hphases⟩ := ih
    cases step with
    | turn i moves replied =>
      obtain ⟨rfl, hi⟩ := hnewer.moves (hphases i) moves replied
      refine ⟨hnewer, fun j => ?_⟩
      dsimp only
      by_cases hj : j = i
      · subst hj
        rw [Function.update_self]
        exact hi
      · rw [Function.update_of_ne hj]
        exact hphases j
    | tick => exact ⟨⟨hnewer.imported, hnewer.last⟩, hphases⟩

end

/-! ## One command -/

namespace ConfigSample

/-- The text of a configuration file that is JavaScript already. -/
scoped instance : TsNode := ⟨.ok⟩

def configFile : JsString := js "contract.config.ts"

def source : JsString := js "export default config;"

/-- The first version is compiled at the time 1. -/
def at_phase (versions : List (JsString × ℕ)) (imported : JsString) (phase : ConfigPhase) :
    Compilations Unit :=
  ⟨⟨versions, some (imported, 1), 1⟩, fun _ => phase⟩

theorem turn {versions : List (JsString × ℕ)} {imported imported' : JsString}
    {phase phase' : ConfigPhase} {e : Event ConfigFileSystem}
    (moves : ConfigPhase.Moves configFile phase e phase')
    (replied : configFilesEnv e.call ⟨versions, some (imported, 1), 1⟩ e.settled
      ⟨versions, some (imported', 1), 1⟩) :
    (at_phase versions imported phase).Steps configFile (at_phase versions imported' phase') := by
  have hphase : Function.update (fun _ : Unit => phase) () phase' = fun _ => phase' :=
    funext fun _ => Function.update_self ..
  have step := Compilations.Steps.turn (n := at_phase versions imported phase) () moves replied
  rwa [at_phase, hphase] at step

theorem loads : Relation.ReflTransGen (Compilations.Steps configFile)
    (at_phase [(source, 0)] source .start)
    (at_phase [(source, 0)] source (.ended 0 (.ok source))) := by
  have statted : (at_phase [(source, 0)] source .start).Steps configFile
      (at_phase _ source (.statted 0)) := turn .stat ⟨rfl, rfl⟩
  have found : (at_phase [(source, 0)] source (.statted 0)).Steps configFile
      (at_phase _ source (.existing 0)) := turn .found ⟨rfl, rfl⟩
  have new : (at_phase [(source, 0)] source (.existing 0)).Steps configFile
      (at_phase _ source (.loading 0)) := turn (.new Nat.one_pos) ⟨rfl, rfl⟩
  have loaded : (at_phase [(source, 0)] source (.loading 0)).Steps configFile
      (at_phase _ source (.ended 0 (.ok source))) := turn .loaded ⟨rfl, rfl⟩
  exact (((Relation.ReflTransGen.single statted).tail found).tail new).tail loaded

theorem newer_import_reused_one :
    (at_phase [(source, 0)] source (.ended 0 (.ok source))).files.imported = some (source, 1) ∧
      ∀ i since output,
        (at_phase [(source, 0)] source (.ended 0 (.ok source))).phase i =
          .ended since (.ok output) →
        output = source := by
  have newer : Newer (at_phase [(source, 0)] source .start).files source 1 :=
    ⟨rfl, (source, 0), rfl, Nat.one_pos⟩
  exact newer_import_reused newer (fun _ => rfl) loads

end ConfigSample

end MidnightJs.CompactJs
