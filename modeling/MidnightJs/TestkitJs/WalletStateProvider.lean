import MidnightJs.Foundations.Captured
import MidnightJs.Foundations.FilePaths

/-! # Saved wallet states

`testkit-js/src/wallet/wallet-state-provider.ts` and `gzip-file.ts`. Reading and writing a file is
named after the path that is passed, and every step on the way may fail. -/

namespace MidnightJs.TestkitJs
open Foundations Foundations.Js Foundations.Rx
set_option autoImplicit false

/-! ## Names -/

/-- `MN_TEST_ENVIRONMENT`. -/
def getEnvVarEnvironment (environment : Option JsString) : JsString :=
  match environment with
  | none => js "undeployed"
  | some name => if name = js "undefined" then js "undeployed" else name

def getWalletStateFilename (environment seed : Option JsString) : JsString :=
  match seed with
  | none => js "wallet." ++ getEnvVarEnvironment environment ++ js ".state.gz"
  | some seed =>
    js "wallet." ++ getEnvVarEnvironment environment ++ js "." ++ seed ++ js ".state.gz"

def DEFAULT_WALLET_STATE_DIRECTORY : JsString := js "./.states"

structure WalletSaveStateProvider where
  directoryPath : JsString
  filePath : JsString

/-- The constructor, in a process with this working directory and environment. -/
def WalletSaveStateProvider.new (cwd : JsString) (environment : Option JsString) (seed : JsString)
    (directoryPath filename : Option JsString) : WalletSaveStateProvider :=
  let given := directoryPath.getD DEFAULT_WALLET_STATE_DIRECTORY
  let directory := if (js "/").isPrefixOf given then given else cwd ++ js "/" ++ given
  ⟨directory, directory ++ js "/" ++ filename.getD (getWalletStateFilename environment (some seed))⟩

/-- `replaceAll('.gz', '')`. -/
def withoutGz (path : JsString) : JsString := replaceAll (js ".gz") [] path

/-! ## The surroundings -/

/-- The library behind `createGzip` and `createGunzip`. -/
structure Gzip where
  gzip : List UInt8 → List UInt8
  gunzip : List UInt8 → Except JsError (List UInt8)
  gunzip_gzip : ∀ bytes, gunzip (gzip bytes) = .ok bytes

/-- To keep the bytes as they are loses nothing. -/
instance : Inhabited Gzip := ⟨⟨id, .ok, fun _ => rfl⟩⟩

/-- How a stream of bytes is cut into the chunks of its `data` events. -/
structure Chunking where
  chunks : List UInt8 → List (List UInt8)
  flatten_chunks : ∀ bytes, (chunks bytes).flatten = bytes

inductive LogEntry
  | info (text : JsString)
  | warn (text : JsString)
  | error (text : JsString)

/-- The files of the machine, and what has been logged. -/
structure Machine where
  files : Location → Option (List UInt8)
  log : List LogEntry

/-- How a step on a file ends, and the file that it leaves where it does not succeed. -/
structure FileStep where
  ends : Promise Unit
  left : Option (List UInt8)

/-- How the steps of one `save` end. -/
structure SaveSteps where
  mkdirSync : Except JsError Unit
  serializeState : Promise JsString
  writeFileSync : FileStep
  compress : FileStep
  rmSync : FileStep

def message (e : JsError) : JsString :=
  match e with
  | .error text => text
  | .typeError text => text
  | .syntaxError text => text

/-- A step that is to leave a file with this content, or without it. -/
def perform (step : FileStep) (path : JsString) (content : Option (List UInt8)) :
    Captured Machine Unit := do
  let machine ← Captured.read
  let result := if step.ends = .resolved () then content else step.left
  Captured.assign { machine with files := Function.update machine.files (locate path) result }
  Captured.await step.ends

def logEntry (entry : LogEntry) : Captured Machine Unit := do
  let machine ← Captured.read
  Captured.assign { machine with log := machine.log ++ [entry] }

/-! ## Compressed files -/

structure GzipFile where
  inputFile : JsString
  outputFile : JsString

namespace GzipFile
variable (library : Gzip) (file : GzipFile)

/-- Nothing listens to the errors of the source: without an input file the promise is not settled. -/
def compress (step : FileStep) : Captured Machine Unit := do
  match (← Captured.read).files (locate file.inputFile) with
  | some bytes => perform step file.outputFile (some (library.gzip bytes))
  | none => perform ⟨.pending, some []⟩ file.outputFile none

/-- `Buffer.toString()`. -/
def chunkText (chunk : List UInt8) : JsString := (Utf8.decode chunk).flatMap utf16

def decompress (chunking : Chunking) : Captured Machine JsString := do
  match (← Captured.read).files (locate file.inputFile) with
  | some bytes =>
    let content ← Captured.ofExcept (library.gunzip bytes)
    return (chunking.chunks content).foldl (fun data chunk => data ++ chunkText chunk) []
  | none => Captured.await .pending

end GzipFile

/-! ## Saving and loading -/

namespace WalletSaveStateProvider
variable (library : Gzip) (provider : WalletSaveStateProvider)

def save (steps : SaveSteps) : Captured Machine Unit := do
  let written (path : JsString) : LogEntry :=
    .info (js "File '" ++ path ++ js "' written successfully.")
  logEntry (.info (js "Saving state in " ++ provider.filePath))
  Captured.tryCatch (do
    Captured.ofExcept steps.mkdirSync
    let serializedState ← Captured.await steps.serializeState
    Captured.tryCatch (do
      let tempFile := withoutGz provider.filePath
      perform steps.writeFileSync tempFile (some (Utf8.encodeString serializedState))
      logEntry (written tempFile)
      GzipFile.compress library ⟨tempFile, withoutGz provider.filePath ++ js ".gz"⟩ steps.compress
      perform steps.rmSync tempFile none
      logEntry (written provider.filePath))
      fun err => logEntry (.error
        (js "Error writing file '" ++ provider.filePath ++ js "': " ++ message err)))
    fun e => logEntry (.warn (message e))

def load (chunking : Chunking) : Captured Machine JsString := do
  logEntry (.info (js "Loading state from " ++ provider.filePath))
  Captured.tryCatch
    (GzipFile.decompress library ⟨provider.filePath, withoutGz provider.filePath ++ js ".gz"⟩ chunking)
    fun error => do
      logEntry (.error (message error))
      Captured.await (.rejected error)

end WalletSaveStateProvider

end MidnightJs.TestkitJs
