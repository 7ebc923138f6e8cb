import MidnightJs.Foundations.Async
import MidnightJs.Foundations.FilePaths
import MidnightJs.Ledger.Transactions
import Mathlib.Data.List.Forall2

/-! # Providers of zero-knowledge artifacts

`types/src/zk-config-provider.ts` with its two implementations, `node-zk-config-provider.ts` and
`fetch-zk-config-provider.ts`. The artifacts of a circuit are three files, which are read one after
another while a compiler may be writing them. -/

namespace MidnightJs
open Foundations Foundations.Js Foundations.Async
set_option autoImplicit false

/-! ## The abstract class -/

/-- `ZKConfig`, with the artifacts as bytes. -/
structure Artifacts where
  circuitId : CircuitId
  proverKey : List UInt8
  verifierKey : List UInt8
  zkir : List UInt8

structure ZKConfigProvider (E : Interface) where
  getZKIR : CircuitId → Program E JsError (List UInt8)
  getProverKey : CircuitId → Program E JsError (List UInt8)
  getVerifierKey : CircuitId → Program E JsError (List UInt8)

/-- The members of the object are awaited in their order. -/
def ZKConfigProvider.get {E : Interface} (provider : ZKConfigProvider E) (circuitId : CircuitId) :
    Program E JsError Artifacts := do
  let proverKey ← provider.getProverKey circuitId
  let verifierKey ← provider.getVerifierKey circuitId
  let zkir ← provider.getZKIR circuitId
  return ⟨circuitId, proverKey, verifierKey, zkir⟩

/-! ## Files -/

def KEY_DIR : JsString := js "keys"

def PROVER_EXT : JsString := js ".prover"

def VERIFIER_EXT : JsString := js ".verifier"

def ZKIR_DIR : JsString := js "zkir"

def ZKIR_EXT : JsString := js ".bzkir"

/-- `path.join`, up to what does not change the file that is named. -/
def pathJoin (segments : List JsString) : JsString :=
  (js "/").intercalate (segments.filter fun segment => !segment.isEmpty)

/-- `fs.readFile` and the path that it is given. -/
def FileReads : Interface := ⟨JsString, fun _ => List UInt8, JsError⟩

namespace NodeZkConfigProvider

def readFile (directory subDir : JsString) (circuitId : CircuitId) (ext : JsString) :
    Program FileReads JsError (List UInt8) :=
  Program.call (E := FileReads) id (pathJoin [directory, subDir, circuitId ++ ext])

def new (directory : JsString) : ZKConfigProvider FileReads where
  getZKIR circuitId := readFile directory ZKIR_DIR circuitId ZKIR_EXT
  getProverKey circuitId := readFile directory KEY_DIR circuitId PROVER_EXT
  getVerifierKey circuitId := readFile directory KEY_DIR circuitId VERIFIER_EXT

end NodeZkConfigProvider

/-! ## Requests -/

structure Response where
  ok : Bool
  statusText : JsString
  arrayBuffer : Except JsError (List UInt8)

/-- A `GET` request of a URL. -/
def Requests : Interface := ⟨JsString, fun _ => Response, JsError⟩

def invalidProtocolScheme (invalidScheme : JsString) (allowableSchemes : List JsString) : JsError :=
  .error (js "Invalid protocol scheme: '" ++ invalidScheme ++
    js "'. Allowable schemes are one of: " ++ (js ",").intercalate allowableSchemes)

namespace FetchZkConfigProvider

def sendRequest (baseURL url : JsString) (circuitId : CircuitId) (ext : JsString) :
    Program Requests JsError (List UInt8) := do
  let response : Response ← Program.call (E := Requests) id
    (baseURL ++ js "/" ++ url ++ js "/" ++ circuitId ++ ext)
  if response.ok then .ofExcept response.arrayBuffer else .reject (.error response.statusText)

/-- The constructor; `protocol` is that of the parsed URL. -/
def new (protocol : Except JsError JsString) (baseURL : JsString) :
    Except JsError (ZKConfigProvider Requests) := do
  let protocol ← protocol
  if protocol ≠ js "http:" ∧ protocol ≠ js "https:" then
    .error (invalidProtocolScheme protocol [js "http:", js "https:"])
  else .ok {
    getZKIR := fun circuitId => sendRequest baseURL ZKIR_DIR circuitId ZKIR_EXT
    getProverKey := fun circuitId => sendRequest baseURL KEY_DIR circuitId PROVER_EXT
    getVerifierKey := fun circuitId => sendRequest baseURL KEY_DIR circuitId VERIFIER_EXT }

end FetchZkConfigProvider

/-! ## Reading while files are written -/

/-- The path as a process in the directory `cwd` takes it. -/
def absolute (cwd path : JsString) : JsString :=
  if (js "/").isPrefixOf path then path else cwd ++ js "/" ++ path

/-- What the files hold from moment to moment. -/
abbrev FileHistory := ℕ → Location → Option (List UInt8)

/-- What a read that lasts from one moment to another may give of a file. -/
abbrev FileRead := (ℕ → Option (List UInt8)) → ℕ → ℕ → List UInt8 → Prop

/-- The file is not written from one moment to another. -/
def Still (file : ℕ → Option (List UInt8)) (now later : ℕ) : Prop :=
  ∀ t, now ≤ t → t ≤ later → file t = file now

/-- `fs.readFile`, which reads a file in chunks: while the file is written, it may give bytes that
the file never held. -/
def InChunks : FileRead := fun file now later bytes => Still file now later → file now = some bytes

/-- A read of a file that is not written meanwhile. -/
def Unwritten : FileRead := fun file now later bytes =>
  Still file now later ∧ InChunks file now later bytes

/-- A read that gives what the file held at one moment. -/
def AtOnce : FileRead := fun file now later bytes =>
  ∃ t, now ≤ t ∧ t ≤ later ∧ file t = some bytes

/-- Every read gives what its file held at one moment. -/
def FileRead.Atomic (read : FileRead) : Prop :=
  ∀ file now later bytes, now ≤ later → read file now later bytes → AtOnce file now later bytes

/-- Time passes until a read is answered. Any read may fail. -/
def readsOf (read : FileRead) (history : FileHistory) (cwd : JsString) : Env FileReads ℕ :=
  fun (path : JsString) now r later =>
    now ≤ later ∧ ∀ bytes, r = .ok bytes →
      read (fun t => history t (locate (absolute cwd path))) now later bytes

/-- A server that answers the URLs under `baseURL` with what it reads of the files under `root`. -/
def servedFrom (read : FileRead) (history : FileHistory) (baseURL root : JsString) :
    Env Requests ℕ :=
  fun url now r later =>
    now ≤ later ∧ ∀ response : Response, r = .ok response → response.ok = true →
      ∀ bytes, response.arrayBuffer = .ok bytes → ∀ rest, url = baseURL ++ rest →
        read (fun t => history t (locate (root ++ rest))) now later bytes

/-- The three files of a circuit, from moment to moment. -/
structure ArtifactFiles where
  prover : CircuitId → ℕ → Option (List UInt8)
  verifier : CircuitId → ℕ → Option (List UInt8)
  zkir : CircuitId → ℕ → Option (List UInt8)

/-- Under a directory, of which only the location matters. -/
def ArtifactFiles.under (history : FileHistory) (root : JsString) : ArtifactFiles where
  prover circuitId t :=
    history t (locate (root ++ (js "/" ++ KEY_DIR ++ js "/" ++ circuitId ++ PROVER_EXT)))
  verifier circuitId t :=
    history t (locate (root ++ (js "/" ++ KEY_DIR ++ js "/" ++ circuitId ++ VERIFIER_EXT)))
  zkir circuitId t :=
    history t (locate (root ++ (js "/" ++ ZKIR_DIR ++ js "/" ++ circuitId ++ ZKIR_EXT)))

/-- A program that takes its time, and resolves with what a file held at one moment. -/
def ReadsFile {E : Interface} (env : Env E ℕ) (file : ℕ → Option (List UInt8))
    (p : Program E JsError (List UInt8)) : Prop :=
  ∀ now tr out later, Exec env p now tr out later →
    now ≤ later ∧ ∀ bytes, out = .ok bytes → AtOnce file now later bytes

structure ReadsArtifacts {E : Interface} (env : Env E ℕ) (files : ArtifactFiles)
    (provider : ZKConfigProvider E) : Prop where
  prover : ∀ circuitId, ReadsFile env (files.prover circuitId) (provider.getProverKey circuitId)
  verifier : ∀ circuitId, ReadsFile env (files.verifier circuitId) (provider.getVerifierKey circuitId)
  zkir : ∀ circuitId, ReadsFile env (files.zkir circuitId) (provider.getZKIR circuitId)

/-- The artifacts of a circuit, as they were at three moments in this order. -/
def ReadInOrder (files : ArtifactFiles) (start finish : ℕ) (artifacts : Artifacts) : Prop :=
  ∃ i j k, start ≤ i ∧ i ≤ j ∧ j ≤ k ∧ k ≤ finish ∧
    files.prover artifacts.circuitId i = some artifacts.proverKey ∧
    files.verifier artifacts.circuitId j = some artifacts.verifierKey ∧
    files.zkir artifacts.circuitId k = some artifacts.zkir

theorem atomic_atOnce : FileRead.Atomic AtOnce := fun _ _ _ _ _ h => h

/-- A file that is not written meanwhile is read at once. -/
theorem atomic_unwritten : FileRead.Atomic Unwritten :=
  fun _ now _ _ hlater h => ⟨now, le_rfl, hlater, h.2 h.1⟩

theorem ReadsArtifacts.get {E : Interface} {env : Env E ℕ} {files : ArtifactFiles}
    {provider : ZKConfigProvider E} (h : ReadsArtifacts env files provider) {circuitId : CircuitId}
    {now later : ℕ} {tr : List (Event E)} {out : Except JsError Artifacts}
    (run : Exec env (provider.get circuitId) now tr out later) :
    now ≤ later ∧ ∀ artifacts, out = .ok artifacts →
      artifacts.circuitId = circuitId ∧ ReadInOrder files now later artifacts := by
  obtain ⟨e, hprover, rfl⟩ | ⟨proverKey, i, _, _, hprover, hafterProver, _⟩ := exec_bind.mp run
  · exact ⟨(h.prover _ _ _ _ _ hprover).1, fun _ h => nomatch h⟩
  obtain ⟨hi, hproverKey⟩ := h.prover _ _ _ _ _ hprover
  obtain ⟨e, hverifier, rfl⟩ | ⟨verifierKey, j, _, _, hverifier, hafterVerifier, _⟩ :=
    exec_bind.mp hafterProver
  · exact ⟨hi.trans (h.verifier _ _ _ _ _ hverifier).1, fun _ h => nomatch h⟩
  obtain ⟨hj, hverifierKey⟩ := h.verifier _ _ _ _ _ hverifier
  obtain ⟨e, hzkir, rfl⟩ | ⟨zkir, k, _, _, hzkir, hreturn, _⟩ := exec_bind.mp hafterVerifier
  · exact ⟨hi.trans (hj.trans (h.zkir _ _ _ _ _ hzkir).1), fun _ h => nomatch h⟩
  obtain ⟨hk, hzkirBytes⟩ := h.zkir _ _ _ _ _ hzkir
  obtain ⟨_, rfl, rfl⟩ := exec_resolve.mp hreturn
  refine ⟨hi.trans (hj.trans hk), fun artifacts hout => ?_⟩
  cases hout
  obtain ⟨t, hfrom, hti, hprover⟩ := hproverKey _ rfl
  obtain ⟨t', hit', ht'j, hverifier⟩ := hverifierKey _ rfl
  obtain ⟨t'', hjt'', huntil, hzkir⟩ := hzkirBytes _ rfl
  exact ⟨rfl, t, t', t'', hfrom, hti.trans hit', ht'j.trans hjt'', huntil, hprover, hverifier, hzkir⟩

/-! ## The two providers -/

theorem pathJoin_artifact {directory subDir file : JsString} (hdirectory : directory ≠ [])
    (hsubDir : subDir ≠ []) (hfile : file ≠ []) : pathJoin [directory, subDir, file] =
      directory ++ (js "/" ++ subDir ++ js "/" ++ file) := by
  have hall : ∀ segment ∈ [directory, subDir, file], (!segment.isEmpty) = true := by
    simp [hdirectory, hsubDir, hfile]
  rw [pathJoin, List.filter_eq_self.mpr hall]
  simp [List.intercalate, List.intersperse]

/-- Under a directory with an absolute path, the Node provider reads the artifacts there, as far as
its reads are at once. -/
theorem NodeZkConfigProvider.readsArtifacts {read : FileRead} (hread : FileRead.Atomic read)
    (history : FileHistory) (cwd : JsString) {directory : JsString} (habsolute : js "/" <+: directory) :
    ReadsArtifacts (readsOf read history cwd) (.under history directory) (new directory) := by
  have hdirectory : directory ≠ [] := by
    rintro rfl
    exact absurd (List.prefix_nil.mp habsolute) (by decide)
  have hfile : ∀ subDir circuitId ext, subDir ≠ [] → ext ≠ [] → ReadsFile (readsOf read history cwd)
      (fun t => history t (locate (directory ++ (js "/" ++ subDir ++ js "/" ++ circuitId ++ ext))))
      (readFile directory subDir circuitId ext) := by
    intro subDir circuitId ext hsubDir hext now tr out later run
    obtain ⟨r, ⟨hlater, hbytes⟩, _, rfl⟩ := (exec_call (E := FileReads)).mp run
    refine ⟨hlater, fun bytes hout => ?_⟩
    have hpath := pathJoin_artifact hdirectory hsubDir
      (List.append_ne_nil_of_right_ne_nil circuitId hext)
    have hprefix : (js "/").isPrefixOf
        (directory ++ (js "/" ++ subDir ++ js "/" ++ (circuitId ++ ext))) = true :=
      List.isPrefixOf_iff_prefix.mpr (habsolute.trans (List.prefix_append _ _))
    cases r with
    | ok _ =>
      cases hout
      have hgiven := hread _ _ _ _ hlater (hbytes _ rfl)
      rw [hpath, absolute, if_pos hprefix] at hgiven
      rwa [← List.append_assoc _ circuitId ext] at hgiven
    | error e => cases hout
  exact ⟨fun id => hfile KEY_DIR id PROVER_EXT (by decide) (by decide),
    fun id => hfile KEY_DIR id VERIFIER_EXT (by decide) (by decide),
    fun id => hfile ZKIR_DIR id ZKIR_EXT (by decide) (by decide)⟩

theorem NodeZkConfigProvider.readsUnwritten (history : FileHistory) (cwd : JsString)
    {directory : JsString} (habsolute : js "/" <+: directory) :
    ReadsArtifacts (readsOf Unwritten history cwd) (.under history directory) (new directory) :=
  readsArtifacts atomic_unwritten history cwd habsolute

/-- From a server that answers with the files of a directory, the fetching provider reads the
artifacts there, as far as the server's reads are at once. -/
theorem FetchZkConfigProvider.readsArtifacts {read : FileRead} (hread : FileRead.Atomic read)
    (history : FileHistory) (baseURL root : JsString) {protocol : Except JsError JsString}
    {provider : ZKConfigProvider Requests} (hnew : new protocol baseURL = .ok provider) :
    ReadsArtifacts (servedFrom read history baseURL root) (.under history root) provider := by
  have hfile : ∀ url circuitId ext, ReadsFile (servedFrom read history baseURL root)
      (fun t => history t (locate (root ++ (js "/" ++ url ++ js "/" ++ circuitId ++ ext))))
      (sendRequest baseURL url circuitId ext) := by
    intro url circuitId ext now tr out later run
    obtain ⟨e, hcall, rfl⟩ | ⟨response, _, _, _, hcall, hrest, _⟩ := exec_bind.mp run
    · obtain ⟨r, ⟨hlater, _⟩, _⟩ := (exec_call (E := Requests)).mp hcall
      exact ⟨hlater, fun _ h => nomatch h⟩
    · obtain ⟨⟨hlater, hserved⟩, _⟩ := (exec_call_ok (E := Requests)).mp hcall
      cases hok : response.ok with
      | true =>
        rw [if_pos hok] at hrest
        obtain ⟨_, rfl, rfl⟩ := exec_ofExcept.mp hrest
        refine ⟨hlater, fun bytes hout => ?_⟩
        refine hread _ _ _ _ hlater (hserved response rfl hok bytes hout _ ?_)
        simp only [List.append_assoc]
        rfl
      | false =>
        rw [if_neg (by simp [hok])] at hrest
        obtain ⟨_, rfl, rfl⟩ := exec_reject.mp hrest
        exact ⟨hlater, fun _ h => nomatch h⟩
  obtain ⟨scheme, _, hscheme⟩ := except_bind_ok.mp hnew
  split_ifs at hscheme
  cases hscheme
  exact ⟨fun id => hfile KEY_DIR id PROVER_EXT, fun id => hfile KEY_DIR id VERIFIER_EXT,
    fun id => hfile ZKIR_DIR id ZKIR_EXT⟩

theorem FetchZkConfigProvider.readsUnwritten (history : FileHistory) (baseURL root : JsString)
    {protocol : Except JsError JsString} {provider : ZKConfigProvider Requests}
    (hnew : new protocol baseURL = .ok provider) :
    ReadsArtifacts (servedFrom Unwritten history baseURL root) (.under history root) provider :=
  readsArtifacts atomic_unwritten history baseURL root hnew

end MidnightJs
