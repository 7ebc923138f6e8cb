import MidnightJs.TestkitJs.WalletStateProvider

/-! # A wallet state that is saved and loaded

The text comes back when its chunks are cut between characters and the compressed file is written
where it is read: the path that is written has lost every `.gz`, not only the last. -/

namespace MidnightJs.TestkitJs
open Foundations Foundations.Js Foundations.Rx
set_option autoImplicit false

/-- Every step succeeds, and the state is serialized as this text. -/
structure SaveSteps.Succeed (steps : SaveSteps) (text : JsString) : Prop where
  mkdirSync : steps.mkdirSync = .ok ()
  serializeState : steps.serializeState = .resolved text
  writeFileSync : steps.writeFileSync.ends = .resolved ()
  compress : steps.compress.ends = .resolved ()
  rmSync : steps.rmSync.ends = .resolved ()

/-! ## Steps that succeed -/

section
variable {α : Type} {machine : Machine}

theorem logEntry_bind (entry : LogEntry) (f : Unit → Captured Machine α) :
    (logEntry entry >>= f) machine = f () ⟨machine.files, machine.log ++ [entry]⟩ := rfl

theorem perform_bind {step : FileStep} (h : step.ends = .resolved ()) (path : JsString)
    (content : Option (List UInt8)) (f : Unit → Captured Machine α) :
    (perform step path content >>= f) machine =
      f () ⟨Function.update machine.files (locate path) content, machine.log⟩ := by
  simp [Captured.bind_apply, perform, Captured.read, Captured.assign, h]

theorem compress_bind {library : Gzip} {inputFile : JsString} {step : FileStep}
    {files : Location → Option (List UInt8)} {bytes : List UInt8} (h : step.ends = .resolved ())
    (hinput : files (locate inputFile) = some bytes) (outputFile : JsString)
    (log : List LogEntry) (f : Unit → Captured Machine α) :
    (GzipFile.compress library ⟨inputFile, outputFile⟩ step >>= f) ⟨files, log⟩ =
      f () ⟨Function.update files (locate outputFile) (some (library.gzip bytes)), log⟩ := by
  have hperform : GzipFile.compress library ⟨inputFile, outputFile⟩ step ⟨files, log⟩ =
      perform step outputFile (some (library.gzip bytes)) ⟨files, log⟩ := by
    rw [GzipFile.compress, Captured.read_bind]
    simp only [hinput]
  rw [Captured.bind_apply, hperform, ← Captured.bind_apply]
  exact perform_bind h _ _ f

end

/-! ## The files after a save -/

namespace WalletSaveStateProvider
variable {library : Gzip} {provider : WalletSaveStateProvider} {steps : SaveSteps} {text : JsString}

/-- The file that is written first, and removed. -/
def temporary (provider : WalletSaveStateProvider) : Location :=
  locate (withoutGz provider.filePath)

def compressed (provider : WalletSaveStateProvider) : Location :=
  locate (withoutGz provider.filePath ++ js ".gz")

theorem save_files (h : steps.Succeed text) (hne : provider.temporary ≠ provider.compressed)
    (machine : Machine) :
    (provider.save library steps machine).2.files =
      Function.update (Function.update machine.files provider.compressed
        (some (library.gzip (Utf8.encodeString text)))) provider.temporary none := by
  have hinput : Function.update machine.files (locate (withoutGz provider.filePath))
      (some (Utf8.encodeString text)) (locate (withoutGz provider.filePath)) =
        some (Utf8.encodeString text) := Function.update_self ..
  unfold save
  simp only [Captured.tryCatch, logEntry_bind, h.mkdirSync, h.serializeState, Captured.ofExcept_ok,
    Captured.await_resolved_bind, perform_bind h.writeFileSync, compress_bind h.compress hinput,
    perform_bind h.rmSync]
  change Function.update (Function.update (Function.update machine.files provider.temporary _)
    provider.compressed _) provider.temporary none = _
  rw [Function.update_comm hne, Function.update_idem]

theorem compressed_written (library : Gzip) (h : steps.Succeed text)
    (hne : provider.temporary ≠ provider.compressed) (machine : Machine) :
    (provider.save library steps machine).2.files provider.compressed =
      some (library.gzip (Utf8.encodeString text)) := by
  rw [save_files h hne, Function.update_of_ne hne.symm, Function.update_self]

theorem others_left (h : steps.Succeed text) (hne : provider.temporary ≠ provider.compressed)
    {machine : Machine} {location : Location} (hother : location ≠ provider.compressed)
    {bytes : List UInt8}
    (hbytes : (provider.save library steps machine).2.files location = some bytes) :
    machine.files location = some bytes := by
  rw [save_files h hne] at hbytes
  by_cases htemporary : location = provider.temporary
  · rw [htemporary, Function.update_self] at hbytes
    cases hbytes
  · rwa [Function.update_of_ne htemporary, Function.update_of_ne hother] at hbytes

/-! ## What is loaded -/

/-- The text that the chunks of a stream add up to. -/
theorem chunkTexts (chunks : List (List UInt8)) :
    chunks.foldl (fun data chunk => data ++ GzipFile.chunkText chunk) [] =
      (Utf8.decodeChunks chunks).flatMap utf16 := by
  rw [← List.flatMap_eq_foldl, Utf8.decodeChunks, List.flatMap_assoc]
  rfl

theorem load_of_compressed {machine : Machine} {bytes : List UInt8}
    (h : machine.files (locate provider.filePath) = some (library.gzip bytes)) (chunking : Chunking) :
    (provider.load library chunking machine).1 =
      .resolved ((Utf8.decodeChunks (chunking.chunks bytes)).flatMap utf16) := by
  unfold load GzipFile.decompress
  simp only [logEntry_bind, Captured.tryCatch, Captured.read_bind, h, library.gunzip_gzip,
    Captured.ofExcept_ok, Captured.await_resolved_bind, Captured.pure_apply, chunkTexts]

/-! ## The default file name -/

section
variable (cwd : JsString) (environment : Option JsString) (seed : JsString)
  (directoryPath : Option JsString)

/-- The path in front of its extensions. -/
def defaultStem : JsString :=
  (WalletSaveStateProvider.new cwd environment seed directoryPath none).directoryPath ++ js "/" ++
    js "wallet." ++ getEnvVarEnvironment environment ++ js "." ++ seed

theorem default_filePath :
    (WalletSaveStateProvider.new cwd environment seed directoryPath none).filePath =
      defaultStem cwd environment seed directoryPath ++ js ".state.gz" := by
  simp only [WalletSaveStateProvider.new, defaultStem, getWalletStateFilename, Option.getD_none,
    List.append_assoc]

theorem withoutGz_stateGz (path : JsString) :
    withoutGz (path ++ js ".state.gz") = withoutGz path ++ js ".state" :=
  replaceAll_append (by decide) (by decide) path _

theorem encodeString_state (path : JsString) : Utf8.encodeString (path ++ js ".state") =
    Utf8.encodeString path ++ [0x2E, 0x73, 0x74, 0x61, 0x74, 0x65] :=
  Utf8.encodeString_append (by decide) path _

theorem encodeString_stateGz (path : JsString) :
    Utf8.encodeString (path ++ (js ".state" ++ js ".gz")) =
      Utf8.encodeString path ++ ([0x2E, 0x73, 0x74, 0x61, 0x74, 0x65] ++ [0x2E, 0x67, 0x7A]) :=
  Utf8.encodeString_append (by decide) path _

theorem temporary_ne_compressed :
    (WalletSaveStateProvider.new cwd environment seed directoryPath none).temporary ≠
      (WalletSaveStateProvider.new cwd environment seed directoryPath none).compressed := by
  rw [temporary, compressed, default_filePath, withoutGz_stateGz, locate, locate, List.append_assoc,
    encodeString_state, encodeString_stateGz]
  exact walk_ne (by decide) (by decide) (by decide) (by decide) _

/-- Without another `.gz` in it, the path that is written is the one that is read. -/
theorem compressed_default (h : ¬ js ".gz" <:+: defaultStem cwd environment seed directoryPath) :
    (WalletSaveStateProvider.new cwd environment seed directoryPath none).compressed =
      locate (WalletSaveStateProvider.new cwd environment seed directoryPath none).filePath := by
  rw [compressed, default_filePath, withoutGz_stateGz, withoutGz, replaceAll_eq_self h,
    List.append_assoc]
  rfl

end

/-! ## The round trip -/

/-- After a save that succeeds the text is loaded, and no file is there in addition but the one that is
loaded. -/
def RoundTrips (library : Gzip) (chunking : Chunking) (provider : WalletSaveStateProvider)
    (text : JsString) : Prop :=
  ∀ machine steps, SaveSteps.Succeed steps text →
    let saved := (provider.save library steps machine).2
    (provider.load library chunking saved).1 = .resolved text ∧
      ∀ location ≠ locate provider.filePath, ∀ bytes, saved.files location = some bytes →
        machine.files location = some bytes

section
variable {chunking : Chunking} {chars : List Char}
  (hne : provider.temporary ≠ provider.compressed)
include hne

theorem roundTrips_of (hsame : provider.compressed = locate provider.filePath)
    (hcut : ∀ chunk ∈ chunking.chunks (Utf8.encode chars), ¬ Utf8.StartsInside chunk) :
    RoundTrips library chunking provider (chars.flatMap utf16) := by
  intro machine steps hsteps
  have hwhole := chunking.flatten_chunks (Utf8.encode chars)
  have hwritten := compressed_written library hsteps hne machine
  refine ⟨?_, ?_⟩
  · rw [hsame] at hwritten
    rw [load_of_compressed hwritten, Utf8.encodeString_chars, Utf8.decodeChunks_eq hwhole hcut]
  · intro location hother bytes hbytes
    rw [← hsame] at hother
    exact others_left hsteps hne hother hbytes

/-- On a machine without files, every file that is left is a new one. -/
theorem of_roundTrips (h : RoundTrips library chunking provider (chars.flatMap utf16)) :
    provider.compressed = locate provider.filePath ∧
      ∀ chunk ∈ chunking.chunks (Utf8.encode chars), ¬ Utf8.StartsInside chunk := by
  have hsteps : SaveSteps.Succeed ⟨.ok (), .resolved (chars.flatMap utf16),
      ⟨.resolved (), none⟩, ⟨.resolved (), none⟩, ⟨.resolved (), none⟩⟩
      (chars.flatMap utf16) := ⟨rfl, rfl, rfl, rfl, rfl⟩
  have hwhole := chunking.flatten_chunks (Utf8.encode chars)
  have hwritten := compressed_written library hsteps hne ⟨fun _ => none, []⟩
  obtain ⟨hload, hleft⟩ := h ⟨fun _ => none, []⟩ _ hsteps
  have hsame : provider.compressed = locate provider.filePath := by
    by_contra hother
    cases hleft _ hother _ hwritten
  refine ⟨hsame, ?_⟩
  rw [hsame] at hwritten
  rw [load_of_compressed hwritten, Promise.resolved.injEq, Utf8.encodeString_chars] at hload
  exact (Utf8.decodeChunks_eq_iff hwhole).mp (Utf8.utf16_injective hload)

end

/-- A saved text is loaded, and nothing else is left, exactly when the file that is written is the
one that is read and no chunk begins inside a character. -/
theorem round_trips_iff (library : Gzip) (chunking : Chunking) (cwd : JsString)
    (environment : Option JsString) (seed : JsString) (directoryPath : Option JsString)
    (chars : List Char) :
    RoundTrips library chunking (.new cwd environment seed directoryPath none)
        (chars.flatMap utf16) ↔
      (WalletSaveStateProvider.new cwd environment seed directoryPath none).compressed =
          locate (WalletSaveStateProvider.new cwd environment seed directoryPath none).filePath ∧
        ∀ chunk ∈ chunking.chunks (Utf8.encode chars), ¬ Utf8.StartsInside chunk := by
  have hne := temporary_ne_compressed cwd environment seed directoryPath
  constructor
  · exact of_roundTrips hne
  · rintro ⟨hsame, hcut⟩
    exact roundTrips_of hne hsame hcut

namespace Sample

/-- Every byte arrives by itself. -/
def bytewise : Chunking := ⟨List.map fun b => [b], List.flatMap_singleton'⟩

def whole : Chunking := ⟨fun bytes => [bytes], fun _ => List.append_nil _⟩

/-- A character of two bytes is lost between two chunks, and a directory whose name ends in `.gz` is
not the one that is written to. -/
theorem split_and_renamed : Nonempty Gzip ∧
    (¬ ∃ library, RoundTrips library bytewise (.new (js "/work") none (js "00") none none)
      (js "é")) ∧
    ¬ ∃ library, RoundTrips library whole
      (.new (js "/work") none (js "00") (some (js "/work/backup.gz")) none) (js "\x7b\x7d") := by
  refine ⟨⟨default⟩, ?_, ?_⟩
  · rintro ⟨library, h⟩
    have htext : RoundTrips library bytewise _ (['é'].flatMap utf16) := h
    have hcut := (of_roundTrips (temporary_ne_compressed _ _ _ _) htext).2
    exact hcut [0xA9] (by decide) (by decide)
  · rintro ⟨library, h⟩
    have htext : RoundTrips library whole _ (['\x7b', '\x7d'].flatMap utf16) := h
    have hsame := (of_roundTrips (temporary_ne_compressed _ _ _ _) htext).1
    exact absurd hsame (by decide)

end Sample

end WalletSaveStateProvider

end MidnightJs.TestkitJs
