import MidnightJs.TestkitJs.SeedPreservation
import MidnightJs.TestkitJs.StateRoundTrip

/-! # Remote test environments

`testkit-js/src/test-environment/test-environments/remote-test-environment.ts` and
`wallet/midnight-wallet-provider.ts`: wallets are built of seeds, and their states are saved when an
environment is shut down. A state is looked for under the seed and saved under the coin public key,
so that over all sessions on a machine no saved state is restored, unless a seed is the coin public
key of a wallet. -/

namespace MidnightJs.TestkitJs
open Foundations Foundations.Js Foundations.Rx
set_option autoImplicit false

/-! ## Waiting for all of several closures -/

/-- `Promise.all` of two: a rejection counts before a promise that is not settled. -/
def settleBoth {α : Type} (first : Promise α) (rest : Promise (List α)) : Promise (List α) :=
  match first, rest with
  | .rejected e, _ => .rejected e
  | _, .rejected e => .rejected e
  | .resolved a, .resolved as => .resolved (a :: as)
  | _, _ => .pending

/-- `Promise.all`: all of them run, whatever becomes of the others. -/
def allOf {σ α : Type} (closures : List (Captured σ α)) : Captured σ (List α) :=
  match closures with
  | [] => pure []
  | x :: rest => fun s =>
    let first := x s
    let others := allOf rest first.2
    (settleBoth first.1 others.1, others.2)

/-! ## Wallet providers -/

/-- The coin public key in the initial state of a wallet of the seed. -/
class WalletKeys where
  coinPublicKey : JsString → JsString

export WalletKeys (coinPublicKey)

structure MidnightWalletProvider where
  wallet : MidnightWallet
  coinPublicKey : JsString
  deriving DecidableEq

/-- How the steps of one `build` and `start` end. What is found under the seed is not among them. -/
structure BuildSteps where
  generatedSeed : JsString
  wallet : Surroundings
  initialState : Promise Unit
  start : Promise Unit

/-- A process: its working directory and environment, and the libraries. -/
structure Process where
  cwd : JsString
  environment : Option JsString
  library : Gzip
  chunking : Chunking

namespace Process
variable (process : Process)

/-- `new WalletSaveStateProvider(logger, name)`. -/
def stateProvider (name : JsString) : WalletSaveStateProvider :=
  .new process.cwd process.environment name none none

/-- The steps of a build on the machine: what is there under the seed, and what is loaded. -/
def surroundings (machine : Machine) (seed : JsString) (steps : Surroundings) : Surroundings :=
  { steps with
    fileExists := (machine.files (locate (process.stateProvider seed).filePath)).isSome
    load := ((process.stateProvider seed).load process.library process.chunking machine).1.bind
      fun serialized => .resolved (some serialized) }

/-- `WalletFactory.buildFromEnvContext`; an empty seed counts as none. -/
def buildFromEnvContext (machine : Machine) (steps : Surroundings) (seed : JsString) :
    Promise MidnightWallet :=
  if truthy seed then
    WalletFactory.buildFromSeedAndTryToRestoreState (process.surroundings machine seed steps) seed
  else (WalletFactory.build steps none).1

/-- `MidnightWalletProvider.build`. -/
def build [WalletKeys] (machine : Machine) (steps : BuildSteps) (seed : Option JsString) :
    Promise MidnightWalletProvider := do
  let wallet ← process.buildFromEnvContext machine steps.wallet (seed.getD steps.generatedSeed)
  steps.initialState
  return ⟨wallet, coinPublicKey wallet.seed⟩

end Process

/-! ## The environment -/

/-- The machine, and the field `walletProviders`. -/
structure RemoteTestEnvironment where
  machine : Machine
  walletProviders : Option (List MidnightWalletProvider)

namespace RemoteTestEnvironment
variable (process : Process)

/-- The seeds of the wallets that are built. More than one wallet needs a seed each. -/
def walletSeeds (amount : ℕ) (seeds : Option (List JsString)) :
    Except JsError (List (Option JsString)) :=
  match seeds with
  | some seeds =>
    if 1 < amount ∧ seeds.length ≠ amount then
      .error (.error (js "Number of seeds provided (" ++ naturalText seeds.length ++
        js ") does not match the amount of wallets requested (" ++ naturalText amount ++ js ")"))
    else .ok (seeds.map some)
  | none => .ok (List.replicate amount none)

/-- The steps are those of the wallets in their order. -/
def startMidnightWalletProviders [WalletKeys] (amount : ℕ) (seeds : Option (List JsString))
    (steps : List BuildSteps) : Captured RemoteTestEnvironment (List MidnightWalletProvider) := do
  let seeds2 ← Captured.ofExcept (walletSeeds amount seeds)
  let env ← Captured.read
  let walletProviders ← allOf ((seeds2.zip steps).map fun (seed, steps) =>
    Captured.await (process.build env.machine steps seed))
  Captured.assign { env with walletProviders := some walletProviders }
  let _ ← allOf ((seeds2.zip steps).map fun (_, steps) => Captured.await steps.start)
  return walletProviders

/-- The state of a wallet, saved under its coin public key. -/
def saveWallet (provider : MidnightWalletProvider) (steps : SaveSteps) :
    Captured RemoteTestEnvironment Unit := fun env =>
  let saved := (process.stateProvider provider.coinPublicKey).save process.library steps env.machine
  (saved.1, { env with machine := saved.2 })

/-- `walletProviders` keeps its value. `close` and `stop` leave the files as they are. -/
def shutdown (saveWalletState : Bool) (steps : List SaveSteps) (close stop : Promise Unit) :
    Captured RemoteTestEnvironment Unit := do
  match (← Captured.read).walletProviders with
  | some walletProviders =>
    if saveWalletState then
      let _ ← allOf ((walletProviders.zip steps).map fun (provider, steps) =>
        saveWallet process provider steps)
    Captured.await close
  | none => pure ()
  Captured.await stop

end RemoteTestEnvironment

/-! ## The files that a save touches -/

/-- Whatever becomes of it, the code leaves the files at other locations as they are. -/
def Touches {α : Type} (locations : Set Location) (x : Captured Machine α) : Prop :=
  ∀ machine, ∀ location ∉ locations, (x machine).2.files location = machine.files location

namespace Touches
variable {α β : Type} {locations : Set Location} {x : Captured Machine α}

theorem bind {f : α → Captured Machine β} (hx : Touches locations x)
    (hf : ∀ a, Touches locations (f a)) : Touches locations (x >>= f) := by
  intro machine location hlocation
  have hfirst := hx machine location hlocation
  rw [Captured.bind_apply]
  split
  · next a s' h =>
    rw [h] at hfirst
    rw [hf a s' location hlocation, hfirst]
  · next e s' h => rwa [h] at hfirst
  · next s' h => rwa [h] at hfirst

theorem tryCatch {handler : JsError → Captured Machine α} (hx : Touches locations x)
    (hhandler : ∀ e, Touches locations (handler e)) :
    Touches locations (Captured.tryCatch x handler) := by
  intro machine location hlocation
  have hfirst := hx machine location hlocation
  rw [Captured.tryCatch]
  split
  · next e s' h =>
    rw [h] at hfirst
    rw [hhandler e s' location hlocation, hfirst]
  · exact hfirst

theorem await (promise : Promise α) : Touches locations (Captured.await promise) :=
  fun _ _ _ => rfl

theorem logEntry (entry : LogEntry) : Touches locations (TestkitJs.logEntry entry) :=
  fun _ _ _ => rfl

theorem perform {path : JsString} (h : locate path ∈ locations) (step : FileStep)
    (content : Option (List UInt8)) : Touches locations (TestkitJs.perform step path content) := by
  intro machine location hlocation
  have hne : location ≠ locate path := fun heq => hlocation (heq ▸ h)
  change Function.update machine.files (locate path) _ location = _
  exact Function.update_of_ne hne _ _

theorem compress {file : GzipFile} (h : locate file.outputFile ∈ locations) (library : Gzip)
    (step : FileStep) : Touches locations (file.compress library step) := by
  intro machine
  rw [GzipFile.compress, Captured.read_bind]
  cases machine.files (locate file.inputFile) with
  | some bytes => exact perform h _ _ machine
  | none => exact perform h _ _ machine

end Touches

/-- A save touches the temporary and the compressed file, whichever of its steps fails. -/
theorem WalletSaveStateProvider.save_touches (library : Gzip) (provider : WalletSaveStateProvider)
    (steps : SaveSteps) :
    Touches {provider.temporary, provider.compressed} (provider.save library steps) := by
  have htemporary : locate (withoutGz provider.filePath) ∈
      ({provider.temporary, provider.compressed} : Set Location) := .inl rfl
  refine .bind (.logEntry _) fun _ => .tryCatch ?_ fun _ => .logEntry _
  refine .bind (.await _) fun _ => .bind (.await _) fun _ => .tryCatch ?_ fun _ => .logEntry _
  refine .bind (.perform htemporary _ _) fun _ => .bind (.logEntry _) fun _ => ?_
  refine .bind (.compress (.inr rfl) _ _) fun _ => ?_
  exact .bind (.perform htemporary _ _) fun _ => .logEntry _

/-! ## Names -/

/-- ASCII units other than a slash and a dot. -/
def IsPlain (name : JsString) : Prop := ∀ u ∈ name, u.toNat < 0x80 ∧ u ≠ 0x2F ∧ u ≠ 0x2E

def IsAscii (s : JsString) : Prop := ∀ u ∈ s, u.toNat < 0x80

instance (name : JsString) : Decidable (IsPlain name) :=
  List.decidableBAll (fun u : UInt16 => u.toNat < 0x80 ∧ u ≠ 0x2F ∧ u ≠ 0x2E) name

instance (s : JsString) : Decidable (IsAscii s) :=
  List.decidableBAll (fun u : UInt16 => u.toNat < 0x80) s

theorem isLeadSurrogate_ascii {u : UInt16} (h : u.toNat < 0x80) : isLeadSurrogate u = false := by
  rw [← Bool.not_eq_true, Utf8.isLeadSurrogate_iff]
  omega

theorem isTrailSurrogate_ascii {u : UInt16} (h : u.toNat < 0x80) : isTrailSurrogate u = false := by
  rw [← Bool.not_eq_true, Utf8.isTrailSurrogate_iff]
  omega

theorem encodeChar_ascii {u : UInt16} (h : u.toNat < 0x80) :
    Utf8.encodeChar (Utf8.unitChar u) = [u.toNat.toUInt8] := by
  have hascii : ∀ n < 0x80, (Char.ofNat n).toNat = n := by decide
  have hchar := hascii _ h
  rw [Utf8.unitChar, isLeadSurrogate_ascii h, isTrailSurrogate_ascii h, Bool.or_self,
    if_neg Bool.false_ne_true, Utf8.encodeChar, hchar]
  exact if_pos h

theorem encodeString_ascii {s : JsString} (h : IsAscii s) :
    Utf8.encodeString s = s.map fun u => u.toNat.toUInt8 := by
  induction s with
  | nil => rfl
  | cons u s ih =>
    have hu := h u List.mem_cons_self
    rw [Utf8.encodeString_cons (isLeadSurrogate_ascii hu), encodeChar_ascii hu,
      ih fun v hv => h v (List.mem_cons_of_mem _ hv)]
    rfl

theorem bytes_injective {s s' : JsString} (h : IsAscii s) (h' : IsAscii s')
    (heq : s.map (fun u => u.toNat.toUInt8) = s'.map fun u => u.toNat.toUInt8) : s = s' := by
  have hback : ∀ {t : JsString}, IsAscii t →
      (t.map fun u => u.toNat.toUInt8).map (fun b => b.toNat.toUInt16) = t := by
    intro t ht
    rw [List.map_map]
    refine (List.map_congr_left fun u hu => ?_).trans (List.map_id t)
    have hlt := ht u hu
    rw [Function.comp_apply, Utf8.toNat_toUInt8 (by omega)]
    exact UInt16.ofNat_toNat
  rw [← hback h, heq, hback h']

/-- Behind one path, names of more than two ASCII units without a slash name different files. -/
theorem locate_injective {path name name' : JsString} (h : IsAscii name) (h' : IsAscii name')
    (hslash : 0x2F ∉ name) (hslash' : 0x2F ∉ name') (hlong : 2 < name.length)
    (hlong' : 2 < name'.length) (heq : locate (path ++ name) = locate (path ++ name')) :
    name = name' := by
  obtain ⟨directory, start, hwalk⟩ := Foundations.walk_append [] [] (Utf8.encodeString path)
  have hlocate : ∀ {t : JsString}, IsAscii t → 0x2F ∉ t → 2 < t.length →
      locate (path ++ t) = directory ++ [start ++ t.map fun u => u.toNat.toUInt8] := by
    intro t ht htslash htlong
    have hbytes : (0x2F : UInt8) ∉ t.map fun u => u.toNat.toUInt8 := by
      intro hmem
      obtain ⟨u, hu, hslash⟩ := List.mem_map.mp hmem
      have hlt := ht u hu
      have hnat := congrArg UInt8.toNat hslash
      rw [Utf8.toNat_toUInt8 (by omega)] at hnat
      have hunit : u = 0x2F := UInt16.toNat_inj.mp (hnat.trans rfl)
      exact htslash (hunit ▸ hu)
    have happend : Utf8.encodeString (path ++ t) = Utf8.encodeString path ++ Utf8.encodeString t := by
      cases t with
      | nil => cases htlong
      | cons u rest =>
        exact Utf8.encodeString_append (isTrailSurrogate_ascii (ht u List.mem_cons_self)) path rest
    rw [locate, happend, encodeString_ascii ht, hwalk _ hbytes, enter_long]
    rw [List.length_append, List.length_map]
    omega
  rw [hlocate h hslash hlong, hlocate h' hslash' hlong'] at heq
  have hname := List.singleton_inj.mp (List.append_cancel_left heq)
  exact bytes_injective h h' (List.append_cancel_left hname)

section
variable (process : Process)

/-- The path to the state files of the process, in front of their names. -/
def Process.statePath : JsString :=
  process.cwd ++ js "/" ++ DEFAULT_WALLET_STATE_DIRECTORY ++ js "/" ++ js "wallet." ++
    getEnvVarEnvironment process.environment ++ js "."

/-- No name of the process has a `.gz` besides its last. -/
def Process.NoOtherGz (name : JsString) : Prop := ¬ js ".gz" <:+: process.statePath ++ name

theorem defaultStem_eq (name : JsString) :
    WalletSaveStateProvider.defaultStem process.cwd process.environment name none =
      process.statePath ++ name := by
  rfl

end

/-- A plain name with an extension. -/
theorem IsPlain.append {name extension : JsString} (h : IsPlain name)
    (hextension : IsAscii extension ∧ 0x2F ∉ extension) :
    IsAscii (name ++ extension) ∧ 0x2F ∉ name ++ extension := by
  constructor
  · intro u hu
    exact (List.mem_append.mp hu).elim (fun hu => (h u hu).1) (hextension.1 u)
  · intro hmem
    exact (List.mem_append.mp hmem).elim (fun hu => (h _ hu).2.1 rfl) hextension.2

/-- The file that is looked for under a name is touched by no save under another one. -/
theorem stateFile_not_touched {process : Process} {name key : JsString} (hname : IsPlain name)
    (hkey : IsPlain key) (hgz : process.NoOtherGz key) (hne : name ≠ key) :
    locate (process.stateProvider name).filePath ∉
      ({(process.stateProvider key).temporary, (process.stateProvider key).compressed} :
        Set Location) := by
  have hgzExtension : IsAscii (js ".state.gz") ∧ 0x2F ∉ js ".state.gz" := by decide
  have hextension : IsAscii (js ".state") ∧ 0x2F ∉ js ".state" := by decide
  have hpath : ∀ name, (process.stateProvider name).filePath =
      process.statePath ++ (name ++ js ".state.gz") := by
    intro name
    rw [Process.stateProvider, WalletSaveStateProvider.default_filePath, defaultStem_eq,
      List.append_assoc]
  have hfile := hname.append hgzExtension
  rintro (htemporary | hcompressed)
  · have hwithout : withoutGz (process.stateProvider key).filePath =
        process.statePath ++ (key ++ js ".state") := by
      rw [hpath, ← List.append_assoc, WalletSaveStateProvider.withoutGz_stateGz, withoutGz,
        replaceAll_eq_self hgz, List.append_assoc]
    rw [WalletSaveStateProvider.temporary, hwithout, hpath] at htemporary
    have htext := locate_injective hfile.1 (hkey.append hextension).1 hfile.2
      (hkey.append hextension).2 (by rw [List.length_append]; exact Nat.lt_add_left _ (by decide))
      (by rw [List.length_append]; exact Nat.lt_add_left _ (by decide)) htemporary
    have hlast := congrArg List.getLast? htext
    rw [List.getLast?_append_of_ne_nil _ (by decide), List.getLast?_append_of_ne_nil _ (by decide)]
      at hlast
    exact absurd hlast (by decide)
  · rw [Set.mem_singleton_iff, Process.stateProvider, Process.stateProvider,
      WalletSaveStateProvider.compressed_default _ _ _ _ (by rwa [defaultStem_eq])] at hcompressed
    change locate (process.stateProvider name).filePath =
      locate (process.stateProvider key).filePath at hcompressed
    rw [hpath, hpath] at hcompressed
    have htext := locate_injective hfile.1 (hkey.append hgzExtension).1 hfile.2
      (hkey.append hgzExtension).2 (by rw [List.length_append]; exact Nat.lt_add_left _ (by decide))
      (by rw [List.length_append]; exact Nat.lt_add_left _ (by decide)) hcompressed
    exact hne (List.append_cancel_right htext)

/-! ## One wallet -/

/-- A wallet that was restored has the given seed, under which a file was there. -/
theorem restored_of_resolved {env : Surroundings} {seed : JsString} {wallet : MidnightWallet}
    (h : WalletFactory.buildFromSeedAndTryToRestoreState env seed = .resolved wallet)
    (hrestored : wallet.restoredFrom ≠ none) : env.fileExists = true ∧ wallet.seed = seed := by
  have hscratch : WalletFactory.fromScratch env seed ≠ .resolved wallet := by
    intro hwallet
    rw [WalletFactory.fromScratch_resolved hwallet] at hrestored
    exact hrestored rfl
  rw [WalletFactory.buildFromSeedAndTryToRestoreState_eq] at h
  split_ifs at h with hexists
  · refine ⟨hexists, ?_⟩
    split at h
    · cases h
    · next serialized _ =>
      unfold WalletFactory.restoredOrReplaced at h
      split at h
      · cases h
      · exact absurd h hscratch
      · split at h
        · cases h
        · cases h
          rfl
        · cases h
          rfl
        · split at h
          · cases h
          · cases h
            rfl
          · cases h
            exact absurd rfl hrestored
    · exact absurd h hscratch
  · exact absurd h hscratch

theorem Promise.bind_resolved {α β : Type} {x : Promise α} {f : α → Promise β} {b : β}
    (h : (x >>= f) = .resolved b) : ∃ a, x = .resolved a ∧ f a = .resolved b := by
  cases x with
  | resolved a => exact ⟨a, rfl, h⟩
  | rejected e => cases h
  | pending => cases h

theorem Process.build_resolved [WalletKeys] {process : Process} {machine : Machine}
    {steps : BuildSteps} {seed : Option JsString} {provider : MidnightWalletProvider}
    (h : process.build machine steps seed = .resolved provider) :
    provider.coinPublicKey = coinPublicKey provider.wallet.seed ∧
      (provider.wallet.restoredFrom ≠ none →
        provider.wallet.seed = seed.getD steps.generatedSeed ∧
        (machine.files
          (locate (process.stateProvider provider.wallet.seed).filePath)).isSome = true) := by
  obtain ⟨wallet, hwallet, h⟩ := Promise.bind_resolved h
  obtain ⟨_, _, h⟩ := Promise.bind_resolved h
  cases h
  refine ⟨rfl, fun hrestored => ?_⟩
  rw [Process.buildFromEnvContext] at hwallet
  split_ifs at hwallet
  · obtain ⟨hexists, hseed⟩ := restored_of_resolved hwallet hrestored
    exact ⟨hseed, by rw [hseed]; exact hexists⟩
  · unfold WalletFactory.build at hwallet
    cases hbuild : steps.wallet.build with
    | resolved _ =>
      rw [hbuild] at hwallet
      cases hwallet
      exact absurd rfl hrestored
    | rejected e => rw [hbuild] at hwallet; cases hwallet
    | pending => rw [hbuild] at hwallet; cases hwallet

/-! ## All wallets of an environment -/

/-- What only waits afterwards leaves the variable as the code before it did. -/
theorem snd_bind_of_waits {σ α β : Type} {x : Captured σ α} {f : α → Captured σ β} {s : σ}
    (hf : ∀ a s, (f a s).2 = s) : ((x >>= f) s).2 = (x s).2 := by
  rw [Captured.bind_apply]
  split
  · next a s' h => rw [hf, h]
  · next h => rw [h]
  · next h => rw [h]

theorem settleBoth_resolved {α : Type} {first : Promise α} {rest : Promise (List α)} {as : List α}
    (h : settleBoth first rest = .resolved as) :
    ∃ a later, first = .resolved a ∧ rest = .resolved later ∧ as = a :: later := by
  cases first with
  | resolved a =>
    cases rest with
    | resolved later => exact ⟨a, later, rfl, rfl, (Promise.resolved.inj h).symm⟩
    | rejected e => cases h
    | pending => cases h
  | rejected e => cases rest <;> cases h
  | pending => cases rest <;> cases h

/-- Closures that only wait leave the variable as it is. -/
theorem allOf_await {σ α β : Type} (f : α → Promise β) (l : List α) (s : σ) :
    (allOf (l.map fun a => Captured.await (f a)) s).2 = s ∧
      ∀ bs, (allOf (l.map fun a => Captured.await (f a)) s).1 = .resolved bs →
        ∀ b ∈ bs, ∃ a ∈ l, f a = .resolved b := by
  induction l with
  | nil => exact ⟨rfl, fun bs h b hb => by cases h; cases hb⟩
  | cons a l ih =>
    refine ⟨ih.1, fun bs h b hb => ?_⟩
    obtain ⟨b', later, hfirst, hrest, rfl⟩ := settleBoth_resolved h
    obtain rfl | hb := List.mem_cons.mp hb
    · exact ⟨a, List.mem_cons_self, hfirst⟩
    · obtain ⟨a', ha', hresolved⟩ := ih.2 later hrest b hb
      exact ⟨a', List.mem_cons_of_mem _ ha', hresolved⟩

namespace RemoteTestEnvironment

section
variable [WalletKeys] {process : Process}

/-- A seed that is given to an environment, or generated in it. -/
def Seeds (seeds : Option (List JsString)) (steps : List BuildSteps) : Set JsString :=
  fun seed => (∃ given, seeds = some given ∧ seed ∈ given) ∨
    ∃ step ∈ steps, seed = step.generatedSeed

omit [WalletKeys] in
theorem mem_seeds {amount : ℕ} {seeds : Option (List JsString)} {seeds2 : List (Option JsString)}
    (h : walletSeeds amount seeds = .ok seeds2) {steps : List BuildSteps}
    {pair : Option JsString × BuildSteps} (hpair : pair ∈ seeds2.zip steps) :
    pair.1.getD pair.2.generatedSeed ∈ Seeds seeds steps := by
  obtain ⟨seed, step⟩ := pair
  obtain ⟨hseed, hstep⟩ := List.of_mem_zip hpair
  cases seeds with
  | none =>
    cases h
    rw [List.eq_of_mem_replicate hseed]
    exact .inr ⟨step, hstep, rfl⟩
  | some given =>
    rw [walletSeeds] at h
    split_ifs at h
    cases h
    obtain ⟨text, htext, rfl⟩ := List.mem_map.mp hseed
    exact .inl ⟨given, rfl, htext⟩

/-- Starting leaves the machine as it is, and the wallets that it hands out are built on it. -/
theorem start_spec (amount : ℕ) (seeds : Option (List JsString)) (steps : List BuildSteps)
    (env : RemoteTestEnvironment) :
    let after := (startMidnightWalletProviders process amount seeds steps env).2
    after.machine = env.machine ∧ ∀ providers, after.walletProviders = some providers →
      env.walletProviders = some providers ∨ ∀ provider ∈ providers, ∃ seed step,
        seed.getD step.generatedSeed ∈ Seeds seeds steps ∧
        process.build env.machine step seed = .resolved provider := by
  unfold startMidnightWalletProviders
  dsimp only
  cases hseeds : walletSeeds amount seeds with
  | error e => exact ⟨rfl, fun _ h => .inl h⟩
  | ok seeds2 =>
    rw [Captured.ofExcept_ok, Captured.await_resolved_bind, Captured.read_bind, Captured.bind_apply]
    obtain ⟨hstate, hbuilt⟩ := allOf_await (fun pair : Option JsString × BuildSteps =>
      process.build env.machine pair.2 pair.1) (seeds2.zip steps) env
    split
    · next walletProviders env' hall =>
      rw [hall] at hstate hbuilt
      obtain rfl : env' = env := hstate
      have hstarted := (allOf_await (fun pair : Option JsString × BuildSteps => pair.2.start)
        (seeds2.zip steps) { env' with walletProviders := some walletProviders }).1
      rw [Captured.bind_apply]
      dsimp only [Captured.assign]
      rw [snd_bind_of_waits fun _ _ => rfl, hstarted]
      refine ⟨rfl, fun providers h => .inr fun provider hprovider => ?_⟩
      cases h
      obtain ⟨⟨seed, step⟩, hpair, hresolved⟩ := hbuilt _ rfl provider hprovider
      exact ⟨seed, step, mem_seeds hseeds hpair, hresolved⟩
    · next h =>
      rw [h] at hstate
      obtain rfl := hstate
      exact ⟨rfl, fun _ h => .inl h⟩
    · next h =>
      rw [h] at hstate
      obtain rfl := hstate
      exact ⟨rfl, fun _ h => .inl h⟩

/-! ## Shutting down -/

omit [WalletKeys] in
/-- Saving the wallets touches no file but those of their coin public keys. -/
theorem saves_touch (saves : List (MidnightWalletProvider × SaveSteps))
    (env : RemoteTestEnvironment) :
    let after := (allOf (saves.map fun save => saveWallet process save.1 save.2) env).2
    after.walletProviders = env.walletProviders ∧ ∀ location,
      (∀ save ∈ saves, location ∉ ({(process.stateProvider save.1.coinPublicKey).temporary,
        (process.stateProvider save.1.coinPublicKey).compressed} : Set Location)) →
      after.machine.files location = env.machine.files location := by
  induction saves generalizing env with
  | nil => exact ⟨rfl, fun _ _ => rfl⟩
  | cons save saves ih =>
    obtain ⟨hproviders, hfiles⟩ := ih (saveWallet process save.1 save.2 env).2
    refine ⟨hproviders, fun location hlocation => ?_⟩
    have hfirst := WalletSaveStateProvider.save_touches process.library
      (process.stateProvider save.1.coinPublicKey) save.2 env.machine location
      (hlocation save List.mem_cons_self)
    exact (hfiles location fun save hsave => hlocation save (List.mem_cons_of_mem _ hsave)).trans
      hfirst

omit [WalletKeys] in
/-- Shutting down keeps the wallets, and touches no file but those of their coin public keys. -/
theorem shutdown_spec (saveWalletState : Bool) (steps : List SaveSteps) (close stop : Promise Unit)
    (env : RemoteTestEnvironment) :
    let after := (shutdown process saveWalletState steps close stop env).2
    after.walletProviders = env.walletProviders ∧ ∀ location,
      (∀ providers, env.walletProviders = some providers → ∀ provider ∈ providers,
        saveWalletState = true →
        location ∉ ({(process.stateProvider provider.coinPublicKey).temporary,
          (process.stateProvider provider.coinPublicKey).compressed} : Set Location)) →
      after.machine.files location = env.machine.files location := by
  have hwait : ∀ (promise : Promise Unit) (env : RemoteTestEnvironment),
      ((Captured.await promise >>= fun _ => Captured.await stop) env).2 = env := by
    intro promise env
    cases promise <;> rfl
  unfold shutdown
  dsimp only
  rw [Captured.read_bind]
  cases hproviders : env.walletProviders with
  | none => exact ⟨hproviders, fun _ _ => rfl⟩
  | some providers =>
    dsimp only
    cases saveWalletState with
    | false =>
      rw [if_neg Bool.false_ne_true, hwait]
      exact ⟨hproviders, fun _ _ => rfl⟩
    | true =>
      rw [if_pos rfl, snd_bind_of_waits fun _ => hwait close]
      obtain ⟨hkept, hfiles⟩ := @saves_touch process (providers.zip steps) env
      refine ⟨hkept.trans hproviders, fun location hlocation => hfiles location fun save hsave => ?_⟩
      exact hlocation providers rfl save.1 (List.of_mem_zip hsave).1 rfl

end

end RemoteTestEnvironment

/-! ## All sessions on a machine -/

/-- The environments of a machine, one after another or side by side, and the coin public keys that a
shutdown was to save a state under. -/
structure Testbed (ι : Type) where
  machine : Machine
  environments : ι → Option (List MidnightWalletProvider)
  saved : List JsString

inductive SessionOp (ι : Type)
  | start (i : ι) (amount : ℕ) (seeds : Option (List JsString)) (steps : List BuildSteps)
  | shutdown (i : ι) (saveWalletState : Bool) (steps : List SaveSteps) (close stop : Promise Unit)

/-- The seeds that are given to an environment, or generated in it, are plain. -/
def SessionOp.PlainSeeds {ι : Type} (op : SessionOp ι) : Prop :=
  match op with
  | .start _ _ seeds steps => ∀ seed ∈ RemoteTestEnvironment.Seeds seeds steps, IsPlain seed
  | .shutdown .. => True

namespace Testbed
variable {ι : Type} [DecidableEq ι] [WalletKeys] {process : Process}

/-- The machine as one environment finds it. -/
def environment (testbed : Testbed ι) (i : ι) : RemoteTestEnvironment :=
  ⟨testbed.machine, testbed.environments i⟩

def set (testbed : Testbed ι) (i : ι) (env : RemoteTestEnvironment) (saved : List JsString) :
    Testbed ι :=
  ⟨env.machine, Function.update testbed.environments i env.walletProviders, testbed.saved ++ saved⟩

def perform (process : Process) (testbed : Testbed ι) (op : SessionOp ι) : Testbed ι :=
  match op with
  | .start i amount seeds steps =>
    testbed.set i (RemoteTestEnvironment.startMidnightWalletProviders process amount seeds steps
      (testbed.environment i)).2 []
  | .shutdown i saveWalletState steps close stop =>
    testbed.set i (RemoteTestEnvironment.shutdown process saveWalletState steps close stop
      (testbed.environment i)).2
      (if saveWalletState then ((testbed.environments i).getD []).map (·.coinPublicKey) else [])

def run (process : Process) (testbed : Testbed ι) (ops : List (SessionOp ι)) : Testbed ι :=
  ops.foldl (perform process) testbed

/-- The state file of a plain name was saved under it, and so was that of a wallet that was
restored. -/
structure SavedBefore (process : Process) (testbed : Testbed ι) : Prop where
  files : ∀ name, IsPlain name →
    (testbed.machine.files (locate (process.stateProvider name).filePath)).isSome = true →
    name ∈ testbed.saved
  wallets : ∀ i providers, testbed.environments i = some providers → ∀ provider ∈ providers,
    provider.coinPublicKey = coinPublicKey provider.wallet.seed ∧
      (provider.wallet.restoredFrom ≠ none → provider.wallet.seed ∈ testbed.saved)
  keys : ∀ key ∈ testbed.saved, ∃ seed, key = coinPublicKey seed

/-- Every coin public key is a plain name. -/
def PlainKeys (process : Process) : Prop :=
  ∀ seed, IsPlain (coinPublicKey seed) ∧ process.NoOtherGz (coinPublicKey seed)

theorem start_savedBefore {testbed : Testbed ι} (h : SavedBefore process testbed) (i : ι)
    (amount : ℕ) {seeds : Option (List JsString)} {steps : List BuildSteps}
    (hplain : ∀ seed ∈ RemoteTestEnvironment.Seeds seeds steps, IsPlain seed) :
    SavedBefore process (testbed.perform process (.start i amount seeds steps)) := by
  obtain ⟨hmachine, hproviders⟩ :=
    @RemoteTestEnvironment.start_spec _ process amount seeds steps (testbed.environment i)
  have hsaved : (testbed.perform process (.start i amount seeds steps)).saved = testbed.saved :=
    List.append_nil _
  refine ⟨?_, ?_, ?_⟩
  · intro name hname hfile
    rw [hsaved]
    apply h.files name hname
    rw [← hfile]
    exact congrArg (fun machine : Machine => (machine.files _).isSome) hmachine.symm
  · intro j providers hj provider hprovider
    rw [hsaved]
    change Function.update testbed.environments i _ j = _ at hj
    by_cases hji : j = i
    · subst hji
      rw [Function.update_self] at hj
      obtain hbefore | hbuilt := hproviders providers hj
      · exact h.wallets j providers hbefore provider hprovider
      · obtain ⟨seed, step, hseed, hbuild⟩ := hbuilt provider hprovider
        obtain ⟨hkey, hrestored⟩ := Process.build_resolved hbuild
        refine ⟨hkey, fun hnone => ?_⟩
        obtain ⟨hsame, hfile⟩ := hrestored hnone
        exact h.files _ (hsame ▸ hplain _ hseed) hfile
    · rw [Function.update_of_ne hji] at hj
      exact h.wallets j providers hj provider hprovider
  · rw [hsaved]
    exact h.keys

theorem shutdown_savedBefore (hkeys : PlainKeys process) {testbed : Testbed ι}
    (h : SavedBefore process testbed) (i : ι) (saveWalletState : Bool) (steps : List SaveSteps)
    (close stop : Promise Unit) :
    SavedBefore process (testbed.perform process (.shutdown i saveWalletState steps close stop)) := by
  obtain ⟨hproviders, hfiles⟩ := @RemoteTestEnvironment.shutdown_spec process saveWalletState steps
    close stop (testbed.environment i)
  refine ⟨?_, ?_, ?_⟩
  · intro name hname hfile
    apply List.mem_append.mpr
    by_contra hnot
    obtain ⟨hbefore, hnow⟩ := not_or.mp hnot
    refine hbefore (h.files name hname ?_)
    rw [← hfile]
    refine congrArg Option.isSome (hfiles _ fun providers hsome provider hprovider hsave => ?_).symm
    have hkey := (h.wallets i providers hsome provider hprovider).1
    obtain ⟨hkeyPlain, hgz⟩ := hkeys provider.wallet.seed
    rw [← hkey] at hkeyPlain hgz
    refine stateFile_not_touched hname hkeyPlain hgz fun heq => hnow ?_
    rw [if_pos hsave, show testbed.environments i = some providers from hsome, heq]
    exact List.mem_map_of_mem hprovider
  · intro j providers hj provider hprovider
    change Function.update testbed.environments i _ j = _ at hj
    have hsome : testbed.environments j = some providers := by
      by_cases hji : j = i
      · subst hji
        rw [Function.update_self, hproviders] at hj
        exact hj
      · rwa [Function.update_of_ne hji] at hj
    obtain ⟨hkey, hrestored⟩ := h.wallets j providers hsome provider hprovider
    exact ⟨hkey, fun hnone => List.mem_append_left _ (hrestored hnone)⟩
  · intro key hmem
    obtain hbefore | hnow := List.mem_append.mp hmem
    · exact h.keys key hbefore
    · split_ifs at hnow
      · obtain ⟨provider, hprovider, rfl⟩ := List.mem_map.mp hnow
        cases hsome : testbed.environments i with
        | none =>
          rw [hsome] at hprovider
          cases hprovider
        | some providers =>
          rw [hsome] at hprovider
          exact ⟨_, (h.wallets i providers hsome provider hprovider).1⟩
      · cases hnow

theorem run_savedBefore (hkeys : PlainKeys process) {testbed : Testbed ι}
    (h : SavedBefore process testbed) (ops : List (SessionOp ι)) (hops : ∀ op ∈ ops, op.PlainSeeds) :
    SavedBefore process (testbed.run process ops) := by
  induction ops generalizing testbed with
  | nil => exact h
  | cons op ops ih =>
    refine ih ?_ fun op hop => hops op (List.mem_cons_of_mem _ hop)
    have hplain := hops op List.mem_cons_self
    cases op with
    | start i amount seeds steps => exact start_savedBefore h i amount hplain
    | shutdown i saveWalletState steps close stop =>
      exact shutdown_savedBefore hkeys h i saveWalletState steps close stop

/-- A machine without state files, and no environment yet. -/
def Fresh (process : Process) (testbed : Testbed ι) : Prop :=
  testbed.environments = (fun _ => none) ∧ testbed.saved = [] ∧
    ∀ name, IsPlain name → testbed.machine.files (locate (process.stateProvider name).filePath) = none

/-- In all sessions on a machine, a wallet is restored only where its seed is the coin public key of
a wallet that was saved before. -/
theorem restored_seed_is_saved_key (process : Process) (hkeys : PlainKeys process)
    {testbed : Testbed ι} (hfresh : Fresh process testbed) (ops : List (SessionOp ι))
    (hops : ∀ op ∈ ops, op.PlainSeeds) {i : ι} {providers : List MidnightWalletProvider}
    (hsome : (testbed.run process ops).environments i = some providers)
    {provider : MidnightWalletProvider} (hprovider : provider ∈ providers)
    (hrestored : provider.wallet.restoredFrom ≠ none) :
    provider.wallet.seed ∈ (testbed.run process ops).saved ∧
      ∃ seed, provider.wallet.seed = coinPublicKey seed := by
  obtain ⟨hnone, hsaved, hfiles⟩ := hfresh
  have h : SavedBefore process testbed := by
    refine ⟨fun name hname hfile => ?_, fun i providers hsome => ?_, fun key hkey => ?_⟩
    · rw [hfiles name hname] at hfile
      cases hfile
    · rw [hnone] at hsome
      cases hsome
    · rw [hsaved] at hkey
      cases hkey
  have hrun := run_savedBefore hkeys h ops hops
  have hmem := (hrun.wallets i providers hsome provider hprovider).2 hrestored
  exact ⟨hmem, hrun.keys _ hmem⟩

end Testbed

namespace Testbed.Sample

@[reducible] def keys : WalletKeys := ⟨fun _ => js "cpk"⟩

def process : Process := ⟨js "/work", none, default, WalletSaveStateProvider.Sample.whole⟩

/-- Where a file is found, its wallet is restored and synced. -/
def buildSteps : BuildSteps :=
  ⟨js "00", ⟨false, .pending, .resolved (), [.next ⟨some ⟨true, 5⟩, []⟩],
    [.next ⟨some ⟨false, 5⟩, []⟩], js "22", .resolved (), .resolved ()⟩, .resolved (), .resolved ()⟩

def saveSteps : SaveSteps :=
  ⟨.ok (), .resolved (js "\x7b\"offset\":1\x7d"), ⟨.resolved (), none⟩, ⟨.resolved (), none⟩,
    ⟨.resolved (), none⟩⟩

def empty : Testbed Unit := ⟨⟨fun _ => none, []⟩, fun _ => none, []⟩

def sessions : List (SessionOp Unit) :=
  [.start () 1 (some [js "00"]) [buildSteps],
    .shutdown () true [saveSteps] (.resolved ()) (.resolved ()),
    .start () 1 (some [js "cpk"]) [buildSteps]]

def afterwards : Testbed Unit := @run Unit inferInstance keys process empty sessions

def restored : MidnightWalletProvider :=
  ⟨⟨js "cpk", some (js "\x7b\"offset\":1\x7d")⟩, js "cpk"⟩

theorem plainSeeds_sessions : ∀ op ∈ sessions, op.PlainSeeds := by
  have hplain : IsPlain (js "00") ∧ IsPlain (js "cpk") := by decide
  intro op hop
  simp only [sessions, List.mem_cons, List.not_mem_nil, or_false] at hop
  obtain rfl | rfl | rfl := hop
  · rintro seed (⟨given, hgiven, hseed⟩ | ⟨step, hstep, rfl⟩)
    · cases hgiven
      rw [List.mem_singleton.mp hseed]
      exact hplain.1
    · rw [List.mem_singleton.mp hstep]
      exact hplain.1
  · trivial
  · rintro seed (⟨given, hgiven, hseed⟩ | ⟨step, hstep, rfl⟩)
    · cases hgiven
      rw [List.mem_singleton.mp hseed]
      exact hplain.2
    · rw [List.mem_singleton.mp hstep]
      exact hplain.1

/-- A state that was saved for the seed `00` is found by the wallet whose seed is the coin public
key. -/
theorem restored_seed_is_saved_key_cpk : restored.wallet.seed ∈ afterwards.saved ∧
    ∃ seed, restored.wallet.seed = @coinPublicKey keys seed := by
  have hkeys : @PlainKeys keys process := by
    intro seed
    change IsPlain (js "cpk") ∧ ¬ js ".gz" <:+: process.statePath ++ js "cpk"
    exact ⟨by decide +kernel, by decide +kernel⟩
  have hsome : afterwards.environments () = some [restored] := by decide +kernel
  have hfresh : Fresh process empty := ⟨rfl, rfl, fun _ _ => rfl⟩
  exact @restored_seed_is_saved_key Unit inferInstance keys process hkeys empty hfresh sessions
    plainSeeds_sessions () [restored] hsome restored List.mem_cons_self (by decide)

end Testbed.Sample

end MidnightJs.TestkitJs
