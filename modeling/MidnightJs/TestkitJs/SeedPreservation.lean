import MidnightJs.TestkitJs.WalletFactory

/-! # The seed of a restored wallet

The restored wallet is assigned before it is checked, so that it is returned when a check fails, and
the wallet that replaces it after a reset has a random seed. -/

namespace MidnightJs.TestkitJs
open Foundations Foundations.Js Foundations.Rx
set_option autoImplicit false

namespace WalletFactory

/-! ## The checks of a restored wallet -/

section
variable (env : Surroundings)

def anotherChain (offset : Option Json) : Promise Bool := do
  let state ← waitForSyncProgressDefined env.progress
  match state.syncProgress with
  | some progress => return bigintLt progress.applyGap (← Promise.ofExcept (minusOne offset))
  | none => return false

def fallsBehind (offset : Option Json) : Promise Bool := do
  let newState ← waitForFullSync env.states
  let applyGap := (newState.syncProgress.map fun progress => progress.applyGap).getD 0
  return bigintLt applyGap (← Promise.ofExcept (minusOne offset))

/-- Whether the restored wallet is given up: the chain was reset, or the saved offset is not reached.
The promise is rejected where a check fails. -/
def givesUp (serialized : JsString) : Promise Bool := do
  let stateObjectFromFile ← Promise.ofExcept (parseSerialized serialized)
  let offset ← Promise.ofExcept (offsetOf stateObjectFromFile)
  if ← anotherChain env offset then return true
  fallsBehind env offset

theorem isAnotherChain_eq (offset : Option Json) :
    isAnotherChain env offset = Captured.await (anotherChain env offset) := by
  rw [isAnotherChain, anotherChain]
  cases waitForSyncProgressDefined env.progress with
  | pending => rfl
  | rejected e => rfl
  | resolved state =>
    rw [Captured.await_resolved_bind, Promise.resolved_bind]
    cases state.syncProgress with
    | none => rfl
    | some progress => exact Captured.await_bind_pure _ _

/-- The checks decide whether the restored wallet is replaced. -/
theorem handleWalletRestoration_eq (seed serialized : JsString) :
    handleWalletRestoration env seed serialized = (do
      Captured.assign (some (← restore env serialized seed))
      if ← Captured.await (givesUp env serialized) then Captured.assign (some (← build env))
      Captured.read) := by
  unfold handleWalletRestoration givesUp fallsBehind
  refine bind_congr fun restored => bind_congr fun _ => ?_
  cases parseSerialized serialized with
  | error e => rfl
  | ok stateObjectFromFile =>
    simp only [Captured.ofExcept_ok, Captured.await_resolved_bind, Promise.ofExcept_ok,
      Promise.resolved_bind, isAnotherChain_eq]
    cases offsetOf stateObjectFromFile with
    | error e => rfl
    | ok offset =>
      simp only [Captured.ofExcept_ok, Captured.await_resolved_bind, Promise.ofExcept_ok,
        Promise.resolved_bind]
      cases anotherChain env offset with
      | pending => rfl
      | rejected e => rfl
      | resolved another =>
        cases another with
        | true => rfl
        | false =>
          simp only [Captured.await_resolved_bind, Promise.resolved_bind]
          cases waitForFullSync env.states with
          | pending => rfl
          | rejected e => rfl
          | resolved newState =>
            simp only [Captured.await_resolved_bind, Promise.resolved_bind]
            cases minusOne offset with
            | error e => rfl
            | ok x => rfl

/-- What the restoration leaves in the variable. -/
theorem handleWalletRestoration_apply (seed serialized : JsString) (s : Option MidnightWallet) :
    handleWalletRestoration env seed serialized s =
      match env.restore with
      | .pending => (.pending, s)
      | .rejected e => (.rejected e, s)
      | .resolved _ =>
        match givesUp env serialized with
        | .pending => (.pending, some ⟨seed, some serialized⟩)
        | .rejected e => (.rejected e, some ⟨seed, some serialized⟩)
        | .resolved false => (.resolved (some ⟨seed, some serialized⟩), some ⟨seed, some serialized⟩)
        | .resolved true =>
          match env.build with
          | .pending => (.pending, some ⟨seed, some serialized⟩)
          | .rejected e => (.rejected e, some ⟨seed, some serialized⟩)
          | .resolved _ => (.resolved (some ⟨env.randomSeed, none⟩), some ⟨env.randomSeed, none⟩) := by
  rw [handleWalletRestoration_eq]
  unfold restore
  cases env.restore with
  | pending => rfl
  | rejected e => rfl
  | resolved _ =>
    cases givesUp env serialized with
    | pending => rfl
    | rejected e => rfl
    | resolved given =>
      cases given with
      | false => rfl
      | true =>
        unfold build
        cases env.build <;> rfl

/-- A wallet of the seed that was not restored. -/
def fromScratch (seed : JsString) : Promise MidnightWallet := do
  env.buildFromSeed
  return ⟨seed, none⟩

/-- What a call returns once the file was read. -/
def restoredOrReplaced (seed serialized : JsString) : Promise MidnightWallet :=
  match env.restore with
  | .pending => .pending
  | .rejected _ => fromScratch env seed
  | .resolved _ =>
    match givesUp env serialized with
    | .pending => .pending
    | .rejected _ => .resolved ⟨seed, some serialized⟩
    | .resolved false => .resolved ⟨seed, some serialized⟩
    | .resolved true =>
      match env.build with
      | .pending => .pending
      | .rejected _ => .resolved ⟨seed, some serialized⟩
      | .resolved _ => .resolved ⟨env.randomSeed, none⟩

theorem buildFromSeed_apply (seed : JsString) (s : Option MidnightWallet) :
    (buildFromSeed env seed s).1 = fromScratch env seed := by
  unfold buildFromSeed fromScratch
  cases env.buildFromSeed <;> rfl

/-- A rejection is caught, and the variable keeps what was assigned. -/
theorem restoreWalletFromFile_apply {serialized : JsString} (seed : JsString)
    (s : Option MidnightWallet) (hload : env.load = .resolved (some serialized)) :
    restoreWalletFromFile env seed s =
      match handleWalletRestoration env seed serialized s with
      | (.pending, s') => (.pending, s')
      | (.rejected _, s') => (.resolved (), s')
      | (.resolved wallet, _) => (.resolved (), wallet) := by
  unfold restoreWalletFromFile
  rw [hload, Captured.await_resolved_bind]
  dsimp only
  rw [Captured.tryCatch, Captured.bind_apply]
  match handleWalletRestoration env seed serialized s with
  | (.pending, s') => rfl
  | (.rejected e, s') => rfl
  | (.resolved wallet, s') => rfl

theorem buildFromSeedAndTryToRestoreState_eq (seed : JsString) :
    buildFromSeedAndTryToRestoreState env seed =
      if env.fileExists then
        match env.load with
        | .pending => .pending
        | .resolved (some serialized) => restoredOrReplaced env seed serialized
        | _ => fromScratch env seed
      else fromScratch env seed := by
  unfold buildFromSeedAndTryToRestoreState
  cases env.fileExists with
  | false => exact buildFromSeed_apply env seed none
  | true =>
    cases hload : env.load with
    | pending =>
      unfold restoreWalletFromFile
      rw [hload]
      rfl
    | rejected e =>
      unfold restoreWalletFromFile
      rw [hload]
      exact buildFromSeed_apply env seed none
    | resolved serialized =>
      cases serialized with
      | none =>
        unfold restoreWalletFromFile
        rw [hload]
        exact buildFromSeed_apply env seed none
      | some serialized =>
        simp only [if_true]
        rw [Captured.bind_apply, restoreWalletFromFile_apply env seed none hload,
          handleWalletRestoration_apply, restoredOrReplaced]
        cases env.restore with
        | pending => rfl
        | rejected e => exact buildFromSeed_apply env seed none
        | resolved _ =>
          cases givesUp env serialized with
          | pending => rfl
          | rejected e => rfl
          | resolved given =>
            cases given with
            | false => rfl
            | true => cases env.build <;> rfl

end

/-! ## When the seed is preserved -/

/-- Some step of the restoration fails, or the restored wallet is given up. -/
def StepFails (env : Surroundings) : Prop :=
  env.fileExists = true ∧ ((∃ e, env.load = .rejected e) ∨
    ∃ serialized, env.load = .resolved (some serialized) ∧ ((∃ e, env.restore = .rejected e) ∨
      env.restore = .resolved () ∧ ((∃ e, givesUp env serialized = .rejected e) ∨
        givesUp env serialized = .resolved true)))

/-- The wallet has the seed, and was not restored if a step of the restoration failed. -/
structure SeedPreserved (env : Surroundings) (seed : JsString) : Prop where
  sameSeed : ∀ wallet, buildFromSeedAndTryToRestoreState env seed = .resolved wallet →
    wallet.seed = seed
  scratch : StepFails env → ∀ wallet,
    buildFromSeedAndTryToRestoreState env seed = .resolved wallet → wallet = ⟨seed, none⟩

/-- After the wallet was restored a check fails, or it is given up and no wallet of the seed
replaces it. -/
def FailsAfterRestore (env : Surroundings) (seed : JsString) : Prop :=
  env.fileExists = true ∧ ∃ serialized, env.load = .resolved (some serialized) ∧
    env.restore = .resolved () ∧ ((∃ e, givesUp env serialized = .rejected e) ∨
      givesUp env serialized = .resolved true ∧ ((∃ e, env.build = .rejected e) ∨
        env.build = .resolved () ∧ env.randomSeed ≠ seed))

theorem fromScratch_resolved {env : Surroundings} {seed : JsString} {wallet : MidnightWallet}
    (h : fromScratch env seed = .resolved wallet) : wallet = ⟨seed, none⟩ := by
  unfold fromScratch at h
  cases hbuild : env.buildFromSeed with
  | pending => rw [hbuild] at h; cases h
  | rejected e => rw [hbuild] at h; cases h
  | resolved _ =>
    rw [hbuild] at h
    cases h
    rfl

theorem not_stepFails {env : Surroundings} {serialized : JsString}
    (hload : env.load = .resolved (some serialized)) (hrestore : env.restore = .resolved ())
    (hkept : givesUp env serialized = .resolved false) : ¬ StepFails env := by
  rintro ⟨-, ⟨e, he⟩ | ⟨serialized', hload', hcheck⟩⟩
  · rw [hload] at he
    cases he
  · rw [hload] at hload'
    cases hload'
    rcases hcheck with ⟨e, he⟩ | ⟨-, ⟨e, he⟩ | hgiven⟩
    · rw [hrestore] at he
      cases he
    · rw [hkept] at he
      cases he
    · rw [hkept] at hgiven
      cases hgiven

/-- A restored wallet is returned after all checks, a new one only with the seed. -/
theorem restored_cases {env : Surroundings} {seed serialized : JsString} {wallet : MidnightWallet}
    (hexists : env.fileExists = true) (hload : env.load = .resolved (some serialized))
    (hrestore : env.restore = .resolved ()) (h : ¬ FailsAfterRestore env seed)
    (hwallet : restoredOrReplaced env seed serialized = .resolved wallet) :
    wallet = ⟨seed, none⟩ ∨ wallet.seed = seed ∧ ¬ StepFails env := by
  have hafter : ∀ hcheck, FailsAfterRestore env seed :=
    fun hcheck => ⟨hexists, serialized, hload, hrestore, hcheck⟩
  rw [restoredOrReplaced, hrestore] at hwallet
  dsimp only at hwallet
  cases hgives : givesUp env serialized with
  | pending => rw [hgives] at hwallet; cases hwallet
  | rejected e => exact absurd (hafter (.inl ⟨e, hgives⟩)) h
  | resolved given =>
    rw [hgives] at hwallet
    cases given with
    | false =>
      cases hwallet
      exact .inr ⟨rfl, not_stepFails hload hrestore hgives⟩
    | true =>
      dsimp only at hwallet
      cases hbuild : env.build with
      | pending => rw [hbuild] at hwallet; cases hwallet
      | rejected e => exact absurd (hafter (.inr ⟨hgives, .inl ⟨e, hbuild⟩⟩)) h
      | resolved _ =>
        rw [hbuild] at hwallet
        cases hwallet
        by_cases hseed : env.randomSeed = seed
        · exact .inl (by rw [hseed])
        · exact absurd (hafter (.inr ⟨hgives, .inr ⟨hbuild, hseed⟩⟩)) h

/-- The seed is lost only after a restored wallet fails a check or is replaced. -/
theorem seed_preserved_iff (env : Surroundings) (seed : JsString) :
    SeedPreserved env seed ↔ ¬ FailsAfterRestore env seed := by
  have hresult := buildFromSeedAndTryToRestoreState_eq env seed
  constructor
  · rintro h ⟨hexists, serialized, hload, hrestore, hcheck⟩
    have hfails : StepFails env := by
      refine ⟨hexists, .inr ⟨serialized, hload, .inr ⟨hrestore, ?_⟩⟩⟩
      rcases hcheck with hrejected | ⟨hgiven, -⟩
      · exact .inl hrejected
      · exact .inr hgiven
    simp only [hexists, if_true, hload, restoredOrReplaced, hrestore] at hresult
    rcases hcheck with ⟨e, hrejected⟩ | ⟨hgiven, ⟨e, hbuild⟩ | ⟨hbuild, hseed⟩⟩
    · simp only [hrejected] at hresult
      cases h.scratch hfails _ hresult
    · simp only [hgiven, hbuild] at hresult
      cases h.scratch hfails _ hresult
    · simp only [hgiven, hbuild] at hresult
      exact hseed (h.sameSeed _ hresult)
  · intro h
    -- Either the wallet is new, or it was restored and no check failed.
    have hcases : ∀ wallet, buildFromSeedAndTryToRestoreState env seed = .resolved wallet →
        wallet = ⟨seed, none⟩ ∨ wallet.seed = seed ∧ ¬ StepFails env := by
      intro wallet hwallet
      rw [hresult] at hwallet
      split_ifs at hwallet with hexists
      · cases hload : env.load with
        | pending => rw [hload] at hwallet; cases hwallet
        | rejected e => rw [hload] at hwallet; exact .inl (fromScratch_resolved hwallet)
        | resolved serialized =>
          rw [hload] at hwallet
          cases serialized with
          | none => exact .inl (fromScratch_resolved hwallet)
          | some serialized =>
            dsimp only at hwallet
            rw [restoredOrReplaced] at hwallet
            cases hrestore : env.restore with
            | pending => rw [hrestore] at hwallet; cases hwallet
            | rejected e => rw [hrestore] at hwallet; exact .inl (fromScratch_resolved hwallet)
            | resolved _ =>
              exact restored_cases hexists hload hrestore h hwallet
      · exact .inl (fromScratch_resolved hwallet)
    refine ⟨fun wallet hwallet => ?_, fun hfails wallet hwallet => ?_⟩
    · rcases hcases wallet hwallet with rfl | ⟨hseed, -⟩
      · rfl
      · exact hseed
    · rcases hcases wallet hwallet with hscratch | ⟨-, hnot⟩
      · exact hscratch
      · exact absurd hfails hnot

namespace Sample

/-- The saved offset is 9, and the restored wallet reports a gap of 5, on another chain. -/
def resetChain : Surroundings :=
  ⟨true, .resolved (some (js "\x7b\"offset\":9\x7d")), .resolved (), [.next ⟨some ⟨true, 5⟩, []⟩],
    [], js "22", .resolved (), .resolved ()⟩

/-- The file does not hold JSON. -/
def brokenFile : Surroundings :=
  ⟨true, .resolved (some (js "?")), .resolved (), [], [], js "22", .resolved (), .resolved ()⟩

/-- After a reset the seed is another one, and a wallet that failed its checks is returned. -/
theorem seed_lost :
    buildFromSeedAndTryToRestoreState resetChain (js "11") = .resolved ⟨js "22", none⟩ ∧
      buildFromSeedAndTryToRestoreState brokenFile (js "11") =
        .resolved ⟨js "11", some (js "?")⟩ ∧
      ¬ SeedPreserved resetChain (js "11") ∧ ¬ SeedPreserved brokenFile (js "11") := by
  have hreset : buildFromSeedAndTryToRestoreState resetChain (js "11") =
    .resolved ⟨js "22", none⟩ := by decide +kernel
  have hbroken : buildFromSeedAndTryToRestoreState brokenFile (js "11") =
    .resolved ⟨js "11", some (js "?")⟩ := by decide +kernel
  have hfails : StepFails brokenFile :=
    ⟨rfl, .inr ⟨js "?", rfl, .inr ⟨rfl, .inl ⟨.syntaxError [], by decide +kernel⟩⟩⟩⟩
  refine ⟨hreset, hbroken, fun h => ?_, fun h => ?_⟩
  · have hseed := h.sameSeed _ hreset
    cases hseed
  · cases h.scratch hfails _ hbroken

end Sample

end WalletFactory

end MidnightJs.TestkitJs
