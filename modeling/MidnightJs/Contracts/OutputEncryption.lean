import MidnightJs.Contracts.NewCoins
import MidnightJs.Contracts.UnprovenTx

/-! # For whom outputs are encrypted

A call takes the wallet's encryption key through `encryptionPublicKeyForzswapState`, which compares
the owner of the local state with the wallet and turns the key into hex. A deployment hands the key
to the offer as the wallet spells it, whoever owns the state. -/

namespace MidnightJs
open Foundations Foundations.Js Foundations.Async
set_option autoImplicit false

/-- Some output goes to a user. Every one of them is made, also those that the map of the outputs
then drops. -/
def HasUserOutput (st : ZswapLocalState) : Prop :=
  ∃ o ∈ st.outputs, o.recipient.isLeft = true

/-- `UnprovenOutput.new` is given no other key. -/
def EncryptedFor (key : JsString) (created : List UnprovenOutput) : Prop :=
  ∀ coinInfo segmentNumber recipient encryptionPublicKey,
    .new coinInfo segmentNumber recipient encryptionPublicKey ∈ created → encryptionPublicKey = key

/-- The outputs to users are encrypted for `key` exactly if this is the key that the offer is built
with, or if there is none. -/
theorem encryptedFor_iff (key : JsString) (st : ZswapLocalState) (epk : JsString) :
    EncryptedFor key (createdOutputs st epk) ↔ epk = key ∨ ¬ HasUserOutput st := by
  constructor
  · intro h
    refine or_iff_not_imp_right.mpr fun huser => ?_
    obtain ⟨o, ho, hleft⟩ := not_not.mp huser
    have hcreated : createUnprovenOutput o epk DEFAULT_SEGMENT_NUMBER =
        .new o.coinInfo DEFAULT_SEGMENT_NUMBER o.recipient.left epk := if_pos hleft
    refine h _ _ _ epk (List.mem_map.mpr ⟨o, ho, hcreated⟩)
  · intro hkey coinInfo segmentNumber recipient encryptionPublicKey hmem
    obtain ⟨o, ho, heq⟩ := List.mem_map.mp hmem
    rw [createUnprovenOutput] at heq
    split at heq
    · rename_i hleft
      have hepk : epk = key := hkey.resolve_right fun hnone => hnone ⟨o, ho, hleft⟩
      exact (UnprovenOutput.new.inj heq).2.2.2.symm.trans hepk
    · cases heq

section
variable [Runtime]

/-- The outputs of an offer, with those that it spends itself. -/
def UnprovenOffer.allOutputs (offer : UnprovenOffer) : List UnprovenOutput :=
  offer.transients.map UnprovenTransient.output ++ offer.outputs

/-- The coin key of the state is the wallet's. -/
def WalletOwns (wallet : WalletProvider) (st : ZswapLocalState) : Prop :=
  ∃ coinKey, parseCoinPublicKeyToHex wallet.coinPublicKey = .ok coinKey ∧
    parseCoinPublicKeyToHex st.coinPublicKey = .ok coinKey

/-- The offer is built of the state with the key: all outputs of the state are made, and of those
with one coin info the last is left. -/
structure BuiltWith (epk : JsString) (st : ZswapLocalState) (offer : UnprovenOffer) : Prop where
  built : ∃ tuple, zswapStateToOffer st epk tuple = .ok offer
  left : offer.allOutputs.Perm (lasts UnprovenOutput.coinInfo (createdOutputs st epk))

/-- The state is the wallet's, and every output to a user that is made of it is encrypted for the
key. -/
structure SealedFor (wallet : WalletProvider) (key : JsString) (st : ZswapLocalState)
    (created : List UnprovenOutput) : Prop where
  owner : WalletOwns wallet st
  sealed : EncryptedFor key created

/-! ## The outputs of an offer -/

theorem builtWith {st : ZswapLocalState} {epk : JsString} {offer : UnprovenOffer}
    {tuple : Option AddressAndChainState}
    (hvalid : ∀ t ∈ tuple, assertIsContractAddress t.contractAddress = .ok ())
    (h : zswapStateToOffer st epk tuple = .ok offer) : BuiltWith epk st offer := by
  refine ⟨⟨tuple, h⟩, ?_⟩
  have hleft : tuple = none → (matchState st epk).inputs = [] := by
    intro hnone
    by_contra hinputs
    subst hnone
    obtain ⟨e, he⟩ := zswapStateToOffer_throws.mpr hinputs
    rw [he] at h
    cases h
  rw [zswapStateToOffer_eq hvalid hleft, Except.ok.injEq] at h
  have hparts : offer.allOutputs =
      (matchState st epk).pairs.map Prod.snd ++ (matchState st epk).outputs := by
    rw [← h, UnprovenOffer.allOutputs, List.map_map]
    rfl
  have hperm : ((matchState st epk).pairs.map Prod.snd ++ (matchState st epk).outputs).Perm
      (kept UnprovenOutput.coinInfo (createdOutputs st epk)) :=
    Matching.outputs_perm (nodup_kept ..) st.inputs
  rw [hparts]
  exact hperm.trans (kept_perm ..)

/-! ## The two paths -/

variable {PS : Type}

theorem returns_sync {α : Type} {φ : α → Prop} {x : Except JsError α} (h : ∀ a, x = .ok a → φ a) :
    (sync x : Promise PS α).Returns φ := by
  cases x with
  | ok a => exact h a rfl
  | error e => trivial

/-- What `encryptionPublicKeyForzswapState` checks and returns. -/
theorem encryptionPublicKeyForzswapState_ok {wallet : WalletProvider} {st : ZswapLocalState}
    {key : JsString} (h : encryptionPublicKeyForzswapState st wallet.coinPublicKey
      wallet.encryptionPublicKey = .ok key) :
    WalletOwns wallet st ∧ parseEncPublicKeyToHex wallet.encryptionPublicKey = .ok key := by
  rw [encryptionPublicKeyForzswapState, except_bind_ok] at h
  obtain ⟨walletKey, hwallet, h⟩ := h
  rw [except_bind_ok] at h
  obtain ⟨localKey, hlocal, h⟩ := h
  split at h
  · cases h
  · rename_i heq
    rw [ne_eq, not_not] at heq
    exact ⟨⟨walletKey, hwallet, heq ▸ hlocal⟩, h⟩

/-- The key that the check returns is the one the offer is built with, and every output to a user is
made with it. -/
def SealedByCall (wallet : WalletProvider) (key : JsString) (st : ZswapLocalState)
    (offer : UnprovenOffer) : Prop :=
  ∃ epk, encryptionPublicKeyForzswapState st wallet.coinPublicKey wallet.encryptionPublicKey =
    .ok epk ∧ BuiltWith epk st offer ∧ SealedFor wallet key st (createdOutputs st epk)

variable [Undefined PS]

theorem returns_createUnprovenCallTxFromInitialStates (options : CallOptions PS)
    {wallet : WalletProvider} {key : JsString}
    (henc : parseEncPublicKeyToHex wallet.encryptionPublicKey = .ok key) :
    (createUnprovenCallTxFromInitialStates options wallet.coinPublicKey
      wallet.encryptionPublicKey).Returns fun d =>
        SealedByCall wallet key d.private.nextZswapLocalState d.private.unprovenTx.guaranteed := by
  refine Program.returns_bind (returns_sync fun _ h => h) fun _ haddress => ?_
  refine Program.returns_bind (Program.returns_true _) fun _ _ => ?_
  refine Program.returns_bind (Program.returns_true _) fun callResult _ => ?_
  refine Program.returns_bind (returns_sync fun _ h => h) fun encryptionPublicKey hkey => ?_
  obtain ⟨howner, hparse⟩ := encryptionPublicKeyForzswapState_ok hkey
  rw [henc, Except.ok.injEq] at hparse
  subst hparse
  have hvalid : ∀ t ∈ some (⟨options.contractAddress, options.initialZswapChainState⟩ :
      AddressAndChainState), assertIsContractAddress t.contractAddress = .ok () := by
    intro t ht
    cases ht
    exact haddress
  refine Program.returns_bind (φ := fun tx : UnprovenTransaction => SealedByCall wallet key
    callResult.private.nextZswapLocalState tx.guaranteed) ?_ fun tx htx => ?_
  · refine Program.returns_bind (Program.returns_true _) fun op _ => ?_
    refine Program.returns_bind (returns_sync fun _ h => h) fun offer hoffer => ?_
    refine Program.returns_bind (Program.returns_true _) fun rand _ => ?_
    exact ⟨key, hkey, builtWith hvalid hoffer, howner, (encryptedFor_iff key _ key).mpr (.inl rfl)⟩
  · exact Program.returns_bind (Program.returns_true _) fun coinPublicKey _ => htx

theorem returns_createUnprovenCallTx (providers : ContractProviders) (options : CallTxOptions PS)
    {key : JsString}
    (henc : parseEncPublicKeyToHex providers.walletProvider.encryptionPublicKey = .ok key) :
    (createUnprovenCallTx providers options).Returns fun d =>
      SealedByCall providers.walletProvider key d.private.nextZswapLocalState
        d.private.unprovenTx.guaranteed := by
  refine Program.returns_bind (Program.returns_true _) fun _ _ => ?_
  refine Program.returns_bind (Program.returns_true _) fun _ _ => ?_
  have hcall : ∀ callOptions : CallOptions PS, (createUnprovenCallTxFromInitialStates callOptions
      providers.walletProvider.coinPublicKey
      providers.walletProvider.encryptionPublicKey).Returns fun d =>
        SealedByCall providers.walletProvider key d.private.nextZswapLocalState
          d.private.unprovenTx.guaranteed :=
    fun callOptions => returns_createUnprovenCallTxFromInitialStates callOptions henc
  split
  · split
    · trivial
    · refine Program.returns_bind (Program.returns_true _) fun states _ => ?_
      refine Program.returns_bind (Program.returns_true _) fun coinPublicKey _ => ?_
      exact Program.returns_bind (Program.returns_true _) fun callOptions _ => hcall callOptions
  · refine Program.returns_bind (Program.returns_true _) fun states _ => ?_
    refine Program.returns_bind (Program.returns_true _) fun coinPublicKey _ => ?_
    exact Program.returns_bind (Program.returns_true _) fun callOptions _ => hcall callOptions

/-- The local state that the constructor of a deployment leaves. -/
def constructedZswapState (wallet : WalletProvider) (options : DeployTxOptions PS) :
    Except JsError ZswapLocalState := do
  let coinPublicKey ← parseCoinPublicKeyToHex wallet.coinPublicKey
  let constructed ← callContractConstructor
    (createContractConstructorOptions options coinPublicKey)
  return constructed.nextZswapLocalState

/-- The offer of a deployment is made with the encryption key as the wallet spells it. -/
theorem returns_createUnprovenDeployTx_offer (providers : ContractProviders)
    (options : DeployTxOptions PS) : (createUnprovenDeployTx providers options).Returns fun d =>
      constructedZswapState providers.walletProvider options = .ok d.private.initialZswapState ∧
        zswapStateToOffer d.private.initialZswapState providers.walletProvider.encryptionPublicKey
          none = .ok d.private.unprovenTx.guaranteed := by
  refine Program.returns_bind (Program.returns_true _) fun verifierKeys _ => ?_
  refine Program.returns_bind (returns_sync fun _ h => h) fun coinPublicKey hcoin => ?_
  refine Program.returns_bind (returns_sync fun _ h => h) fun constructed hconstructed => ?_
  have hstate : constructedZswapState providers.walletProvider options =
      .ok constructed.nextZswapLocalState := by
    rw [constructedZswapState, hcoin]
    change (callContractConstructor _ >>= _) = _
    rw [hconstructed]
    rfl
  refine Program.returns_bind (φ := fun res : ContractAddress × ContractState ×
    UnprovenTransaction => zswapStateToOffer constructed.nextZswapLocalState
      providers.walletProvider.encryptionPublicKey none = .ok res.2.2.guaranteed) ?_
    fun res hres => ⟨hstate, hres⟩
  refine Program.returns_bind (Program.returns_true _) fun withVerifierKeys _ => ?_
  refine Program.returns_bind (Program.returns_true _) fun address _ => ?_
  exact Program.returns_bind (returns_sync fun _ h => h) fun offer hoffer => hoffer

variable {σ : Type} {env : Env (Providers PS) σ} {s s' : σ} {tr : List (Event (Providers PS))}

/-- The run of a deployment whose calls are replied to. -/
theorem exec_createUnprovenDeployTx {providers : ContractProviders} {options : DeployTxOptions PS}
    {verifierKeys : List (CircuitId × VerifierKey)} {coinPublicKey : JsString}
    {constructed : ContractConstructorResult PS} {withVerifierKeys : ContractState}
    {address : ContractAddress} {offer : UnprovenOffer} {s₁ : σ}
    (hkeys : env (.getVerifierKeys (getImpureCircuitIds options.contract)) s (.ok verifierKeys) s₁)
    (hcoin : parseCoinPublicKeyToHex providers.walletProvider.coinPublicKey = .ok coinPublicKey)
    (hconstructed : callContractConstructor
      (createContractConstructorOptions options coinPublicKey) = .ok constructed)
    (hadd : addVerifierKeys verifierKeys constructed.nextContractState = .ok withVerifierKeys)
    (haddress : env (.newContractDeploy (addMaintenanceAuthority options.signingKey
      withVerifierKeys)) s₁ (.ok address) s')
    (hoffer : zswapStateToOffer constructed.nextZswapLocalState
      providers.walletProvider.encryptionPublicKey none = .ok offer) :
    ∃ tr d, Exec env (createUnprovenDeployTx providers options) s tr (.ok d) s' ∧
      d.private.initialZswapState = constructed.nextZswapLocalState ∧
      d.private.unprovenTx.guaranteed = offer := by
  let initialState := addMaintenanceAuthority options.signingKey withVerifierKeys
  let d : UnsubmittedDeployTxData PS :=
    ⟨⟨address, initialState⟩, ⟨options.signingKey, constructed.nextPrivateState,
      constructed.nextZswapLocalState, ⟨offer, none, [.deploy ⟨address, initialState⟩]⟩,
      zswapStateToNewCoins coinPublicKey constructed.nextZswapLocalState⟩⟩
  let tr : List (Event (Providers PS)) :=
    [⟨.getVerifierKeys (getImpureCircuitIds options.contract), .ok verifierKeys⟩,
      ⟨.newContractDeploy initialState, .ok address⟩]
  refine ⟨tr, d, .await hkeys ?_, rfl, rfl⟩
  change Exec env ((sync (parseCoinPublicKeyToHex _)).bind _) _ _ _ _
  rw [hcoin]
  change Exec env ((sync (callContractConstructor _)).bind _) _ _ _ _
  rw [hconstructed]
  change Exec env ((createUnprovenLedgerDeployTx _ _ _ _ _).bind _) _ _ _ _
  exact exec_bind.mpr (.inr ⟨_, s', [⟨.newContractDeploy initialState, .ok address⟩], [],
    exec_createUnprovenLedgerDeployTx hadd haddress hoffer, .resolve d s', rfl⟩)

/-- Every call that resolves is the wallet's own and encrypts for it. A deployment is built with the
key as the wallet spells it, which is right exactly if its constructor leaves the wallet's coin key,
and the wallet spells its encryption key in hex or nothing is sent to a user. -/
theorem output_encryption {providers : ContractProviders} {key : JsString}
    (henc : parseEncPublicKeyToHex providers.walletProvider.encryptionPublicKey = .ok key) :
    (∀ (options : CallTxOptions PS) (d : UnsubmittedCallTxData PS),
      Exec env (createUnprovenCallTx providers options) s tr (.ok d) s' →
        SealedByCall providers.walletProvider key d.private.nextZswapLocalState
          d.private.unprovenTx.guaranteed) ∧
    (∀ (options : DeployTxOptions PS) (d : UnsubmittedDeployTxData PS),
      Exec env (createUnprovenDeployTx providers options) s tr (.ok d) s' →
        ∃ st, constructedZswapState providers.walletProvider options = .ok st ∧
          BuiltWith providers.walletProvider.encryptionPublicKey st
            d.private.unprovenTx.guaranteed ∧
          (SealedFor providers.walletProvider key st
              (createdOutputs st providers.walletProvider.encryptionPublicKey) ↔
            WalletOwns providers.walletProvider st ∧
              (providers.walletProvider.encryptionPublicKey = key ∨ ¬ HasUserOutput st))) := by
  constructor
  · intro options d run
    exact run.returns (returns_createUnprovenCallTx providers options henc)
  · intro options d run
    obtain ⟨hstate, hoffer⟩ := run.returns (returns_createUnprovenDeployTx_offer providers options)
    have hbuilt := builtWith (fun t ht => absurd ht (Option.not_mem_none t)) hoffer
    have hsealed := encryptedFor_iff key d.private.initialZswapState
      providers.walletProvider.encryptionPublicKey
    refine ⟨_, hstate, hbuilt, ?_⟩
    constructor
    · exact fun h => ⟨h.owner, hsealed.mp h.sealed⟩
    · exact fun h => ⟨h.1, hsealed.mpr h.2⟩

end

/-! ## A wallet that spells its encryption key in Bech32m -/

namespace Bech32m

scoped instance : Runtime :=
  { Sample.instRuntime with
    decodeEncPublicKey := fun s => if s = js "mn_shield-epk1" then .ok [0xEE] else
      .error (.error (js "not a Bech32m string")) }

def reward : CoinInfo := ⟨⟨js "token", js "1", 5, coinKeys⟩, List.Perm.refl coinKeys⟩

/-- The constructor sends a coin to the user. -/
def rewarded : ZswapLocalState := ⟨js "aa", 0, [], [⟨reward, ⟨true, js "aa", []⟩⟩]⟩

def options : DeployTxOptions (Option ℕ) where
  contract := ⟨[], fun _ _ => .ok ⟨⟨(), [], ⟨[], 1, 0⟩⟩, none, rewarded⟩⟩
  args := none
  signingKey := js "1"
  initialPrivateState := none
  privateStateId := none

def replies (c : ProviderCall (Option ℕ)) : (Providers (Option ℕ)).Settled c :=
  match c with
  | .getVerifierKeys _ => .ok []
  | .newContractDeploy _ => .ok (js "00")
  | _ => .error (.error [])

def replyEnv : Env (Providers (Option ℕ)) Unit := fun c _ r _ => r = replies c

theorem deploys (epk : JsString) : ∃ tr d,
    Exec replyEnv (createUnprovenDeployTx ⟨true, js "aa", epk⟩ options) () tr (.ok d) () ∧
      d.private.initialZswapState = rewarded ∧
      zswapStateToOffer rewarded epk none = .ok d.private.unprovenTx.guaranteed := by
  obtain ⟨offer, hoffer⟩ : ∃ offer, zswapStateToOffer rewarded epk none = .ok offer :=
    offer_of_no_inputs epk rfl
  have hconstructed : callContractConstructor (createContractConstructorOptions options (js "aa")) =
      .ok ⟨⟨(), [], ⟨[], 1, 0⟩⟩, none, rewarded⟩ := rfl
  have hkeys : replyEnv (.getVerifierKeys []) () (.ok []) () := rfl
  have hrun : ∃ tr d, Exec replyEnv (createUnprovenDeployTx ⟨true, js "aa", epk⟩ options) () tr
      (.ok d) () ∧ d.private.initialZswapState = rewarded ∧
        d.private.unprovenTx.guaranteed = offer :=
    exec_createUnprovenDeployTx hkeys rfl hconstructed rfl rfl hoffer
  obtain ⟨tr, d, run, hstate, hd⟩ := hrun
  exact ⟨tr, d, run, hstate, hd ▸ hoffer⟩

theorem hasUserOutput_rewarded : HasUserOutput rewarded := ⟨_, List.mem_singleton_self _, rfl⟩

/-- With the key in hex the coin is encrypted for the wallet. -/
theorem output_encryption_hex : ∃ tr d,
    Exec replyEnv (createUnprovenDeployTx ⟨true, js "aa", js "ee"⟩ options) () tr (.ok d) () ∧
      BuiltWith (js "ee") rewarded d.private.unprovenTx.guaranteed ∧
      SealedFor ⟨js "aa", js "ee"⟩ (js "ee") rewarded (createdOutputs rewarded (js "ee")) := by
  obtain ⟨tr, d, run, -, -⟩ := deploys (js "ee")
  have henc : parseEncPublicKeyToHex (js "ee") = .ok (js "ee") := rfl
  obtain ⟨st, hst, hbuilt, hsealed⟩ := (output_encryption henc).2 options d run
  have hconstructed : constructedZswapState ⟨js "aa", js "ee"⟩ options = .ok rewarded := rfl
  rw [hconstructed, Except.ok.injEq] at hst
  subst hst
  exact ⟨tr, d, run, hbuilt, hsealed.mpr ⟨⟨js "aa", rfl, rfl⟩, .inl rfl⟩⟩

/-- With the same key in Bech32m the coin is encrypted for the text of the key. -/
theorem encrypted_for_text : ∃ tr d,
    Exec replyEnv (createUnprovenDeployTx ⟨true, js "aa", js "mn_shield-epk1"⟩ options) () tr
        (.ok d) () ∧
      parseEncPublicKeyToHex (js "mn_shield-epk1") = .ok (js "ee") ∧
      BuiltWith (js "mn_shield-epk1") rewarded d.private.unprovenTx.guaranteed ∧
      .new reward 0 (js "aa") (js "mn_shield-epk1") ∈ d.private.unprovenTx.guaranteed.allOutputs ∧
      ¬ SealedFor ⟨js "aa", js "mn_shield-epk1"⟩ (js "ee") rewarded
        (createdOutputs rewarded (js "mn_shield-epk1")) := by
  obtain ⟨tr, d, run, -, hoffer⟩ := deploys (js "mn_shield-epk1")
  have hbuilt : BuiltWith (js "mn_shield-epk1") rewarded d.private.unprovenTx.guaranteed :=
    builtWith (fun t ht => absurd ht (Option.not_mem_none t)) hoffer
  refine ⟨tr, d, run, rfl, hbuilt, ?_, fun h => ?_⟩
  · exact hbuilt.left.mem_iff.mpr (List.mem_singleton_self _)
  · have hne : js "mn_shield-epk1" ≠ js "ee" := by decide
    exact ((encryptedFor_iff _ _ _).mp h.sealed).elim hne fun h => h hasUserOutput_rewarded

end Bech32m

end MidnightJs
