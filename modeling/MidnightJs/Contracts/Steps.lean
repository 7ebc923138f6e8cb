import MidnightJs.Contracts.PrivateStore

/-! # Which calls the parts of an operation make

`Prepares allowed also p`: the program `p` makes only allowed calls, and rejects only because one of
them was rejected, because of an assertion, or with an error in `also`. There is one lemma for each
part of the operations, with the calls of that part. -/

namespace MidnightJs
open Foundations Foundations.Js Foundations.Async
set_option autoImplicit false

variable [Runtime] {PS : Type}

/-- The errors thrown by assertions and helpers, but for the one on a stored private state. -/
def ContractsError.IsAssertion : ContractsError → Prop
  | .thrown _ | .contractType _ _ | .incompleteCallTxPrivateStateConfig
  | .incompleteFindContractPrivateStateConfig => True
  | _ => False

def ContractsError.IsNoPrivateState : ContractsError → Prop
  | .noPrivateState _ => True
  | _ => False

namespace ProviderCall

/-- The calls of `submitTx`. -/
def Submits : ProviderCall PS → Prop
  | .getZkConfig _ | .proveTx _ _ | .balanceTx _ _ | .submitTx _ | .watchForTxData _ => True
  | _ => False

/-- The calls that execute a circuit on the private state `v` and build its transaction. -/
def ExecutesOn (v : PS) : ProviderCall PS → Prop
  | .dateNow | .communicationCommitmentRandomness => True
  | .runCircuit _ context _ => context.currentPrivateState = v
  | _ => False

/-- The calls that build the transaction of a call. -/
def BuildsCall : ProviderCall PS → Prop
  | .queryZSwapAndContractState _ | .get _ | .dateNow | .communicationCommitmentRandomness
  | .runCircuit _ _ _ => True
  | _ => False

/-- The calls that build the transaction of a deployment. -/
def Deploys : ProviderCall PS → Prop
  | .getVerifierKeys _ | .newContractDeploy _ => True
  | _ => False

/-- The calls that come before a transaction is watched: they write nothing. -/
def IsPreparation : ProviderCall PS → Prop
  | .set _ _ | .setSigningKey _ _ | .watchForTxData _ => False
  | _ => True

end ProviderCall

/-- No error but those of rejected calls and of assertions. -/
abbrev NoOther : ContractsError → Prop := fun _ => False

structure Prepares {α : Type} (allowed : ProviderCall PS → Prop) (also : ContractsError → Prop)
    (p : Promise PS α) : Prop where
  uses : p.Uses allowed
  propagates : p.Propagates .rejected fun e => e.IsAssertion ∨ also e

namespace Prepares

variable {α β : Type} {allowed allowed' : ProviderCall PS → Prop} {also : ContractsError → Prop}

theorem resolve (a : α) : Prepares allowed also (.resolve a : Promise PS α) := ⟨trivial, trivial⟩

theorem reject {e : ContractsError} (h : e.IsAssertion) :
    Prepares allowed also (.reject e : Promise PS α) := ⟨trivial, .inl h⟩

theorem reject_also {e : ContractsError} (h : also e) :
    Prepares allowed also (.reject e : Promise PS α) := ⟨trivial, .inr h⟩

theorem sync (x : Except JsError α) : Prepares allowed also (MidnightJs.sync x : Promise PS α) := by
  refine ⟨Program.uses_ofExcept _, Program.propagates_ofExcept fun e he => ?_⟩
  cases x with
  | ok a => cases he
  | error e' =>
    cases he
    exact .inl trivial

theorem definedPrivateState [Truthy PS] (id : PrivateStateId) (stored : Option PS) :
    Prepares allowed ContractsError.IsNoPrivateState
      (MidnightJs.definedPrivateState id stored) := by
  refine ⟨Program.uses_ofExcept _, Program.propagates_ofExcept fun e he => ?_⟩
  generalize assertDefined stored _ = x at he
  cases x with
  | ok a => cases he
  | error e' =>
    cases he
    exact .inr trivial

theorem provide {c : ProviderCall PS} (h : allowed c) : Prepares allowed also (MidnightJs.provide c) :=
  ⟨Program.uses_call (E := Providers PS) h, Program.propagates_call (E := Providers PS) c⟩

theorem bind {p : Promise PS α} {f : α → Promise PS β} (hp : Prepares allowed also p)
    (hf : ∀ a, Prepares allowed also (f a)) : Prepares allowed also (p >>= f) :=
  ⟨Program.uses_bind hp.uses fun a => (hf a).uses,
    Program.propagates_bind hp.propagates fun a => (hf a).propagates⟩

theorem mono {p : Promise PS α} (hp : Prepares allowed also p) (h : ∀ c, allowed c → allowed' c) :
    Prepares allowed' also p :=
  ⟨hp.uses.mono h, hp.propagates⟩

end Prepares

/-! ## The parts of a call -/

variable (also : ContractsError → Prop)

theorem prepares_getPublicStates (a : ContractAddress) :
    Prepares (· = .queryZSwapAndContractState a) also (getPublicStates a : Promise PS _) := by
  refine .bind (.sync _) fun _ => .bind (.provide rfl) fun reply => ?_
  cases reply with
  | none => exact .sync _
  | some states => exact .resolve _

variable [Undefined PS]

theorem prepares_getStates (a : ContractAddress) (id : PrivateStateId) :
    Prepares (fun c => c = .queryZSwapAndContractState a ∨ c = .get id)
      ContractsError.IsNoPrivateState (getStates a id : Promise PS _) := by
  refine .bind ((prepares_getPublicStates _ a).mono fun _ h => .inl h) fun _ => ?_
  refine .bind (.provide (.inr rfl)) fun _ => ?_
  exact .bind (.definedPrivateState _ _) fun _ => .resolve _

theorem prepares_call (options : CallOptions PS) :
    Prepares (ProviderCall.ExecutesOn (options.initialPrivateState.getD undefined)) also
      (call options) := by
  refine .bind (.sync _) fun _ => .bind (.provide trivial) fun _ => .bind (.sync _) fun _ => ?_
  exact .bind (.provide rfl) fun _ => .bind (.sync _) fun _ => .resolve _

omit [Undefined PS] in
theorem prepares_createUnprovenLedgerCallTx (v : PS) (circuitId : CircuitId) (a : ContractAddress)
    (contractState : ContractState) (chainState : ZswapChainState) (transcript : PartitionedTranscript)
    (outputs : List AlignedValue) (input output : AlignedValue) (zswapState : ZswapLocalState)
    (epk : JsString) :
    Prepares (ProviderCall.ExecutesOn v) also (createUnprovenLedgerCallTx circuitId a
      contractState chainState transcript outputs input output zswapState epk) :=
  .bind (.sync _) fun _ => .bind (.sync _) fun _ => .bind (.provide trivial) fun _ => .resolve _

theorem prepares_createUnprovenCallTxFromInitialStates (options : CallOptions PS)
    (cpk epk : JsString) :
    Prepares (ProviderCall.ExecutesOn (options.initialPrivateState.getD undefined)) also
      (createUnprovenCallTxFromInitialStates options cpk epk) := by
  refine .bind (.sync _) fun _ => .bind (.sync _) fun _ => ?_
  refine .bind (prepares_call _ options) fun _ => .bind (.sync _) fun _ => ?_
  refine .bind (prepares_createUnprovenLedgerCallTx _ _ _ _ _ _ _ _ _ _ _ _) fun _ => ?_
  exact .bind (.sync _) fun _ => .resolve _

omit [Undefined PS] in
theorem ProviderCall.ExecutesOn.buildsCall {v : PS} {c : ProviderCall PS}
    (h : c.ExecutesOn v) : c.BuildsCall := by
  cases c <;> trivial

omit [Undefined PS] in
theorem ProviderCall.BuildsCall.isPreparation {c : ProviderCall PS} (h : c.BuildsCall) :
    c.IsPreparation := by
  cases c <;> trivial

theorem prepares_createUnprovenCallTx (providers : ContractProviders) (options : CallTxOptions PS) :
    Prepares ProviderCall.BuildsCall ContractsError.IsNoPrivateState
      (createUnprovenCallTx providers options) := by
  refine .bind (.sync _) fun _ => .bind (.sync _) fun _ => ?_
  have hcall : ∀ callOptions : CallOptions PS,
      Prepares ProviderCall.BuildsCall ContractsError.IsNoPrivateState
      (createUnprovenCallTxFromInitialStates callOptions providers.walletProvider.coinPublicKey
        providers.walletProvider.encryptionPublicKey) := fun callOptions =>
    (prepares_createUnprovenCallTxFromInitialStates _ callOptions _ _).mono fun _ h => h.buildsCall
  split
  · next id _ =>
    split
    · exact .reject trivial
    · refine .bind ((prepares_getStates _ _).mono ?_) fun _ => ?_
      · rintro c (rfl | rfl) <;> trivial
      · exact .bind (.sync _) fun _ => .bind (.sync _) fun _ => hcall _
  · refine .bind ((prepares_getPublicStates _ _).mono ?_) fun _ => ?_
    · rintro c rfl
      trivial
    · exact .bind (.sync _) fun _ => .bind (.sync _) fun _ => hcall _

/-! ## The parts of a deployment -/

omit [Undefined PS] in
theorem prepares_createUnprovenLedgerDeployTx (verifierKeys : List (CircuitId × VerifierKey))
    (sk : SigningKey) (contractState : ContractState) (zswapState : ZswapLocalState)
    (epk : JsString) :
    Prepares ProviderCall.Deploys also
      (createUnprovenLedgerDeployTx verifierKeys sk contractState zswapState epk : Promise PS _) :=
  .bind (.sync _) fun _ => .bind (.provide trivial) fun _ => .bind (.sync _) fun _ => .resolve _

theorem prepares_createUnprovenDeployTx (providers : ContractProviders)
    (options : DeployTxOptions PS) :
    Prepares ProviderCall.Deploys also (createUnprovenDeployTx providers options) := by
  refine .bind (.provide trivial) fun _ => .bind (.sync _) fun _ => .bind (.sync _) fun _ => ?_
  exact .bind (prepares_createUnprovenLedgerDeployTx _ _ _ _ _ _) fun _ => .resolve _

omit [Undefined PS] in
theorem ProviderCall.Deploys.isPreparation {c : ProviderCall PS} (h : c.Deploys) :
    c.IsPreparation := by
  cases c <;> trivial

/-! ## Submission -/

omit [Undefined PS] in
theorem prepares_zkConfigOf (circuitId : Option CircuitId) :
    Prepares ProviderCall.Submits also (zkConfigOf circuitId : Promise PS _) := by
  cases circuitId with
  | none => exact .resolve _
  | some circuitId =>
    simp only [zkConfigOf]
    split
    · refine .bind (.provide ?_) fun _ => .resolve _
      trivial
    · exact .resolve _

omit [Undefined PS] in
theorem prepares_submitTx (options : SubmitTxOptions) :
    Prepares ProviderCall.Submits also (submitTx options : Promise PS _) := by
  refine .bind (prepares_zkConfigOf _ _) fun _ => .bind (.provide trivial) fun _ => ?_
  exact .bind (.provide trivial) fun _ => .bind (.provide trivial) fun _ => .provide trivial

end MidnightJs
