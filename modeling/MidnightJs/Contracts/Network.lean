import MidnightJs.Contracts.PrivateStore

/-! # The network, as maintenance updates see it

The chain keeps a maintenance authority for each contract. A submitted transaction waits until the
node applies it: a maintenance update is accepted if and only if it carries the counter of the
authority and the authority's signatures. A transaction can be watched once it was applied. No
operation of a provider fails. -/

namespace MidnightJs
open Foundations Foundations.Js Foundations.Async
set_option autoImplicit false

section Environment

variable [Runtime]

/-- The authorities on the chain, the transactions sent to it, and the stored signing keys. -/
structure Network where
  authorities : ContractAddress → Option ContractMaintenanceAuthority
  submitted : TransactionId → Option BalancedTransaction
  statuses : TransactionId → Option TxStatus
  signingKeys : ContractAddress → Option SigningKey

/-! ## The node -/

namespace ContractMaintenanceAuthority

/-- The signature was made by the member of the committee it names. -/
def signedBy (authority : ContractMaintenanceAuthority) (data : MaintenanceData)
    (signature : ℕ × Signature) : Bool :=
  match authority.committee[signature.1]? with
  | some vk => verifySignature vk data signature.2
  | none => false

def Accepts (authority : ContractMaintenanceAuthority) (update : MaintenanceUpdate) : Prop :=
  update.counter = authority.counter ∧
    authority.threshold ≤ (update.signatures.filter (authority.signedBy update.dataToSign)).length

instance (authority : ContractMaintenanceAuthority) (update : MaintenanceUpdate) :
    Decidable (authority.Accepts update) :=
  inferInstanceAs (Decidable (_ ∧ _))

omit [Runtime] in
/-- The authority after the updates. -/
def replacedBy (authority : ContractMaintenanceAuthority) (updates : List SingleUpdate) :
    ContractMaintenanceAuthority :=
  updates.foldl (fun authority update =>
    match update with
    | .replaceAuthority authority => authority
    | _ => authority) authority

end ContractMaintenanceAuthority

namespace Network

def settle (n : Network) (txId : TransactionId) (status : TxStatus) : Network :=
  { n with statuses := Function.update n.statuses txId (some status) }

def install (n : Network) (address : ContractAddress) (authority : ContractMaintenanceAuthority) :
    Network :=
  { n with authorities := Function.update n.authorities address (some authority) }

/-- The node applies a maintenance update. -/
def applyUpdate (n : Network) (txId : TransactionId) (update : MaintenanceUpdate)
    (refusal : TxStatus) : Network :=
  match n.authorities update.address with
  | some authority =>
    if authority.Accepts update then
      (n.install update.address (authority.replacedBy update.updates)).settle txId .SucceedEntirely
    else n.settle txId refusal
  | none => n.settle txId refusal

/-- The node applies a submitted transaction that it has not yet applied. -/
inductive Applies (n : Network) : Network → Prop
  | maintenance {txId : TransactionId} {tx : BalancedTransaction} {update : MaintenanceUpdate}
      {refusal : TxStatus} (submitted : n.submitted txId = some tx) (waits : n.statuses txId = none)
      (contracts : tx.contracts = [.maintenanceUpdate update])
      (refused : refusal ≠ .SucceedEntirely) : Applies n (n.applyUpdate txId update refusal)

end Network

/-! ## The providers -/

variable {PS : Type}

/-- Proving and balancing keep the contract part of a transaction, and a transaction gets an id that
no other one has. -/
def networkEnv : Env (Providers PS) Network := fun c n r n' =>
  match r with
  | .error _ => False
  | .ok reply =>
    match c with
    | .queryContractState address =>
      reply.map ContractState.maintenanceAuthority = n.authorities address ∧ n' = n
    | .getSigningKey address => reply = n.signingKeys address ∧ n' = n
    | .setSigningKey address signingKey =>
      n' = { n with signingKeys := Function.update n.signingKeys address (some signingKey) }
    | .proveTx tx _ => reply.contracts = tx.contracts ∧ n' = n
    | .balanceTx tx _ => reply.contracts = tx.contracts ∧ n' = n
    | .submitTx tx => n.submitted reply = none ∧
      n' = { n with submitted := Function.update n.submitted reply (some tx) }
    | .watchForTxData txId => n.statuses txId = some reply.status ∧ n' = n
    | _ => n' = n

end Environment

/-! ## A network on concrete inputs -/

namespace Sample

/-- The key 0 is stored and owns the contract. -/
def network : Network where
  authorities _ := some ⟨[key 0], 1, 0⟩
  submitted _ := none
  statuses _ := none
  signingKeys _ := some (key 0)

def txIds : List TransactionId := [js "a", js "b"]

def networkHandler (c : ProviderCall (Option ℕ)) (n : Network) :
    Option ((Providers (Option ℕ)).Settled c × Network) :=
  match c with
  | .queryContractState a => some (.ok ((n.authorities a).map fun authority =>
      { state [] with maintenanceAuthority := authority }), n)
  | .getSigningKey a => some (.ok (n.signingKeys a), n)
  | .setSigningKey a k =>
    some (.ok (), { n with signingKeys := Function.update n.signingKeys a (some k) })
  | .proveTx tx _ => some (.ok ⟨tx.contracts⟩, n)
  | .balanceTx tx _ => some (.ok ⟨tx.contracts⟩, n)
  | .submitTx tx => (txIds.find? fun txId => (n.submitted txId).isNone).map fun txId =>
      (.ok txId, { n with submitted := Function.update n.submitted txId (some tx) })
  | .watchForTxData txId => (n.statuses txId).map fun status => (.ok (finalized status), n)
  | _ => none

/-- The node applies the first transaction that waits. -/
def nodeStep (n : Network) : Option Network :=
  txIds.findSome? fun txId =>
    match n.submitted txId, n.statuses txId with
    | some ⟨[.maintenanceUpdate update]⟩, none => some (n.applyUpdate txId update .FailEntirely)
    | _, _ => none

theorem networkEnv_networkHandler (c : ProviderCall (Option ℕ)) (n : Network)
    (r : (Providers (Option ℕ)).Settled c) (n' : Network)
    (h : networkHandler c n = some (r, n')) : networkEnv c n r n' := by
  cases c with
  | queryContractState a =>
    cases h
    exact ⟨by simp [Function.comp_def], rfl⟩
  | getSigningKey a =>
    cases h
    exact ⟨rfl, rfl⟩
  | setSigningKey a k =>
    cases h
    exact rfl
  | proveTx tx zkConfig =>
    cases h
    exact ⟨rfl, rfl⟩
  | balanceTx tx newCoins =>
    cases h
    exact ⟨rfl, rfl⟩
  | submitTx tx =>
    obtain ⟨txId, hfind, heq⟩ := Option.map_eq_some_iff.mp h
    cases heq
    exact ⟨by simpa using List.find?_some hfind, rfl⟩
  | watchForTxData txId =>
    obtain ⟨status, hstatus, heq⟩ := Option.map_eq_some_iff.mp h
    cases heq
    exact ⟨hstatus, rfl⟩
  | _ => cases h

theorem applies_nodeStep {n n' : Network} (h : nodeStep n = some n') : n.Applies n' := by
  obtain ⟨txId, _, htx⟩ := List.exists_of_findSome?_eq_some h
  split at htx
  · next update hsubmitted hwaits =>
    cases htx
    exact .maintenance hsubmitted hwaits rfl (by decide)
  · cases htx

end Sample

end MidnightJs
