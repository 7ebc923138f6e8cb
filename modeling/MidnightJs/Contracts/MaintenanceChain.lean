import MidnightJs.Contracts.Network
import MidnightJs.Contracts.SubmissionSessions

/-! # Maintenance updates and the chain

The chain keeps the state of each contract. A maintenance update is accepted if and only if it
carries the counter of the contract's authority and the authority's signatures. An accepted update
changes operations and authority, and raises the counter by one; nothing else changes them. -/

namespace MidnightJs
open Foundations Foundations.Js Foundations.Async
set_option autoImplicit false

variable [Runtime]

/-! ## The effect of an update on a contract -/

namespace ContractState

def counter (s : ContractState) : ℕ := s.maintenanceAuthority.counter

/-- The circuit has an operation with a verifier key. -/
def hasVerifierKey (s : ContractState) (circuitId : CircuitId) : Bool :=
  match s.operation circuitId with
  | some operation => !operation.verifierKey.isEmpty
  | none => false

def apply (s : ContractState) : SingleUpdate → ContractState
  | .replaceAuthority authority => { s with maintenanceAuthority := authority }
  | .verifierKeyRemove operation _ =>
    { s with operations := OrderedMap.delete s.operations operation }
  | .verifierKeyInsert operation _ vk => s.setOperation operation ⟨vk⟩

/-- The contract after an accepted update. -/
def maintained (s : ContractState) (update : MaintenanceUpdate) : ContractState :=
  let after := update.updates.foldl apply s
  { after with maintenanceAuthority := { after.maintenanceAuthority with counter := s.counter + 1 } }

@[simp] theorem counter_maintained (s : ContractState) (update : MaintenanceUpdate) :
    (s.maintained update).counter = s.counter + 1 := rfl

/-- If the circuit has an operation at all, it has a verifier key. -/
def Keyed (s : ContractState) (circuitId : CircuitId) : Prop :=
  ∀ operation, s.operation circuitId = some operation → operation.verifierKey ≠ []

theorem Keyed.hasVerifierKey {s : ContractState} {circuitId : CircuitId} (h : s.Keyed circuitId)
    (hop : (s.operation circuitId).isSome) : s.hasVerifierKey circuitId = true := by
  obtain ⟨operation, hop⟩ := Option.isSome_iff_exists.mp hop
  simp [ContractState.hasVerifierKey, hop, h operation hop]

/-- No single update but the insertion of an empty key leaves an operation without a key. -/
theorem Keyed.apply {s : ContractState} {circuitId : CircuitId} (h : s.Keyed circuitId)
    {u : SingleUpdate} (hu : ∀ version vk, u = .verifierKeyInsert circuitId version vk → vk ≠ []) :
    (s.apply u).Keyed circuitId := by
  intro operation hop
  cases u with
  | replaceAuthority authority => exact h operation hop
  | verifierKeyRemove circuitId' version =>
    have hdelete := OrderedMap.get_delete s.operations circuitId' circuitId
    rw [show OrderedMap.get (OrderedMap.delete s.operations circuitId') circuitId = some operation
      from hop] at hdelete
    split at hdelete
    · cases hdelete
    · exact h operation hdelete.symm
  | verifierKeyInsert circuitId' version vk =>
    have hset := OrderedMap.get_set s.operations circuitId' circuitId ⟨vk⟩
    rw [show OrderedMap.get (OrderedMap.set s.operations circuitId' ⟨vk⟩) circuitId =
      some operation from hop] at hset
    split at hset
    · next heq =>
      cases hset
      exact hu version vk (by rw [heq])
    · exact h operation hset.symm

/-- The parts that only a maintenance update changes agree. -/
def SameRules (s s' : ContractState) : Prop :=
  s.operations = s'.operations ∧ s.maintenanceAuthority = s'.maintenanceAuthority

theorem SameRules.operation_eq {s s' : ContractState} (h : s.SameRules s') (circuitId : CircuitId) :
    s.operation circuitId = s'.operation circuitId := by
  unfold operation
  rw [h.1]

theorem SameRules.counter_eq {s s' : ContractState} (h : s.SameRules s') :
    s.counter = s'.counter := by
  unfold counter
  rw [h.2]

end ContractState

/-! ## The operations that maintain a contract -/

inductive MaintenanceOp
  | insertVerifierKey (contractAddress : ContractAddress) (circuitId : CircuitId)
      (newVk : VerifierKey)
  | removeVerifierKey (contractAddress : ContractAddress) (circuitId : CircuitId)
  | replaceAuthority (contractAddress : ContractAddress) (newAuthority : SigningKey)

namespace MaintenanceOp

def address : MaintenanceOp → ContractAddress
  | .insertVerifierKey a _ _ | .removeVerifierKey a _ | .replaceAuthority a _ => a

def program {PS : Type} : MaintenanceOp → Promise PS FinalizedTxData
  | .insertVerifierKey a circuitId newVk => submitInsertVerifierKeyTx a circuitId newVk
  | .removeVerifierKey a circuitId => submitRemoveVerifierKeyTx a circuitId
  | .replaceAuthority a newAuthority => submitReplaceAuthorityTx a newAuthority

/-- What the operation requires of the contract state it reads. -/
def Admits : MaintenanceOp → ContractState → Prop
  | .insertVerifierKey _ circuitId _, contractState => contractState.operation circuitId = none
  | .removeVerifierKey _ circuitId, contractState => (contractState.operation circuitId).isSome
  | .replaceAuthority _ _, _ => True

def update (contractState : ContractState) : MaintenanceOp → SingleUpdate
  | .insertVerifierKey _ circuitId newVk => MidnightJs.insertVerifierKey circuitId newVk
  | .removeVerifierKey _ circuitId => MidnightJs.removeVerifierKey circuitId
  | .replaceAuthority _ newAuthority => MidnightJs.replaceAuthority newAuthority contractState

/-- The update that the operation makes of the contract state and the key it reads. -/
def signed (op : MaintenanceOp) (contractState : ContractState) (sk : SigningKey) :
    MaintenanceUpdate :=
  let update := MaintenanceUpdate.new op.address [op.update contractState] contractState.counter
  update.addSignature 0 (signData sk update.dataToSign)

/-- The assertion of the operation on the contract state. -/
def check : MaintenanceOp → ContractState → Except JsError Unit
  | .insertVerifierKey a circuitId _, contractState =>
    assertUndefined (contractState.operation circuitId)
      (js "Circuit '" ++ circuitId ++ js "' is already defined for contract at address '" ++ a ++
        js "'")
  | .removeVerifierKey a circuitId, contractState =>
    (assertDefined (contractState.operation circuitId)
      (js "Circuit '" ++ circuitId ++ js "' not found for contract at address '" ++ a ++
        js "'")).map fun _ => ()
  | .replaceAuthority _ _, _ => .ok ()

theorem admits_of_check {op : MaintenanceOp} {contractState : ContractState}
    (h : op.check contractState = .ok ()) : op.Admits contractState := by
  cases op with
  | insertVerifierKey a circuitId newVk =>
    cases hop : contractState.operation circuitId with
    | none => exact hop
    | some operation =>
      simp only [check, hop] at h
      cases h
  | removeVerifierKey a circuitId =>
    cases hop : contractState.operation circuitId with
    | none =>
      simp only [check, hop] at h
      cases h
    | some operation => simp [Admits, hop]
  | replaceAuthority a newAuthority => trivial

theorem Admits.congr {op : MaintenanceOp} {s s' : ContractState} (h : op.Admits s)
    (hs : s.SameRules s') : op.Admits s' := by
  cases op with
  | insertVerifierKey a circuitId newVk => exact (hs.operation_eq circuitId).symm.trans h
  | removeVerifierKey a circuitId =>
    have hop : (s.operation circuitId).isSome := h
    rwa [hs.operation_eq] at hop
  | replaceAuthority a newAuthority => trivial

theorem update_congr (op : MaintenanceOp) {s s' : ContractState} (hs : s.SameRules s') :
    op.update s = op.update s' := by
  cases op with
  | insertVerifierKey a circuitId newVk => rfl
  | removeVerifierKey a circuitId => rfl
  | replaceAuthority a newAuthority =>
    simp only [update, MidnightJs.replaceAuthority, contractMaintenanceAuthority, hs.2]

def tx (op : MaintenanceOp) (contractState : ContractState) (sk : SigningKey) :
    UnprovenTransaction :=
  unprovenTxFromContractUpdates op.address [op.update contractState] contractState sk

theorem contracts_tx (op : MaintenanceOp) (contractState : ContractState) (sk : SigningKey) :
    (op.tx contractState sk).contracts = [.maintenanceUpdate (op.signed contractState sk)] := rfl

def failed : MaintenanceOp → FinalizedTxData → ContractsError
  | .insertVerifierKey _ _ _ => .insertVerifierKeyTxFailed
  | .removeVerifierKey _ _ => .removeVerifierKeyTxFailed
  | .replaceAuthority _ _ => .replaceMaintenanceAuthorityTxFailed

/-- What the operation stores once its transaction has succeeded. -/
def write {PS : Type} : MaintenanceOp → Promise PS Unit
  | .replaceAuthority a newAuthority => provide (.setSigningKey a newAuthority)
  | _ => .resolve ()

theorem program_eq {PS : Type} (op : MaintenanceOp) :
    (op.program : Promise PS _) = transact (maintenanceBuild op.address op.check op.tx)
      (fun tx => ⟨tx, none, none⟩) op.failed (fun _ => op.write) (fun _ data => data) := by
  cases op with
  | insertVerifierKey a circuitId newVk => exact submitInsertVerifierKeyTx_eq a circuitId newVk
  | removeVerifierKey a circuitId => exact submitRemoveVerifierKeyTx_eq a circuitId
  | replaceAuthority a newAuthority => exact submitReplaceAuthorityTx_eq a newAuthority

end MaintenanceOp

/-! ## The chain -/

/-- An accepted update, with the contract it was applied to. -/
structure AcceptedUpdate where
  txId : TransactionId
  update : MaintenanceUpdate
  before : ContractState

/-- The contracts, the transactions sent to the node, their final statuses, and the updates the node
has accepted so far. -/
structure ContractChain where
  contracts : ContractAddress → Option ContractState
  submitted : TransactionId → Option BalancedTransaction
  statuses : TransactionId → Option TxStatus
  accepted : List AcceptedUpdate

namespace ContractChain

def submit (n : ContractChain) (txId : TransactionId) (tx : BalancedTransaction) : ContractChain :=
  { n with submitted := Function.update n.submitted txId (some tx) }

def settle (n : ContractChain) (txId : TransactionId) (status : TxStatus) : ContractChain :=
  { n with statuses := Function.update n.statuses txId (some status) }

def install (n : ContractChain) (a : ContractAddress) (s : ContractState) : ContractChain :=
  { n with contracts := Function.update n.contracts a (some s) }

/-- The node applies a maintenance update to the contract `before`. -/
def accept (n : ContractChain) (txId : TransactionId) (update : MaintenanceUpdate)
    (before : ContractState) : ContractChain :=
  { (n.install update.address (before.maintained update)).settle txId .SucceedEntirely with
    accepted := n.accepted ++ [⟨txId, update, before⟩] }

/-- The update is one that the node accepts. -/
def Accepts (n : ContractChain) (update : MaintenanceUpdate) : Prop :=
  ∃ s, n.contracts update.address = some s ∧ s.maintenanceAuthority.Accepts update

/-- The steps of the node: it decides on a waiting maintenance update, or a call changes the data of
a contract. -/
inductive Steps (n : ContractChain) : ContractChain → Prop
  | accept {txId : TransactionId} {tx : BalancedTransaction} {update : MaintenanceUpdate}
      {before : ContractState} (submitted : n.submitted txId = some tx)
      (waits : n.statuses txId = none) (contracts : tx.contracts = [.maintenanceUpdate update])
      (contract : n.contracts update.address = some before)
      (accepts : before.maintenanceAuthority.Accepts update) :
      Steps n (n.accept txId update before)
  | refuse {txId : TransactionId} {tx : BalancedTransaction} {update : MaintenanceUpdate}
      {status : TxStatus} (submitted : n.submitted txId = some tx)
      (waits : n.statuses txId = none) (contracts : tx.contracts = [.maintenanceUpdate update])
      (refuses : ¬ n.Accepts update) (refused : status ≠ .SucceedEntirely) :
      Steps n (n.settle txId status)
  | call {a : ContractAddress} {s : ContractState} (contract : n.contracts a = some s)
      (data : StateValue) : Steps n (n.install a { s with data := data })

end ContractChain

end MidnightJs
