import MidnightJs.Contracts.AuthorityReplacement
import MidnightJs.Contracts.MaintenanceChain

/-! # Maintaining contracts concurrently

Any number of insertions, removals and replacements, of one or several clients. Each reads a
contract state, checks it, signs an update with the counter of that state and hands it to the node.
The counter on the chain only rises, and while it stays the same so do operations and authority:
an update that is accepted later was made of the operations and the authority it is applied to. -/

namespace MidnightJs
open Foundations Foundations.Js Foundations.Async
set_option autoImplicit false

section Parties

variable [Runtime] {PS : Type}

/-! ## A maintenance operation as a party of a protocol -/

/-- How far an operation is. -/
inductive MaintenancePhase
  | start
  | queried (contractState : ContractState)
  | sending (contractState : ContractState) (contracts : List ContractsEntry)
  | ended (contractState : Option ContractState)

namespace MaintenancePhase

/-- The contract state that the operation has read. -/
def read : MaintenancePhase → Option ContractState
  | start => none
  | queried contractState | sending contractState _ => some contractState
  | ended contractState => contractState

def Allows (op : MaintenanceOp) : MaintenancePhase → ProviderCall PS → Prop
  | start, .queryContractState a => a = op.address
  | queried contractState, .getSigningKey _ => op.check contractState = .ok ()
  | sending _ contracts, .proveTx tx _ => tx.contracts = contracts
  | sending _ contracts, .balanceTx tx _ => tx.contracts = contracts
  | sending _ contracts, .submitTx tx => tx.contracts = contracts
  | ended _, .watchForTxData _ => True
  | ended _, .setSigningKey _ _ => True
  | _, _ => False

def next (op : MaintenanceOp) : MaintenancePhase → Event (Providers PS) → MaintenancePhase
  | start, ⟨.queryContractState _, .ok (some contractState)⟩ => queried contractState
  | queried contractState, ⟨.getSigningKey _, .ok (some sk)⟩ =>
    sending contractState [.maintenanceUpdate (op.signed contractState sk)]
  | sending contractState _, ⟨.proveTx _ _, .ok tx⟩ => sending contractState tx.contracts
  | sending contractState _, ⟨.balanceTx _ _, .ok tx⟩ => sending contractState tx.contracts
  | phase, _ => ended phase.read

end MaintenancePhase

def maintenanceProtocol (op : MaintenanceOp) : Protocol (Providers PS) MaintenancePhase where
  allowed := MaintenancePhase.Allows op
  next := MaintenancePhase.next op

/-- An operation makes its moves in this order, whatever is replied. -/
theorem follows_maintenanceOp (op : MaintenanceOp) :
    (op.program : Promise PS _).Follows (maintenanceProtocol op) (fun _ _ => True) .start := by
  rw [op.program_eq]
  simp only [transact, maintenanceBuild, Program.bind_eq, Program.bind_assoc, Program.pure_eq,
    Program.resolve_bind]
  refine follows_sync_bind (fun _ => trivial) fun _ _ => ?_
  refine Program.follows_call_bind (E := Providers PS) rfl (fun _ => trivial) fun reply => ?_
  refine follows_sync_bind (fun _ => trivial) fun contractState hstate => ?_
  obtain ⟨rfl, _⟩ := assertDefined_eq_ok.mp hstate
  refine follows_sync_bind (fun _ => trivial) fun _ hcheck => ?_
  refine Program.follows_call_bind (E := Providers PS) hcheck (fun _ => trivial) fun reply => ?_
  refine follows_sync_bind (fun _ => trivial) fun sk hsk => ?_
  obtain ⟨rfl, _⟩ := assertDefined_eq_ok.mp hsk
  simp only [submitTx, zkConfigOf, Program.bind_eq, Program.bind_assoc, Program.pure_eq,
    Program.resolve_bind]
  refine Program.follows_call_bind (E := Providers PS) ?_ (fun _ => trivial) fun unbalanced => ?_
  · exact op.contracts_tx contractState sk
  refine Program.follows_call_bind (E := Providers PS) rfl (fun _ => trivial) fun balanced => ?_
  refine Program.follows_call_bind (E := Providers PS) rfl (fun _ => trivial) fun txId => ?_
  refine Program.follows_call_bind (E := Providers PS) trivial (fun _ => trivial) fun data => ?_
  split
  · trivial
  · cases op with
    | replaceAuthority a newAuthority =>
      exact Program.follows_call_bind (E := Providers PS) trivial (fun _ => trivial) fun _ => trivial
    | insertVerifierKey a circuitId newVk => trivial
    | removeVerifierKey a circuitId => trivial

/-! ## The providers -/

/-- Any call may be rejected, the submission of a transaction also after the node got it. Proving and
balancing keep the contract part of a transaction, and a transaction gets an id that no other one
has. A stored key may be any, since every client has a store of its own. -/
def chainEnv : Env (Providers PS) ContractChain := fun c n r n' =>
  match r with
  | .error _ =>
    match c with
    | .submitTx tx => n' = n ∨ ∃ txId, n.submitted txId = none ∧ n' = n.submit txId tx
    | _ => n' = n
  | .ok reply =>
    match c with
    | .queryContractState a => reply = n.contracts a ∧ n' = n
    | .proveTx tx _ => reply.contracts = tx.contracts ∧ n' = n
    | .balanceTx tx _ => reply.contracts = tx.contracts ∧ n' = n
    | .submitTx tx => n.submitted reply = none ∧ n' = n.submit reply tx
    | .watchForTxData txId => n.statuses txId = some reply.status ∧ n' = n
    | _ => n' = n

/-! ## The invariant -/

variable {ι : Type} {op : ι → MaintenanceOp} {tr : List (ι × Event (Providers PS))}
  {phase : ι → MaintenancePhase} {n n' : ContractChain}

/-- The contract has the operations and the authority of a state read earlier, unless its counter has
risen since. -/
def Fresh (n : ContractChain) (a : ContractAddress) (contractState : ContractState) : Prop :=
  ∃ s, n.contracts a = some s ∧ contractState.counter ≤ s.counter ∧
    (contractState.counter = s.counter → contractState.SameRules s)

/-- The operation `i` read the contract state, found it as required, and handed the update to the
node. -/
structure HandedIn (op : ι → MaintenanceOp) (tr : List (ι × Event (Providers PS)))
    (phase : ι → MaintenancePhase) (update : MaintenanceUpdate) (i : ι)
    (contractState : ContractState) : Prop where
  submitted : ∃ tx r, (i, ⟨.submitTx tx, r⟩) ∈ tr ∧ tx.contracts = [.maintenanceUpdate update]
  read : (phase i).read = some contractState
  checked : (op i).check contractState = .ok ()
  signed : ∃ sk, update = (op i).signed contractState sk

structure OptimisticallyMaintained (op : ι → MaintenanceOp) (tr : List (ι × Event (Providers PS)))
    (phase : ι → MaintenancePhase) (n : ContractChain) : Prop where
  queried : ∀ i a contractState, (i, ⟨.queryContractState a, .ok (some contractState)⟩) ∈ tr →
    a = (op i).address ∧ (phase i).read = some contractState
  read : ∀ i contractState, (phase i).read = some contractState →
    (i, ⟨.queryContractState (op i).address, .ok (some contractState)⟩) ∈ tr ∧
      Fresh n (op i).address contractState
  sending : ∀ i contractState contracts, phase i = .sending contractState contracts →
    (op i).check contractState = .ok () ∧
      ∃ sk, contracts = [.maintenanceUpdate ((op i).signed contractState sk)]
  waiting : ∀ txId tx, n.submitted txId = some tx → ∃ update i contractState,
    tx.contracts = [.maintenanceUpdate update] ∧ HandedIn op tr phase update i contractState
  accepted : ∀ e ∈ n.accepted, ∃ i contractState,
    HandedIn op tr phase e.update i contractState ∧ contractState.SameRules e.before
  below : ∀ e ∈ n.accepted, ∃ s, n.contracts e.update.address = some s ∧
    e.before.counter < s.counter
  rising : n.accepted.Pairwise fun e e' => e.update.address = e'.update.address →
    e.before.counter < e'.before.counter

/-! ## What a move leads to -/

theorem MaintenancePhase.read_next {op : MaintenanceOp} {q : MaintenancePhase}
    {e : Event (Providers PS)} {contractState : ContractState}
    (h : q.read = some contractState) : (q.next op e).read = some contractState := by
  unfold next
  split
  · cases h
  · exact h
  · exact h
  · exact h
  · exact h

/-- A contract state is read by the query of the first phase only. -/
theorem MaintenancePhase.of_read_next {op : MaintenanceOp} {q : MaintenancePhase}
    {e : Event (Providers PS)} {contractState : ContractState}
    (h : (q.next op e).read = some contractState) :
    q.read = some contractState ∨
      q = .start ∧ ∃ a, e = ⟨.queryContractState a, .ok (some contractState)⟩ := by
  unfold next at h
  split at h
  · next a contractState' =>
    cases h
    exact .inr ⟨rfl, a, rfl⟩
  · exact .inl h
  · exact .inl h
  · exact .inl h
  · exact .inl h

/-- What a phase that sends holds to send, once the calls before were allowed. -/
theorem MaintenancePhase.of_next_sending {op : MaintenanceOp} {q : MaintenancePhase}
    {c : ProviderCall PS} {r : (Providers PS).Settled c} {contractState : ContractState}
    {contracts : List ContractsEntry} (h : q.next op ⟨c, r⟩ = .sending contractState contracts)
    (hc : q.Allows op c) (hr : chainEnv c n r n') :
    q = .sending contractState contracts ∨
      op.check contractState = .ok () ∧
        ∃ sk, contracts = [.maintenanceUpdate (op.signed contractState sk)] := by
  unfold next at h
  split at h
  · cases h
  · next sk heq =>
    cases h
    cases heq
    exact .inr ⟨hc, sk, rfl⟩
  · next tx heq =>
    cases h
    cases heq
    obtain rfl := hc
    left
    rw [hr.1]
  · next tx heq =>
    cases h
    cases heq
    obtain rfl := hc
    left
    rw [hr.1]
  · cases h

/-- A call leaves the chain as it is, or hands a transaction to the node. -/
theorem chainEnv_cases {c : ProviderCall PS} {r : (Providers PS).Settled c}
    (h : chainEnv c n r n') :
    n' = n ∨ ∃ tx txId, c = .submitTx tx ∧ n' = n.submit txId tx := by
  cases r with
  | error why =>
    cases c with
    | submitTx tx =>
      obtain hsame | ⟨txId, _, hsubmit⟩ := h
      · exact .inl hsame
      · exact .inr ⟨tx, txId, rfl, hsubmit⟩
    | _ => exact .inl h
  | ok reply =>
    cases c with
    | submitTx tx => exact .inr ⟨tx, reply, rfl, h.2⟩
    | queryContractState a => exact .inl h.2
    | proveTx tx zkConfig => exact .inl h.2
    | balanceTx tx newCoins => exact .inl h.2
    | watchForTxData txId => exact .inl h.2
    | _ => exact .inl h

theorem chainEnv_frame {c : ProviderCall PS} {r : (Providers PS).Settled c}
    (h : chainEnv c n r n') : n'.contracts = n.contracts ∧ n'.accepted = n.accepted := by
  obtain rfl | ⟨tx, txId, _, rfl⟩ := chainEnv_cases h
  · exact ⟨rfl, rfl⟩
  · exact ⟨rfl, rfl⟩

theorem chainEnv_submitted {c : ProviderCall PS} {r : (Providers PS).Settled c}
    (h : chainEnv c n r n') {txId : TransactionId} {tx : BalancedTransaction}
    (htx : n'.submitted txId = some tx) : n.submitted txId = some tx ∨ c = .submitTx tx := by
  obtain rfl | ⟨tx', txId', rfl, rfl⟩ := chainEnv_cases h
  · exact .inl htx
  · change Function.update n.submitted txId' (some tx') txId = some tx at htx
    by_cases hid : txId = txId'
    · subst hid
      rw [Function.update_self] at htx
      cases htx
      exact .inr rfl
    · rw [Function.update_of_ne hid] at htx
      exact .inl htx

/-- A step of the node keeps operations, authority and counter of a contract, or raises the
counter. -/
theorem ContractChain.Steps.contract (step : n.Steps n') {a : ContractAddress} {s : ContractState}
    (hs : n.contracts a = some s) :
    ∃ s', n'.contracts a = some s' ∧ (s.SameRules s' ∨ s.counter < s'.counter) := by
  cases step with
  | @accept txId tx update before submitted waits contracts contract accepts =>
    by_cases ha : a = update.address
    · subst ha
      rw [contract] at hs
      cases hs
      refine ⟨s.maintained update, ?_, .inr ?_⟩
      · simp [ContractChain.accept, install, settle]
      · rw [ContractState.counter_maintained]
        omega
    · refine ⟨s, ?_, .inl ⟨rfl, rfl⟩⟩
      simp [ContractChain.accept, install, settle, ha, hs]
  | refuse submitted waits contracts refuses refused => exact ⟨s, hs, .inl ⟨rfl, rfl⟩⟩
  | @call a' s' contract data =>
    by_cases ha : a = a'
    · subst ha
      rw [contract] at hs
      cases hs
      refine ⟨{ s with data := data }, ?_, .inl ⟨rfl, rfl⟩⟩
      simp [install]
    · refine ⟨s, ?_, .inl ⟨rfl, rfl⟩⟩
      simp [install, ha, hs]

theorem Fresh.step {a : ContractAddress} {contractState : ContractState}
    (h : Fresh n a contractState) (step : n.Steps n') : Fresh n' a contractState := by
  obtain ⟨s, hs, hle, hsame⟩ := h
  obtain ⟨s', hs', hrules | hlt⟩ := step.contract hs
  · have hcounter : s.counter = s'.counter := hrules.counter_eq
    refine ⟨s', hs', by omega, fun heq => ?_⟩
    have hread := hsame (by omega)
    exact ⟨hread.1.trans hrules.1, hread.2.trans hrules.2⟩
  · refine ⟨s', hs', by omega, fun heq => ?_⟩
    omega

theorem HandedIn.mono {tr' : List (ι × Event (Providers PS))} {phase' : ι → MaintenancePhase}
    {update : MaintenanceUpdate} {i : ι} {contractState : ContractState}
    (h : HandedIn op tr phase update i contractState) (htr : tr ⊆ tr')
    (hread : ∀ j s, (phase j).read = some s → (phase' j).read = some s) :
    HandedIn op tr' phase' update i contractState := by
  obtain ⟨tx, r, hmem, hcontracts⟩ := h.submitted
  exact ⟨⟨tx, r, htr hmem, hcontracts⟩, hread i _ h.read, h.checked, h.signed⟩

/-! ## The steps of a run -/

section Turn

variable [DecidableEq ι] {i : ι} {c : ProviderCall PS} {r : (Providers PS).Settled c}

theorem read_update (q : MaintenancePhase) (hq : ∀ s, (phase i).read = some s → q.read = some s)
    (j : ι) (s : ContractState) (h : (phase j).read = some s) :
    (Function.update phase i q j).read = some s := by
  by_cases hj : j = i
  · subst hj
    rw [Function.update_self]
    exact hq s h
  · rwa [Function.update_of_ne hj]

theorem read_turn (j : ι) (s : ContractState) (hs : (phase j).read = some s) :
    (Function.update phase i ((phase i).next (op i) ⟨c, r⟩) j).read = some s :=
  read_update _ (fun _ => MaintenancePhase.read_next) j s hs

theorem Fresh.frame (hframe : n'.contracts = n.contracts) {a : ContractAddress}
    {contractState : ContractState} (h : Fresh n a contractState) : Fresh n' a contractState := by
  unfold Fresh at h ⊢
  rwa [hframe]

namespace OptimisticallyMaintained

theorem turn_queried (h : OptimisticallyMaintained op tr phase n)
    (hc : (phase i).Allows (op i) c) (j : ι) (a : ContractAddress) (s : ContractState)
    (hmem : (j, ⟨.queryContractState a, .ok (some s)⟩) ∈ tr ++ [(i, ⟨c, r⟩)]) :
    a = (op j).address ∧
      (Function.update phase i ((phase i).next (op i) ⟨c, r⟩) j).read = some s := by
  rw [List.mem_append, List.mem_singleton] at hmem
  obtain hold | hnew := hmem
  · obtain ⟨ha, hs⟩ := h.queried j a s hold
    exact ⟨ha, read_turn j s hs⟩
  · cases hnew
    cases hphase : phase i with
    | start =>
      rw [hphase] at hc
      refine ⟨hc, ?_⟩
      rw [Function.update_self]
      rfl
    | _ =>
      rw [hphase] at hc
      cases hc

theorem turn_read (h : OptimisticallyMaintained op tr phase n)
    (hc : (phase i).Allows (op i) c) (hr : chainEnv c n r n') (j : ι) (s : ContractState)
    (hs : (Function.update phase i ((phase i).next (op i) ⟨c, r⟩) j).read = some s) :
    (j, ⟨.queryContractState (op j).address, .ok (some s)⟩) ∈ tr ++ [(i, ⟨c, r⟩)] ∧
      Fresh n' (op j).address s := by
  have hcontracts := (chainEnv_frame hr).1
  have htr : tr ⊆ tr ++ [(i, ⟨c, r⟩)] := List.subset_append_left _ _
  by_cases hj : j = i
  · subst hj
    rw [Function.update_self] at hs
    obtain hold | ⟨hstart, a, hevent⟩ := MaintenancePhase.of_read_next hs
    · obtain ⟨hmem, hf⟩ := h.read j s hold
      exact ⟨htr hmem, hf.frame hcontracts⟩
    · cases hevent
      rw [hstart] at hc
      obtain rfl : a = (op j).address := hc
      refine ⟨by simp, s, ?_, le_rfl, fun _ => ⟨rfl, rfl⟩⟩
      rw [hcontracts]
      exact hr.1.symm
  · rw [Function.update_of_ne hj] at hs
    obtain ⟨hmem, hf⟩ := h.read j s hs
    exact ⟨htr hmem, hf.frame hcontracts⟩

theorem turn_sending (h : OptimisticallyMaintained op tr phase n)
    (hc : (phase i).Allows (op i) c) (hr : chainEnv c n r n') (j : ι) (s : ContractState)
    (contracts : List ContractsEntry)
    (hs : Function.update phase i ((phase i).next (op i) ⟨c, r⟩) j = .sending s contracts) :
    (op j).check s = .ok () ∧ ∃ sk, contracts = [.maintenanceUpdate ((op j).signed s sk)] := by
  by_cases hj : j = i
  · subst hj
    rw [Function.update_self] at hs
    obtain hold | hnew := MaintenancePhase.of_next_sending hs hc hr
    · exact h.sending j s contracts hold
    · exact hnew
  · rw [Function.update_of_ne hj] at hs
    exact h.sending j s contracts hs

theorem turn_waiting (h : OptimisticallyMaintained op tr phase n)
    (hc : (phase i).Allows (op i) c) (hr : chainEnv c n r n') (txId : TransactionId)
    (tx : BalancedTransaction) (htx : n'.submitted txId = some tx) : ∃ update j s,
      tx.contracts = [.maintenanceUpdate update] ∧ HandedIn op (tr ++ [(i, ⟨c, r⟩)])
        (Function.update phase i ((phase i).next (op i) ⟨c, r⟩)) update j s := by
  obtain hold | rfl := chainEnv_submitted hr htx
  · obtain ⟨update, j, s, hupdate, hin⟩ := h.waiting txId tx hold
    exact ⟨update, j, s, hupdate, hin.mono (List.subset_append_left _ _) read_turn⟩
  · cases hphase : phase i with
    | sending s contracts =>
      obtain ⟨hcheck, sk, hsigned⟩ := h.sending i s contracts hphase
      rw [hphase] at hc
      have hupdate : tx.contracts = [.maintenanceUpdate ((op i).signed s sk)] :=
        Eq.trans hc hsigned
      refine ⟨_, i, s, hupdate, ⟨tx, r, by simp, hupdate⟩, ?_, hcheck, sk, rfl⟩
      exact hphase ▸ read_turn i s (by rw [hphase]; rfl)
    | _ =>
      rw [hphase] at hc
      cases hc

/-- Every move of an operation keeps the invariant. -/
theorem turn (h : OptimisticallyMaintained op tr phase n)
    (hc : (phase i).Allows (op i) c) (hr : chainEnv c n r n') :
    OptimisticallyMaintained op (tr ++ [(i, ⟨c, r⟩)])
      (Function.update phase i ((phase i).next (op i) ⟨c, r⟩)) n' := by
  obtain ⟨hcontracts, haccepted⟩ := chainEnv_frame hr
  constructor
  · exact h.turn_queried hc
  · exact h.turn_read hc hr
  · exact h.turn_sending hc hr
  · exact h.turn_waiting hc hr
  · intro e he
    rw [haccepted] at he
    obtain ⟨j, s, hin, hs⟩ := h.accepted e he
    exact ⟨j, s, hin.mono (List.subset_append_left _ _) read_turn, hs⟩
  · intro e he
    rw [haccepted] at he
    rw [hcontracts]
    exact h.below e he
  · rw [haccepted]
    exact h.rising

end OptimisticallyMaintained

end Turn

/-- The update was made of the contract it is applied to. -/
theorem OptimisticallyMaintained.sameRules (h : OptimisticallyMaintained op tr phase n)
    {update : MaintenanceUpdate} {i : ι} {contractState before : ContractState}
    (hin : HandedIn op tr phase update i contractState)
    (hbefore : n.contracts update.address = some before)
    (haccepts : before.maintenanceAuthority.Accepts update) : contractState.SameRules before := by
  obtain ⟨_, s, hs, _, hsame⟩ := h.read i contractState hin.read
  obtain ⟨sk, rfl⟩ := hin.signed
  rw [show ((op i).signed contractState sk).address = (op i).address from rfl, hs] at hbefore
  cases hbefore
  have hcounter : contractState.counter = before.counter := haccepts.1
  exact hsame hcounter

/-- Every step of the node keeps the invariant. -/
theorem OptimisticallyMaintained.steps (h : OptimisticallyMaintained op tr phase n)
    (step : n.Steps n') : OptimisticallyMaintained op tr phase n' := by
  have hread : ∀ i contractState, (phase i).read = some contractState →
      (i, ⟨.queryContractState (op i).address, .ok (some contractState)⟩) ∈ tr ∧
        Fresh n' (op i).address contractState := fun i s hs =>
    ⟨(h.read i s hs).1, (h.read i s hs).2.step step⟩
  have hbelow : ∀ e ∈ n.accepted, ∃ s, n'.contracts e.update.address = some s ∧
      e.before.counter < s.counter := by
    intro e he
    obtain ⟨s, hs, hlt⟩ := h.below e he
    obtain ⟨s', hs', hrules | hrises⟩ := step.contract hs
    · exact ⟨s', hs', hrules.counter_eq ▸ hlt⟩
    · exact ⟨s', hs', hlt.trans hrises⟩
  cases step with
  | @accept txId tx update before submitted waits contracts contract accepts =>
    refine ⟨h.queried, hread, h.sending, h.waiting, fun e he => ?_, fun e he => ?_, ?_⟩
    · obtain hold | hnew := List.mem_append.mp he
      · exact h.accepted e hold
      · obtain rfl := List.mem_singleton.mp hnew
        obtain ⟨update', i, s, hupdate, hin⟩ := h.waiting txId tx submitted
        obtain rfl : update = update' := by simpa [contracts] using hupdate
        exact ⟨i, s, hin, h.sameRules hin contract accepts⟩
    · obtain hold | hnew := List.mem_append.mp he
      · exact hbelow e hold
      · obtain rfl := List.mem_singleton.mp hnew
        refine ⟨before.maintained update, ?_, ?_⟩
        · simp [ContractChain.accept, ContractChain.install, ContractChain.settle]
        · simp
    · refine List.pairwise_append.mpr ⟨h.rising, List.pairwise_singleton _ _, ?_⟩
      intro e he e' he' haddress
      obtain rfl := List.mem_singleton.mp he'
      obtain ⟨s, hs, hlt⟩ := h.below e he
      rw [haddress, contract] at hs
      cases hs
      exact hlt
  | refuse submitted waits contracts refuses refused =>
    exact ⟨h.queried, hread, h.sending, h.waiting, h.accepted, hbelow, h.rising⟩
  | call contract data =>
    exact ⟨h.queried, hread, h.sending, h.waiting, h.accepted, hbelow, h.rising⟩

/-! ## The verifier keys of the operations -/

/-- No operation of the circuit is without a key at first, and none of the calls gives it an empty
one. -/
structure KeysGiven (op : ι → MaintenanceOp) (n : ContractChain) (a : ContractAddress)
    (circuitId : CircuitId) : Prop where
  atStart : ∀ s, n.contracts a = some s → s.Keyed circuitId
  inserted : ∀ i newVk, op i = .insertVerifierKey a circuitId newVk → newVk ≠ []

/-- Operations whose keys are given keep them. -/
structure KeysStay (op : ι → MaintenanceOp) (n₀ n : ContractChain) : Prop where
  contracts : ∀ a circuitId, KeysGiven op n₀ a circuitId →
    ∀ s, n.contracts a = some s → s.Keyed circuitId
  accepted : ∀ e ∈ n.accepted, ∀ circuitId, KeysGiven op n₀ e.update.address circuitId →
    e.before.Keyed circuitId

theorem KeysStay.frame {n₀ : ContractChain} (h : KeysStay op n₀ n)
    (hcontracts : n'.contracts = n.contracts) (haccepted : n'.accepted = n.accepted) :
    KeysStay op n₀ n' :=
  ⟨hcontracts ▸ h.contracts, haccepted ▸ h.accepted⟩

/-- An update of one of the operations leaves no operation without a key. -/
theorem keyed_maintained {n₀ : ContractChain} {i : ι} {contractState before : ContractState}
    {sk : SigningKey} {circuitId : CircuitId}
    (given : KeysGiven op n₀ (op i).address circuitId) (h : before.Keyed circuitId) :
    (before.maintained ((op i).signed contractState sk)).Keyed circuitId := by
  change (before.apply ((op i).update contractState)).Keyed circuitId
  refine h.apply fun version vk hu => ?_
  cases hop : op i with
  | insertVerifierKey a circuitId' newVk =>
    rw [hop] at hu given
    cases hu
    exact given.inserted i vk hop
  | removeVerifierKey a circuitId' =>
    rw [hop] at hu
    cases hu
  | replaceAuthority a newAuthority =>
    rw [hop] at hu
    cases hu

theorem KeysStay.steps {n₀ : ContractChain} (h : KeysStay op n₀ n)
    (hin : OptimisticallyMaintained op tr phase n) (step : n.Steps n') : KeysStay op n₀ n' := by
  cases step with
  | @accept txId tx update before submitted waits contracts contract accepts =>
    obtain ⟨update', i, contractState, hupdate, hhanded⟩ := hin.waiting txId tx submitted
    obtain rfl : update = update' := by simpa [contracts] using hupdate
    obtain ⟨sk, rfl⟩ := hhanded.signed
    refine ⟨fun a circuitId given s hs => ?_, fun e he circuitId given => ?_⟩
    · change Function.update n.contracts (op i).address _ a = some s at hs
      by_cases ha : a = (op i).address
      · subst ha
        rw [Function.update_self] at hs
        cases hs
        exact keyed_maintained given (h.contracts _ circuitId given before contract)
      · rw [Function.update_of_ne ha] at hs
        exact h.contracts a circuitId given s hs
    · obtain hold | hnew := List.mem_append.mp he
      · exact h.accepted e hold circuitId given
      · obtain rfl := List.mem_singleton.mp hnew
        exact h.contracts _ circuitId given before contract
  | refuse submitted waits contracts refuses refused => exact h.frame rfl rfl
  | @call a' s' contract data =>
    refine ⟨fun a circuitId given s hs => ?_, h.accepted⟩
    change Function.update n.contracts a' _ a = some s at hs
    by_cases ha : a = a'
    · subst ha
      rw [Function.update_self] at hs
      cases hs
      exact h.contracts a circuitId given s' contract
    · rw [Function.update_of_ne ha] at hs
      exact h.contracts a circuitId given s hs

/-! ## Runs -/

/-- The single updates of an accepted update fit the contract they are applied to. -/
structure Fits (updates : List SingleUpdate) (before : ContractState) : Prop where
  inserts : ∀ circuitId version vk, .verifierKeyInsert circuitId version vk ∈ updates →
    before.operation circuitId = none
  removes : ∀ circuitId version, .verifierKeyRemove circuitId version ∈ updates →
    (before.operation circuitId).isSome
  replaces : ∀ authority, .replaceAuthority authority ∈ updates →
    authority.counter = before.counter + 1

theorem MaintenanceOp.Admits.fits {op : MaintenanceOp} {before : ContractState}
    (h : op.Admits before) : Fits [op.update before] before := by
  refine ⟨fun circuitId version vk hmem => ?_, fun circuitId version hmem => ?_,
    fun authority hmem => ?_⟩
  all_goals
    rw [List.mem_singleton] at hmem
    cases op
    all_goals cases hmem
  · exact h
  · exact h
  · rfl

/-- The accepted update is the one that the operation `i` handed in, it was made of the one contract
state that `i` has read, and it was applied to the same operations and the same authority. -/
structure AppliedAsChecked (op : ι → MaintenanceOp) (tr : List (ι × Event (Providers PS)))
    (e : AcceptedUpdate) (i : ι) : Prop where
  submitted : ∃ tx r, (i, ⟨.submitTx tx, r⟩) ∈ tr ∧ tx.contracts = [.maintenanceUpdate e.update]
  address : e.update.address = (op i).address
  updates : e.update.updates = [(op i).update e.before]
  counter : e.update.counter = e.before.counter
  checked : ∃ contractState, contractState.SameRules e.before ∧
    (op i).check contractState = .ok () ∧ ∀ a s,
      (i, ⟨.queryContractState a, .ok (some s)⟩) ∈ tr ↔ a = (op i).address ∧ s = contractState
  fits : Fits e.update.updates e.before

variable [DecidableEq ι]

omit [DecidableEq ι] in
theorem optimisticallyMaintained_start (haccepted : n.accepted = [])
    (hsubmitted : ∀ txId, n.submitted txId = none) : OptimisticallyMaintained op
      ([] : List (ι × Event (Providers PS))) (fun _ => .start) n := by
  refine ⟨fun i a s hmem => ?_, fun i s hs => ?_, fun i s contracts hs => ?_,
    fun txId tx htx => ?_, fun e he => ?_, fun e he => ?_, ?_⟩
  · cases hmem
  · cases hs
  · cases hs
  · rw [hsubmitted] at htx
    cases htx
  · rw [haccepted] at he
    cases he
  · rw [haccepted] at he
    cases he
  · rw [haccepted]
    exact List.Pairwise.nil

omit [DecidableEq ι] in
theorem OptimisticallyMaintained.appliedAsChecked (h : OptimisticallyMaintained op tr phase n)
    {e : AcceptedUpdate} (he : e ∈ n.accepted) : ∃ i, AppliedAsChecked op tr e i := by
  obtain ⟨i, s, hin, hrules⟩ := h.accepted e he
  obtain ⟨sk, hsigned⟩ := hin.signed
  have hupdates : e.update.updates = [(op i).update e.before] := by
    rw [hsigned, ← (op i).update_congr hrules]
    rfl
  have hadmits : (op i).Admits e.before :=
    (MaintenanceOp.admits_of_check hin.checked).congr hrules
  refine ⟨i, hin.submitted, ?_, hupdates, ?_, ⟨s, hrules, hin.checked, fun a s' => ?_⟩, ?_⟩
  · rw [hsigned]
    rfl
  · rw [hsigned, ← hrules.counter_eq]
    rfl
  · constructor
    · intro hmem
      obtain ⟨ha, hs'⟩ := h.queried i a s' hmem
      rw [hin.read] at hs'
      exact ⟨ha, (Option.some.inj hs').symm⟩
    · rintro ⟨rfl, rfl⟩
      exact (h.read i s' hin.read).1
  · rw [hupdates]
    exact hadmits.fits

theorem accepted_updates_apply_as_checked (haccepted : n.accepted = [])
    (hsubmitted : ∀ txId, n.submitted txId = none) {P : ι → Promise PS FinalizedTxData}
    (run : Run chainEnv ContractChain.Steps (fun i => (op i).program) n tr P n') :
    (∀ e ∈ n'.accepted, ∃ i, AppliedAsChecked op tr e i) ∧
    (∀ e ∈ n'.accepted, ∀ circuitId version,
      .verifierKeyRemove circuitId version ∈ e.update.updates →
      KeysGiven op n e.update.address circuitId → e.before.hasVerifierKey circuitId = true) ∧
    (∀ e ∈ n'.accepted, ∃ s, n'.contracts e.update.address = some s ∧
      e.before.counter < s.counter) ∧
    n'.accepted.Pairwise fun e e' => e.update.address = e'.update.address →
      e.before.counter < e'.before.counter := by
  have hinit : OptimisticallyMaintained op
      ([] : List (ι × Event (Providers PS))) (fun _ => .start) n :=
    optimisticallyMaintained_start haccepted hsubmitted
  have hkeys : KeysStay op n n :=
    ⟨fun a circuitId given => given.atStart, fun e he => by simp [haccepted] at he⟩
  obtain ⟨phase, ⟨h, hstay⟩, _⟩ := run.invariant
    (I := fun tr phase n' => OptimisticallyMaintained op tr phase n' ∧ KeysStay op n n')
    (fun i => follows_maintenanceOp (op i)) ⟨hinit, hkeys⟩
    (fun _ _ _ _ _ _ _ h hc hr => ⟨h.1.turn hc hr,
      h.2.frame (chainEnv_frame hr).1 (chainEnv_frame hr).2⟩)
    (fun _ _ _ _ h hstep => ⟨h.1.steps hstep, h.2.steps h.1 hstep⟩)
  have happlied : ∀ e ∈ n'.accepted, ∃ i, AppliedAsChecked op tr e i :=
    fun e he => h.appliedAsChecked he
  refine ⟨happlied, fun e he circuitId version hremove given => ?_, h.below, h.rising⟩
  obtain ⟨i, happlied⟩ := happlied e he
  exact (hstay.accepted e he circuitId given).hasVerifierKey
    (happlied.fits.removes circuitId version hremove)

end Parties

/-! ## A chain on concrete inputs -/

namespace Sample

/-- A contract without verifier keys, owned by the key 0. -/
def chain : ContractChain where
  contracts _ := some { state (key 0) with operations := [] }
  submitted _ := none
  statuses _ := none
  accepted := []

def chainHandler (c : ProviderCall (Option ℕ)) (n : ContractChain) :
    Option ((Providers (Option ℕ)).Settled c × ContractChain) :=
  match c with
  | .queryContractState a => some (.ok (n.contracts a), n)
  | .getSigningKey _ => some (.ok (some (key 0)), n)
  | .proveTx tx _ => some (.ok ⟨tx.contracts⟩, n)
  | .balanceTx tx _ => some (.ok ⟨tx.contracts⟩, n)
  | .submitTx tx => (txIds.find? fun txId => (n.submitted txId).isNone).map fun txId =>
      (.ok txId, n.submit txId tx)
  | .watchForTxData txId => (n.statuses txId).map fun status => (.ok (finalized status), n)
  | _ => none

/-- The node decides on the first transaction that waits. -/
def chainStep (n : ContractChain) : Option ContractChain :=
  txIds.findSome? fun txId =>
    match n.submitted txId, n.statuses txId with
    | some ⟨[.maintenanceUpdate update]⟩, none =>
      match n.contracts update.address with
      | some s =>
        if s.maintenanceAuthority.Accepts update then some (n.accept txId update s)
        else some (n.settle txId .FailEntirely)
      | none => none
    | _, _ => none

theorem chainEnv_chainHandler (c : ProviderCall (Option ℕ)) (n : ContractChain)
    (r : (Providers (Option ℕ)).Settled c) (n' : ContractChain)
    (h : chainHandler c n = some (r, n')) : chainEnv c n r n' := by
  cases c with
  | queryContractState a =>
    cases h
    exact ⟨rfl, rfl⟩
  | getSigningKey a =>
    cases h
    rfl
  | proveTx tx zkConfig =>
    cases h
    exact ⟨rfl, rfl⟩
  | balanceTx tx newCoins =>
    cases h
    exact ⟨rfl, rfl⟩
  | submitTx tx =>
    obtain ⟨txId, hfind, heq⟩ := Option.map_eq_some_iff.mp h
    cases heq
    exact ⟨by simpa using List.find?_some hfind, rfl⟩
  | watchForTxData txId =>
    obtain ⟨status, hstatus, heq⟩ := Option.map_eq_some_iff.mp h
    cases heq
    exact ⟨hstatus, rfl⟩
  | _ => cases h

theorem steps_chainStep {n n' : ContractChain} (h : chainStep n = some n') : n.Steps n' := by
  obtain ⟨txId, _, htx⟩ := List.exists_of_findSome?_eq_some h
  split at htx
  · next update hsubmitted hwaits =>
    split at htx
    · next s hs =>
      split at htx
      · next haccepts =>
        cases htx
        exact .accept hsubmitted hwaits rfl hs haccepts
      · next hrefuses =>
        cases htx
        refine .refuse hsubmitted hwaits rfl ?_ (by decide)
        rintro ⟨s', hs', haccepts⟩
        rw [hs] at hs'
        cases hs'
        exact hrefuses haccepts
    · cases htx
  · cases htx

/-- Two clients insert a key for the same circuit, after both have read the contract. -/
def insertions (i : Bool) : MaintenanceOp :=
  .insertVerifierKey address circuitId (if i then [1] else [2])

def bothReadBefore : List (Turn Bool) :=
  .replicate 5 (.of true) ++ .replicate 5 (.of false) ++ [.own, .own, .of true, .of false]

def playInsertions :=
  play chainHandler chainStep (fun i => (insertions i).program) chain bothReadBefore

set_option maxRecDepth 4000 in
theorem accepted_updates_apply_as_checked_two_insertions :
    playInsertions.2.2.accepted.length = 1 ∧
      ∀ e ∈ playInsertions.2.2.accepted, ∃ i, AppliedAsChecked insertions playInsertions.1 e i := by
  have run : Run chainEnv ContractChain.Steps (fun i => (insertions i).program) chain
      playInsertions.1 playInsertions.2.1 playInsertions.2.2 :=
    run_play chainEnv_chainHandler (fun _ _ => steps_chainStep) bothReadBefore
  refine ⟨by decide, ?_⟩
  exact (accepted_updates_apply_as_checked rfl (fun _ => rfl) run).1

/-- A contract whose circuit has an operation without a verifier key. -/
def keylessChain : ContractChain :=
  { chain with contracts := fun _ => some { state (key 0) with operations := [(circuitId, ⟨[]⟩)] } }

def playRemoval :=
  play chainHandler chainStep (fun _ : Unit => (MaintenanceOp.removeVerifierKey address circuitId).program)
    keylessChain (.replicate 5 (.of ()) ++ [.own, .of ()])

/-- The removal is accepted where the circuit has no verifier key. -/
theorem removed_without_key :
    ∃ tr P n', Run chainEnv ContractChain.Steps (fun _ : Unit =>
        ((MaintenanceOp.removeVerifierKey address circuitId).program : Promise (Option ℕ) _))
        keylessChain tr P n' ∧
      keylessChain.accepted = [] ∧ (∀ txId, keylessChain.submitted txId = none) ∧
      ∃ e ∈ n'.accepted, .verifierKeyRemove circuitId (js "v2") ∈ e.update.updates ∧
        e.before.hasVerifierKey circuitId = false := by
  have run : Run chainEnv ContractChain.Steps (fun _ : Unit =>
      ((MaintenanceOp.removeVerifierKey address circuitId).program : Promise (Option ℕ) _))
      keylessChain playRemoval.1 playRemoval.2.1 playRemoval.2.2 :=
    run_play chainEnv_chainHandler (fun _ _ => steps_chainStep) _
  exact ⟨_, _, _, run, rfl, fun _ => rfl, _, List.mem_of_getElem? (i := 0) rfl, by decide, by decide⟩

end Sample

end MidnightJs
