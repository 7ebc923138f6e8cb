import MidnightJs.Contracts.ConcurrentMaintenance
import MidnightJs.Contracts.Custody

/-! # One client maintains a contract

The private state provider and the chain as one client sees them, when nobody else maintains its
contract. Calls may be rejected up to the submission of a transaction. A submitted transaction is
watched until the node has decided on it: its status is `SucceedEntirely` if and only if it was
applied. Other clients may call the contract, and do anything to other contracts. -/

namespace MidnightJs
open Foundations Foundations.Js Foundations.Async
set_option autoImplicit false

section Network

variable [Runtime] {PS : Type}

/-- The store of the client, the contracts on the chain, the transactions sent to the node, and the
maintenance updates among them, each with the contract as it was when the node got it. -/
structure ClientNetwork (PS : Type) where
  store : PrivateStore PS
  contracts : ContractAddress → Option ContractState
  submitted : TransactionId → Option BalancedTransaction
  handedIn : List (MaintenanceUpdate × Option ContractState)

/-- Operations and authority of a contract: what only a maintenance update changes. -/
def ContractState.rules (s : ContractState) :
    List (CircuitId × ContractOperation) × ContractMaintenanceAuthority :=
  (s.operations, s.maintenanceAuthority)

/-! ## The node -/

/-- What an applied transaction does to the contracts. -/
def ContractsEntry.Applies (entry : ContractsEntry)
    (contracts contracts' : ContractAddress → Option ContractState) : Prop :=
  match entry with
  | .deploy d => contracts' = Function.update contracts d.address (some d.initialState)
  | .call c => ∃ data, contracts' = Function.update contracts c.address
      ((contracts c.address).map fun s => { s with data := data })
  | .maintenanceUpdate update => ∃ s, contracts update.address = some s ∧
      s.maintenanceAuthority.Accepts update ∧
      contracts' = Function.update contracts update.address (some (s.maintained update))

/-- The entries of a transaction are applied in order. -/
def ApplyAll : List ContractsEntry → (contracts contracts' : ContractAddress → Option ContractState) →
    Prop
  | [], contracts, contracts' => contracts' = contracts
  | entry :: entries, contracts, contracts' =>
    ∃ between, entry.Applies contracts between ∧ ApplyAll entries between contracts'

@[simp] theorem applyAll_singleton {entry : ContractsEntry}
    {contracts contracts' : ContractAddress → Option ContractState} :
    ApplyAll [entry] contracts contracts' ↔ entry.Applies contracts contracts' := by
  simp only [ApplyAll]
  constructor
  · rintro ⟨between, h, rfl⟩
    exact h
  · intro h
    exact ⟨contracts', h, rfl⟩

namespace ClientNetwork

/-- The maintenance updates of a transaction, with the contracts they are about. -/
def updatesIn (n : ClientNetwork PS) (entries : List ContractsEntry) :
    List (MaintenanceUpdate × Option ContractState) :=
  entries.filterMap fun entry =>
    match entry with
    | .maintenanceUpdate update => some (update, n.contracts update.address)
    | _ => none

/-- The node gets a transaction. -/
def handIn (n : ClientNetwork PS) (txId : TransactionId) (tx : BalancedTransaction) :
    ClientNetwork PS :=
  { n with
    submitted := Function.update n.submitted txId (some tx)
    handedIn := n.handedIn ++ n.updatesIn tx.contracts }

/-- The node has decided on a transaction. -/
def Decided (n : ClientNetwork PS) (tx : BalancedTransaction) (status : TxStatus)
    (n' : ClientNetwork PS) : Prop :=
  if status = .SucceedEntirely then
    ∃ contracts', ApplyAll tx.contracts n.contracts contracts' ∧
      n' = { n with contracts := contracts' }
  else n' = n

def rules (n : ClientNetwork PS) (a : ContractAddress) :
    Option (List (CircuitId × ContractOperation) × ContractMaintenanceAuthority) :=
  (n.contracts a).map ContractState.rules

end ClientNetwork

/-! ## The providers -/

/-- The calls that may be rejected: all but the watch and the writes. -/
def ProviderCall.MayReject (c : ProviderCall PS) : Prop := ¬ c.IsWatch ∧ ¬ c.IsWrite

/-- What the providers do. -/
def Provides (c : ProviderCall PS) (n : ClientNetwork PS) (r : (Providers PS).Settled c)
    (n' : ClientNetwork PS) : Prop :=
  match r with
  | .error _ => c.MayReject ∧ n' = n
  | .ok reply =>
    match c with
    | .queryContractState a => reply = n.contracts a ∧ n' = n
    | .queryZSwapAndContractState a => reply.map Prod.snd = n.contracts a ∧ n' = n
    | .proveTx tx _ => reply.contracts = tx.contracts ∧ n' = n
    | .balanceTx tx _ => reply.contracts = tx.contracts ∧ n' = n
    | .submitTx tx => n.submitted reply = none ∧ n' = n.handIn reply tx
    | .watchForTxData txId =>
      match n.submitted txId with
      | some tx => n.Decided tx reply.status n'
      | none => n' = n
    | c => Serves c n.store reply n'.store ∧ n' = { n with store := n'.store }

/-- Nothing that the client relies on has changed, but for what it has stored. -/
structure SameChain (a : ContractAddress) (n n' : ClientNetwork PS) : Prop where
  rules : n'.rules a = n.rules a
  submitted : n'.submitted = n.submitted
  handedIn : n'.handedIn = n.handedIn

/-- Nothing that the client relies on has changed. -/
structure Undisturbed (a : ContractAddress) (n n' : ClientNetwork PS) : Prop extends
    SameChain a n n' where
  store : n'.store = n.store

/-- After each call others may act, but not maintain the contract. -/
def soleEnv (a : ContractAddress) : Env (Providers PS) (ClientNetwork PS) := fun c n r n' =>
  ∃ n₁, Provides c n r n₁ ∧ Undisturbed a n₁ n'

/-! ## What calls leave as it is -/

variable {a : ContractAddress} {n n₁ n' : ClientNetwork PS}

theorem SameChain.refl (n : ClientNetwork PS) : SameChain a n n := ⟨rfl, rfl, rfl⟩

theorem SameChain.trans (h : SameChain a n n₁) (h' : SameChain a n₁ n') : SameChain a n n' :=
  ⟨h'.rules.trans h.rules, h'.submitted.trans h.submitted, h'.handedIn.trans h.handedIn⟩

theorem Undisturbed.refl (n : ClientNetwork PS) : Undisturbed a n n := ⟨.refl n, rfl⟩

theorem Undisturbed.trans (h : Undisturbed a n n₁) (h' : Undisturbed a n₁ n') :
    Undisturbed a n n' :=
  ⟨h.toSameChain.trans h'.toSameChain, h'.store.trans h.store⟩

/-- The calls that neither send a transaction nor wait for one. -/
def ProviderCall.KeepsChain : ProviderCall PS → Prop
  | .submitTx _ | .watchForTxData _ => False
  | _ => True

/-- The calls that do not change anything. -/
def ProviderCall.Observes (c : ProviderCall PS) : Prop := c.KeepsChain ∧ ¬ c.IsWrite

theorem ProviderCall.BuildsCall.observes {c : ProviderCall PS} (h : c.BuildsCall) : c.Observes := by
  cases c <;> first | exact ⟨trivial, id⟩ | cases h

theorem ProviderCall.Deploys.observes {c : ProviderCall PS} (h : c.Deploys) : c.Observes := by
  cases c <;> first | exact ⟨trivial, id⟩ | cases h

variable {c : ProviderCall PS} {r : (Providers PS).Settled c}

theorem Provides.sameChain (h : Provides c n r n') (hc : c.KeepsChain) : SameChain a n n' := by
  cases r with
  | error why =>
    obtain rfl := h.2
    exact .refl _
  | ok reply =>
    cases c with
    | submitTx tx => cases hc
    | watchForTxData txId => cases hc
    | _ =>
      rw [h.2]
      exact ⟨rfl, rfl, rfl⟩

/-- The store sees what a store does. -/
theorem Provides.storeEnv (h : Provides c n r n') :
    MidnightJs.storeEnv MayFail c n.store r n'.store := by
  cases r with
  | error why => exact ⟨h.1.2, by rw [h.2]⟩
  | ok reply =>
    cases c with
    | submitTx tx =>
      rw [h.2]
      exact rfl
    | watchForTxData txId =>
      simp only [Provides] at h
      split at h
      · unfold ClientNetwork.Decided at h
        split at h
        · obtain ⟨contracts', _, rfl⟩ := h
          exact rfl
        · rw [h]
          exact rfl
      · rw [h]
        exact rfl
    | queryContractState a =>
      rw [h.2]
      exact rfl
    | queryZSwapAndContractState a =>
      rw [h.2]
      exact rfl
    | proveTx tx zkConfig =>
      rw [h.2]
      exact rfl
    | balanceTx tx newCoins =>
      rw [h.2]
      exact rfl
    | _ => exact h.1

theorem soleEnv_storeEnv (h : soleEnv a c n r n') : storeEnv MayFail c n.store r n'.store := by
  obtain ⟨n₁, hprovides, hothers⟩ := h
  rw [hothers.store]
  exact hprovides.storeEnv

theorem soleEnv_sameChain (h : soleEnv a c n r n') (hc : c.KeepsChain) : SameChain a n n' := by
  obtain ⟨n₁, hprovides, hothers⟩ := h
  exact (hprovides.sameChain hc).trans hothers.toSameChain

theorem soleEnv_undisturbed (h : soleEnv a c n r n') (hc : c.Observes) : Undisturbed a n n' :=
  ⟨soleEnv_sameChain h hc.1, storeEnv_frame (soleEnv_storeEnv h) hc.2⟩

section Programs

variable {α : Type} {p : Promise PS α} {tr : List (Event (Providers PS))}
  {out : Except ContractsError α}

theorem exec_storeEnv (run : Exec (soleEnv a) p n tr out n') :
    Exec (storeEnv MayFail) p n.store tr out n'.store :=
  run.project (f := ClientNetwork.store) fun _ _ _ _ h => soleEnv_storeEnv h

theorem exec_sameChain (run : Exec (soleEnv a) p n tr out n')
    (hp : p.Uses fun c : ProviderCall PS => c.KeepsChain) : SameChain a n n' := by
  refine run.invariant (I := SameChain a n) (fun c n₁ r n₂ hc hr h => ?_) hp (.refl n)
  exact h.trans (soleEnv_sameChain hr hc)

theorem exec_undisturbed (run : Exec (soleEnv a) p n tr out n')
    (hp : p.Uses fun c : ProviderCall PS => c.Observes) : Undisturbed a n n' := by
  refine run.invariant (I := Undisturbed a n) (fun c n₁ r n₂ hc hr h => ?_) hp (.refl n)
  exact h.trans (soleEnv_undisturbed hr hc)

/-- A call that changes nothing, and what follows it. -/
theorem exec_observe_bind {β : Type} {f : c.Reply → Promise PS β} {out : Except ContractsError β}
    (run : Exec (soleEnv a) (provide c >>= f) n tr out n') (hc : c.Observes) :
    (∃ e, out = .error e ∧ Undisturbed a n n') ∨
      ∃ reply n₁ tr₁, soleEnv a c n (.ok reply) n₁ ∧ Undisturbed a n n₁ ∧
        Exec (soleEnv a) (f reply) n₁ tr₁ out n' := by
  obtain ⟨why, hr, _, rfl⟩ | ⟨reply, n₁, tr₁, hr, hrest, _⟩ := exec_provide_bind run
  · exact .inl ⟨_, rfl, soleEnv_undisturbed hr hc⟩
  · exact .inr ⟨reply, n₁, tr₁, hr, soleEnv_undisturbed hr hc, hrest⟩

theorem exec_sync_bind_sole {β γ : Type} {x : Except JsError γ} {f : γ → Promise PS β}
    {out : Except ContractsError β} (run : Exec (soleEnv a) (sync x >>= f) n tr out n') :
    (∃ e, out = .error e ∧ Undisturbed a n n') ∨
      ∃ b, x = .ok b ∧ Exec (soleEnv a) (f b) n tr out n' := by
  obtain ⟨e, _, _, rfl, rfl⟩ | hrest := exec_sync_bind run
  · exact .inl ⟨_, rfl, .refl _⟩
  · exact .inr hrest

end Programs

/-! ## Submitting -/

/-- What a transaction that the node has decided on leaves: the contract as it was before the node's
decision, and as it is after it. -/
structure Finalized (a : ContractAddress) (n : ClientNetwork PS) (entries : List ContractsEntry)
    (status : TxStatus) (n' : ClientNetwork PS) : Prop where
  store : n'.store = n.store
  handedIn : ∃ n₁, Undisturbed a n n₁ ∧ n'.handedIn = n.handedIn ++ n₁.updatesIn entries
  decided : ∃ n₁ n₂ : ClientNetwork PS, n₁.rules a = n.rules a ∧ n'.rules a = n₂.rules a ∧
    (status = .SucceedEntirely → ApplyAll entries n₁.contracts n₂.contracts) ∧
    (status ≠ .SucceedEntirely → n₂.rules a = n₁.rules a)

theorem ClientNetwork.Decided.frame {tx : BalancedTransaction} {status : TxStatus}
    (h : n.Decided tx status n') : n'.store = n.store ∧ n'.handedIn = n.handedIn ∧
      (status = .SucceedEntirely → ApplyAll tx.contracts n.contracts n'.contracts) ∧
      (status ≠ .SucceedEntirely → n'.rules a = n.rules a) := by
  unfold Decided at h
  split at h
  · next hstatus =>
    obtain ⟨contracts', happly, rfl⟩ := h
    exact ⟨rfl, rfl, fun _ => happly, fun hne => absurd hstatus hne⟩
  · next hstatus =>
    obtain rfl := h
    exact ⟨rfl, rfl, fun heq => absurd heq hstatus, fun _ => rfl⟩

theorem uses_zkConfigOf (circuitId : Option CircuitId) :
    (zkConfigOf circuitId : Promise PS _).Uses fun c : ProviderCall PS => c.Observes := by
  unfold zkConfigOf
  split
  · split
    · refine Program.uses_bind (Program.uses_call (E := Providers PS) ⟨trivial, id⟩) fun _ => ?_
      trivial
    · trivial
  · trivial

theorem exec_submitTx_sole {options : SubmitTxOptions} {tr : List (Event (Providers PS))}
    {out : Except ContractsError FinalizedTxData}
    (run : Exec (soleEnv a) (submitTx options : Promise PS _) n tr out n') :
    (∃ e, out = .error e ∧ Undisturbed a n n') ∨
      ∃ data, out = .ok data ∧ Finalized a n options.unprovenTx.contracts data.status n' := by
  obtain ⟨e, hzk, rfl⟩ | ⟨zkConfig, n₁, _, _, hzk, run₁, _⟩ := exec_bind.mp run
  · exact .inl ⟨e, rfl, exec_undisturbed hzk (uses_zkConfigOf _)⟩
  have h₁ : Undisturbed a n n₁ := exec_undisturbed hzk (uses_zkConfigOf _)
  obtain ⟨e, rfl, h₂⟩ | ⟨unbalanced, n₂, _, hprove, h₂, run₂⟩ :=
    exec_observe_bind run₁ ⟨trivial, id⟩
  · exact .inl ⟨e, rfl, h₁.trans h₂⟩
  obtain ⟨_, ⟨hunbalanced, _⟩, _⟩ := hprove
  obtain ⟨e, rfl, h₃⟩ | ⟨balanced, n₃, _, hbalance, h₃, run₃⟩ :=
    exec_observe_bind run₂ ⟨trivial, id⟩
  · exact .inl ⟨e, rfl, (h₁.trans h₂).trans h₃⟩
  obtain ⟨_, ⟨hbalanced, _⟩, _⟩ := hbalance
  have hbefore : Undisturbed a n n₃ := (h₁.trans h₂).trans h₃
  obtain ⟨e, hsubmit, rfl⟩ | ⟨txId, n₄, _, _, hsubmit, run₄, _⟩ := exec_bind.mp run₃
  · obtain ⟨r, ⟨n₄, hprovides, hothers⟩, _, he⟩ := (exec_call (E := Providers PS)).mp hsubmit
    cases r with
    | ok reply => cases he
    | error why =>
      obtain rfl := hprovides.2
      exact .inl ⟨e, rfl, hbefore.trans hothers⟩
  obtain ⟨⟨n₅, ⟨_, rfl⟩, hothers⟩, _⟩ := (exec_call_ok (E := Providers PS)).mp hsubmit
  obtain ⟨r, ⟨n₆, hwatch, hothers'⟩, _, rfl⟩ := (exec_call (E := Providers PS)).mp run₄
  cases r with
  | error why => exact absurd trivial hwatch.1.1
  | ok data =>
    have hsubmitted : n₄.submitted txId = some balanced := by
      rw [hothers.submitted]
      simp [ClientNetwork.handIn]
    have hdecided : n₄.Decided balanced data.status n₆ := by
      simpa only [Provides, hsubmitted] using hwatch
    obtain ⟨hstore, hhandedIn, happlied, hrefused⟩ := hdecided.frame (a := a)
    have hcontracts : balanced.contracts = options.unprovenTx.contracts :=
      hbalanced.trans hunbalanced
    refine .inr ⟨data, rfl, ?_, ⟨n₃, hbefore, ?_⟩, n₄, n₆, ?_, hothers'.rules, ?_, hrefused⟩
    · rw [hothers'.store, hstore, hothers.store]
      exact hbefore.store
    · rw [hothers'.handedIn, hhandedIn, hothers.handedIn, ← hcontracts, ← hbefore.handedIn]
      rfl
    · rw [hothers.rules]
      exact hbefore.rules
    · rw [← hcontracts]
      exact happlied

section Transact

variable {δ ρ : Type} {build : Promise PS δ} {options : δ → SubmitTxOptions}
  {failed : FinalizedTxData → ContractsError} {write : δ → Promise PS Unit}
  {result : δ → FinalizedTxData → ρ} {out : Except ContractsError ρ}
  {tr : List (Event (Providers PS))}

theorem exec_transact_sole (hbuild : build.Uses fun c : ProviderCall PS => c.Observes)
    (run : Exec (soleEnv a) (transact build options failed write result) n tr out n') :
    (∃ e, out = .error e ∧ Undisturbed a n n') ∨
      ∃ d n₁ n₂ data tr₁, Exec (soleEnv a) build n tr₁ (.ok d) n₁ ∧ Undisturbed a n n₁ ∧
        Finalized a n₁ (options d).unprovenTx.contracts data.status n₂ ∧
        ((∃ e, out = .error e ∧ data.status ≠ .SucceedEntirely ∧ n' = n₂) ∨
          data.status = .SucceedEntirely ∧ ∃ tr₂ written,
            Exec (soleEnv a) (write d) n₂ tr₂ written n' ∧
              out = written.map fun _ => result d data) := by
  rw [transact, Program.bind_eq, exec_bind] at run
  obtain ⟨e, hb, rfl⟩ | ⟨d, n₁, tr₁, tr₂, hb, run, rfl⟩ := run
  · exact .inl ⟨e, rfl, exec_undisturbed hb hbuild⟩
  have h₁ : Undisturbed a n n₁ := exec_undisturbed hb hbuild
  rw [Program.bind_eq, exec_bind] at run
  obtain ⟨e, hs, rfl⟩ | ⟨data, n₂, tr₃, tr₄, hs, run, rfl⟩ := run
  · obtain ⟨_, _, h₂⟩ | ⟨data, h, _⟩ := exec_submitTx_sole hs
    · exact .inl ⟨e, rfl, h₁.trans h₂⟩
    · cases h
  obtain ⟨_, h, _⟩ | ⟨_, h, hfinalized⟩ := exec_submitTx_sole hs
  · cases h
  cases h
  refine .inr ⟨d, n₁, n₂, data, tr₁, hb, h₁, hfinalized, ?_⟩
  by_cases hstatus : data.status = .SucceedEntirely
  · rw [if_neg (not_not.mpr hstatus), Program.bind_eq, exec_bind] at run
    refine .inr ⟨hstatus, ?_⟩
    obtain ⟨e, hw, rfl⟩ | ⟨_, n₃, tr₅, tr₆, hw, run, rfl⟩ := run
    · exact ⟨tr₄, .error e, hw, rfl⟩
    · obtain ⟨_, rfl, rfl⟩ := exec_resolve.mp run
      exact ⟨tr₅, .ok (), hw, rfl⟩
  · rw [if_pos hstatus] at run
    obtain ⟨_, rfl, rfl⟩ := exec_reject.mp run
    exact .inl ⟨_, rfl, hstatus, rfl⟩

end Transact

end Network

end MidnightJs
