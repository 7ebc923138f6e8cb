import MidnightJs.Contracts.SoleMaintainer

/-! # Maintenance by one client stays in step

A `Standing` is what the owner of a contract means to have: one signing key, which is stored and
whose verifying key is the authority of the contract, the operations and the counter. A resolved
maintenance operation moves the standing, and nothing else does. Store and chain follow the standing
through any session that begins with the deployment of the contract, and every update that the node
gets carries the counter and a signature of the authority of its time. -/

namespace MidnightJs
open Foundations Foundations.Js Foundations.Async
set_option autoImplicit false

section Standing

variable [Runtime] {PS : Type}

structure Standing where
  key : SigningKey
  operations : List (CircuitId × ContractOperation)
  counter : ℕ

namespace Standing

def authority (st : Standing) : ContractMaintenanceAuthority :=
  ⟨[signatureVerifyingKey st.key], 1, st.counter⟩

omit [Runtime] in
/-- The standing after a resolved operation. -/
def after (st : Standing) (op : MaintenanceOp) : Standing :=
  match op with
  | .insertVerifierKey _ circuitId newVk =>
    ⟨st.key, OrderedMap.set st.operations circuitId ⟨newVk⟩, st.counter + 1⟩
  | .removeVerifierKey _ circuitId =>
    ⟨st.key, OrderedMap.delete st.operations circuitId, st.counter + 1⟩
  | .replaceAuthority _ newAuthority => ⟨newAuthority, st.operations, st.counter + 1⟩

/-- Store and chain are as the standing says. -/
structure HoldsIn (st : Standing) (a : ContractAddress) (n : ClientNetwork PS) : Prop where
  stored : n.store.signingKeys a = some st.key
  nonempty : truthy st.key = true
  onChain : n.rules a = some (st.operations, st.authority)

theorem HoldsIn.congr {st : Standing} {a : ContractAddress} {n n' : ClientNetwork PS}
    (h : st.HoldsIn a n) (hkey : n'.store.signingKeys a = n.store.signingKeys a)
    (hrules : n'.rules a = n.rules a) : st.HoldsIn a n' :=
  ⟨hkey.trans h.stored, h.nonempty, hrules.trans h.onChain⟩

omit [Runtime] in
theorem after_nonempty {st : Standing} {op : MaintenanceOp} (h : truthy st.key = true)
    (hkey : ∀ a k, op = .replaceAuthority a k → truthy k = true) :
    truthy (st.after op).key = true := by
  cases op with
  | replaceAuthority a k => exact hkey a k rfl
  | insertVerifierKey a circuitId newVk => exact h
  | removeVerifierKey a circuitId => exact h

/-- The operations and the authority that the update of an operation leaves. -/
theorem rules_maintained (st : Standing) (op : MaintenanceOp) {s contractState : ContractState}
    (hs : s.rules = (st.operations, st.authority)) (sk : SigningKey) :
    (s.maintained (op.signed contractState sk)).rules =
      ((st.after op).operations, (st.after op).authority) := by
  obtain ⟨hoperations, hauthority⟩ := Prod.mk.inj hs
  have hcounter : s.counter = st.counter := by
    unfold ContractState.counter
    rw [hauthority]
    rfl
  cases op with
  | insertVerifierKey a circuitId newVk =>
    change (OrderedMap.set s.operations circuitId ⟨newVk⟩,
      { s.maintenanceAuthority with counter := s.counter + 1 }) = _
    rw [hoperations, hauthority, hcounter]
    rfl
  | removeVerifierKey a circuitId =>
    change (OrderedMap.delete s.operations circuitId,
      { s.maintenanceAuthority with counter := s.counter + 1 }) = _
    rw [hoperations, hauthority, hcounter]
    rfl
  | replaceAuthority a newAuthority =>
    change (s.operations, ContractMaintenanceAuthority.mk [signatureVerifyingKey newAuthority] 1
      (s.counter + 1)) = _
    rw [hoperations, hcounter]
    rfl

end Standing

/-! ## Updates that the node gets -/

/-- A signature verifies under the verifying key of its signer. -/
def SignaturesVerify : Prop :=
  ∀ (sk : SigningKey) (data : MaintenanceData),
    verifySignature (signatureVerifyingKey sk) data (signData sk data) = true

/-- The update carries the counter of the contract, and a signature of index 0 that verifies under
the one key of its authority. -/
structure Carries (update : MaintenanceUpdate) (s : ContractState) : Prop where
  counter : update.counter = s.counter
  signature : ∃ vk signature, s.maintenanceAuthority.committee = [vk] ∧
    update.signatures = [(0, signature)] ∧ verifySignature vk update.dataToSign signature = true
  accepted : s.maintenanceAuthority.Accepts update

/-- Every update that the node got was good for the contract of its time. -/
def HandsInGoodUpdates (a : ContractAddress) (n : ClientNetwork PS) : Prop :=
  ∀ e ∈ n.handedIn, e.1.address = a → ∃ s, e.2 = some s ∧ Carries e.1 s

theorem carries_signed (hsignatures : SignaturesVerify) (st : Standing) (op : MaintenanceOp)
    {s contractState : ContractState} (hs : s.rules = (st.operations, st.authority))
    (hread : contractState.rules = (st.operations, st.authority)) :
    Carries (op.signed contractState st.key) s := by
  have hauthority : s.maintenanceAuthority = st.authority := (Prod.mk.inj hs).2
  have hauthority' : contractState.maintenanceAuthority = st.authority := (Prod.mk.inj hread).2
  have hcounter : contractState.counter = s.counter := by
    unfold ContractState.counter
    rw [hauthority, hauthority']
  let data : MaintenanceData := ⟨op.address, [op.update contractState], contractState.counter⟩
  have hverifies := hsignatures st.key data
  refine ⟨hcounter, ⟨_, signData st.key data, ?_, rfl, hverifies⟩, hcounter, ?_⟩
  · rw [hauthority]
    rfl
  · rw [hauthority]
    have hsigned : st.authority.signedBy data (0, signData st.key data) = true := hverifies
    change 1 ≤ ([(0, signData st.key data)].filter (st.authority.signedBy data)).length
    simp [hsigned]

/-! ## A maintenance operation -/

variable {a : ContractAddress} {n n' : ClientNetwork PS} {tr : List (Event (Providers PS))}
  {op : MaintenanceOp}

theorem uses_maintenanceBuild (op : MaintenanceOp) :
    (maintenanceBuild op.address op.check op.tx : Promise PS _).Uses
      fun c : ProviderCall PS => c.Observes := by
  refine Program.uses_bind (Program.uses_ofExcept _) fun _ => ?_
  refine Program.uses_bind (Program.uses_call (E := Providers PS) ⟨trivial, id⟩) fun _ => ?_
  refine Program.uses_bind (Program.uses_ofExcept _) fun _ => ?_
  refine Program.uses_bind (Program.uses_ofExcept _) fun _ => ?_
  refine Program.uses_bind (Program.uses_call (E := Providers PS) ⟨trivial, id⟩) fun _ => ?_
  exact Program.uses_bind (Program.uses_ofExcept _) fun _ => trivial

/-- The update is made of the contract on the chain and the stored key. -/
theorem exec_maintenanceBuild_sole {tx : UnprovenTransaction}
    (run : Exec (soleEnv a) (maintenanceBuild op.address op.check op.tx) n tr (.ok tx) n') :
    ∃ contractState sk, tx = op.tx contractState sk ∧ (op.address = a →
      n.rules a = some contractState.rules ∧ n.store.signingKeys a = some sk) := by
  obtain ⟨_, h, _⟩ | ⟨_, _, run₁⟩ := exec_sync_bind_sole run
  · cases h
  obtain ⟨_, h, _⟩ | ⟨reply, n₁, _, hquery, h₁, run₂⟩ := exec_observe_bind run₁ ⟨trivial, id⟩
  · cases h
  obtain ⟨_, h, _⟩ | ⟨contractState, hstate, run₃⟩ := exec_sync_bind_sole run₂
  · cases h
  obtain ⟨_, h, _⟩ | ⟨_, _, run₄⟩ := exec_sync_bind_sole run₃
  · cases h
  obtain ⟨_, h, _⟩ | ⟨reply', n₂, _, hkey, _, run₅⟩ := exec_observe_bind run₄ ⟨trivial, id⟩
  · cases h
  obtain ⟨_, h, _⟩ | ⟨sk, hsk, run₆⟩ := exec_sync_bind_sole run₅
  · cases h
  obtain ⟨_, htx, _⟩ := exec_resolve.mp run₆
  cases htx
  obtain ⟨rfl, _⟩ := assertDefined_eq_ok.mp hstate
  obtain ⟨rfl, _⟩ := assertDefined_eq_ok.mp hsk
  obtain ⟨_, ⟨hcontract, _⟩, _⟩ := hquery
  obtain ⟨_, ⟨⟨hstored, _⟩, _⟩, _⟩ := hkey
  refine ⟨contractState, sk, rfl, ?_⟩
  rintro rfl
  constructor
  · unfold ClientNetwork.rules
    rw [← hcontract]
    rfl
  · rw [hstored, h₁.store]

/-- What an operation stores is the signing key of its contract only. -/
theorem exec_write_sole {out : Except ContractsError Unit}
    (run : Exec (soleEnv a) (op.write : Promise PS Unit) n tr out n') :
    out = .ok () ∧ SameChain a n n' ∧
      (op.address ≠ a → n'.store.signingKeys a = n.store.signingKeys a) ∧
      (op.address = a → ∀ st : Standing, n.store.signingKeys a = some st.key →
        n'.store.signingKeys a = some (st.after op).key) := by
  cases op with
  | replaceAuthority a' k =>
    obtain ⟨hout, _, _, hstore⟩ := writesExactly_setSigningKey a' k _ _ _ _ (exec_storeEnv run)
    have huses : (provide (.setSigningKey a' k) : Promise PS Unit).Uses
        fun c : ProviderCall PS => c.KeepsChain :=
      Program.uses_call (E := Providers PS) trivial
    refine ⟨hout, exec_sameChain run huses, ?_, ?_⟩
    · intro haddress
      rw [hstore]
      exact PrivateStore.setSigningKey_signingKeys_of_ne (Ne.symm haddress)
    · rintro rfl st -
      rw [hstore]
      exact PrivateStore.setSigningKey_signingKeys_self
  | insertVerifierKey a' circuitId newVk =>
    obtain ⟨_, rfl, rfl⟩ := exec_resolve.mp run
    exact ⟨rfl, .refl _, fun _ => rfl, fun _ st hstored => hstored⟩
  | removeVerifierKey a' circuitId =>
    obtain ⟨_, rfl, rfl⟩ := exec_resolve.mp run
    exact ⟨rfl, .refl _, fun _ => rfl, fun _ st hstored => hstored⟩

/-- A decided maintenance update: what the node got, and the contract it leaves. -/
theorem Finalized.maintenance {update : MaintenanceUpdate} {status : TxStatus}
    (h : Finalized a n [.maintenanceUpdate update] status n') :
    (∃ about, n'.handedIn = n.handedIn ++ [(update, about)] ∧
      (update.address = a → about.map ContractState.rules = n.rules a)) ∧
    (update.address = a → status = .SucceedEntirely →
      ∃ s : ContractState, n.rules a = some s.rules ∧
        n'.rules a = some (s.maintained update).rules) ∧
    (¬ (update.address = a ∧ status = .SucceedEntirely) → n'.rules a = n.rules a) := by
  obtain ⟨n₁, h₁, hhandedIn⟩ := h.handedIn
  obtain ⟨n₂, n₃, hbefore, hafter, happlied, hrefused⟩ := h.decided
  refine ⟨⟨n₁.contracts update.address, hhandedIn, ?_⟩, ?_, ?_⟩
  · rintro rfl
    exact h₁.rules
  · rintro rfl hstatus
    obtain ⟨s, hs, _, hcontracts⟩ := applyAll_singleton.mp (happlied hstatus)
    refine ⟨s, ?_, ?_⟩
    · rw [← hbefore, ClientNetwork.rules, hs]
      rfl
    · rw [hafter, ClientNetwork.rules, hcontracts, Function.update_self]
      rfl
  · intro hnot
    rw [hafter, ← hbefore]
    by_cases hstatus : status = .SucceedEntirely
    · obtain ⟨s, hs, _, hcontracts⟩ := applyAll_singleton.mp (happlied hstatus)
      have hne : a ≠ update.address := fun h => hnot ⟨h.symm, hstatus⟩
      rw [ClientNetwork.rules, hcontracts, Function.update_of_ne hne]
      rfl
    · exact hrefused hstatus

theorem HandsInGoodUpdates.append (h : HandsInGoodUpdates a n) {update : MaintenanceUpdate}
    {about : Option ContractState} (hhandedIn : n'.handedIn = n.handedIn ++ [(update, about)])
    (hgood : update.address = a → ∃ s, about = some s ∧ Carries update s) :
    HandsInGoodUpdates a n' := by
  intro e he haddress
  rw [hhandedIn, List.mem_append, List.mem_singleton] at he
  obtain hold | rfl := he
  · exact h e hold haddress
  · exact hgood haddress

theorem HandsInGoodUpdates.congr (h : HandsInGoodUpdates a n) (hhandedIn : n'.handedIn = n.handedIn) :
    HandsInGoodUpdates a n' := by
  unfold HandsInGoodUpdates
  rwa [hhandedIn]

/-- The standing after an operation that has settled. -/
def Standing.settled (st : Standing) (a : ContractAddress) (op : MaintenanceOp)
    (out : Except ContractsError FinalizedTxData) : Standing :=
  match out with
  | .ok _ => if op.address = a then st.after op else st
  | .error _ => st

theorem maintenance_keeps_in_step (hsignatures : SignaturesVerify) {st : Standing}
    (hst : st.HoldsIn a n) (hgood : HandsInGoodUpdates a n)
    (hkey : ∀ k, op = .replaceAuthority a k → truthy k = true)
    {out : Except ContractsError FinalizedTxData}
    (run : Exec (soleEnv a) (op.program : Promise PS _) n tr out n') :
    (st.settled a op out).HoldsIn a n' ∧ HandsInGoodUpdates a n' := by
  rw [op.program_eq] at run
  obtain ⟨e, rfl, h⟩ | ⟨tx, n₁, n₂, data, tr₁, hbuild, h₁, hfinalized, hrest⟩ :=
    exec_transact_sole (uses_maintenanceBuild op) run
  · refine ⟨hst.congr ?_ h.rules, hgood.congr h.handedIn⟩
    rw [h.store]
  obtain ⟨contractState, sk, rfl, hown⟩ := exec_maintenanceBuild_sole hbuild
  rw [op.contracts_tx] at hfinalized
  obtain ⟨⟨about, hhandedIn, habout⟩, happlied, hkept⟩ := hfinalized.maintenance
  have hst₁ : st.HoldsIn a n₁ := hst.congr (by rw [h₁.store]) h₁.rules
  have hgood₂ : HandsInGoodUpdates a n₂ := by
    refine (hgood.congr h₁.handedIn).append hhandedIn fun haddress => ?_
    obtain ⟨hrules, hstored⟩ := hown haddress
    have hread : contractState.rules = (st.operations, st.authority) :=
      Option.some.inj (hrules.symm.trans hst.onChain)
    obtain rfl : sk = st.key := Option.some.inj (hstored.symm.trans hst.stored)
    obtain ⟨s, rfl, hs⟩ := Option.map_eq_some_iff.mp ((habout haddress).trans hst₁.onChain)
    exact ⟨s, rfl, carries_signed hsignatures st op hs hread⟩
  obtain ⟨e, rfl, hstatus, rfl⟩ | ⟨hstatus, tr₂, written, hwrite, rfl⟩ := hrest
  · refine ⟨hst₁.congr (by rw [hfinalized.store]) (hkept fun h => hstatus h.2), hgood₂⟩
  obtain ⟨rfl, hsame, hother, hown'⟩ := exec_write_sole hwrite
  refine ⟨?_, hgood₂.congr hsame.handedIn⟩
  change (if op.address = a then st.after op else st).HoldsIn a n'
  by_cases haddress : op.address = a
  · obtain ⟨s, hs, hs'⟩ := happlied haddress hstatus
    have hrules : s.rules = (st.operations, st.authority) :=
      Option.some.inj (hs.symm.trans hst₁.onChain)
    have hstored₂ : n₂.store.signingKeys a = some st.key := by
      rw [hfinalized.store]
      exact hst₁.stored
    rw [if_pos haddress]
    refine ⟨hown' haddress st hstored₂, Standing.after_nonempty hst.nonempty ?_, ?_⟩
    · rintro a' k rfl
      obtain rfl : a' = a := haddress
      exact hkey k rfl
    · rw [hsame.rules, hs', st.rules_maintained op hrules]
  · rw [if_neg haddress]
    refine hst₁.congr ?_ (hsame.rules.trans (hkept fun h => haddress h.1))
    rw [hother haddress, hfinalized.store]

/-! ## Finds and calls -/

variable [Undefined PS] {st : Standing}

theorem uses_findDeployedContract (providers : ContractProviders)
    (options : FindDeployedContractOptions PS) :
    (findDeployedContract providers options).Uses fun c : ProviderCall PS => c.KeepsChain := by
  have hsample : (setOrGetInitialSigningKey.getOrSampleSigningKey options).Uses
      fun c : ProviderCall PS => c.KeepsChain := by
    refine Program.uses_bind (Program.uses_call (E := Providers PS) trivial) fun stored => ?_
    have hfresh : (setOrGetInitialSigningKey.storeFreshSigningKey options).Uses
        fun c : ProviderCall PS => c.KeepsChain := by
      refine Program.uses_bind (Program.uses_call (E := Providers PS) trivial) fun _ => ?_
      exact Program.uses_bind (Program.uses_call (E := Providers PS) trivial) fun _ => trivial
    split
    · split
      · trivial
      · exact hfresh
    · exact hfresh
  rw [findDeployedContract_eq]
  refine Program.uses_bind ((prepares_foundChecks options).uses.mono fun c hc => ?_) fun _ => ?_
  · cases c <;> trivial
  refine Program.uses_bind ?_ fun _ => Program.uses_bind ?_ fun _ => ?_
  · unfold setOrGetInitialSigningKey
    split
    · split
      · exact Program.uses_bind (Program.uses_call (E := Providers PS) trivial) fun _ => trivial
      · exact hsample
    · exact hsample
  · unfold setOrGetInitialPrivateState
    split
    · exact Program.uses_bind (Program.uses_call (E := Providers PS) trivial) fun _ => trivial
    · refine Program.uses_bind (Program.uses_call (E := Providers PS) trivial) fun _ => ?_
      exact Program.uses_ofExcept _
    · trivial
    · trivial
  · refine Program.uses_bind (Program.uses_ofExcept _) fun _ => ?_
    refine Program.uses_bind (Program.uses_ofExcept _) fun _ => ?_
    exact Program.uses_bind (Program.uses_ofExcept _) fun _ => trivial

/-- A find that gives no key keeps the stored one. -/
theorem find_keeps_in_step {providers : ContractProviders}
    {options : FindDeployedContractOptions PS} {out : Except ContractsError (FoundContract PS)}
    (hst : st.HoldsIn a n) (hgood : HandsInGoodUpdates a n) (hgiven : options.signingKey = none)
    (run : Exec (soleEnv a) (findDeployedContract providers options) n tr out n') :
    st.HoldsIn a n' ∧ HandsInGoodUpdates a n' := by
  have hsame := exec_sameChain run (uses_findDeployedContract providers options)
  have hstored := CustodyOp.key_kept (.find providers options) (exec_storeEnv run) rfl hgiven
    hst.stored ((truthy_string _).mp hst.nonempty)
  exact ⟨⟨hstored, hst.nonempty, hsame.rules.trans hst.onChain⟩, hgood.congr hsame.handedIn⟩

theorem returns_callBuild (providers : ContractProviders) (options : CallTxOptions PS) :
    (callBuild providers options).Returns fun d =>
      ∃ call, d.private.unprovenTx.contracts = [.call call] := by
  have hfrom : ∀ (callOptions : CallOptions PS) (cpk epk : JsString),
      (createUnprovenCallTxFromInitialStates callOptions cpk epk).Returns fun d =>
        ∃ call, d.private.unprovenTx.contracts = [.call call] := by
    intro callOptions cpk epk
    refine Program.returns_bind (Program.returns_true _) fun _ _ => ?_
    refine Program.returns_bind (Program.returns_true _) fun _ _ => ?_
    refine Program.returns_bind (Program.returns_true _) fun _ _ => ?_
    refine Program.returns_bind (Program.returns_true _) fun _ _ => ?_
    refine Program.returns_bind (φ := fun tx => ∃ call, tx.contracts = [.call call]) ?_
      fun tx htx => ?_
    · refine Program.returns_bind (Program.returns_true _) fun op _ => ?_
      refine Program.returns_bind (Program.returns_true _) fun offer _ => ?_
      exact Program.returns_bind (Program.returns_true _) fun _ _ => ⟨_, rfl⟩
    · exact Program.returns_bind (Program.returns_true _) fun _ _ => htx
  refine Program.returns_bind (Program.returns_true _) fun _ _ => ?_
  refine Program.returns_bind (Program.returns_true _) fun _ _ => ?_
  split
  · trivial
  refine Program.returns_bind (Program.returns_true _) fun _ _ => ?_
  refine Program.returns_bind (Program.returns_true _) fun _ _ => ?_
  split
  · split
    · trivial
    · refine Program.returns_bind (Program.returns_true _) fun _ _ => ?_
      refine Program.returns_bind (Program.returns_true _) fun _ _ => ?_
      exact Program.returns_bind (Program.returns_true _) fun _ _ => hfrom _ _ _
  · refine Program.returns_bind (Program.returns_true _) fun _ _ => ?_
    refine Program.returns_bind (Program.returns_true _) fun _ _ => ?_
    exact Program.returns_bind (Program.returns_true _) fun _ _ => hfrom _ _ _

omit [Undefined PS] in
theorem uses_setPrivateState (id : Option PrivateStateId) (v : PS) :
    (setPrivateState id v).Uses fun c : ProviderCall PS => c.KeepsChain := by
  cases id with
  | none => trivial
  | some id => exact Program.uses_call (E := Providers PS) trivial

omit [Undefined PS] in
/-- A call changes neither operations nor authority. -/
theorem Finalized.call {c : ContractCallPrototype} {status : TxStatus}
    (h : Finalized a n [.call c] status n') :
    n'.handedIn = n.handedIn ∧ n'.rules a = n.rules a := by
  obtain ⟨n₁, _, hhandedIn⟩ := h.handedIn
  obtain ⟨n₂, n₃, hbefore, hafter, happlied, hrefused⟩ := h.decided
  refine ⟨?_, ?_⟩
  · rw [hhandedIn]
    exact List.append_nil _
  · rw [hafter, ← hbefore]
    by_cases hstatus : status = .SucceedEntirely
    · obtain ⟨data, hcontracts⟩ := applyAll_singleton.mp (happlied hstatus)
      unfold ClientNetwork.rules
      rw [hcontracts]
      by_cases ha : a = c.address
      · subst ha
        rw [Function.update_self, Option.map_map]
        rfl
      · rw [Function.update_of_ne ha]
    · exact hrefused hstatus

theorem call_keeps_in_step {providers : ContractProviders} {options : CallTxOptions PS}
    {out : Except ContractsError (FinalizedCallTxData PS)}
    (hst : st.HoldsIn a n) (hgood : HandsInGoodUpdates a n)
    (run : Exec (soleEnv a) (submitCallTx providers options) n tr out n') :
    st.HoldsIn a n' ∧ HandsInGoodUpdates a n' := by
  rw [submitCallTx_eq] at run
  have huses := (prepares_callBuild providers options).uses.mono fun _ h => h.observes
  obtain ⟨e, rfl, h⟩ | ⟨d, n₁, n₂, data, tr₁, hbuild, h₁, hfinalized, hrest⟩ :=
    exec_transact_sole huses run
  · refine ⟨hst.congr ?_ h.rules, hgood.congr h.handedIn⟩
    rw [h.store]
  obtain ⟨call, hcall⟩ := hbuild.returns (returns_callBuild providers options)
  rw [hcall] at hfinalized
  obtain ⟨hhandedIn, hrules⟩ := hfinalized.call
  have hst₂ : st.HoldsIn a n₂ := by
    refine hst.congr ?_ (hrules.trans h₁.rules)
    rw [hfinalized.store, h₁.store]
  have hgood₂ : HandsInGoodUpdates a n₂ := hgood.congr (hhandedIn.trans h₁.handedIn)
  obtain ⟨e, rfl, _, rfl⟩ | ⟨_, tr₂, written, hwrite, rfl⟩ := hrest
  · exact ⟨hst₂, hgood₂⟩
  have hsame := exec_sameChain hwrite (uses_setPrivateState _ _)
  obtain ⟨_, _, _, hstore⟩ := writesExactly_setPrivateState _ _ _ _ _ _ (exec_storeEnv hwrite)
  refine ⟨hst₂.congr ?_ hsame.rules, hgood₂.congr hsame.handedIn⟩
  rw [hstore, PrivateStore.setAt_signingKeys]

/-! ## The deployment -/

theorem returns_createUnprovenDeployTx (providers : ContractProviders)
    (options : DeployTxOptions PS) :
    (createUnprovenDeployTx providers options).Returns fun d =>
      d.private.unprovenTx.contracts =
        [.deploy ⟨d.public.contractAddress, d.public.initialContractState⟩] ∧
      d.public.initialContractState.maintenanceAuthority =
        ⟨[signatureVerifyingKey options.signingKey], 1, 0⟩ ∧
      d.private.signingKey = options.signingKey := by
  refine Program.returns_bind (Program.returns_true _) fun verifierKeys _ => ?_
  refine Program.returns_bind (Program.returns_true _) fun coinPublicKey _ => ?_
  refine Program.returns_bind (Program.returns_true _) fun constructed _ => ?_
  refine Program.returns_bind (φ := fun res : ContractAddress × ContractState × UnprovenTransaction =>
    res.2.2.contracts = [.deploy ⟨res.1, res.2.1⟩] ∧ res.2.1.maintenanceAuthority =
      ⟨[signatureVerifyingKey options.signingKey], 1, 0⟩) ?_ fun res hres => ⟨hres.1, hres.2, rfl⟩
  refine Program.returns_bind (Program.returns_true _) fun withVerifierKeys _ => ?_
  refine Program.returns_bind (Program.returns_true _) fun address _ => ?_
  exact Program.returns_bind (Program.returns_true _) fun offer _ => ⟨rfl, rfl⟩

/-- The standing at the deployment. -/
def Standing.deployed (options : DeployTxOptions PS) (initialContractState : ContractState) :
    Standing :=
  ⟨options.signingKey, initialContractState.operations, 0⟩

theorem deployment_sets_standing {providers : ContractProviders} {options : DeployTxOptions PS}
    {r : FinalizedDeployTxData PS} (hkey : truthy options.signingKey = true)
    (hgood : HandsInGoodUpdates r.public.contractAddress n)
    (run : Exec (soleEnv r.public.contractAddress) (submitDeployTx providers options) n tr (.ok r)
      n') :
    (Standing.deployed options r.public.initialContractState).HoldsIn r.public.contractAddress n' ∧
      HandsInGoodUpdates r.public.contractAddress n' := by
  rw [submitDeployTx_eq] at run
  have huses := (prepares_createUnprovenDeployTx NoOther providers options).uses.mono
    fun _ h => h.observes
  obtain ⟨_, h, _⟩ | ⟨d, n₁, n₂, data, tr₁, hbuild, h₁, hfinalized, hrest⟩ :=
    exec_transact_sole huses run
  · cases h
  obtain ⟨_, h, _⟩ | ⟨hstatus, tr₂, written, hwrite, hout⟩ := hrest
  · cases h
  have hwrites := (writesExactly_setPrivateState options.privateStateId
    d.private.initialPrivateState).bind
    (writesExactly_setSigningKey d.public.contractAddress d.private.signingKey)
  obtain ⟨rfl, _, _, hstore⟩ := hwrites _ _ _ _ (exec_storeEnv hwrite)
  cases hout
  have hsame : SameChain d.public.contractAddress n₂ n' := by
    refine exec_sameChain hwrite (Program.uses_bind (uses_setPrivateState _ _) fun _ => ?_)
    exact Program.uses_call (E := Providers PS) trivial
  obtain ⟨hcontracts, hauthority, hsigningKey⟩ :=
    hbuild.returns (returns_createUnprovenDeployTx providers options)
  rw [hcontracts] at hfinalized
  obtain ⟨n₃, n₄, _, hafter, happlied, _⟩ := hfinalized.decided
  obtain ⟨_, _, hhandedIn⟩ := hfinalized.handedIn
  have hdeployed : n₄.contracts = Function.update n₃.contracts d.public.contractAddress
      (some d.public.initialContractState) :=
    applyAll_singleton.mp (happlied hstatus)
  refine ⟨⟨?_, hkey, ?_⟩, (hgood.congr h₁.handedIn).congr ?_⟩
  · rw [hstore, hsigningKey]
    exact PrivateStore.setSigningKey_signingKeys_self
  · change n'.rules d.public.contractAddress = some (d.public.initialContractState.operations,
      ⟨[signatureVerifyingKey options.signingKey], 1, 0⟩)
    rw [hsame.rules, hafter, ClientNetwork.rules, hdeployed, Function.update_self, ← hauthority]
    rfl
  · rw [hsame.handedIn, hhandedIn]
    exact List.append_nil _

/-! ## Sessions -/

variable (PS) in
inductive OwnerOp
  | maintain (op : MaintenanceOp)
  | find (providers : ContractProviders) (options : FindDeployedContractOptions PS)
  | call (providers : ContractProviders) (options : CallTxOptions PS)

namespace OwnerOp

def Result : OwnerOp PS → Type
  | .maintain _ => FinalizedTxData
  | .find _ _ => FoundContract PS
  | .call _ _ => FinalizedCallTxData PS

def program : (op : OwnerOp PS) → Promise PS op.Result
  | .maintain op => op.program
  | .find providers options => findDeployedContract providers options
  | .call providers options => submitCallTx providers options

/-- New keys are not empty, and a find gives no key. -/
def Allowed : OwnerOp PS → Prop
  | .maintain (.replaceAuthority _ newAuthority) => truthy newAuthority = true
  | .find _ options => options.signingKey = none
  | _ => True

/-- The standing after an operation that has settled: only a maintenance operation moves it. -/
def standing (a : ContractAddress) (st : Standing) :
    (op : OwnerOp PS) → Except ContractsError op.Result → Standing
  | .maintain op, out => st.settled a op out
  | _, _ => st

end OwnerOp

variable (PS) in
def owner : Service (Providers PS) ContractsError :=
  ⟨OwnerOp PS, OwnerOp.Result, OwnerOp.program⟩

def Standing.performed (a : ContractAddress) (st : Standing)
    (d : Performed (owner PS) (ClientNetwork PS)) : Standing :=
  OwnerOp.standing a st d.op d.outcome

theorem OwnerOp.keeps_in_step (hsignatures : SignaturesVerify) (op : OwnerOp PS)
    (hallowed : op.Allowed) {out : Except ContractsError op.Result}
    (hst : st.HoldsIn a n) (hgood : HandsInGoodUpdates a n)
    (run : Exec (soleEnv a) op.program n tr out n') :
    (op.standing a st out).HoldsIn a n' ∧ HandsInGoodUpdates a n' := by
  cases op with
  | maintain op =>
    refine maintenance_keeps_in_step hsignatures hst hgood ?_ run
    rintro k rfl
    exact hallowed
  | find providers options => exact find_keeps_in_step hst hgood hallowed run
  | call providers options => exact call_keeps_in_step hst hgood run

/-- The verifying key of the stored signing key is the one authority key of the contract. -/
def ClientNetwork.KeyIsAuthority (n : ClientNetwork PS) (a : ContractAddress) : Prop :=
  ∃ sk s, n.store.signingKeys a = some sk ∧ n.contracts a = some s ∧
    s.maintenanceAuthority.committee = [signatureVerifyingKey sk] ∧
    s.maintenanceAuthority.threshold = 1

omit [Undefined PS] in
theorem Standing.HoldsIn.keyIsAuthority (h : st.HoldsIn a n) : n.KeyIsAuthority a := by
  obtain ⟨s, hs, hrules⟩ := Option.map_eq_some_iff.mp h.onChain
  have hauthority : s.maintenanceAuthority = st.authority := (Prod.mk.inj hrules).2
  refine ⟨st.key, s, h.stored, hs, ?_, ?_⟩
  · rw [hauthority]
    rfl
  · rw [hauthority]
    rfl

theorem maintenance_stays_in_step (hsignatures : SignaturesVerify)
    {providers : ContractProviders} {options : DeployTxOptions PS} {r : FinalizedDeployTxData PS}
    {n₀ n₁ n : ClientNetwork PS} {done : List (Performed (owner PS) (ClientNetwork PS))}
    (hhandedIn : n₀.handedIn = []) (hkey : truthy options.signingKey = true)
    (deployment : Exec (soleEnv r.public.contractAddress) (submitDeployTx providers options) n₀ tr
      (.ok r) n₁)
    (session : Session (soleEnv r.public.contractAddress) n₁ done n)
    (hallowed : ∀ d ∈ done, OwnerOp.Allowed d.op) :
    n.KeyIsAuthority r.public.contractAddress ∧ HandsInGoodUpdates r.public.contractAddress n ∧
      (done.foldl (Standing.performed r.public.contractAddress)
        (Standing.deployed options r.public.initialContractState)).HoldsIn
          r.public.contractAddress n := by
  have hgood : HandsInGoodUpdates r.public.contractAddress n₀ := by
    intro e he
    rw [hhandedIn] at he
    cases he
  have h := session.foldl_rel
    (R := fun n (st : Standing) => st.HoldsIn r.public.contractAddress n ∧
      HandsInGoodUpdates r.public.contractAddress n)
    (deployment_sets_standing hkey hgood deployment) fun d hd valid st hst =>
      OwnerOp.keeps_in_step hsignatures d.op (hallowed d hd) hst.1 hst.2 valid
  exact ⟨h.1.keyIsAuthority, h.2, h.1⟩

end Standing

/-! ## A session on concrete inputs -/

namespace Sample

def emptyNetwork : ClientNetwork (Option ℕ) := ⟨store none none, fun _ => none, fun _ => none, []⟩

/-- A transaction of one entry is applied if it can be. -/
def applied (entries : List ContractsEntry) (contracts : ContractAddress → Option ContractState) :
    Option (ContractAddress → Option ContractState) :=
  match entries with
  | [.deploy d] => some (Function.update contracts d.address (some d.initialState))
  | [.maintenanceUpdate update] =>
    match contracts update.address with
    | some s =>
      if s.maintenanceAuthority.Accepts update then
        some (Function.update contracts update.address (some (s.maintained update)))
      else none
    | none => none
  | _ => none

theorem applyAll_applied {entries : List ContractsEntry}
    {contracts contracts' : ContractAddress → Option ContractState}
    (h : applied entries contracts = some contracts') : ApplyAll entries contracts contracts' := by
  unfold applied at h
  split at h
  · cases h
    exact applyAll_singleton.mpr rfl
  · split at h
    · next s hs =>
      split at h
      · next haccepts =>
        cases h
        exact applyAll_singleton.mpr ⟨s, hs, haccepts, rfl⟩
      · cases h
    · cases h
  · cases h

def freshTxIds : List TransactionId := (List.range 8).map naturalText

def soleHandler (c : ProviderCall (Option ℕ)) (n : ClientNetwork (Option ℕ)) :
    (Providers (Option ℕ)).Settled c × ClientNetwork (Option ℕ) :=
  match c with
  | .queryContractState a => (.ok (n.contracts a), n)
  | .queryZSwapAndContractState a => (.ok ((n.contracts a).map fun s => ((), s)), n)
  | .submitTx tx =>
    match freshTxIds.find? fun txId => (n.submitted txId).isNone with
    | some txId => (.ok txId, n.handIn txId tx)
    | none => (.error (.error (js "no id")), n)
  | .watchForTxData txId =>
    match (n.submitted txId).bind fun tx => applied tx.contracts n.contracts with
    | some contracts => (.ok (finalized .SucceedEntirely), { n with contracts := contracts })
    | none => (.ok (finalized .FailEntirely), n)
  | c =>
    let r := storeHandler (reply .SucceedEntirely) c n.store
    (r.1, { n with store := r.2 })

theorem soleEnv_soleHandler (a : ContractAddress) (c : ProviderCall (Option ℕ))
    (n : ClientNetwork (Option ℕ)) : soleEnv a c n (soleHandler c n).1 (soleHandler c n).2 := by
  refine ⟨_, ?_, .refl _⟩
  cases c with
  | queryContractState a => exact ⟨rfl, rfl⟩
  | queryZSwapAndContractState a => exact ⟨by simp [Function.comp_def], rfl⟩
  | submitTx tx =>
    simp only [soleHandler]
    split
    · next txId hfind => exact ⟨by simpa using List.find?_some hfind, rfl⟩
    · exact ⟨⟨id, id⟩, rfl⟩
  | watchForTxData txId =>
    simp only [soleHandler]
    split
    · next contracts happlied =>
      obtain ⟨tx, htx, hcontracts⟩ := Option.bind_eq_some_iff.mp happlied
      simp only [Provides, htx]
      exact ⟨contracts, applyAll_applied hcontracts, rfl⟩
    · simp only [Provides]
      split
      · simp [ClientNetwork.Decided, finalized]
      · trivial
  | runCircuit circuit context args =>
    change Provides (.runCircuit circuit context args) n (circuit context args) n
    cases hr : circuit context args with
    | ok results => exact ⟨⟨hr, rfl⟩, rfl⟩
    | error why => exact ⟨⟨id, id⟩, rfl⟩
  | get id => exact ⟨⟨rfl, rfl⟩, rfl⟩
  | getSigningKey a => exact ⟨⟨rfl, rfl⟩, rfl⟩
  | _ => exact ⟨rfl, rfl⟩

def ownedOptions : DeployTxOptions (Option ℕ) :=
  ⟨contract 1, none, key 1, some (some 5), some (js "id")⟩

def ownerOps : List (OwnerOp (Option ℕ)) :=
  [.maintain (.insertVerifierKey address (js "decrement") [1]),
    .maintain (.replaceAuthority address (key 2)),
    .find providers (findOptions none none none),
    .maintain (.removeVerifierKey address circuitId)]

def ownerSession : List (Performed (owner (Option ℕ)) (ClientNetwork (Option ℕ))) ×
    ClientNetwork (Option ℕ) :=
  (owner (Option ℕ)).perform soleHandler ownerOps
    ((submitDeployTx providers ownedOptions).run soleHandler emptyNetwork).2.2

theorem signaturesVerify : SignaturesVerify := by
  intro sk data
  simp [verifySignature, signatureVerifyingKey, signData]

set_option maxRecDepth 4000 in
theorem maintenance_stays_in_step_sample :
    ownerSession.2.KeyIsAuthority address ∧ HandsInGoodUpdates address ownerSession.2 ∧
      ownerSession.2.handedIn.length = 3 ∧
      ownerSession.2.store.signingKeys address = some (key 2) := by
  have deployment := Program.exec_run (soleEnv_soleHandler address)
    (submitDeployTx providers ownedOptions) emptyNetwork
  obtain ⟨r, hr, haddress⟩ : ∃ r,
      ((submitDeployTx providers ownedOptions).run soleHandler emptyNetwork).2.1 = .ok r ∧
        r.public.contractAddress = address := ⟨_, rfl, rfl⟩
  rw [hr] at deployment
  have session : Session (soleEnv address)
      ((submitDeployTx providers ownedOptions).run soleHandler emptyNetwork).2.2
      ownerSession.1 ownerSession.2 :=
    session_perform (S := owner (Option ℕ)) (soleEnv_soleHandler address) ownerOps _
  have hops : ∀ op ∈ ownerOps, op.Allowed := by
    intro op hop
    simp only [ownerOps, List.mem_cons, List.not_mem_nil, or_false] at hop
    obtain rfl | rfl | rfl | rfl := hop
    · trivial
    · exact rfl
    · exact rfl
    · trivial
  have hallowed : ∀ d ∈ ownerSession.1, OwnerOp.Allowed d.op := by
    intro d hd
    exact hops d.op (mem_perform hd).1
  have h := maintenance_stays_in_step signaturesVerify rfl (by decide) (haddress ▸ deployment)
    (haddress ▸ session) hallowed
  rw [haddress] at h
  exact ⟨h.1, h.2.1, by decide, by decide⟩

end Sample

end MidnightJs
