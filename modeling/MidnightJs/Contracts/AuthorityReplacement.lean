import MidnightJs.Contracts.Network
import MidnightJs.Foundations.Interleaving

/-! # Replacing the maintenance authority concurrently

Any number of replacements of the authority of one contract. Each reads the contract state, then the
stored key, signs an update with that key and the counter of that state, and stores its own key once
the update was accepted. Between the acceptance and the store, the stored key is the old one: no
other update can be accepted in that time, since none is signed with the new key. The argument
needs that the old and the new key differ. A replacement of a key by itself leaves the stored key
valid, another update is accepted, and the late store puts the old key back. -/

namespace MidnightJs
open Foundations Foundations.Js Foundations.Async
set_option autoImplicit false

section Replacements

variable [Runtime] {PS : Type}

/-! ## A replacement as a party of a protocol -/

/-- The update that `submitReplaceAuthorityTx` signs. -/
def replacement (a : ContractAddress) (newAuthority : SigningKey) (counter : ℕ)
    (signer : SigningKey) : MaintenanceUpdate :=
  let update := MaintenanceUpdate.new a
    [.replaceAuthority ⟨[signatureVerifyingKey newAuthority], 1, counter + 1⟩] counter
  update.addSignature 0 (signData signer update.dataToSign)

theorem contracts_createUnprovenReplaceAuthorityTx (a : ContractAddress) (k sk : SigningKey)
    (contractState : ContractState) :
    (createUnprovenReplaceAuthorityTx a k contractState sk).contracts =
      [.maintenanceUpdate (replacement a k contractState.maintenanceAuthority.counter sk)] := rfl

/-- How far a replacement is. -/
inductive ReplacePhase
  | start
  | queried (counter : ℕ)
  | sending (counter : ℕ) (signer : SigningKey) (contracts : List ContractsEntry)
  | sent (counter : ℕ) (signer : SigningKey) (txId : TransactionId)
  | succeeded
  | failed
  | written

namespace ReplacePhase

/-- The calls to the providers that a replacement makes in a phase. -/
def Allows (a : ContractAddress) (k : SigningKey) : ReplacePhase → ProviderCall PS → Prop
  | start, .queryContractState a' => a' = a
  | queried _, .getSigningKey a' => a' = a
  | sending _ _ contracts, .proveTx tx _ => tx.contracts = contracts
  | sending _ _ contracts, .balanceTx tx _ => tx.contracts = contracts
  | sending _ _ contracts, .submitTx tx => tx.contracts = contracts
  | sent _ _ txId, .watchForTxData txId' => txId' = txId
  | succeeded, .setSigningKey a' k' => a' = a ∧ k' = k
  | _, _ => False

def next (a : ContractAddress) (k : SigningKey) : ReplacePhase → Event (Providers PS) → ReplacePhase
  | start, ⟨.queryContractState _, .ok (some contractState)⟩ =>
    queried contractState.maintenanceAuthority.counter
  | queried counter, ⟨.getSigningKey _, .ok (some signer)⟩ =>
    sending counter signer [.maintenanceUpdate (replacement a k counter signer)]
  | sending counter signer _, ⟨.proveTx _ _, .ok tx⟩ => sending counter signer tx.contracts
  | sending counter signer _, ⟨.balanceTx _ _, .ok tx⟩ => sending counter signer tx.contracts
  | sending counter signer _, ⟨.submitTx _, .ok txId⟩ => sent counter signer txId
  | sent _ _ _, ⟨.watchForTxData _, .ok data⟩ =>
    if data.status = .SucceedEntirely then succeeded else failed
  | succeeded, ⟨.setSigningKey _ _, .ok _⟩ => written
  | _, ⟨_, .error _⟩ => failed
  | phase, _ => phase

/-- The replacement has still to learn the fate of its transaction, or to store its key. -/
def IsOpen : ReplacePhase → Prop
  | sent _ _ _ | succeeded => True
  | _ => False

end ReplacePhase

def replaceProtocol (a : ContractAddress) (k : SigningKey) :
    Protocol (Providers PS) ReplacePhase where
  allowed := ReplacePhase.Allows a k
  next := ReplacePhase.next a k

theorem follows_sync_bind {Q α β : Type} {P : Protocol (Providers PS) Q}
    {final : Q → Except ContractsError β → Prop} {q : Q} {x : Except JsError α}
    {f : α → Promise PS β} (herror : ∀ e, final q (.error (.thrown e)))
    (hok : ∀ a, x = .ok a → (f a).Follows P final q) : (sync x >>= f).Follows P final q := by
  cases x with
  | ok a => exact hok a rfl
  | error e => exact herror e

/-- A replacement that has settled is not open. -/
theorem follows_submitReplaceAuthorityTx (a : ContractAddress) (k : SigningKey) :
    (submitReplaceAuthorityTx a k : Promise PS _).Follows (replaceProtocol a k)
      (fun phase _ => ¬ phase.IsOpen) .start := by
  refine follows_sync_bind (fun _ => id) fun _ _ => ?_
  refine Program.follows_call_bind (E := Providers PS) rfl (fun _ => id) fun reply => ?_
  refine follows_sync_bind (fun _ => ?_) fun contractState hstate => ?_
  · cases reply <;> exact id
  obtain ⟨rfl, _⟩ := assertDefined_eq_ok.mp hstate
  refine Program.follows_call_bind (E := Providers PS) rfl (fun _ => id) fun reply => ?_
  refine follows_sync_bind (fun _ => ?_) fun signer hsigner => ?_
  · cases reply <;> exact id
  obtain ⟨rfl, _⟩ := assertDefined_eq_ok.mp hsigner
  simp only [submitTx, zkConfigOf, Program.bind_eq, Program.bind_assoc, Program.pure_eq,
    Program.resolve_bind]
  refine Program.follows_call_bind (E := Providers PS) ?_ (fun _ => id) fun unbalanced => ?_
  · exact contracts_createUnprovenReplaceAuthorityTx a k signer contractState
  refine Program.follows_call_bind (E := Providers PS) rfl (fun _ => id) fun balanced => ?_
  refine Program.follows_call_bind (E := Providers PS) rfl (fun _ => id) fun txId => ?_
  refine Program.follows_call_bind (E := Providers PS) rfl (fun _ => id) fun data => ?_
  simp only [replaceProtocol, ReplacePhase.next]
  by_cases hstatus : data.status = .SucceedEntirely
  · rw [if_pos hstatus, if_neg (not_not.mpr hstatus)]
    exact Program.follows_call_bind (E := Providers PS) ⟨rfl, rfl⟩ (fun _ => id) fun _ => id
  · rw [if_neg hstatus, if_pos hstatus]
    exact id

/-! ## Signatures -/

/-- A signature verifies under the verifying key of its signer, and under no other. -/
def SignaturesIdentify : Prop :=
  ∀ (vk : VerifyingKey) (data : MaintenanceData) (signer : SigningKey),
    verifySignature vk data (signData signer data) = true ↔ vk = signatureVerifyingKey signer

theorem accepts_replacement (hsignatures : SignaturesIdentify)
    {authority : ContractMaintenanceAuthority} {vk : VerifyingKey}
    (hcommittee : authority.committee = [vk]) (hthreshold : authority.threshold = 1)
    {a : ContractAddress} {k signer : SigningKey} {counter : ℕ} :
    authority.Accepts (replacement a k counter signer) ↔
      counter = authority.counter ∧ vk = signatureVerifyingKey signer := by
  let data : MaintenanceData := ⟨a, [.replaceAuthority ⟨[signatureVerifyingKey k], 1, counter + 1⟩],
    counter⟩
  have hsigned : authority.signedBy data (0, signData signer data) = true ↔
      vk = signatureVerifyingKey signer := by
    rw [ContractMaintenanceAuthority.signedBy, hcommittee]
    exact hsignatures vk data signer
  change counter = authority.counter ∧ authority.threshold ≤
    ([(0, signData signer data)].filter (authority.signedBy data)).length ↔ _
  rw [hthreshold, ← hsigned]
  by_cases hs : authority.signedBy data (0, signData signer data) = true <;> simp [hs]

/-! ## The invariant -/

/-- The verifying key of the stored signing key is the authority of the contract. -/
def Network.KeyIsAuthority (n : Network) (a : ContractAddress) : Prop :=
  ∃ sk authority, n.signingKeys a = some sk ∧ n.authorities a = some authority ∧
    authority.committee = [signatureVerifyingKey sk] ∧ authority.threshold = 1

namespace ReplacePhase

/-- The update was accepted, and the key is not yet stored. -/
def Pending (n : Network) : ReplacePhase → Prop
  | sent _ _ txId => n.statuses txId = some .SucceedEntirely
  | succeeded => True
  | _ => False

/-- The counter and the signer of the update. -/
def signed : ReplacePhase → Option (ℕ × SigningKey)
  | sending counter signer _ | sent counter signer _ => some (counter, signer)
  | _ => none

/-- What a phase says about the network, when the authority has this counter. -/
def Holds (a : ContractAddress) (k : SigningKey) (current : ℕ) (n : Network) : ReplacePhase → Prop
  | queried counter => counter ≤ current
  | sending counter signer contracts => counter ≤ current ∧
    contracts = [.maintenanceUpdate (replacement a k counter signer)]
  | sent counter signer txId => counter ≤ current ∧ ∃ tx, n.submitted txId = some tx ∧
    tx.contracts = [.maintenanceUpdate (replacement a k counter signer)]
  | _ => True

theorem IsOpen.of_pending {n : Network} {q : ReplacePhase} (h : q.Pending n) : q.IsOpen := by
  cases q <;> trivial

end ReplacePhase

variable {ι : Type}

structure NonePending (n : Network) (phase : ι → ReplacePhase)
    (authority : ContractMaintenanceAuthority) (sk : SigningKey) : Prop where
  none : ∀ i, ¬ (phase i).Pending n
  committee : authority.committee = [signatureVerifyingKey sk]

/-- Only the replacement `i` is pending, and no update signed so far can be accepted. -/
structure OnePending (newAuthority : ι → SigningKey) (n : Network) (phase : ι → ReplacePhase)
    (authority : ContractMaintenanceAuthority) (sk : SigningKey) (i : ι) : Prop where
  pending : (phase i).Pending n
  only : ∀ j, (phase j).Pending n → j = i
  committee : authority.committee = [signatureVerifyingKey (newAuthority i)]
  stale : signatureVerifyingKey (newAuthority i) ≠ signatureVerifyingKey sk
  others : ∀ j counter signer, (phase j).signed = some (counter, signer) →
    counter = authority.counter →
    signatureVerifyingKey (newAuthority i) ≠ signatureVerifyingKey signer

abbrev AtMostOnePending (newAuthority : ι → SigningKey) (n : Network) (phase : ι → ReplacePhase)
    (authority : ContractMaintenanceAuthority) (sk : SigningKey) : Prop :=
  NonePending n phase authority sk ∨ ∃ i, OnePending newAuthority n phase authority sk i

/-- Every transaction that waits belongs to one replacement, and carries its update. -/
structure TracksTransactions (a : ContractAddress) (newAuthority : ι → SigningKey) (n : Network)
    (phase : ι → ReplacePhase) (current : ℕ) : Prop where
  phases : ∀ i, (phase i).Holds a (newAuthority i) current n
  unsent : ∀ txId, n.submitted txId = none → n.statuses txId = none
  owned : ∀ txId tx, n.submitted txId = some tx → n.statuses txId = none →
    ∃ i counter signer, phase i = .sent counter signer txId
  distinct : ∀ i j counter counter' signer signer' txId, phase i = .sent counter signer txId →
    phase j = .sent counter' signer' txId → i = j

structure KeyInCustody (a : ContractAddress) (newAuthority : ι → SigningKey) (n : Network)
    (phase : ι → ReplacePhase) (authority : ContractMaintenanceAuthority) (sk : SigningKey) :
    Prop where
  stored : n.signingKeys a = some sk
  onChain : n.authorities a = some authority
  threshold : authority.threshold = 1
  pending : AtMostOnePending newAuthority n phase authority sk
  tracks : TracksTransactions a newAuthority n phase authority.counter

variable {a : ContractAddress} {newAuthority : ι → SigningKey} {n n' : Network}
  {phase phase' : ι → ReplacePhase} {authority : ContractMaintenanceAuthority} {sk : SigningKey}

/-- Nothing became pending or was stored, and what was signed meanwhile was signed with the stored
key. -/
theorem AtMostOnePending.congr (h : AtMostOnePending newAuthority n phase authority sk)
    (hpending : ∀ j, (phase' j).Pending n' ↔ (phase j).Pending n)
    (hsigned : ∀ j counter signer, (phase' j).signed = some (counter, signer) →
      (phase j).signed = some (counter, signer) ∨ signer = sk) :
    AtMostOnePending newAuthority n' phase' authority sk := by
  obtain h | ⟨i, h⟩ := h
  · exact .inl ⟨fun j hj => h.none j ((hpending j).mp hj), h.committee⟩
  · refine .inr ⟨i, (hpending i).mpr h.pending, fun j hj => h.only j ((hpending j).mp hj),
      h.committee, h.stale, fun j counter signer hj hcounter => ?_⟩
    obtain hj | rfl := hsigned j counter signer hj
    · exact h.others j counter signer hj hcounter
    · exact h.stale

section Turn

variable [DecidableEq ι] {i : ι}

theorem TracksTransactions.move {current : ℕ}
    (h : TracksTransactions a newAuthority n phase current) {q : ReplacePhase}
    (hholds : q.Holds a (newAuthority i) current n)
    (hsent : ∀ counter signer txId, q ≠ .sent counter signer txId)
    (hdone : ∀ counter signer txId, phase i = .sent counter signer txId → n.statuses txId ≠ none) :
    TracksTransactions a newAuthority n (Function.update phase i q) current := by
  refine ⟨fun j => ?_, h.unsent, fun txId tx htx hwaits => ?_,
    fun j j' c c' sg sg' txId hj hj' => ?_⟩
  · by_cases hj : j = i
    · subst hj
      rwa [Function.update_self]
    · rw [Function.update_of_ne hj]
      exact h.phases j
  · obtain ⟨j, counter, signer, hj⟩ := h.owned txId tx htx hwaits
    have hne : j ≠ i := by
      rintro rfl
      exact hdone _ _ _ hj hwaits
    exact ⟨j, counter, signer, by rwa [Function.update_of_ne hne]⟩
  · have hne : ∀ {l c sg}, Function.update phase i q l = .sent c sg txId → l ≠ i := by
      rintro l c sg hl rfl
      rw [Function.update_self] at hl
      exact hsent _ _ _ hl
    rw [Function.update_of_ne (hne hj)] at hj
    rw [Function.update_of_ne (hne hj')] at hj'
    exact h.distinct j j' c c' sg sg' txId hj hj'

omit [DecidableEq ι] in
theorem TracksTransactions.not_sent {current : ℕ} {txId : TransactionId}
    (h : TracksTransactions a newAuthority n phase current) (hnew : n.submitted txId = none)
    (j : ι) (counter : ℕ) (signer : SigningKey) : phase j ≠ .sent counter signer txId := by
  intro hj
  have hholds := h.phases j
  rw [hj] at hholds
  obtain ⟨_, tx, htx, _⟩ := hholds
  rw [hnew] at htx
  cases htx

/-- A transaction with a new identifier leaves what a phase says. -/
theorem ReplacePhase.Holds.send {k : SigningKey} {current : ℕ} {q : ReplacePhase}
    {txId : TransactionId} {tx : BalancedTransaction} (h : q.Holds a k current n)
    (hnot : ∀ counter signer, q ≠ .sent counter signer txId) :
    q.Holds a k current { n with submitted := Function.update n.submitted txId (some tx) } := by
  cases q with
  | sent counter signer txId' =>
    obtain ⟨hcounter, tx', htx', hcontracts⟩ := h
    have hne : txId' ≠ txId := by
      rintro rfl
      exact hnot counter signer rfl
    exact ⟨hcounter, tx', by simpa [hne] using htx', hcontracts⟩
  | _ => exact h

theorem TracksTransactions.send {current : ℕ}
    (h : TracksTransactions a newAuthority n phase current) {counter : ℕ} {signer : SigningKey}
    {contracts : List ContractsEntry} {tx : BalancedTransaction} {txId : TransactionId}
    (hi : phase i = .sending counter signer contracts) (hnew : n.submitted txId = none)
    (htx : tx.contracts = contracts) :
    TracksTransactions a newAuthority
      { n with submitted := Function.update n.submitted txId (some tx) }
      (Function.update phase i (.sent counter signer txId)) current := by
  have hnot : ∀ {j c sg}, phase j ≠ .sent c sg txId := h.not_sent hnew _ _ _
  refine ⟨fun j => ?_, fun txId' htx' => ?_, fun txId' tx' htx' hwaits => ?_,
    fun j j' c c' sg sg' txId' hj hj' => ?_⟩
  · have hholds := h.phases j
    by_cases hj : j = i
    · subst hj
      rw [hi] at hholds
      obtain ⟨hcounter, rfl⟩ := hholds
      rw [Function.update_self]
      exact ⟨hcounter, tx, by simp, htx⟩
    · rw [Function.update_of_ne hj]
      exact hholds.send fun _ _ => hnot
  · by_cases hne : txId' = txId
    · subst hne
      exact h.unsent txId' hnew
    · exact h.unsent txId' (by simpa [hne] using htx')
  · by_cases hne : txId' = txId
    · subst hne
      exact ⟨i, counter, signer, by simp⟩
    · obtain ⟨j, c, sg, hj⟩ := h.owned txId' tx' (by simpa [hne] using htx') hwaits
      have hji : j ≠ i := by
        rintro rfl
        rw [hi] at hj
        cases hj
      exact ⟨j, c, sg, by rwa [Function.update_of_ne hji]⟩
  · by_cases hji : j = i
    · subst hji
      rw [Function.update_self] at hj
      cases hj
      by_contra hne
      rw [Function.update_of_ne (Ne.symm hne)] at hj'
      exact hnot hj'
    · rw [Function.update_of_ne hji] at hj
      by_cases hji' : j' = i
      · subst hji'
        rw [Function.update_self] at hj'
        cases hj'
        exact absurd hj hnot
      · rw [Function.update_of_ne hji'] at hj'
        exact h.distinct j j' c c' sg sg' txId' hj hj'

theorem AtMostOnePending.move (h : AtMostOnePending newAuthority n phase authority sk)
    {q : ReplacePhase} (hpending : q.Pending n ↔ (phase i).Pending n)
    (hsigned : ∀ counter signer, q.signed = some (counter, signer) →
      (phase i).signed = some (counter, signer) ∨ signer = sk) :
    AtMostOnePending newAuthority n (Function.update phase i q) authority sk := by
  refine h.congr (fun j => ?_) (fun j => ?_)
  · by_cases hj : j = i
    · subst hj
      rwa [Function.update_self]
    · rw [Function.update_of_ne hj]
  · by_cases hj : j = i
    · subst hj
      rwa [Function.update_self]
    · rw [Function.update_of_ne hj]
      exact fun _ _ => .inl

/-- The pending replacement stores its key. -/
theorem KeyInCustody.store (h : KeyInCustody a newAuthority n phase authority sk)
    (hi : phase i = .succeeded) :
    KeyInCustody a newAuthority
      { n with signingKeys := Function.update n.signingKeys a (some (newAuthority i)) }
      (Function.update phase i .written) authority (newAuthority i) := by
  have hpending : (phase i).Pending n := by
    rw [hi]
    trivial
  obtain hnone | ⟨i', hone⟩ := h.pending
  · exact absurd hpending (hnone.none i)
  obtain rfl := hone.only i hpending
  have htracks : TracksTransactions a newAuthority n (Function.update phase i .written)
      authority.counter := by
    refine h.tracks.move trivial (by rintro _ _ _ ⟨⟩) fun c sg txId hsent => ?_
    rw [hi] at hsent
    cases hsent
  refine ⟨by simp, h.onChain, h.threshold, .inl ⟨fun j hj => ?_, hone.committee⟩,
    ⟨htracks.phases, htracks.unsent, htracks.owned, htracks.distinct⟩⟩
  by_cases hji : j = i
  · subst hji
    rw [Function.update_self] at hj
    exact hj
  · rw [Function.update_of_ne hji] at hj
    exact hji (hone.only j hj)

/-- A step of a replacement that leaves the network as it is. -/
theorem KeyInCustody.move (h : KeyInCustody a newAuthority n phase authority sk) {q : ReplacePhase}
    (hpending : q.Pending n ↔ (phase i).Pending n)
    (hsigned : ∀ counter signer, q.signed = some (counter, signer) →
      (phase i).signed = some (counter, signer) ∨ signer = sk)
    (hholds : q.Holds a (newAuthority i) authority.counter n)
    (hsent : ∀ counter signer txId, q ≠ .sent counter signer txId)
    (hdone : ∀ counter signer txId, phase i = .sent counter signer txId → n.statuses txId ≠ none) :
    KeyInCustody a newAuthority n (Function.update phase i q) authority sk :=
  ⟨h.stored, h.onChain, h.threshold, h.pending.move hpending hsigned,
    h.tracks.move hholds hsent hdone⟩

section Phases

variable {c : ProviderCall PS} {reply : c.Reply} {counter : ℕ} {signer : SigningKey}
  {contracts : List ContractsEntry} {txId : TransactionId}

theorem KeyInCustody.turn_start (h : KeyInCustody a newAuthority n phase authority sk)
    (hi : phase i = .start) (hc : ReplacePhase.start.Allows a (newAuthority i) c)
    (hr : networkEnv c n (.ok reply) n') :
    KeyInCustody a newAuthority n' (Function.update phase i
      (ReplacePhase.start.next a (newAuthority i) ⟨c, .ok reply⟩)) authority sk := by
  cases c with
  | queryContractState a' =>
    obtain rfl := hc
    obtain ⟨hreply, rfl⟩ := hr
    rw [h.onChain] at hreply
    obtain ⟨contractState, rfl, rfl⟩ := Option.map_eq_some_iff.mp hreply
    refine h.move ?_ (by rintro _ _ ⟨⟩) le_rfl (by rintro _ _ _ ⟨⟩) ?_
    · rw [hi]
      rfl
    · rw [hi]
      rintro _ _ _ ⟨⟩
  | _ => cases hc

theorem KeyInCustody.turn_queried (h : KeyInCustody a newAuthority n phase authority sk)
    (hi : phase i = .queried counter)
    (hc : (ReplacePhase.queried counter).Allows a (newAuthority i) c)
    (hr : networkEnv c n (.ok reply) n') :
    KeyInCustody a newAuthority n' (Function.update phase i
      ((ReplacePhase.queried counter).next a (newAuthority i) ⟨c, .ok reply⟩)) authority sk := by
  have hholds := h.tracks.phases i
  rw [hi] at hholds
  cases c with
  | getSigningKey a' =>
    obtain rfl := hc
    obtain ⟨rfl, rfl⟩ := hr
    rw [h.stored]
    refine h.move ?_ ?_ ⟨hholds, rfl⟩ (by rintro _ _ _ ⟨⟩) ?_
    · rw [hi]
      rfl
    · rintro _ _ ⟨⟩
      exact .inr rfl
    · rw [hi]
      rintro _ _ _ ⟨⟩
  | _ => cases hc

theorem KeyInCustody.turn_sending (h : KeyInCustody a newAuthority n phase authority sk)
    (hi : phase i = .sending counter signer contracts)
    (hc : (ReplacePhase.sending counter signer contracts).Allows a (newAuthority i) c)
    (hr : networkEnv c n (.ok reply) n') :
    KeyInCustody a newAuthority n' (Function.update phase i
      ((ReplacePhase.sending counter signer contracts).next a (newAuthority i) ⟨c, .ok reply⟩))
      authority sk := by
  have hstays : ∀ contracts', contracts' = contracts → KeyInCustody a newAuthority n
      (Function.update phase i (.sending counter signer contracts')) authority sk := by
    rintro _ rfl
    rw [← hi, Function.update_eq_self]
    exact h
  cases c with
  | proveTx tx zkConfig =>
    obtain ⟨hreply, rfl⟩ := hr
    exact hstays _ (hreply.trans hc)
  | balanceTx tx newCoins =>
    obtain ⟨hreply, rfl⟩ := hr
    exact hstays _ (hreply.trans hc)
  | submitTx tx =>
    obtain ⟨hnew, rfl⟩ := hr
    have hunknown : n.statuses reply = none := h.tracks.unsent reply hnew
    refine ⟨h.stored, h.onChain, h.threshold, ?_, h.tracks.send hi hnew hc⟩
    refine (h.pending.move (i := i) (q := .sent counter signer reply) ?_ ?_).congr
      (fun _ => Iff.rfl) fun _ _ _ => .inl
    · rw [hi]
      simp [ReplacePhase.Pending, hunknown]
    · rw [hi]
      exact fun _ _ => .inl
  | _ => cases hc

theorem KeyInCustody.turn_sent (h : KeyInCustody a newAuthority n phase authority sk)
    (hi : phase i = .sent counter signer txId)
    (hc : (ReplacePhase.sent counter signer txId).Allows a (newAuthority i) c)
    (hr : networkEnv c n (.ok reply) n') :
    KeyInCustody a newAuthority n' (Function.update phase i
      ((ReplacePhase.sent counter signer txId).next a (newAuthority i) ⟨c, .ok reply⟩))
      authority sk := by
  cases c with
  | watchForTxData txId' =>
    obtain rfl := hc
    obtain ⟨hstatus, rfl⟩ := hr
    have hdone : ∀ counter signer txId, phase i = .sent counter signer txId →
        n'.statuses txId ≠ none := by
      rintro _ _ _ hsent hnone
      rw [hi] at hsent
      cases hsent
      rw [hstatus] at hnone
      cases hnone
    simp only [ReplacePhase.next]
    split
    · next hsucceeded =>
      refine h.move ?_ (by rintro _ _ ⟨⟩) trivial (by rintro _ _ _ ⟨⟩) hdone
      rw [hi]
      simp [ReplacePhase.Pending, hstatus, hsucceeded]
    · next hfailed =>
      refine h.move ?_ (by rintro _ _ ⟨⟩) trivial (by rintro _ _ _ ⟨⟩) hdone
      rw [hi]
      simp [ReplacePhase.Pending, hstatus, hfailed]
  | _ => cases hc

end Phases

/-- Every step of a replacement keeps the invariant. -/
theorem KeyInCustody.turn (h : KeyInCustody a newAuthority n phase authority sk)
    {c : ProviderCall PS} {r : (Providers PS).Settled c}
    (hc : (phase i).Allows a (newAuthority i) c) (hr : networkEnv c n r n') :
    ∃ sk', KeyInCustody a newAuthority n'
      (Function.update phase i ((phase i).next a (newAuthority i) ⟨c, r⟩)) authority sk' := by
  cases r with
  | error why => exact hr.elim
  | ok reply =>
    cases hphase : phase i with
    | start => exact ⟨sk, h.turn_start hphase (hphase ▸ hc) hr⟩
    | queried counter => exact ⟨sk, h.turn_queried hphase (hphase ▸ hc) hr⟩
    | sending counter signer contracts => exact ⟨sk, h.turn_sending hphase (hphase ▸ hc) hr⟩
    | sent counter signer txId => exact ⟨sk, h.turn_sent hphase (hphase ▸ hc) hr⟩
    | succeeded =>
      rw [hphase] at hc
      cases c with
      | setSigningKey a' k =>
        obtain ⟨rfl, rfl⟩ := hc
        obtain rfl := hr
        exact ⟨_, h.store hphase⟩
      | _ => cases hc
    | failed =>
      rw [hphase] at hc
      cases hc
    | written =>
      rw [hphase] at hc
      cases hc

end Turn

/-! ## The node -/

/-- A step that changes the authority of the contract changes its key. -/
def ReplacesKey (a : ContractAddress) (n n' : Network) : Prop :=
  ∀ authority authority', n.authorities a = some authority → n'.authorities a = some authority' →
    authority' ≠ authority → authority'.committee ≠ authority.committee

theorem ReplacePhase.Holds.settle {k : SigningKey} {current current' : ℕ} {q : ReplacePhase}
    (h : q.Holds a k current n) (hcurrent : current ≤ current')
    (hsubmitted : n'.submitted = n.submitted) : q.Holds a k current' n' := by
  cases q with
  | queried c => exact le_trans h hcurrent
  | sending c sg contracts => exact ⟨h.1.trans hcurrent, h.2⟩
  | sent c sg txId =>
    obtain ⟨hc, tx, htx, hcontracts⟩ := h
    exact ⟨hc.trans hcurrent, tx, by rw [hsubmitted, htx], hcontracts⟩
  | _ => trivial

theorem TracksTransactions.settle {current current' : ℕ} {txId : TransactionId}
    {tx : BalancedTransaction} {status : TxStatus}
    (h : TracksTransactions a newAuthority n phase current) (hcurrent : current ≤ current')
    (htx : n.submitted txId = some tx) (hsubmitted : n'.submitted = n.submitted)
    (hstatuses : n'.statuses = Function.update n.statuses txId (some status)) :
    TracksTransactions a newAuthority n' phase current' := by
  refine ⟨fun i => (h.phases i).settle hcurrent hsubmitted, fun txId' hnone => ?_,
    fun txId' tx' htx' hwaits => ?_, h.distinct⟩
  · rw [hsubmitted] at hnone
    have hne : txId' ≠ txId := by
      rintro rfl
      rw [htx] at hnone
      cases hnone
    rw [hstatuses, Function.update_of_ne hne]
    exact h.unsent txId' hnone
  · rw [hsubmitted] at htx'
    have hne : txId' ≠ txId := by
      rintro rfl
      simp [hstatuses] at hwaits
    rw [hstatuses, Function.update_of_ne hne] at hwaits
    exact h.owned txId' tx' htx' hwaits

section Applied

variable {i : ι} {counter : ℕ} {signer : SigningKey} {txId : TransactionId}
  {tx : BalancedTransaction} {status : TxStatus}

theorem TracksTransactions.pending_settle {current : ℕ}
    (h : TracksTransactions a newAuthority n phase current)
    (hi : phase i = .sent counter signer txId) (hwaits : n.statuses txId = none)
    (hstatuses : n'.statuses = Function.update n.statuses txId (some status)) (j : ι) :
    (phase j).Pending n' ↔ (phase j).Pending n ∨ j = i ∧ status = .SucceedEntirely := by
  by_cases hj : j = i
  · subst hj
    simp [hi, ReplacePhase.Pending, hstatuses, hwaits]
  · simp only [hj, false_and, or_false]
    cases hq : phase j with
    | sent c sg txId' =>
      have hne : txId' ≠ txId := by
        rintro rfl
        exact hj (h.distinct j i _ _ _ _ _ hq hi)
      simp [ReplacePhase.Pending, hstatuses, hne]
    | _ => rfl

theorem KeyInCustody.refuse (h : KeyInCustody a newAuthority n phase authority sk)
    (hi : phase i = .sent counter signer txId) (htx : n.submitted txId = some tx)
    (hwaits : n.statuses txId = none) (hstatus : status ≠ .SucceedEntirely) :
    KeyInCustody a newAuthority (n.settle txId status) phase authority sk := by
  refine ⟨h.stored, h.onChain, h.threshold, h.pending.congr (fun j => ?_) fun _ _ _ => .inl,
    h.tracks.settle le_rfl htx rfl rfl⟩
  have hpending := h.tracks.pending_settle hi hwaits
    (show (n.settle txId status).statuses = _ from rfl) j
  simpa [hstatus] using hpending

/-- The accepted update becomes the pending one, since no other is pending. -/
theorem KeyInCustody.accept (h : KeyInCustody a newAuthority n phase authority sk)
    (hi : phase i = .sent counter signer txId) (htx : n.submitted txId = some tx)
    (hwaits : n.statuses txId = none) (hcounter : counter = authority.counter)
    (hcommittee : authority.committee = [signatureVerifyingKey signer])
    (hne : signatureVerifyingKey (newAuthority i) ≠ signatureVerifyingKey signer) :
    KeyInCustody a newAuthority
      ((n.install a ⟨[signatureVerifyingKey (newAuthority i)], 1, counter + 1⟩).settle txId
        .SucceedEntirely) phase
      ⟨[signatureVerifyingKey (newAuthority i)], 1, counter + 1⟩ sk := by
  have hsigned : (phase i).signed = some (counter, signer) := by
    rw [hi]
    rfl
  obtain hnone | ⟨i', hone⟩ := h.pending
  · have hsk : signatureVerifyingKey sk = signatureVerifyingKey signer := by
      simpa [hcommittee] using hnone.committee.symm
    have hpending := h.tracks.pending_settle hi hwaits
      (show ((n.install a ⟨[signatureVerifyingKey (newAuthority i)], 1, counter + 1⟩).settle txId
        .SucceedEntirely).statuses = _ from rfl)
    refine ⟨h.stored, by simp [Network.install, Network.settle], rfl, .inr ⟨i, ?_⟩,
      h.tracks.settle (by simp [hcounter]) htx rfl rfl⟩
    refine ⟨(hpending i).mpr (.inr ⟨rfl, rfl⟩), fun j hj => ?_, rfl, by rwa [hsk],
      fun j c sg hj hc => ?_⟩
    · exact ((hpending j).mp hj).elim (fun h => absurd h (hnone.none j)) And.left
    · have hholds := h.tracks.phases j
      have hle : c ≤ authority.counter := by
        cases hq : phase j with
        | sending c' sg' contracts =>
          rw [hq] at hj hholds
          cases hj
          exact hholds.1
        | sent c' sg' txId' =>
          rw [hq] at hj hholds
          cases hj
          exact hholds.1
        | _ =>
          rw [hq] at hj
          cases hj
      simp only at hc
      omega
  · refine absurd ?_ (hone.others i counter signer hsigned hcounter)
    simpa [hcommittee] using hone.committee.symm

end Applied

/-- Every step of the node that replaces no key by itself keeps the invariant. -/
theorem KeyInCustody.applies (hsignatures : SignaturesIdentify)
    (h : KeyInCustody a newAuthority n phase authority sk) (step : n.Applies n')
    (hreplaces : ReplacesKey a n n') :
    ∃ authority', KeyInCustody a newAuthority n' phase authority' sk := by
  obtain ⟨hsubmitted, hwaits, hcontracts, hrefused⟩ := step
  rename_i txId tx update refusal
  obtain ⟨i, counter, signer, hi⟩ := h.tracks.owned txId tx hsubmitted hwaits
  obtain ⟨_, tx', htx', hcontracts'⟩ :
      ReplacePhase.Holds a (newAuthority i) authority.counter n (.sent counter signer txId) :=
    hi ▸ h.tracks.phases i
  rw [hsubmitted] at htx'
  cases htx'
  rw [hcontracts] at hcontracts'
  obtain rfl : update = replacement a (newAuthority i) counter signer := by simpa using hcontracts'
  have happly : n.applyUpdate txId (replacement a (newAuthority i) counter signer) refusal =
      if authority.Accepts (replacement a (newAuthority i) counter signer) then
        (n.install a ⟨[signatureVerifyingKey (newAuthority i)], 1, counter + 1⟩).settle txId
          .SucceedEntirely
      else n.settle txId refusal := by
    rw [Network.applyUpdate, show n.authorities (replacement a (newAuthority i) counter signer).address
      = some authority from h.onChain]
    rfl
  rw [happly] at hreplaces ⊢
  split at hreplaces
  · next haccepts =>
    rw [if_pos haccepts]
    obtain ⟨vk, hcommittee⟩ : ∃ vk, authority.committee = [vk] := by
      obtain hnone | ⟨j, hone⟩ := h.pending
      · exact ⟨_, hnone.committee⟩
      · exact ⟨_, hone.committee⟩
    obtain ⟨hcounter, rfl⟩ :=
      (accepts_replacement hsignatures hcommittee h.threshold).mp haccepts
    refine ⟨_, h.accept hi hsubmitted hwaits hcounter hcommittee fun hsame => ?_⟩
    refine hreplaces authority _ h.onChain (by simp [Network.install, Network.settle]; rfl)
      ?_ ?_
    · rintro rfl
      simp at hcounter
    · rw [hcommittee, hsame]
  · next hrefuses =>
    rw [if_neg hrefuses]
    exact ⟨authority, h.refuse hi hsubmitted hwaits hrefused⟩

/-! ## Runs -/

variable [DecidableEq ι]

/-- Once all replacements have settled, the stored key is the authority of the contract, provided
that no accepted update replaced a key by itself. -/
theorem stored_key_is_authority (hsignatures : SignaturesIdentify)
    (hkey : n.KeyIsAuthority a)
    (hsubmitted : ∀ txId, n.submitted txId = none) (hstatuses : ∀ txId, n.statuses txId = none)
    {tr : List (ι × Event (Providers PS))} {P : ι → Promise PS FinalizedTxData}
    (run : Run networkEnv (fun n n' => n.Applies n' ∧ ReplacesKey a n n')
      (fun i => submitReplaceAuthorityTx a (newAuthority i)) n tr P n')
    (hsettled : ∀ i, (P i).IsSettled) : n'.KeyIsAuthority a := by
  obtain ⟨sk, authority, hstored, honChain, hcommittee, hthreshold⟩ := hkey
  have hinit : KeyInCustody a newAuthority n (fun _ => .start) authority sk :=
    ⟨hstored, honChain, hthreshold, .inl ⟨fun _ => id, hcommittee⟩, fun _ => trivial,
      fun txId _ => hstatuses txId, fun txId tx htx => by simp [hsubmitted] at htx,
      by rintro _ _ _ _ _ _ _ ⟨⟩⟩
  obtain ⟨phase, ⟨authority', sk', h⟩, hfollows⟩ := run.invariant
    (I := fun _ phase n => ∃ authority sk, KeyInCustody a newAuthority n phase authority sk)
    (fun i => follows_submitReplaceAuthorityTx a (newAuthority i)) ⟨authority, sk, hinit⟩
    (fun _ _ _ _ _ _ _ ⟨authority, _, h⟩ hc hr => ⟨authority, h.turn hc hr⟩)
    (fun _ _ _ _ ⟨_, sk, h⟩ hstep =>
      let ⟨authority, h⟩ := h.applies hsignatures hstep.1 hstep.2
      ⟨authority, sk, h⟩)
  have hclosed : ∀ i, ¬ (phase i).IsOpen := by
    intro i
    have hi := hfollows i
    cases hP : P i with
    | await c k => exact absurd (hsettled i) (by rw [hP]; exact id)
    | resolve data =>
      rw [hP] at hi
      exact hi
    | reject e =>
      rw [hP] at hi
      exact hi
  obtain hnone | ⟨i, hone⟩ := h.pending
  · exact ⟨sk', authority', h.stored, h.onChain, hnone.committee, h.threshold⟩
  · exact absurd (ReplacePhase.IsOpen.of_pending hone.pending) (hclosed i)

end Replacements

namespace Sample

theorem signaturesIdentify : SignaturesIdentify := by
  intro vk data signer
  simp [verifySignature, signData, signatureVerifyingKey, eq_comm]

theorem network_keyIsAuthority : network.KeyIsAuthority address :=
  ⟨key 0, ⟨[key 0], 1, 0⟩, rfl, rfl, rfl, rfl⟩

/-- Only the steps of the node that replace no key of the contract by itself. -/
def replacingStep (n : Network) : Option Network :=
  (nodeStep n).filter fun n' => n'.authorities address = n.authorities address ∨
    (n'.authorities address).map (·.committee) ≠ (n.authorities address).map (·.committee)

theorem replacesKey_replacingStep {n n' : Network} (h : replacingStep n = some n') :
    n.Applies n' ∧ ReplacesKey address n n' := by
  obtain ⟨hstep, hfilter⟩ := Option.filter_eq_some_iff.mp h
  refine ⟨applies_nodeStep hstep, fun authority authority' hn hn' hne => ?_⟩
  rw [decide_eq_true_eq, hn, hn'] at hfilter
  exact hfilter.elim (fun h => absurd (Option.some.inj h) hne) fun h heq => h (congrArg some heq)

/-- The first replacement stores its key after all steps of the second. -/
def lateStore : List (Turn Bool) :=
  .replicate 5 (.of true) ++ [.own] ++ .replicate 5 (.of false) ++ [.own] ++
    .replicate 2 (.of false) ++ .replicate 2 (.of true)

def newKeys (first second : SigningKey) (i : Bool) : SigningKey := if i then first else second

def replacements (first second : SigningKey) (i : Bool) : Promise (Option ℕ) FinalizedTxData :=
  submitReplaceAuthorityTx address (newKeys first second i)

def playReplacements (ownStep : Network → Option Network) (first second : SigningKey) :=
  play networkHandler ownStep (replacements first second) network lateStore

set_option maxRecDepth 4000 in
theorem stored_key_is_authority_late_store :
    (playReplacements replacingStep (key 1) (key 2)).2.2.KeyIsAuthority address := by
  have run : Run networkEnv (fun n n' => n.Applies n' ∧ ReplacesKey address n n')
      (fun i => submitReplaceAuthorityTx address (newKeys (key 1) (key 2) i)) network
      (playReplacements replacingStep (key 1) (key 2)).1
      (playReplacements replacingStep (key 1) (key 2)).2.1
      (playReplacements replacingStep (key 1) (key 2)).2.2 :=
    run_play networkEnv_networkHandler (fun _ _ => replacesKey_replacingStep) lateStore
  refine stored_key_is_authority signaturesIdentify network_keyIsAuthority (fun _ => rfl)
    (fun _ => rfl) run fun i => ?_
  cases i <;> exact True.intro

set_option maxRecDepth 4000 in
/-- The key 0 is replaced by itself, which is accepted, then by the key 2, which is accepted and
stored; last the first replacement stores the key 0. -/
theorem key_replaced_by_itself_is_put_back :
    ∃ tr P n', Run networkEnv (fun n n' => n.Applies n') (replacements (key 0) (key 2)) network tr P
        n' ∧
      network.KeyIsAuthority address ∧ SignaturesIdentify ∧
      (∀ i, ∃ data, P i = .resolve data) ∧ ¬ n'.KeyIsAuthority address := by
  have hkey : (playReplacements nodeStep (key 0) (key 2)).2.2.signingKeys address = some (key 0) :=
    by decide
  have hauthority : (playReplacements nodeStep (key 0) (key 2)).2.2.authorities address =
      some ⟨[key 2], 1, 2⟩ := by decide
  refine ⟨_, _, (playReplacements nodeStep (key 0) (key 2)).2.2,
    run_play networkEnv_networkHandler (fun _ _ => applies_nodeStep) lateStore,
    network_keyIsAuthority, signaturesIdentify, ?_, ?_⟩
  · intro i
    cases i <;> exact ⟨_, rfl⟩
  · rintro ⟨sk, authority, hstored, honChain, hcommittee, _⟩
    rw [hkey] at hstored
    rw [hauthority] at honChain
    cases hstored
    cases honChain
    exact absurd hcommittee (by decide)

end Sample

end MidnightJs
