import MidnightJs.Contracts.MaintenanceChain
import MidnightJs.Contracts.NewCoins
import MidnightJs.PlatformJs.HexText

/-! # The verifier keys of a contract

A deployment gives the circuits of the initial state the keys of a list, insertions and removals
change them, and `verifyContractState` compares a local list with what the contract holds. -/

namespace MidnightJs
open Foundations Foundations.Js Foundations.Async PlatformJs
set_option autoImplicit false

/-! ## Keys of circuits -/

/-- The verifier key of each circuit that has one. -/
abbrev CircuitKeys := CircuitId → Option VerifierKey

/-- The keys of a list in front of those that are there. -/
def CircuitKeys.override (keys : CircuitKeys) (verifierKeys : List (CircuitId × VerifierKey)) :
    CircuitKeys :=
  fun circuitId => (OrderedMap.get verifierKeys circuitId).or (keys circuitId)

inductive KeyUpdate
  | insert (circuitId : CircuitId) (newVk : VerifierKey)
  | remove (circuitId : CircuitId)

namespace KeyUpdate

def single (u : KeyUpdate) : SingleUpdate :=
  match u with
  | .insert circuitId newVk => insertVerifierKey circuitId newVk
  | .remove circuitId => removeVerifierKey circuitId

def change (keys : CircuitKeys) (u : KeyUpdate) : CircuitKeys :=
  match u with
  | .insert circuitId newVk => Function.update keys circuitId (some newVk)
  | .remove circuitId => Function.update keys circuitId none

end KeyUpdate

/-- The local keys with no equal among the keys of the contract, in their order. -/
def mismatches (keys : CircuitKeys) (verifierKeys : List (CircuitId × VerifierKey)) :
    List CircuitId :=
  (verifierKeys.filter fun entry => keys entry.1 ≠ some entry.2).map Prod.fst

/-! ## The comparison of two keys -/

theorem PlatformJs.HexDigits.unique {s : JsString} {bytes bytes' : List UInt8} (h : HexDigits s bytes)
    (h' : HexDigits s bytes') : bytes = bytes' := by
  induction h generalizing bytes' with
  | nil =>
    cases h'
    rfl
  | @cons u v rest b bytes high low _ ih =>
    cases h' with
    | @cons _ _ _ b' bytes' high' low' digits' =>
      rw [high, Option.some.injEq] at high'
      rw [low, Option.some.injEq] at low'
      have hbyte : b = b' := by
        apply UInt8.toNat_inj.mp
        omega
      rw [hbyte, ih digits']

theorem toHex_injective : Function.Injective toHex := by
  intro bytes bytes' h
  have hdigits := hexDigits_toHex bytes
  rw [h] at hdigits
  exact hdigits.unique (hexDigits_toHex bytes')

theorem verifierKeysEqual_iff {a b : VerifierKey} : verifierKeysEqual a b = true ↔ a = b := by
  unfold verifierKeysEqual
  constructor
  · intro h
    rw [Bool.and_eq_true, beq_iff_eq, beq_iff_eq] at h
    exact toHex_injective h.2
  · intro h
    simp [h]

section
variable [Runtime]

/-! ## What a contract holds -/

namespace ContractState

def keys (s : ContractState) : CircuitKeys :=
  fun circuitId => (s.operation circuitId).map ContractOperation.verifierKey

theorem keys_congr {s s' : ContractState} (h : s'.operations = s.operations) :
    s'.keys = s.keys := by
  unfold keys operation
  rw [h]

theorem operation_setOperation (s : ContractState) (circuitId circuitId' : CircuitId)
    (op : ContractOperation) : (s.setOperation circuitId op).operation circuitId' =
      if circuitId = circuitId' then some op else s.operation circuitId' :=
  OrderedMap.get_set ..

theorem keys_setOperation (s : ContractState) (circuitId : CircuitId) (op : ContractOperation) :
    (s.setOperation circuitId op).keys =
      Function.update s.keys circuitId (some op.verifierKey) := by
  funext circuitId'
  unfold keys
  rw [operation_setOperation]
  by_cases h : circuitId' = circuitId
  · rw [h, if_pos rfl, Function.update_self, Option.map_some]
  · rw [if_neg (Ne.symm h), Function.update_of_ne h]

theorem keys_apply (s : ContractState) (u : KeyUpdate) :
    (s.apply u.single).keys = u.change s.keys := by
  cases u with
  | insert circuitId newVk => exact keys_setOperation s circuitId ⟨newVk⟩
  | remove circuitId =>
    funext circuitId'
    change (OrderedMap.get (OrderedMap.delete s.operations circuitId) circuitId').map _ = _
    by_cases h : circuitId' = circuitId
    · rw [h, OrderedMap.get_delete, if_pos rfl, KeyUpdate.change, Function.update_self]
      rfl
    · rw [OrderedMap.get_delete, if_neg h, KeyUpdate.change, Function.update_of_ne h]
      rfl

end ContractState

/-! ## Deployment -/

variable {verifierKeys : List (CircuitId × VerifierKey)} {s s' : ContractState}

/-- What `addVerifierKeys` does with one pair. -/
theorem addVerifierKeys_cons (entry : CircuitId × VerifierKey) :
    addVerifierKeys (entry :: verifierKeys) s = (do
      let operation ← assertDefined (s.operation entry.1)
        (js "Circuit '" ++ entry.1 ++ js "' is undefined for contract state " ++ s.text)
      addVerifierKeys verifierKeys
        (s.setOperation entry.1 { operation with verifierKey := entry.2 })) := by
  rw [addVerifierKeys, List.foldlM_cons]
  cases s.operation entry.1 <;> rfl

theorem addVerifierKeys_throws :
    (∃ e, addVerifierKeys verifierKeys s = .error e) ↔
      ∃ entry ∈ verifierKeys, s.operation entry.1 = none := by
  induction verifierKeys generalizing s with
  | nil => simp [addVerifierKeys, pure, Except.pure]
  | cons entry verifierKeys ih =>
    rw [addVerifierKeys_cons, List.exists_mem_cons_iff]
    cases hop : s.operation entry.1 with
    | none => exact iff_of_true ⟨_, rfl⟩ (.inl rfl)
    | some operation =>
      have hrest : ∀ circuitId, (s.setOperation entry.1 { operation with
          verifierKey := entry.2 }).operation circuitId = none ↔ s.operation circuitId = none := by
        intro circuitId
        rw [ContractState.operation_setOperation]
        split
        · rename_i h
          rw [← h, hop]
          simp
        · rfl
      refine Iff.trans ih ?_
      simp only [hrest, reduceCtorEq, false_or]

theorem keys_addVerifierKeys (hdistinct : (OrderedMap.keys verifierKeys).Nodup)
    (h : addVerifierKeys verifierKeys s = .ok s') : s'.keys = s.keys.override verifierKeys := by
  induction verifierKeys generalizing s with
  | nil =>
    cases h
    rfl
  | cons entry verifierKeys ih =>
    obtain ⟨hnew, hdistinct⟩ := List.nodup_cons.mp hdistinct
    rw [addVerifierKeys_cons, except_bind_ok] at h
    obtain ⟨operation, -, h⟩ := h
    rw [ih hdistinct h, ContractState.keys_setOperation]
    funext circuitId
    unfold CircuitKeys.override
    rw [OrderedMap.get]
    by_cases hid : entry.1 = circuitId
    · rw [← hid, if_pos rfl, OrderedMap.get_eq_none.mpr hnew, Function.update_self]
      rfl
    · rw [if_neg hid, Function.update_of_ne (Ne.symm hid)]

variable {PS : Type} {sk : SigningKey} {initial deployed current : ContractState}
  {zswapState : ZswapLocalState} {epk : JsString} {updates : List KeyUpdate}

section Runs
variable {σ : Type} {env : Env (Providers PS) σ} {n n' : σ} {tr : List (Event (Providers PS))}

/-- A deployment throws because of a circuit or because of an input. -/
theorem exec_createUnprovenLedgerDeployTx_throws
    {out : Except ContractsError (ContractAddress × ContractState × UnprovenTransaction)}
    (run : Exec env (createUnprovenLedgerDeployTx verifierKeys sk initial zswapState epk) n tr out n')
    (hok : AllOk tr) : (∃ e, out = .error e) ↔
      (∃ entry ∈ verifierKeys, initial.operation entry.1 = none) ∨
        (matchState zswapState epk).inputs ≠ [] := by
  rw [← addVerifierKeys_throws, ← zswapStateToOffer_throws]
  obtain ⟨e, hadd, -, hout, -⟩ | ⟨withVerifierKeys, hadd, run⟩ := exec_sync_bind run
  · exact iff_of_true ⟨_, hout⟩ (.inl ⟨e, hadd⟩)
  obtain ⟨why, -, rfl, -⟩ | ⟨address, n₁, tr₁, -, run, -⟩ := exec_provide_bind run
  · obtain ⟨reply, hreply⟩ := hok _ (List.mem_singleton_self _)
    cases hreply
  obtain ⟨e, hoffer, -, hout, -⟩ | ⟨offer, hoffer, run⟩ := exec_sync_bind run
  · exact iff_of_true ⟨_, hout⟩ (.inr ⟨e, hoffer⟩)
  obtain ⟨-, hout, -⟩ := exec_resolve.mp run
  simp [hout, hadd, hoffer]

/-- The keys of a contract that is deployed. -/
theorem exec_createUnprovenLedgerDeployTx_keys (hdistinct : (OrderedMap.keys verifierKeys).Nodup)
    {address : ContractAddress} {tx : UnprovenTransaction}
    (run : Exec env (createUnprovenLedgerDeployTx verifierKeys sk initial zswapState epk) n tr
      (.ok (address, deployed, tx)) n') : deployed.keys = initial.keys.override verifierKeys := by
  obtain ⟨withVerifierKeys, hadd, run⟩ := exec_sync_bind_ok run
  obtain ⟨_, n₁, tr₁, -, run, -⟩ := exec_provide_bind_ok run
  obtain ⟨offer, -, run⟩ := exec_sync_bind_ok run
  obtain ⟨-, hout, -⟩ := exec_resolve.mp run
  cases hout
  rw [← keys_addVerifierKeys hdistinct hadd]
  exact ContractState.keys_congr rfl

end Runs

/-! ## The life of a contract -/

/-- What the ledger asks of the update. -/
def KeyUpdate.Accepted (u : KeyUpdate) (s : ContractState) : Prop :=
  match u with
  | .insert circuitId _ => s.operation circuitId = none
  | .remove circuitId => (s.operation circuitId).isSome

/-- From a contract state to a later one, with the accepted updates of verifier keys in between. Calls
and changes of authority leave the operations as they are. -/
inductive Life (s : ContractState) : List KeyUpdate → ContractState → Prop
  | start : Life s [] s
  | update {updates : List KeyUpdate} {s' : ContractState} (life : Life s updates s')
      {u : KeyUpdate} (accepted : u.Accepted s') {update : MaintenanceUpdate}
      (single : update.updates = [u.single]) : Life s (updates ++ [u]) (s'.maintained update)
  | other {updates : List KeyUpdate} {s' s'' : ContractState} (life : Life s updates s')
      (operations : s''.operations = s'.operations) : Life s updates s''

theorem ContractState.keys_maintained {update : MaintenanceUpdate} {u : KeyUpdate}
    (single : update.updates = [u.single]) : (s.maintained update).keys = u.change s.keys := by
  rw [← keys_apply]
  apply keys_congr
  unfold maintained
  rw [single]
  rfl

theorem Life.keys_eq (life : Life initial updates current) :
    current.keys = updates.foldl KeyUpdate.change initial.keys := by
  induction life with
  | start => rfl
  | update life accepted single ih =>
    rw [ContractState.keys_maintained single, ih, List.foldl_append]
    rfl
  | other life operations ih => rw [ContractState.keys_congr operations, ih]

/-! ## The check -/

theorem verifyContractState_eq (localKeys : List (CircuitId × VerifierKey)) :
    verifyContractState localKeys s = if (mismatches s.keys localKeys).length > 0
      then .error (.contractType s (mismatches s.keys localKeys)) else .ok () := by
  unfold verifyContractState
  extract_lets mismatchedCircuitIds
  have hmismatches : mismatchedCircuitIds = mismatches s.keys localKeys := by
    refine congrArg _ (List.filter_congr fun entry _ => ?_)
    unfold ContractState.keys
    cases s.operation entry.1 with
    | none => rfl
    | some operation =>
      cases hequal : verifierKeysEqual entry.2 operation.verifierKey with
      | true =>
        change (!verifierKeysEqual entry.2 operation.verifierKey) = _
        rw [hequal]
        simp [verifierKeysEqual_iff.mp hequal]
      | false =>
        have hne : operation.verifierKey ≠ entry.2 := by
          intro h
          rw [verifierKeysEqual_iff.mpr h.symm] at hequal
          cases hequal
        change (!verifierKeysEqual entry.2 operation.verifierKey) = _
        rw [hequal]
        simp [hne]
  rw [hmismatches]

/-- The check compares the local list with the given keys, and names the circuits that differ. -/
structure ChecksAgainst (keys : CircuitKeys) (s : ContractState)
    (localKeys : List (CircuitId × VerifierKey)) : Prop where
  passes : verifyContractState localKeys s = .ok () ↔
    ∀ entry ∈ localKeys, keys entry.1 = some entry.2
  names : verifyContractState localKeys s ≠ .ok () →
    verifyContractState localKeys s = .error (.contractType s (mismatches keys localKeys))

theorem checksAgainst_keys (localKeys : List (CircuitId × VerifierKey)) :
    ChecksAgainst s.keys s localKeys := by
  have hcheck := verifyContractState_eq (s := s) localKeys
  have hnone : (mismatches s.keys localKeys).length = 0 ↔
      ∀ entry ∈ localKeys, s.keys entry.1 = some entry.2 := by
    unfold mismatches
    rw [List.length_map, List.length_eq_zero_iff, List.filter_eq_nil_iff]
    simp
  by_cases hempty : (mismatches s.keys localKeys).length = 0
  · rw [if_neg (by omega)] at hcheck
    exact ⟨iff_of_true hcheck (hnone.mp hempty), fun h => absurd hcheck h⟩
  · rw [if_pos (by omega)] at hcheck
    refine ⟨iff_of_false ?_ fun h => hempty (hnone.mpr h), fun _ => hcheck⟩
    rw [hcheck]
    exact nofun

variable {σ : Type} {env : Env (Providers PS) σ} {n : σ}

/-- Over the life of a contract, the check compares a local list with the keys of the deployment as
the updates in between have changed them. The deployment throws if and only if a key is for a
circuit that the state does not define or an input of the local state finds no output. -/
theorem verifier_keys_over_life :
    (∀ tr out n', Exec env (createUnprovenLedgerDeployTx verifierKeys sk initial zswapState epk) n tr
        out n' → AllOk tr → ((∃ e, out = .error e) ↔
          (∃ entry ∈ verifierKeys, initial.operation entry.1 = none) ∨
            (matchState zswapState epk).inputs ≠ [])) ∧
      ((OrderedMap.keys verifierKeys).Nodup → ∀ tr address deployed tx n',
        Exec env (createUnprovenLedgerDeployTx verifierKeys sk initial zswapState epk) n tr
            (.ok (address, deployed, tx)) n' →
          ∀ updates current, Life deployed updates current → ∀ localKeys, ChecksAgainst
            (updates.foldl KeyUpdate.change (initial.keys.override verifierKeys)) current
              localKeys) := by
  constructor
  · intro tr out n' run hok
    exact exec_createUnprovenLedgerDeployTx_throws run hok
  · intro hdistinct tr address deployed tx n' run updates current life localKeys
    rw [← exec_createUnprovenLedgerDeployTx_keys hdistinct run, ← life.keys_eq]
    exact checksAgainst_keys localKeys

end

namespace Sample

/-- The ledger takes every initial state. -/
def deployEnv : Env (Providers (Option ℕ)) Unit := fun c _ r _ => r = reply .SucceedEntirely c

def firstKey : List (CircuitId × VerifierKey) := [(circuitId, [1])]

def firstDeployed : ContractState := ⟨(), [(circuitId, ⟨[1]⟩)], ⟨[key 1], 1, 0⟩⟩

def removal : KeyUpdate := .remove circuitId

def insertion : KeyUpdate := .insert circuitId [2]

def updateOf (u : KeyUpdate) : MaintenanceUpdate := ⟨⟨address, [u.single], 0⟩, []⟩

def updated : ContractState :=
  (firstDeployed.maintained (updateOf removal)).maintained (updateOf insertion)

theorem life_updated : Life firstDeployed [removal, insertion] updated := by
  have hremoval : removal.Accepted firstDeployed := rfl
  have hinsertion : insertion.Accepted (firstDeployed.maintained (updateOf removal)) := rfl
  exact (Life.start.update hremoval rfl).update hinsertion rfl

/-- The key is removed and another one inserted; the check passes with the new one. -/
theorem verifier_keys_over_life_sample :
    verifyContractState [(circuitId, [2])] updated = .ok () := by
  obtain ⟨offer, hoffer⟩ : ∃ offer, zswapStateToOffer ⟨js "aa", 0, [], []⟩ (js "ee") none =
    .ok offer := offer_of_no_inputs (js "ee") rfl
  have hadd : addVerifierKeys firstKey (state []) = .ok { firstDeployed with
      maintenanceAuthority := (state []).maintenanceAuthority } := rfl
  have run : Exec deployEnv (createUnprovenLedgerDeployTx firstKey (key 1) (state [])
      ⟨js "aa", 0, [], []⟩ (js "ee")) () _ (.ok (address, firstDeployed, _)) () :=
    exec_createUnprovenLedgerDeployTx hadd rfl hoffer
  have hdistinct : (OrderedMap.keys firstKey).Nodup := List.nodup_singleton circuitId
  have hcheck := verifier_keys_over_life.2 hdistinct _ _ _ _ _ run _ _
    life_updated [(circuitId, [2])]
  exact hcheck.passes.mpr (by decide)

def spending : ZswapLocalState :=
  ⟨js "aa", 0, [⟨⟨js "token", js "1", 5, js "mt_index" :: coinKeys⟩, 0, List.Perm.refl _⟩], []⟩

/-- The input finds no output, so the deployment throws with every circuit defined. -/
theorem deployment_throws_for_input : ∃ tr e,
    Exec deployEnv (createUnprovenLedgerDeployTx firstKey (key 1) (state []) spending (js "ee")) ()
        tr (.error e) () ∧ AllOk tr ∧
      ∀ entry ∈ firstKey, (state []).operation entry.1 ≠ none := by
  obtain ⟨e, hoffer⟩ : ∃ e, zswapStateToOffer spending (js "ee") none = .error e :=
    zswapStateToOffer_throws.mpr (List.cons_ne_nil _ _)
  have hadd : addVerifierKeys firstKey (state []) = .ok { firstDeployed with
      maintenanceAuthority := (state []).maintenanceAuthority } := rfl
  refine ⟨[⟨.newContractDeploy firstDeployed, .ok address⟩], .thrown e, ?_, ?_, by decide⟩
  · rw [createUnprovenLedgerDeployTx_eq, hadd, hoffer]
    exact .await rfl (.reject _ ())
  · exact allOk_cons.mpr ⟨isOk_ok, allOk_nil⟩

end Sample

end MidnightJs
