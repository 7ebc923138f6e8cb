import MidnightJs.Contracts.FindRuns

/-! # Custody of signing keys and private states

Two statements about `findDeployedContract` and `submitDeployTx`. When one of them rejects, what may
be left of its writes; there is no transaction over the two key spaces, so this is not nothing.
And over sessions of both, with writes that succeed: what a find returns is what is stored,
keys and private states change only by the operations that are told to change them, and a key once
stored is found again. -/

namespace MidnightJs
open Foundations Foundations.Js Foundations.Async
set_option autoImplicit false

section Custody

variable [Runtime] {PS : Type}

/-! ## The two operations -/

variable (PS) in
inductive CustodyOp
  | find (providers : ContractProviders) (options : FindDeployedContractOptions PS)
  | deploy (providers : ContractProviders) (options : DeployTxOptions PS)

namespace CustodyOp

def Result : CustodyOp PS → Type
  | .find _ _ => FoundContract PS
  | .deploy _ _ => FinalizedDeployTxData PS

def program [Undefined PS] : (op : CustodyOp PS) → Promise PS op.Result
  | .find providers options => findDeployedContract providers options
  | .deploy providers options => submitDeployTx providers options

def findOptions : CustodyOp PS → Option (FindDeployedContractOptions PS)
  | .find _ options => some options
  | .deploy _ _ => none

/-- The key and the private state a resolved find returns. -/
def found : (op : CustodyOp PS) → Except ContractsError op.Result →
    Option (FoundDeployTxPrivateData PS)
  | .find _ _, .ok r => some r.deployTxData.private
  | _, _ => none

def givenKey : CustodyOp PS → Option SigningKey
  | .find _ options => options.signingKey
  | .deploy _ options => some options.signingKey

/-- The run may write the signing key of the address: a find of it, or a deployment that drew
it. -/
def TouchesKey (op : CustodyOp PS) (tr : List (Event (Providers PS))) (a : ContractAddress) :
    Prop :=
  match op with
  | .find _ options => a = options.contractAddress
  | .deploy _ _ => ∃ initialState, ⟨.newContractDeploy initialState, .ok a⟩ ∈ tr

/-- The operation is told to store a private state at the id. -/
def StoresAt (op : CustodyOp PS) (id : PrivateStateId) : Prop :=
  match op with
  | .find _ options => options.privateStateId = some id ∧ options.initialPrivateState.isSome
  | .deploy _ options => options.privateStateId = some id

end CustodyOp

/-! ## Rejections -/

variable {mayReject : ProviderCall PS → Prop} {s s' : PrivateStore PS}
  {tr : List (Event (Providers PS))}

/-- A run in which no write was fulfilled leaves the store as it was. -/
theorem exec_no_writes {α : Type} {p : Promise PS α} {out : Except ContractsError α}
    (run : Exec (storeEnv mayReject) p s tr out s')
    (h : ∀ e ∈ tr, ProviderCall.IsWrite e.call → ¬ e.IsOk) : s' = s := by
  induction run with
  | resolve a s => rfl
  | reject e s => rfl
  | @await c k s s₁ s' r tr out replied rest ih =>
    have hfirst : s₁ = s := by
      cases r with
      | ok reply => exact Serves.frame replied fun hc => h _ List.mem_cons_self hc isOk_ok
      | error why => exact replied.2
    rw [ih fun e he => h e (List.mem_cons_of_mem _ he), hfirst]

variable [Undefined PS]

/-- What a rejected operation may leave behind. -/
def LeavesAtMost (op : CustodyOp PS) (s : PrivateStore PS) (tr : List (Event (Providers PS)))
    (e : ContractsError) (s' : PrivateStore PS) : Prop :=
  match op with
  | .deploy _ options => s' = s ∨ ∃ id v a why, options.privateStateId = some id ∧
      s' = s.set id v ∧ ⟨.setSigningKey a options.signingKey, .error why⟩ ∈ tr
  | .find _ options => s' = s ∨ (PrivateStateRejection tr e ∧ s'.privateStates = s.privateStates ∧
      ∀ a, a ≠ options.contractAddress → s'.signingKeys a = s.signingKeys a)

/-- A rejection before any write took effect leaves the store as it was. Any other one is, for a
deployment, the rejection of the write of the key, and leaves at most the private state at its id;
for a find, it comes from the private state part, and leaves at most the key of its address. -/
theorem rejection_leaves_at_most (op : CustodyOp PS) {e : ContractsError}
    (run : Exec (storeEnv mayReject) op.program s tr (.error e) s') :
    ((∀ ev ∈ tr, ProviderCall.IsWrite ev.call → ¬ ev.IsOk) → s' = s) ∧
      LeavesAtMost op s tr e s' := by
  refine ⟨exec_no_writes run, ?_⟩
  cases op with
  | find providers options =>
    cases (exec_findDeployedContract run).2 with
    | early => exact .inl rfl
    | late key reason => exact .inr ⟨reason, key.privateStates, fun a => key.signingKeys_of_ne⟩
  | deploy providers options =>
    cases exec_submitDeployTx run with
    | early => exact .inl rfl
    | @late why a v rejected =>
      cases hid : options.privateStateId with
      | none => exact .inl rfl
      | some id => exact .inr ⟨id, v, a, why, hid, rfl, rejected⟩

/-! ## Single operations -/

/-- No stored signing key is the empty string. -/
def KeysNonempty (s : PrivateStore PS) : Prop := ∀ a k, s.signingKeys a = some k → k ≠ []

theorem CustodyOp.signingKeys_frame (op : CustodyOp PS) {out : Except ContractsError op.Result}
    (run : Exec (storeEnv mayReject) op.program s tr out s') {a : ContractAddress}
    (h : ¬ op.TouchesKey tr a) : s'.signingKeys a = s.signingKeys a := by
  cases op with
  | find providers options =>
    cases (exec_findDeployedContract run).2 with
    | early => rfl
    | late key => exact key.signingKeys_of_ne h
    | found key state => rw [state.signingKeys, key.signingKeys_of_ne h]
  | deploy providers options =>
    cases exec_submitDeployTx run with
    | early => rfl
    | late => rw [PrivateStore.setAt_signingKeys]
    | @deployed a' r v drawn =>
      have ha : a ≠ a' := fun ha => h (ha ▸ drawn)
      rw [PrivateStore.setSigningKey_signingKeys_of_ne ha, PrivateStore.setAt_signingKeys]

theorem StateStep.privateStates_of_not {options : FindDeployedContractOptions PS} {v : PS}
    {id : PrivateStateId} (h : StateStep options s v s')
    (hid : ¬ (options.privateStateId = some id ∧ options.initialPrivateState.isSome)) :
    s'.privateStates id = s.privateStates id := by
  cases h with
  | read | absent => rfl
  | @stored id' v hid' hv =>
    refine PrivateStore.set_privateStates_of_ne fun hne => hid ?_
    subst hne
    exact ⟨hid', by simp [hv]⟩

omit [Runtime] [Undefined PS] in
theorem PrivateStore.setAt_privateStates_of_ne {o : Option PrivateStateId} {v : PS}
    {id : PrivateStateId} (h : o ≠ some id) :
    (s.setAt o v).privateStates id = s.privateStates id := by
  cases o with
  | none => rfl
  | some id' =>
    refine PrivateStore.set_privateStates_of_ne fun hne => h ?_
    rw [hne]

theorem CustodyOp.privateStates_frame (op : CustodyOp PS) {out : Except ContractsError op.Result}
    (run : Exec (storeEnv mayReject) op.program s tr out s') {id : PrivateStateId}
    (h : ¬ op.StoresAt id) : s'.privateStates id = s.privateStates id := by
  cases op with
  | find providers options =>
    cases (exec_findDeployedContract run).2 with
    | early => rfl
    | late key => rw [key.privateStates]
    | found key state => rw [state.privateStates_of_not h, key.privateStates]
  | deploy providers options =>
    cases exec_submitDeployTx run with
    | early => rfl
    | late => exact PrivateStore.setAt_privateStates_of_ne h
    | deployed => exact PrivateStore.setAt_privateStates_of_ne h

/-- A resolved find returns what is stored afterwards. -/
theorem CustodyOp.found_stored (op : CustodyOp PS) {out : Except ContractsError op.Result}
    (run : Exec (storeEnv mayReject) op.program s tr out s')
    {options : FindDeployedContractOptions PS} {f : FoundDeployTxPrivateData PS}
    (hoptions : op.findOptions = some options) (hf : op.found out = some f) :
    s'.signingKeys options.contractAddress = some f.signingKey ∧
      ∀ id, options.privateStateId = some id → s'.privateStates id = some f.initialPrivateState := by
  cases op with
  | deploy providers options => cases hoptions
  | find providers options' =>
    cases hoptions
    cases (exec_findDeployedContract run).2 with
    | early => cases hf
    | late => cases hf
    | @found r k v s₁ s' key state returned =>
      cases hf
      rw [returned]
      refine ⟨by rw [state.signingKeys, key.signingKeys_self], fun id hid => ?_⟩
      cases state with
      | stored hid' hv =>
        cases hid.symm.trans hid'
        exact PrivateStore.set_privateStates_self
      | read hid' _ hstored =>
        cases hid.symm.trans hid'
        exact hstored
      | absent hid' =>
        cases hid.symm.trans hid'

/-- A find that gives no key keeps the stored one. -/
theorem CustodyOp.key_kept (op : CustodyOp PS) {out : Except ContractsError op.Result}
    (run : Exec (storeEnv mayReject) op.program s tr out s')
    {options : FindDeployedContractOptions PS} {k : SigningKey} {a : ContractAddress}
    (hoptions : op.findOptions = some options) (hgiven : options.signingKey = none)
    (hstored : s.signingKeys a = some k) (hk : k ≠ []) : s'.signingKeys a = some k := by
  cases op with
  | deploy providers options => cases hoptions
  | find providers options' =>
    cases hoptions
    have hkey : ∀ {k' s''}, KeyStep options s tr k' s'' → s''.signingKeys a = some k := by
      intro k' s'' h
      cases h with
      | kept => exact hstored
      | given hg => rw [hgiven] at hg; cases hg
      | sampled _ hn _ =>
        refine (PrivateStore.setSigningKey_signingKeys_of_ne fun ha => ?_).trans hstored
        rw [← ha, hstored, truthy_some, (truthy_string k).mpr hk] at hn
        cases hn
    cases (exec_findDeployedContract run).2 with
    | early => exact hstored
    | late key => exact hkey key
    | found key state =>
      rw [state.signingKeys]
      exact hkey key

theorem CustodyOp.samples (op : CustodyOp PS) {out : Except ContractsError op.Result}
    (run : Exec (storeEnv mayReject) op.program s tr out s') (hs : KeysNonempty s)
    {e : Event (Providers PS)} (he : e ∈ tr) (hc : e.call = .sampleSigningKey) :
    ∃ options, op.findOptions = some options ∧ s.signingKeys options.contractAddress = none := by
  cases op with
  | deploy providers options => exact absurd hc (submitDeployTx_not_samples run e he)
  | find providers options =>
    obtain ⟨_, hn⟩ := (exec_findDeployedContract run).1 e he hc
    refine ⟨options, rfl, ?_⟩
    cases hk : s.signingKeys options.contractAddress with
    | none => rfl
    | some k =>
      rw [hk, truthy_some, (truthy_string k).mpr (hs _ k hk)] at hn
      cases hn

theorem CustodyOp.keysNonempty (op : CustodyOp PS) {out : Except ContractsError op.Result}
    (run : Exec (storeEnv mayReject) op.program s tr out s') (hs : KeysNonempty s)
    (hgiven : ∀ k, op.givenKey = some k → k ≠ [])
    (hsampled : ∀ k, ⟨.sampleSigningKey, .ok k⟩ ∈ tr → k ≠ []) : KeysNonempty s' := by
  have hset : ∀ {s : PrivateStore PS} {a k}, KeysNonempty s → k ≠ [] →
      KeysNonempty (s.setSigningKey a k) := by
    intro s a k hs hk a' k' h
    by_cases ha : a' = a
    · subst ha
      rw [PrivateStore.setSigningKey_signingKeys_self] at h
      cases h
      exact hk
    · rw [PrivateStore.setSigningKey_signingKeys_of_ne ha] at h
      exact hs _ _ h
  cases op with
  | find providers options =>
    have hkey : ∀ {k s''}, KeyStep options s tr k s'' → KeysNonempty s'' := by
      intro k s'' h
      cases h with
      | kept => exact hs
      | given hg => exact hset hs (hgiven _ hg)
      | sampled _ _ hd => exact hset hs (hsampled _ hd)
    cases (exec_findDeployedContract run).2 with
    | early => exact hs
    | late key => exact hkey key
    | found key state =>
      unfold KeysNonempty
      rw [state.signingKeys]
      exact hkey key
  | deploy providers options =>
    have hat : ∀ v, KeysNonempty (s.setAt options.privateStateId v) := by
      intro v
      unfold KeysNonempty
      rw [PrivateStore.setAt_signingKeys]
      exact hs
    cases exec_submitDeployTx run with
    | early => exact hs
    | late => exact hat _
    | deployed => exact hset (hat _) (hgiven _ rfl)

/-! ## Sessions -/

variable (PS) in
def custody : Service (Providers PS) ContractsError :=
  ⟨CustodyOp PS, CustodyOp.Result, CustodyOp.program⟩

/-- The signing keys of a session are not empty: stored at first, given as options, or sampled. -/
structure NonemptyKeys (s₀ : PrivateStore PS)
    (done : List (Performed (custody PS) (PrivateStore PS))) : Prop where
  initial : KeysNonempty s₀
  given : ∀ d ∈ done, ∀ k, CustodyOp.givenKey d.op = some k → k ≠ []
  sampled : ∀ d ∈ done, ∀ k, ⟨.sampleSigningKey, .ok k⟩ ∈ d.trace → k ≠ []

variable {s₀ : PrivateStore PS} {done : List (Performed (custody PS) (PrivateStore PS))}

theorem NonemptyKeys.final (h : NonemptyKeys s₀ done)
    (session : Session (storeEnv mayReject) s₀ done s) : KeysNonempty s :=
  session.invariant h.initial fun d hd valid hbefore =>
    CustodyOp.keysNonempty d.op valid hbefore (h.given d hd) (h.sampled d hd)

theorem NonemptyKeys.of_prefix {pre post : List (Performed (custody PS) (PrivateStore PS))}
    (h : NonemptyKeys s₀ (pre ++ post)) : NonemptyKeys s₀ pre where
  initial := h.initial
  given d hd := h.given d (List.mem_append_left _ hd)
  sampled d hd := h.sampled d (List.mem_append_left _ hd)

theorem NonemptyKeys.before (h : NonemptyKeys s₀ done)
    (session : Session (storeEnv mayReject) s₀ done s)
    {d : Performed (custody PS) (PrivateStore PS)} (hd : d ∈ done) : KeysNonempty d.before := by
  obtain ⟨pre, post, rfl⟩ := List.append_of_mem hd
  exact h.of_prefix.final session.split.1

/-- A stored key survives operations that do not touch its address, and finds that give no key. -/
theorem key_survives {a : ContractAddress} {k : SigningKey}
    (session : Session (storeEnv mayReject) s₀ done s) (hk : k ≠ [])
    (hstored : s₀.signingKeys a = some k)
    (h : ∀ d ∈ done, CustodyOp.TouchesKey d.op d.trace a →
      ∃ options, CustodyOp.findOptions d.op = some options ∧ options.signingKey = none) :
    s.signingKeys a = some k := by
  refine session.invariant (I := fun s => s.signingKeys a = some k) hstored ?_
  intro d hd valid hbefore
  by_cases htouch : CustodyOp.TouchesKey d.op d.trace a
  · obtain ⟨options, hoptions, hgiven⟩ := h d hd htouch
    exact CustodyOp.key_kept d.op valid hoptions hgiven hbefore hk
  · rw [CustodyOp.signingKeys_frame d.op valid htouch, hbefore]

/-- Custody over a session of finds and deployments. -/
structure KeepsCustody (done : List (Performed (custody PS) (PrivateStore PS))) : Prop where
  /-- A resolved find returns what is stored. -/
  found : ∀ d ∈ done, ∀ options f, CustodyOp.findOptions d.op = some options →
    CustodyOp.found d.op d.outcome = some f →
    d.after.signingKeys options.contractAddress = some f.signingKey ∧
    ∀ id, options.privateStateId = some id →
      d.after.privateStates id = some f.initialPrivateState
  /-- A find that gives no key changes no stored key. -/
  kept : ∀ d ∈ done, ∀ options, CustodyOp.findOptions d.op = some options →
    options.signingKey = none → ∀ a k, d.before.signingKeys a = some k →
    d.after.signingKeys a = some k
  /-- Two finds of an address return one key, unless an operation that may give the address another
  one lies between them. -/
  same : ∀ pre d₁ mid d₂ post, done = pre ++ d₁ :: (mid ++ d₂ :: post) →
    ∀ options₁ f₁ options₂ f₂, CustodyOp.findOptions d₁.op = some options₁ →
    CustodyOp.found d₁.op d₁.outcome = some f₁ →
    CustodyOp.findOptions d₂.op = some options₂ →
    CustodyOp.found d₂.op d₂.outcome = some f₂ →
    options₂.contractAddress = options₁.contractAddress → options₂.signingKey = none →
    (∀ d ∈ mid, CustodyOp.TouchesKey d.op d.trace options₁.contractAddress →
      ∃ options, CustodyOp.findOptions d.op = some options ∧ options.signingKey = none) →
    f₂.signingKey = f₁.signingKey
  /-- A key is sampled only by a find of an address without one. -/
  samples : ∀ d ∈ done, ∀ e ∈ d.trace, e.call = .sampleSigningKey →
    ∃ options, CustodyOp.findOptions d.op = some options ∧
      d.before.signingKeys options.contractAddress = none
  /-- A private state changes only by an operation told to store one at its id. -/
  privateStates : ∀ d ∈ done, ∀ id, d.after.privateStates id ≠ d.before.privateStates id →
    CustodyOp.StoresAt d.op id
  /-- A signing key changes only by a find or a deployment of its address. -/
  signingKeys : ∀ d ∈ done, ∀ a, d.after.signingKeys a ≠ d.before.signingKeys a →
    CustodyOp.TouchesKey d.op d.trace a

theorem sessions_keep_custody (session : Session (storeEnv mayReject) s₀ done s)
    (hkeys : NonemptyKeys s₀ done) : KeepsCustody done where
  found d hd options f hoptions hf :=
    CustodyOp.found_stored d.op (session.valid_of_mem hd) hoptions hf
  kept d hd options hoptions hgiven a k hk :=
    CustodyOp.key_kept d.op (session.valid_of_mem hd) hoptions hgiven hk
      (hkeys.before session hd a k hk)
  same := by
    rintro pre d₁ mid d₂ post rfl options₁ f₁ options₂ f₂ hoptions₁ hf₁ hoptions₂ hf₂ ha hgiven
      hmid
    obtain ⟨hpre, valid₁, hrest⟩ := session.split
    obtain ⟨hbetween, valid₂, _⟩ := hrest.split
    have hstored₁ := (CustodyOp.found_stored d₁.op valid₁ hoptions₁ hf₁).1
    have hk : f₁.signingKey ≠ [] := by
      have hsession : Session (storeEnv mayReject) s₀ (pre ++ [d₁]) d₁.after := .snoc hpre valid₁
      have hkeys₁ : NonemptyKeys s₀ ((pre ++ [d₁]) ++ (mid ++ d₂ :: post)) := by simpa using hkeys
      exact hkeys₁.of_prefix.final hsession _ _ hstored₁
    have hbefore₂ := key_survives hbetween hk hstored₁ hmid
    have hafter₂ := CustodyOp.key_kept d₂.op valid₂ hoptions₂ hgiven hbefore₂ hk
    have hstored₂ := (CustodyOp.found_stored d₂.op valid₂ hoptions₂ hf₂).1
    rw [ha, hafter₂] at hstored₂
    exact (Option.some.inj hstored₂).symm
  samples d hd e he hc :=
    CustodyOp.samples d.op (session.valid_of_mem hd) (hkeys.before session hd) he hc
  privateStates d hd id hne := by
    by_contra h
    exact hne (CustodyOp.privateStates_frame d.op (session.valid_of_mem hd) h)
  signingKeys d hd a hne := by
    by_contra h
    exact hne (CustodyOp.signingKeys_frame d.op (session.valid_of_mem hd) h)

end Custody

namespace Sample

def findOptions (signingKey : Option SigningKey) (privateStateId : Option PrivateStateId)
    (initialPrivateState : Option (Option ℕ)) : FindDeployedContractOptions (Option ℕ) :=
  ⟨contract 1, address, signingKey, privateStateId, initialPrivateState⟩

/-- The write of a signing key is rejected. -/
def rejectingHandler (c : ProviderCall (Option ℕ)) (s : PrivateStore (Option ℕ)) :
    (Providers (Option ℕ)).Settled c × PrivateStore (Option ℕ) :=
  match c with
  | .setSigningKey _ _ => (.error (.error (js "disk full")), s)
  | c => storeHandler (reply .SucceedEntirely) c s

theorem storeEnv_reply (c : ProviderCall (Option ℕ)) (s : PrivateStore (Option ℕ)) :
    storeEnv (fun _ => True) c s (storeHandler (reply .SucceedEntirely) c s).1
      (storeHandler (reply .SucceedEntirely) c s).2 :=
  storeEnv_storeHandler (fun _ _ => trivial) c s

theorem storeEnv_rejectingHandler (c : ProviderCall (Option ℕ)) (s : PrivateStore (Option ℕ)) :
    storeEnv (fun _ => True) c s (rejectingHandler c s).1 (rejectingHandler c s).2 := by
  cases c with
  | setSigningKey a k => exact ⟨trivial, rfl⟩
  | _ => exact storeEnv_reply _ s

def deployment : CustodyOp (Option ℕ) :=
  .deploy providers ⟨contract 1, none, key 1, some (some 5), some (js "id")⟩

theorem rejection_leaves_at_most_deployment :
    ∃ tr e s', LeavesAtMost deployment (store none none) tr e s' ∧
      s'.privateStates (js "id") = some (some 5) ∧ s'.signingKeys address = none := by
  have run := Program.exec_run storeEnv_rejectingHandler deployment.program (store none none)
  exact ⟨_, _, _, (rejection_leaves_at_most deployment run).2, by decide, by decide⟩

/-- A deployment whose key cannot be stored, and a find that gives a private state without an id. -/
theorem rejections_leave_writes :
    (∃ tr e s', Exec (storeEnv fun _ => True) deployment.program (store none none) tr (.error e)
        s' ∧ s'.privateStates (js "id") = some (some 5)) ∧
      ∃ tr e s', Exec (storeEnv fun _ => True) (CustodyOp.program
        (.find providers (findOptions (some (key 2)) none (some (some 5)))))
        (store none (some (key 1))) tr (.error e) s' ∧ s'.signingKeys address = some (key 2) := by
  have run := Program.exec_run storeEnv_rejectingHandler deployment.program (store none none)
  have run' := Program.exec_run storeEnv_reply (CustodyOp.program
    (.find providers (findOptions (some (key 2)) none (some (some 5))))) (store none (some (key 1)))
  exact ⟨⟨_, _, _, run, by decide⟩, ⟨_, _, _, run', by decide⟩⟩

def custodySession : List (Performed (custody (Option ℕ)) (PrivateStore (Option ℕ))) ×
    PrivateStore (Option ℕ) :=
  (custody (Option ℕ)).perform (storeHandler (reply .SucceedEntirely))
    [.find providers (findOptions none none none), .find providers (findOptions none none none)]
    (store none none)

theorem sessions_keep_custody_sample :
    KeepsCustody custodySession.1 ∧ custodySession.2.signingKeys address = some (key 0) := by
  refine ⟨sessions_keep_custody (session_perform (storeEnv_storeHandler fun _ _ => trivial) _ _)
    ⟨?_, ?_, ?_⟩, by decide⟩
  · rintro a k ⟨⟩
  · intro d hd k hk
    obtain h | h := List.mem_pair.mp (mem_perform hd).1 <;> rw [h] at hk <;> cases hk
  · intro d hd k hk
    obtain ⟨_, h⟩ := (mem_perform hd).2 _ hk
    cases h
    decide

end Sample

end MidnightJs
