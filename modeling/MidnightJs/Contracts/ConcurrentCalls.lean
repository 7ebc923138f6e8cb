import MidnightJs.Foundations.Interleaving
import MidnightJs.Foundations.Register
import MidnightJs.Contracts.Steps

/-! # Calls that run concurrently

Any number of calls with one private state id, whose awaited steps are interleaved in any way.
Nothing in the code keeps a call away from the stored private state between the read and the write
of another one, so the calls use it as a register: each writes the transition of its circuit applied
to what it read. What they leave is what a register is left with. -/

namespace MidnightJs
open Foundations Foundations.Js Foundations.Async
set_option autoImplicit false

section Calls

variable [Runtime] {PS : Type}

/-! ## A call as a party of a protocol -/

/-- How far a call is: what it has read, what its circuit has made of it, what it has stored. -/
inductive CallPhase (PS : Type)
  | start
  | read (v : PS)
  | ran (v : PS)
  | written

/-- The run of the circuit of a call on the private state `v`. -/
def RunsOn (options : CallTxOptions PS) (v : PS) (circuit : Circuit PS)
    (context : CircuitContext PS) (args : List Value) : Prop :=
  options.contract.impureCircuit options.circuitId = some circuit ∧
    context.currentPrivateState = v ∧ args = options.args.getD []

/-- The calls to the providers that a call makes in a phase. -/
def CallPhase.Allows (options : CallTxOptions PS) (id : PrivateStateId) :
    CallPhase PS → ProviderCall PS → Prop
  | .start, c => c = .queryZSwapAndContractState options.contractAddress ∨ c = .get id
  | .read _, .dateNow => True
  | .read v, .runCircuit circuit context args => RunsOn options v circuit context args
  | .ran _, .communicationCommitmentRandomness => True
  | .ran v, c => c.Submits ∨ c = .set id v
  | _, _ => False

def CallPhase.next : CallPhase PS → Event (Providers PS) → CallPhase PS
  | .start, ⟨.get _, .ok (some v)⟩ => .read v
  | .read _, ⟨.runCircuit _ _ _, .ok results⟩ => .ran results.context.currentPrivateState
  | .ran _, ⟨.set _ _, .ok _⟩ => .written
  | phase, _ => phase

def callProtocol (options : CallTxOptions PS) (id : PrivateStateId) :
    Protocol (Providers PS) (CallPhase PS) where
  allowed := CallPhase.Allows options id
  next := CallPhase.next

variable {options : CallTxOptions PS} {id : PrivateStateId} {v : PS} {α : Type}

theorem Prepares.follows {allowed : ProviderCall PS → Prop} {also : ContractsError → Prop}
    {p : Promise PS α} {phase : CallPhase PS} (hp : Prepares allowed also p)
    (h : ∀ c, allowed c → phase.Allows options id c)
    (stays : ∀ c reply, allowed c → phase.next ⟨c, .ok reply⟩ = phase) :
    p.Follows (callProtocol options id) (Program.OnResolve fun q _ => q = phase) phase :=
  Program.follows_of_uses (P := callProtocol options id) hp.uses hp.propagates h stays

theorem follows_sync {x : Except JsError α} {phase : CallPhase PS} :
    (sync x : Promise PS α).Follows (callProtocol options id)
      (Program.OnResolve fun q a => q = phase ∧ x = .ok a) phase := by
  refine Program.follows_ofExcept fun a ha => ⟨rfl, ?_⟩
  cases x with
  | ok b =>
    cases ha
    rfl
  | error e => cases ha

section Parts

variable [Undefined PS]

theorem follows_getStates :
    (getStates options.contractAddress id : Promise PS _).Follows (callProtocol options id)
      (Program.OnResolve fun q states => q = .read states.privateState ∧
        truthy states.privateState = true) .start := by
  refine Program.follows_bind ((prepares_getPublicStates NoOther options.contractAddress).follows
    (fun c h => .inl h) (by rintro _ _ rfl; rfl)) ?_
  rintro _ publicStates rfl
  refine ⟨.inr rfl, fun r => ?_⟩
  cases r with
  | error why => exact Program.follows_reject _
  | ok stored =>
    change (definedPrivateState id stored >>= _).Follows _ _ _
    cases stored with
    | none => exact Program.follows_reject _
    | some v =>
      refine Program.follows_bind (φ := fun q w => q = .read w ∧ truthy w = true)
        (Program.follows_ofExcept fun w hw => ?_) ?_
      · cases hx : assertDefined (some v) _ with
        | error e =>
          rw [hx] at hw
          cases hw
        | ok u =>
          rw [hx] at hw
          cases hw
          obtain ⟨h, htruthy⟩ := assertDefined_eq_ok.mp hx
          cases h
          exact ⟨rfl, htruthy⟩
      · rintro _ w ⟨rfl, htruthy⟩
        exact Program.follows_resolve ⟨rfl, htruthy⟩

theorem follows_call {callOptions : CallOptions PS}
    (hcontract : callOptions.contract = options.contract)
    (hcircuit : callOptions.circuitId = options.circuitId) (hargs : callOptions.args = options.args) :
    (call callOptions).Follows (callProtocol options id)
      (Program.OnResolve fun q res => q = .ran res.private.nextPrivateState)
      (.read (callOptions.initialPrivateState.getD undefined)) := by
  refine Program.follows_bind follows_sync ?_
  rintro _ circuit ⟨rfl, hok⟩
  obtain ⟨himpure, _⟩ := assertDefined_eq_ok.mp hok
  rw [hcontract, hcircuit] at himpure
  refine Program.follows_bind (φ := fun q _ =>
    q = .read (callOptions.initialPrivateState.getD undefined))
    (Program.follows_call (E := Providers PS) trivial fun _ => rfl) ?_
  rintro _ now rfl
  refine Program.follows_bind follows_sync ?_
  rintro _ coinPublicKey ⟨rfl, _⟩
  refine Program.follows_bind (φ := fun q results =>
    q = .ran results.context.currentPrivateState)
    (Program.follows_call (E := Providers PS) ⟨himpure, rfl, by rw [hargs]⟩ fun _ => rfl) ?_
  rintro _ results rfl
  refine Program.follows_bind follows_sync ?_
  rintro _ transcript ⟨rfl, _⟩
  exact Program.follows_resolve rfl

theorem follows_createUnprovenCallTxFromInitialStates {callOptions : CallOptions PS}
    {cpk epk : JsString} (hcontract : callOptions.contract = options.contract)
    (hcircuit : callOptions.circuitId = options.circuitId) (hargs : callOptions.args = options.args) :
    (createUnprovenCallTxFromInitialStates callOptions cpk epk).Follows (callProtocol options id)
      (Program.OnResolve fun q res => q = .ran res.private.nextPrivateState)
      (.read (callOptions.initialPrivateState.getD undefined)) := by
  refine Program.follows_bind follows_sync ?_
  rintro _ _ ⟨rfl, _⟩
  refine Program.follows_bind follows_sync ?_
  rintro _ _ ⟨rfl, _⟩
  refine Program.follows_bind (follows_call hcontract hcircuit hargs) ?_
  rintro _ callResult rfl
  refine Program.follows_bind follows_sync ?_
  rintro _ encryptionPublicKey ⟨rfl, _⟩
  have htx : ∀ transcript outputs input output zswapState,
      (createUnprovenLedgerCallTx callOptions.circuitId callOptions.contractAddress
        callOptions.initialContractState callOptions.initialZswapChainState transcript outputs input
        output zswapState encryptionPublicKey : Promise PS _).Follows (callProtocol options id)
      (Program.OnResolve fun q _ => q = .ran callResult.private.nextPrivateState)
      (.ran callResult.private.nextPrivateState) := by
    intro transcript outputs input output zswapState
    refine Program.follows_bind follows_sync ?_
    rintro _ _ ⟨rfl, _⟩
    refine Program.follows_bind follows_sync ?_
    rintro _ _ ⟨rfl, _⟩
    refine Program.follows_bind (φ := fun q _ => q = .ran callResult.private.nextPrivateState)
      (Program.follows_call (E := Providers PS) trivial fun _ => rfl) ?_
    rintro _ _ rfl
    exact Program.follows_resolve rfl
  refine Program.follows_bind (htx _ _ _ _ _) ?_
  rintro _ unprovenTx rfl
  refine Program.follows_bind follows_sync ?_
  rintro _ coinPublicKey ⟨rfl, _⟩
  exact Program.follows_resolve rfl

theorem follows_createUnprovenCallTx {providers : ContractProviders}
    (hid : options.privateStateId = some id) :
    (createUnprovenCallTx providers options).Follows (callProtocol options id)
      (Program.OnResolve fun q res => q = .ran res.private.nextPrivateState) .start := by
  refine Program.follows_bind follows_sync ?_
  rintro _ _ ⟨rfl, _⟩
  refine Program.follows_bind follows_sync ?_
  rintro _ _ ⟨rfl, _⟩
  simp only [hid]
  split
  · exact Program.follows_reject _
  refine Program.follows_bind follows_getStates ?_
  rintro _ states ⟨rfl, htruthy⟩
  refine Program.follows_bind follows_sync ?_
  rintro _ coinPublicKey ⟨rfl, _⟩
  refine Program.follows_bind follows_sync ?_
  rintro _ callOptions ⟨rfl, hoptions⟩
  obtain ⟨coinPublicKeyHex, _, h⟩ := except_bind_ok.mp hoptions
  cases h
  have hinitial : (if truthy (some states.privateState) = true then some states.privateState
      else none).getD undefined = states.privateState := by
    rw [if_pos (by exact htruthy)]
    rfl
  have hcall : (createUnprovenCallTxFromInitialStates ⟨options.contract, options.circuitId,
        options.contractAddress, options.args, coinPublicKeyHex, states.contractState,
        states.zswapChainState,
        if truthy (some states.privateState) = true then some states.privateState else none⟩
      providers.walletProvider.coinPublicKey providers.walletProvider.encryptionPublicKey).Follows
        (callProtocol options id)
        (Program.OnResolve fun q res => q = .ran res.private.nextPrivateState)
        (.read ((if truthy (some states.privateState) = true then some states.privateState
          else none).getD undefined)) :=
    follows_createUnprovenCallTxFromInitialStates rfl rfl rfl
  rw [hinitial] at hcall
  exact hcall

/-- A call that resolves has stored what its circuit returned. -/
theorem follows_submitCallTx {providers : ContractProviders}
    (hid : options.privateStateId = some id) :
    (submitCallTx providers options).Follows (callProtocol options id)
      (Program.OnResolve fun q _ => q = .written) .start := by
  refine Program.follows_bind follows_sync ?_
  rintro _ _ ⟨rfl, _⟩
  refine Program.follows_bind follows_sync ?_
  rintro _ _ ⟨rfl, _⟩
  rw [hid]
  cases hprovider : providers.hasPrivateStateProvider with
  | false => exact Program.follows_reject _
  | true =>
    refine Program.follows_bind (follows_createUnprovenCallTx hid) ?_
    rintro _ unprovenCallTxData rfl
    refine Program.follows_bind ((prepares_submitTx NoOther _).follows ?_ ?_) ?_
    · intro c hc
      cases c <;> first | exact .inl hc | trivial
    · intro c reply hc
      cases c <;> first | rfl | cases hc
    rintro _ finalizedTxData rfl
    split
    · exact Program.follows_reject _
    · refine Program.follows_bind (φ := fun q _ => q = .written)
        (Program.follows_call (E := Providers PS) (.inr rfl) fun _ => rfl) ?_
      rintro _ _ rfl
      exact Program.follows_resolve rfl

end Parts

/-! ## Runs -/

variable {ι : Type}

/-- The reads and writes of stored private states in a trace. -/
def access (e : ι × Event (Providers PS)) : Option (Access ι) :=
  match e with
  | ⟨i, ⟨.get _, .ok _⟩⟩ => some (.read i)
  | ⟨i, ⟨.set _ _, .ok _⟩⟩ => some (.write i)
  | _ => none

def accesses (tr : List (ι × Event (Providers PS))) : List (Access ι) := tr.filterMap access

/-- The calls that have stored their private state, in the order in which they did. -/
def storeOrder (tr : List (ι × Event (Providers PS))) : List ι := Register.writers (accesses tr)

theorem accesses_append_singleton (tr : List (ι × Event (Providers PS)))
    (e : ι × Event (Providers PS)) : accesses (tr ++ [e]) = accesses tr ++ (access e).toList := by
  cases h : access e <;> simp [accesses, h]

/-- The private transition of a call: its circuit with its arguments. -/
def IsTransition (options : CallTxOptions PS) (f : PS → PS) : Prop :=
  ∀ circuit context results, RunsOn options context.currentPrivateState circuit context
      (options.args.getD []) → circuit context (options.args.getD []) = .ok results →
    results.context.currentPrivateState = f context.currentPrivateState

/-- What a phase says about the reads and writes so far. -/
def CallPhase.Holds [DecidableEq ι] (f : ι → PS → PS) (v₀ : PS) (i : ι) (tr : List (Access ι)) :
    CallPhase PS → Prop
  | .start => i ∉ Register.writers tr
  | .read v => (Register.after f v₀ tr).held i = some v ∧ i ∉ Register.writers tr
  | .ran v => (∃ w, (Register.after f v₀ tr).held i = some w ∧ v = f i w) ∧
      i ∉ Register.writers tr
  | .written => i ∈ Register.writers tr

/-- The stored private state is the register of the calls. -/
structure StoredAsRegister [DecidableEq ι] (f : ι → PS → PS) (v₀ : PS) (id : PrivateStateId)
    (tr : List (ι × Event (Providers PS))) (phase : ι → CallPhase PS) (s : PrivateStore PS) :
    Prop where
  stored : s.privateStates id = some (Register.after f v₀ (accesses tr)).value
  readsFirst : Register.ReadsFirst (accesses tr)
  once : (Register.writers (accesses tr)).Nodup
  phases : ∀ i, (phase i).Holds f v₀ i (accesses tr)

variable [DecidableEq ι] {f : ι → PS → PS} {v₀ : PS} {tr : List (ι × Event (Providers PS))}
  {phase : ι → CallPhase PS} {s s' : PrivateStore PS} {i : ι}

omit [Runtime] in
/-- An access of another call leaves what a phase says. -/
theorem CallPhase.Holds.frame {q : CallPhase PS} {tr : List (Access ι)} {j : ι}
    (h : q.Holds f v₀ j tr) (hj : j ≠ i) {x : Access ι} (hx : x = .read i ∨ x = .write i) :
    q.Holds f v₀ j (tr ++ [x]) := by
  have hheld : (Register.after f v₀ (tr ++ [x])).held j = (Register.after f v₀ tr).held j := by
    rw [Register.after_append_singleton]
    obtain rfl | rfl := hx
    · simp [Register.step, hj]
    · rfl
  have hwriters : j ∈ Register.writers (tr ++ [x]) ↔ j ∈ Register.writers tr := by
    obtain rfl | rfl := hx
    · simp
    · simp [hj]
  cases q with
  | start => exact fun hw => h (hwriters.mp hw)
  | read v => exact ⟨hheld.trans h.1, fun hw => h.2 (hwriters.mp hw)⟩
  | ran v =>
    obtain ⟨⟨w, hw, hv⟩, hnot⟩ := h
    exact ⟨⟨w, hheld.trans hw, hv⟩, fun hw => hnot (hwriters.mp hw)⟩
  | written => exact hwriters.mpr h

/-- A step that is no access. -/
theorem StoredAsRegister.other (h : StoredAsRegister f v₀ id tr phase s)
    {e : Event (Providers PS)} (he : access (i, e) = none) {q : CallPhase PS}
    (hq : q.Holds f v₀ i (accesses tr)) :
    StoredAsRegister f v₀ id (tr ++ [(i, e)]) (Function.update phase i q) s := by
  have htr : accesses (tr ++ [(i, e)]) = accesses tr := by
    rw [accesses_append_singleton, he]
    simp
  refine ⟨htr ▸ h.stored, htr ▸ h.readsFirst, htr ▸ h.once, fun j => ?_⟩
  rw [htr]
  by_cases hj : j = i
  · subst hj
    rwa [Function.update_self]
  · rw [Function.update_of_ne hj]
    exact h.phases j

/-- A step that is no access and leaves the phase. -/
theorem StoredAsRegister.stays (h : StoredAsRegister f v₀ id tr phase s)
    {e : Event (Providers PS)} (he : access (i, e) = none) (hnext : (phase i).next e = phase i) :
    StoredAsRegister f v₀ id (tr ++ [(i, e)]) (Function.update phase i ((phase i).next e)) s := by
  rw [hnext]
  exact h.other he (h.phases i)

theorem StoredAsRegister.read (h : StoredAsRegister f v₀ id tr phase s)
    (hstart : phase i = .start) (hs : s.privateStates id = some v) :
    StoredAsRegister f v₀ id (tr ++ [(i, ⟨.get id, .ok (some v)⟩)])
      (Function.update phase i (.read v)) s := by
  have htr : accesses (tr ++ [(i, ⟨.get id, .ok (some v)⟩)]) = accesses tr ++ [.read i] :=
    accesses_append_singleton tr _
  have hv : (Register.after f v₀ (accesses tr)).value = v := by
    rw [h.stored] at hs
    exact Option.some.inj hs
  refine ⟨?_, ?_, ?_, fun j => ?_⟩
  · rw [htr, h.stored]
    simp [Register.step]
  · rw [htr]
    exact h.readsFirst.snoc (by rintro j ⟨⟩)
  · rw [htr, Register.writers_append_read]
    exact h.once
  · rw [htr]
    by_cases hj : j = i
    · subst hj
      have hi := h.phases j
      rw [hstart] at hi
      rw [Function.update_self]
      exact ⟨by simp [Register.step, hv], by simpa [CallPhase.Holds] using hi⟩
    · rw [Function.update_of_ne hj]
      exact (h.phases j).frame hj (.inl rfl)

theorem StoredAsRegister.write (h : StoredAsRegister f v₀ id tr phase s)
    (hran : phase i = .ran v) :
    StoredAsRegister f v₀ id (tr ++ [(i, ⟨.set id v, .ok ()⟩)])
      (Function.update phase i .written) (s.set id v) := by
  have htr : accesses (tr ++ [(i, ⟨.set id v, .ok ()⟩)]) = accesses tr ++ [.write i] :=
    accesses_append_singleton tr _
  obtain ⟨⟨w, hheld, rfl⟩, hnot⟩ := show CallPhase.Holds f v₀ i (accesses tr) (.ran v) from
    hran ▸ h.phases i
  refine ⟨?_, ?_, ?_, fun j => ?_⟩
  · rw [htr, PrivateStore.set_privateStates_self]
    simp [Register.step, hheld]
  · rw [htr]
    exact h.readsFirst.snoc (by rintro _ ⟨⟩; exact Register.read_mem_of_held hheld)
  · rw [htr, Register.writers_append_write]
    exact h.once.append (List.nodup_singleton i) (by simpa using hnot)
  · rw [htr]
    by_cases hj : j = i
    · subst hj
      rw [Function.update_self]
      simp [CallPhase.Holds]
    · rw [Function.update_of_ne hj]
      exact (h.phases j).frame hj (.inr rfl)

/-- Every step of a call keeps the invariant. -/
theorem StoredAsRegister.turn {mayReject : ProviderCall PS → Prop} {options : ι → CallTxOptions PS}
    (hf : ∀ i, IsTransition (options i) (f i)) (h : StoredAsRegister f v₀ id tr phase s)
    {c : ProviderCall PS} {r : (Providers PS).Settled c} (hc : (phase i).Allows (options i) id c)
    (hr : storeEnv mayReject c s r s') :
    StoredAsRegister f v₀ id (tr ++ [(i, ⟨c, r⟩)])
      (Function.update phase i ((phase i).next ⟨c, r⟩)) s' := by
  have hi := h.phases i
  cases r with
  | error why =>
    obtain ⟨_, rfl⟩ := hr
    exact h.stays (by cases c <;> rfl) (by cases phase i <;> cases c <;> rfl)
  | ok reply =>
    have hother := fun (haccess : access (i, ⟨c, .ok reply⟩) = none)
      (hnext : (phase i).next ⟨c, .ok reply⟩ = phase i) => h.stays haccess hnext
    cases hphase : phase i with
    | start =>
      rw [hphase] at hc hother
      obtain rfl | rfl := hc
      · obtain rfl : s' = s := hr
        exact hother rfl rfl
      · obtain ⟨hreply, rfl⟩ := hr
        rw [h.stored] at hreply
        subst hreply
        exact h.read hphase h.stored
    | read v =>
      rw [hphase] at hc hother hi
      cases c with
      | dateNow =>
        obtain rfl : s' = s := hr
        exact hother rfl rfl
      | runCircuit circuit context args =>
        obtain ⟨himpure, rfl, rfl⟩ := hc
        obtain ⟨hrun, rfl⟩ := hr
        refine h.other rfl ⟨⟨_, hi.1, ?_⟩, hi.2⟩
        exact hf i circuit context reply ⟨himpure, rfl, rfl⟩ hrun
      | _ => cases hc
    | ran v =>
      rw [hphase] at hc hother
      cases c with
      | set id' v' =>
        obtain hc | hc := hc
        · cases hc
        · cases hc
          obtain rfl : s' = s.set id v := hr
          exact h.write hphase
      | communicationCommitmentRandomness =>
        obtain rfl : s' = s := hr
        exact hother rfl rfl
      | getZkConfig _ | proveTx _ _ | balanceTx _ _ | submitTx _ | watchForTxData _ =>
        obtain rfl : s' = s := hr
        exact hother rfl rfl
      | _ => exact absurd hc (by rintro (⟨⟨⟩⟩ | ⟨⟨⟩⟩))
    | written =>
      rw [hphase] at hc
      cases hc

variable [Undefined PS]

/-- Whatever the interleaving, each store comes after the read of its call, and the stored private
state is the work of a chain of the calls, each of which read what the one before it stored. It is
the work of all calls that stored if no other call stores between the read and the write of one. -/
theorem calls_leave_chain {mayReject : ProviderCall PS → Prop} {providers : ContractProviders}
    {options : ι → CallTxOptions PS} {P : ι → Promise PS (FinalizedCallTxData PS)}
    (hid : ∀ i, (options i).privateStateId = some id) (hf : ∀ i, IsTransition (options i) (f i))
    (hstored : s.privateStates id = some v₀)
    (run : Run (storeEnv mayReject) (fun _ _ => False)
      (fun i => submitCallTx providers (options i)) s tr P s') :
    (storeOrder tr).Nodup ∧ (∀ i data, P i = .resolve data → i ∈ storeOrder tr) ∧
      Register.ReadsFirst (accesses tr) ∧
      ∃ value, s'.privateStates id = some value ∧
        (∃ chain, Register.MadeByChain f v₀ (accesses tr) value chain) ∧
        (Register.Exclusive (accesses tr) → value = Register.applied f v₀ (storeOrder tr)) := by
  have hinit : StoredAsRegister f v₀ id [] (fun _ : ι => .start) s :=
    ⟨hstored, by rintro _ _ _ h; simp [accesses] at h, by simp [accesses, Register.writers],
      fun _ => by simp [CallPhase.Holds, accesses, Register.writers]⟩
  obtain ⟨phase, h, hfollows⟩ := run.invariant (I := StoredAsRegister f v₀ id)
    (p := fun i => callProtocol (options i) id) (fun i => follows_submitCallTx (hid i)) hinit
    (fun _ _ _ _ _ _ _ hI hc hr => hI.turn hf hc hr) (fun _ _ _ _ _ hstep => hstep.elim)
  refine ⟨h.once, fun i data hi => ?_, h.readsFirst, _, h.stored,
    Register.value_chain h.readsFirst, fun hex => Register.value_exclusive h.readsFirst hex⟩
  have hwritten : phase i = .written := by
    have := hfollows i
    rw [hi] at this
    exact this data rfl
  have hphase := h.phases i
  rw [hwritten] at hphase
  exact hphase

end Calls

namespace Sample

/-- Two calls of one circuit. -/
def calls (_ : Bool) : CallTxOptions (Option ℕ) :=
  ⟨contract 1, circuitId, address, none, some (js "id")⟩

/-- The calls on a store with `5`, by a schedule of their steps. -/
def playCalls (schedule : List (Turn Bool)) :=
  play (fun c s => some (storeHandler (reply .SucceedEntirely) c s)) (fun _ => none)
    (fun i => submitCallTx providers (calls i)) (store (some (some 5)) none) schedule

theorem run_playCalls (schedule : List (Turn Bool)) :
    Run (storeEnv fun c => ¬ c.IsWrite) (fun _ _ => False)
      (fun i => submitCallTx providers (calls i)) (store (some (some 5)) none)
      (playCalls schedule).1 (playCalls schedule).2.1 (playCalls schedule).2.2 := by
  refine run_play (fun c s r s' h => ?_) (by rintro _ _ ⟨⟩) schedule
  have henv : storeEnv (fun c => ¬ c.IsWrite) c s (storeHandler (reply .SucceedEntirely) c s).1
      (storeHandler (reply .SucceedEntirely) c s).2 := storeEnv_storeHandler (fun _ h => h) c s
  rwa [Option.some.inj h] at henv

theorem isTransition_calls (i : Bool) : IsTransition (calls i) (Option.map (· + 1)) := by
  rintro circuit context results ⟨hcircuit, -, -⟩ hrun
  obtain rfl := Option.some.inj hcircuit.symm
  cases hrun
  rfl

/-- One call after the other. -/
def oneByOne : List (Turn Bool) := .replicate 11 (.of true) ++ .replicate 11 (.of false)

/-- Both calls read before one of them writes. -/
def bothReadFirst : List (Turn Bool) :=
  .replicate 2 (.of false) ++ .replicate 11 (.of true) ++ .replicate 9 (.of false)

theorem calls_leave_chain_one_by_one :
    (storeOrder (playCalls oneByOne).1).Nodup ∧
      (∀ i data, (playCalls oneByOne).2.1 i = .resolve data →
        i ∈ storeOrder (playCalls oneByOne).1) ∧
      Register.ReadsFirst (accesses (playCalls oneByOne).1) ∧
      ∃ value, (playCalls oneByOne).2.2.privateStates (js "id") = some value ∧
        (∃ chain, Register.MadeByChain (fun _ => Option.map (· + 1)) (some 5)
          (accesses (playCalls oneByOne).1) value chain) ∧
        (Register.Exclusive (accesses (playCalls oneByOne).1) →
          value = Register.applied (fun _ => Option.map (· + 1)) (some 5)
            (storeOrder (playCalls oneByOne).1)) :=
  calls_leave_chain (fun _ => rfl) isTransition_calls rfl (run_playCalls oneByOne)

set_option maxRecDepth 4000 in
/-- Both calls succeed, and the stored value is the transition of one of them only. -/
theorem both_calls_leave_one_transition :
    ∃ tr P s', Run (storeEnv fun c => ¬ c.IsWrite) (fun _ _ => False)
        (fun i => submitCallTx providers (calls i)) (store (some (some 5)) none) tr P s' ∧
      (∀ e ∈ tr, e.2.IsOk) ∧
      (∀ i, ∃ data, P i = .resolve data ∧ data.public.status = .SucceedEntirely) ∧
      (∀ i, IsTransition (calls i) (Option.map (· + 1))) ∧
      ¬ ∃ order : List Bool, order.Nodup ∧ (∀ i, i ∈ order) ∧ s'.privateStates (js "id") =
        some (Register.applied (fun _ => Option.map (· + 1)) (some 5) order) := by
  refine ⟨_, _, _, run_playCalls bothReadFirst, by decide, ?_, isTransition_calls, ?_⟩
  · intro i
    cases i <;> exact ⟨_, rfl, rfl⟩
  · rintro ⟨order, hnodup, hall, horder⟩
    have hfinal : (playCalls bothReadFirst).2.2.privateStates (js "id") = some (some 6) := by decide
    have hperm : order.Perm [true, false] := by
      refine (List.perm_ext_iff_of_nodup hnodup (by decide)).mpr fun i => ?_
      cases i <;> simp [hall]
    rw [hfinal, Register.applied, List.foldl_const, hperm.length_eq] at horder
    exact absurd horder (by decide)

end Sample

end MidnightJs
