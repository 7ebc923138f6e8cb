import MidnightJs.Contracts.Steps

/-! # What a submitting operation leaves in the store

The five submitting operations share one shape, `transact`: build a transaction, submit it, refuse
any status but `SucceedEntirely`, write to the store. A run of `transact` either rejects before its
write and leaves the store as it was, or its transaction succeeded and what is left is the run of
the write. From this follows, for sessions of the five operations, that the store changes by
the documented writes of the successful transactions and by nothing else. -/

namespace MidnightJs
open Foundations Foundations.Js Foundations.Async
set_option autoImplicit false

variable [Runtime] {PS : Type}

/-! ## Failed steps and final statuses -/

/-- A step failed: a call was rejected, or an assertion threw. -/
def Failed {ρ : Type} (tr : List (Event (Providers PS))) (out : Except ContractsError ρ) : Prop :=
  ¬ AllOk tr ∨ ∃ e, out = .error e ∧ (e.IsAssertion ∨ e.IsNoPrivateState)

/-- The id of a transaction that the node has taken. -/
def submitted (e : Event (Providers PS)) : Option TransactionId :=
  match e with
  | ⟨.submitTx _, .ok txId⟩ => some txId
  | _ => none

/-- The id and the data of a watched transaction. -/
def watched (e : Event (Providers PS)) : Option (TransactionId × FinalizedTxData) :=
  match e with
  | ⟨.watchForTxData txId, .ok data⟩ => some (txId, data)
  | _ => none

/-- Some transaction was watched and came out with this status. -/
def WatchedAs (tr : List (Event (Providers PS))) (status : TxStatus) : Prop :=
  ∃ e ∈ tr, (watched e).map (fun w => w.2.status) = some status

/-- The transaction that was submitted was watched and came out with this status. -/
def FinalizedAs (tr : List (Event (Providers PS))) (status : TxStatus) : Prop :=
  ∃ txId ∈ tr.filterMap submitted, ∃ e ∈ tr,
    (watched e).map (fun w => (w.1, w.2.status)) = some (txId, status)

instance (tr : List (Event (Providers PS))) (status : TxStatus) :
    Decidable (FinalizedAs tr status) :=
  inferInstanceAs (Decidable (∃ txId ∈ tr.filterMap submitted, ∃ e ∈ tr, _))

def ProviderCall.IsWatch : ProviderCall PS → Prop
  | .watchForTxData _ => True
  | _ => False

theorem watched_eq_none {e : Event (Providers PS)} (h : ¬ ProviderCall.IsWatch e.call) :
    watched e = none := by
  obtain ⟨c, r⟩ := e
  cases c <;> first | rfl | exact absurd trivial h

theorem FinalizedAs.watchedAs {tr : List (Event (Providers PS))} {status : TxStatus}
    (h : FinalizedAs tr status) : WatchedAs tr status := by
  obtain ⟨txId, -, e, he, hwatched⟩ := h
  obtain ⟨w, hw, heq⟩ := Option.map_eq_some_iff.mp hwatched
  exact ⟨e, he, Option.map_eq_some_iff.mpr ⟨w, hw, congrArg Prod.snd heq⟩⟩

theorem FinalizedAs.mono {tr tr' : List (Event (Providers PS))} {status : TxStatus}
    (h : FinalizedAs tr status) (hsub : tr ⊆ tr') : FinalizedAs tr' status := by
  obtain ⟨txId, hsubmitted, e, he, hwatched⟩ := h
  obtain ⟨e', he', hid⟩ := List.mem_filterMap.mp hsubmitted
  exact ⟨txId, List.mem_filterMap.mpr ⟨e', hsub he', hid⟩, e, hsub he, hwatched⟩

theorem not_watchedAs {tr : List (Event (Providers PS))} {status : TxStatus}
    (h : ∀ e ∈ tr, watched e = none) : ¬ WatchedAs tr status := by
  rintro ⟨e, he, hstatus⟩
  rw [h e he] at hstatus
  cases hstatus

theorem watchedAs_append {tr tr' : List (Event (Providers PS))} {status : TxStatus} :
    WatchedAs (tr ++ tr') status ↔ WatchedAs tr status ∨ WatchedAs tr' status := by
  simp only [WatchedAs, List.mem_append, or_and_right, exists_or]

theorem ProviderCall.IsPreparation.not_isWatch {c : ProviderCall PS} (h : c.IsPreparation) :
    ¬ c.IsWatch := by
  cases c <;> first | exact id | exact fun _ => h

theorem ProviderCall.IsPreparation.not_isWrite {c : ProviderCall PS} (h : c.IsPreparation) :
    ¬ c.IsWrite := by
  cases c <;> first | exact id | exact fun _ => h

theorem ProviderCall.Submits.not_isWrite {c : ProviderCall PS} (h : c.Submits) : ¬ c.IsWrite := by
  cases c <;> first | exact id | exact fun _ => h

variable {mayReject : ProviderCall PS → Prop} {α : Type} {allowed : ProviderCall PS → Prop}
  {also : ContractsError → Prop} {p : Promise PS α} {s s' : PrivateStore PS}
  {tr : List (Event (Providers PS))}

theorem Prepares.allOk {a : α} (hp : Prepares allowed also p)
    (run : Exec (storeEnv mayReject) p s tr (.ok a) s') : AllOk tr :=
  run.allOk hp.propagates

theorem Prepares.frame {out : Except ContractsError α} (hp : Prepares allowed also p)
    (h : ∀ c, allowed c → ¬ c.IsWrite) (run : Exec (storeEnv mayReject) p s tr out s') : s' = s :=
  exec_frame run (hp.uses.mono h)

theorem Prepares.not_watchedAs {out : Except ContractsError α} {status : TxStatus}
    (hp : Prepares ProviderCall.IsPreparation also p) (run : Exec (storeEnv mayReject) p s tr out s') :
    ¬ WatchedAs tr status :=
  MidnightJs.not_watchedAs fun _ he => watched_eq_none
    (ProviderCall.IsPreparation.not_isWatch (run.allowed_of_mem hp.uses he))

/-! ## Submitting -/

/-- `submitTx` up to the watch. -/
def sendTx (options : SubmitTxOptions) : Promise PS TransactionId := do
  let proveTxConfig ← zkConfigOf options.circuitId
  let unbalancedTx ← provide (.proveTx options.unprovenTx proveTxConfig)
  let balancedTx ← provide (.balanceTx unbalancedTx (options.newCoins.getD []))
  provide (.submitTx balancedTx)

theorem submitTx_eq (options : SubmitTxOptions) :
    (submitTx options : Promise PS FinalizedTxData) = (do
      let txId ← sendTx options
      provide (.watchForTxData txId)) := by
  simp only [submitTx, sendTx, Program.bind_eq, Program.bind_assoc]

theorem prepares_sendTx (also : ContractsError → Prop) (options : SubmitTxOptions) :
    Prepares ProviderCall.IsPreparation also (sendTx options : Promise PS _) := by
  have hzk : Prepares ProviderCall.IsPreparation also (zkConfigOf options.circuitId : Promise PS _) := by
    unfold zkConfigOf
    split
    · split
      · refine .bind (.provide ?_) fun _ => .resolve _
        trivial
      · exact .resolve _
    · exact .resolve _
  refine .bind hzk fun _ => .bind (.provide trivial) fun _ => ?_
  exact .bind (.provide trivial) fun _ => .provide trivial

theorem exec_sendTx_submitted {options : SubmitTxOptions} {txId : TransactionId}
    (run : Exec (storeEnv mayReject) (sendTx options : Promise PS _) s tr (.ok txId) s') :
    txId ∈ tr.filterMap submitted := by
  obtain ⟨_, s₁, tr₁, tr₂, _, hproves, rfl⟩ := exec_bind_ok.mp run
  obtain ⟨_, s₂, tr₃, _, hbalances, rfl⟩ := exec_provide_bind_ok hproves
  obtain ⟨_, s₃, tr₄, _, hsubmits, rfl⟩ := exec_provide_bind_ok hbalances
  obtain ⟨_, rfl⟩ := (exec_call_ok (E := Providers PS)).mp hsubmits
  simp [submitted]

/-- What a submission resolves with is what its only watch replied, for the transaction that it has
submitted. -/
theorem exec_submitTx_watched {options : SubmitTxOptions}
    {out : Except ContractsError FinalizedTxData} {status : TxStatus}
    (run : Exec (storeEnv mayReject) (submitTx options : Promise PS _) s tr out s') :
    (WatchedAs tr status ↔ ∃ data, out = .ok data ∧ data.status = status) ∧
      (WatchedAs tr status → FinalizedAs tr status) := by
  rw [submitTx_eq, Program.bind_eq, exec_bind] at run
  obtain ⟨e, hsend, rfl⟩ | ⟨txId, s₁, tr₁, tr₂, hsend, hwatch, rfl⟩ := run
  · have hnot : ¬ WatchedAs tr status := (prepares_sendTx NoOther options).not_watchedAs hsend
    exact ⟨by simp [hnot], fun h => absurd h hnot⟩
  · obtain ⟨r, _, rfl, rfl⟩ := (exec_call (E := Providers PS)).mp hwatch
    have hsubmitted := exec_sendTx_submitted hsend
    rw [watchedAs_append, or_iff_right ((prepares_sendTx NoOther options).not_watchedAs hsend)]
    cases r with
    | ok data =>
      refine ⟨by simp [WatchedAs, watched, Except.mapError], fun h => ?_⟩
      have hstatus : data.status = status := by simpa [WatchedAs, watched] using h
      refine ⟨txId, ?_, ⟨.watchForTxData txId, .ok data⟩, by simp, by simp [watched, hstatus]⟩
      rw [List.filterMap_append]
      exact List.mem_append_left _ hsubmitted
    | error why => simp [WatchedAs, watched, Except.mapError]

theorem exec_submitTx_finalizedAs {options : SubmitTxOptions}
    {out : Except ContractsError FinalizedTxData} {status : TxStatus}
    (run : Exec (storeEnv mayReject) (submitTx options : Promise PS _) s tr out s') :
    FinalizedAs tr status ↔ ∃ data, out = .ok data ∧ data.status = status := by
  have hwatched : (WatchedAs tr status ↔ ∃ data, out = .ok data ∧ data.status = status) ∧
      (WatchedAs tr status → FinalizedAs tr status) := exec_submitTx_watched run
  obtain ⟨hiff, hfinal⟩ := hwatched
  exact ⟨fun h => hiff.mp h.watchedAs, fun h => hfinal (hiff.mpr h)⟩

/-! ## The common shape -/

def transact {δ ρ : Type} (build : Promise PS δ) (options : δ → SubmitTxOptions)
    (failed : FinalizedTxData → ContractsError) (write : δ → Promise PS Unit)
    (result : δ → FinalizedTxData → ρ) : Promise PS ρ := do
  let data ← build
  let finalizedTxData ← submitTx (options data)
  if finalizedTxData.status ≠ .SucceedEntirely then .reject (failed finalizedTxData)
  else do
    write data
    return result data finalizedTxData

section Transact

variable {δ ρ : Type} {build : Promise PS δ} {options : δ → SubmitTxOptions}
  {failed : FinalizedTxData → ContractsError} {write : δ → Promise PS Unit}
  {result : δ → FinalizedTxData → ρ} {out : Except ContractsError ρ}

/-- The run rejected before any write, and its transaction did not succeed. -/
structure RejectsEarly (s : PrivateStore PS) (tr : List (Event (Providers PS)))
    (out : Except ContractsError ρ) (s' : PrivateStore PS) : Prop where
  rejects : ∃ e, out = .error e
  unchanged : s' = s
  notSucceeded : ¬ FinalizedAs tr .SucceedEntirely

/-- The run built `d`, and its transaction succeeded with `data`; what follows is the write. -/
structure Succeeds (mayReject : ProviderCall PS → Prop) (build : Promise PS δ)
    (options : δ → SubmitTxOptions) (s : PrivateStore PS) (tr : List (Event (Providers PS)))
    (d : δ) (data : FinalizedTxData) : Prop where
  parts : ∃ tr₁ tr₂, tr = tr₁ ++ tr₂ ∧ Exec (storeEnv mayReject) build s tr₁ (.ok d) s ∧
    Exec (storeEnv mayReject) (submitTx (options d) : Promise PS _) s tr₂ (.ok data) s
  allOk : AllOk tr
  succeeded : data.status = .SucceedEntirely

theorem Succeeds.finalizedAs {d : δ} {data : FinalizedTxData} {tr' : List (Event (Providers PS))}
    (h : Succeeds mayReject build options s tr d data) :
    FinalizedAs (tr ++ tr') .SucceedEntirely := by
  obtain ⟨tr₁, tr₂, rfl, _, hsubmit⟩ := h.parts
  have hfinal := (exec_submitTx_finalizedAs hsubmit).mpr ⟨data, rfl, h.succeeded⟩
  refine hfinal.mono fun e he => ?_
  exact List.mem_append_left _ (List.mem_append_right _ he)

/-- The runs of `transact`. -/
theorem exec_transact (hbuild : Prepares ProviderCall.IsPreparation also build)
    (run : Exec (storeEnv mayReject) (transact build options failed write result) s tr out s') :
    RejectsEarly s tr out s' ∨
      ∃ d data tr₁ tr₂ written, Succeeds mayReject build options s tr₁ d data ∧
        Exec (storeEnv mayReject) (write d) s tr₂ written s' ∧ tr = tr₁ ++ tr₂ ∧
        out = written.map fun _ => result d data := by
  have hsubmit : ∀ o, Prepares ProviderCall.Submits also
      (submitTx o : Promise PS FinalizedTxData) :=
    prepares_submitTx _
  rw [transact, Program.bind_eq, exec_bind] at run
  obtain ⟨e, hb, rfl⟩ | ⟨d, s₁, tr₁, tr₂, hb, run, rfl⟩ := run
  · exact .inl ⟨⟨e, rfl⟩, hbuild.frame (fun _ h => h.not_isWrite) hb,
      fun h => hbuild.not_watchedAs hb h.watchedAs⟩
  obtain rfl := hbuild.frame (fun _ h => h.not_isWrite) hb
  -- Nothing is watched while the transaction is built.
  have hwatch : ∀ {tr₂}, FinalizedAs (tr₁ ++ tr₂) .SucceedEntirely →
      WatchedAs tr₂ .SucceedEntirely :=
    fun h => (watchedAs_append.mp h.watchedAs).resolve_left (hbuild.not_watchedAs hb)
  rw [Program.bind_eq, exec_bind] at run
  obtain ⟨e, hs, rfl⟩ | ⟨data, s₂, tr₃, tr₄, hs, run, rfl⟩ := run
  · refine .inl ⟨⟨e, rfl⟩, (hsubmit _).frame (fun _ h => h.not_isWrite) hs, fun hfinal => ?_⟩
    obtain ⟨data, hdata, -⟩ := (exec_submitTx_watched hs).1.mp (hwatch hfinal)
    cases hdata
  obtain rfl := (hsubmit _).frame (fun _ h => h.not_isWrite) hs
  by_cases hstatus : data.status = .SucceedEntirely
  · rw [if_neg (not_not.mpr hstatus), Program.bind_eq, exec_bind] at run
    have hsucc : Succeeds mayReject build options s₂ (tr₁ ++ tr₃) d data :=
      ⟨⟨_, _, rfl, hb, hs⟩, allOk_append.mpr ⟨hbuild.allOk hb, (hsubmit _).allOk hs⟩, hstatus⟩
    obtain ⟨e, hw, rfl⟩ | ⟨_, s₃, tr₅, tr₆, hw, run, rfl⟩ := run
    · exact .inr ⟨d, data, _, tr₄, .error e, hsucc, hw, by simp, rfl⟩
    · obtain ⟨rfl, rfl, rfl⟩ := exec_resolve.mp run
      exact .inr ⟨d, data, _, tr₅, .ok (), hsucc, hw, by simp, rfl⟩
  · rw [if_pos hstatus] at run
    obtain ⟨rfl, rfl, rfl⟩ := exec_reject.mp run
    refine .inl ⟨⟨_, rfl⟩, rfl, fun hfinal => ?_⟩
    rw [List.append_nil] at hfinal
    obtain ⟨_, ⟨⟩, hsucceeded⟩ := (exec_submitTx_watched hs).1.mp (hwatch hfinal)
    exact hstatus hsucceeded

end Transact

end MidnightJs
