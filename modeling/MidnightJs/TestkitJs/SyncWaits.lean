import MidnightJs.TestkitJs.WalletUtils

/-! # What a wait for synchronization resolves with

The filter of `waitForFullSync` is the wrong way round: only a state that is not synced resolves it,
so that the wait reports too early whenever it reports. -/

namespace MidnightJs.TestkitJs
open Foundations.Js Foundations.Rx
set_option autoImplicit false

/-- The states that pass the throttle. -/
def throttledStates (notifications : List (Notification WalletState)) : List WalletState :=
  values (throttleTime false notifications)

/-- Through the rounds, as long as each has a throttled state that is not synced, the first such
state does not list the transaction. -/
def NeverLists (txId : JsString) : List (List (Notification WalletState)) → Prop
  | [] => True
  | round :: later => ∀ state, (throttledStates round).find? WalletState.unsynced = some state →
      state.lists txId = false ∧ NeverLists txId later

/-! ## Waits on what has arrived so far -/

theorem waitForFullSync_resolved {notifications : List (Notification WalletState)}
    {state : WalletState} : waitForFullSync notifications = .resolved state ↔
      (throttledStates notifications).find? WalletState.unsynced = some state :=
  firstValueFrom_filterNext

theorem not_synced_of_unsynced {state : WalletState} (h : state.unsynced = true) :
    state.synced = false := by
  unfold WalletState.unsynced at h
  unfold WalletState.synced
  cases hprogress : state.syncProgress with
  | none => rfl
  | some progress => simpa [hprogress] using h

/-- A wait never resolves with a synced state. -/
theorem waitForFullSync_unsynced {notifications : List (Notification WalletState)}
    {state : WalletState} (h : waitForFullSync notifications = .resolved state) :
    state.synced = false :=
  not_synced_of_unsynced (firstValueFrom_passes h).1

theorem waitForFullSync_early_iff (notifications : List (Notification WalletState)) :
    (∀ state, waitForFullSync notifications = .resolved state → state.synced = true) ↔
      ∀ state ∈ throttledStates notifications, state.unsynced = false := by
  constructor
  · intro h
    cases hfind : (throttledStates notifications).find? WalletState.unsynced with
    | none => exact fun state hstate => by simpa using List.find?_eq_none.mp hfind state hstate
    | some state =>
      have hresolved := waitForFullSync_resolved.mpr hfind
      have hsynced := h state hresolved
      rw [waitForFullSync_unsynced hresolved] at hsynced
      cases hsynced
  · intro h state hresolved
    obtain ⟨hunsynced, hmem⟩ := firstValueFrom_passes hresolved
    rw [h state hmem] at hunsynced
    cases hunsynced

/-- One round more: the wait goes on only from a state that does not list the transaction. -/
theorem waitForTxInHistory_resolved {txId : JsString}
    {rounds : List (List (Notification WalletState))} {state : WalletState}
    (h : waitForTxInHistory txId rounds = .resolved state) :
    state.synced = false ∧ state.lists txId = true := by
  induction rounds with
  | nil => cases h
  | cons round later ih =>
    rw [waitForTxInHistory] at h
    cases hwait : waitForFullSync round with
    | pending => rw [hwait] at h; cases h
    | rejected e => rw [hwait] at h; cases h
    | resolved awaited =>
      rw [hwait] at h
      dsimp only at h
      split_ifs at h with hlists
      · cases h
        exact ⟨waitForFullSync_unsynced hwait, hlists⟩
      · exact ih h

theorem awaited_none {notifications : List (Notification WalletState)}
    (h : ∀ state, waitForFullSync notifications ≠ .resolved state) :
    (throttledStates notifications).find? WalletState.unsynced = none := by
  cases hfind : (throttledStates notifications).find? WalletState.unsynced with
  | none => rfl
  | some state => exact absurd (waitForFullSync_resolved.mpr hfind) (h state)

theorem waitForTxInHistory_never_iff (txId : JsString)
    (rounds : List (List (Notification WalletState))) :
    (∀ state, waitForTxInHistory txId rounds ≠ .resolved state) ↔ NeverLists txId rounds := by
  induction rounds with
  | nil => exact iff_of_true (fun state h => by cases h) trivial
  | cons round later ih =>
    rw [NeverLists, ← ih, waitForTxInHistory]
    cases hwait : waitForFullSync round with
    | pending =>
      rw [awaited_none fun state h => by rw [hwait] at h; cases h]
      exact iff_of_true (fun state h => by cases h) (fun state h => by cases h)
    | rejected e =>
      rw [awaited_none fun state h => by rw [hwait] at h; cases h]
      exact iff_of_true (fun state h => by cases h) (fun state h => by cases h)
    | resolved awaited =>
      rw [waitForFullSync_resolved.mp hwait]
      dsimp only
      cases hlists : awaited.lists txId with
      | true =>
        refine iff_of_false (fun h => h awaited rfl) fun h => ?_
        have hfalse := (h awaited rfl).1
        rw [hlists] at hfalse
        cases hfalse
      | false =>
        constructor
        · rintro h state hstate
          cases hstate
          exact ⟨hlists, h⟩
        · exact fun h => (h awaited rfl).2

/-! ## Waits on whole sequences -/

def FullSyncResolves (states : Sequence WalletState) (state : WalletState) : Prop :=
  ∃ n, waitForFullSync (states.upTo n) = .resolved state

/-- What has arrived in the first `k` rounds, in each before the place `n`. -/
def roundsUpTo (rounds : ℕ → Sequence WalletState) (n k : ℕ) :
    List (List (Notification WalletState)) :=
  (List.range k).map fun i => (rounds i).upTo n

def TxInHistoryResolves (txId : JsString) (rounds : ℕ → Sequence WalletState)
    (state : WalletState) : Prop :=
  ∃ n k, waitForTxInHistory txId (roundsUpTo rounds n k) = .resolved state

/-- The waits report early whenever they report at all. -/
theorem waits_never_early_iff (states : Sequence WalletState) (txId : JsString)
    (rounds : ℕ → Sequence WalletState) :
    ((∀ state, FullSyncResolves states state → state.synced = true) ↔
      ∀ n, ∀ state ∈ throttledStates (states.upTo n), state.unsynced = false) ∧
    ((∀ state, TxInHistoryResolves txId rounds state →
      state.synced = true ∧ state.lists txId = true) ↔
        ∀ n k, NeverLists txId (roundsUpTo rounds n k)) := by
  constructor
  · constructor
    · exact fun h n => (waitForFullSync_early_iff _).mp fun state hstate => h state ⟨n, hstate⟩
    · rintro h state ⟨n, hstate⟩
      exact (waitForFullSync_early_iff _).mpr (h n) state hstate
  · constructor
    · refine fun h n k => (waitForTxInHistory_never_iff txId _).mp fun state hstate => ?_
      have hsynced := (h state ⟨n, k, hstate⟩).1
      rw [(waitForTxInHistory_resolved hstate).1] at hsynced
      cases hsynced
    · rintro h state ⟨n, k, hstate⟩
      exact absurd hstate ((waitForTxInHistory_never_iff txId _).mpr (h n k) state)

/-- A state whose progress is known and not synced. -/
def behind : WalletState := ⟨some ⟨false, 5⟩, [⟨[js "tx"]⟩]⟩

def onlyBehind : Sequence WalletState := fun n => if n = 0 then some (.next behind) else none

theorem behind_reported : FullSyncResolves onlyBehind behind ∧
    TxInHistoryResolves (js "tx") (fun _ => onlyBehind) behind ∧ behind.synced = false :=
  ⟨⟨1, rfl⟩, ⟨1, 1, rfl⟩, rfl⟩

end MidnightJs.TestkitJs
