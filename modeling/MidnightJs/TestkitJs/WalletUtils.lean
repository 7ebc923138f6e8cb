import MidnightJs.Foundations.Notifications
import Mathlib.Data.Int.Notation

/-! # Waiting for a wallet

`testkit-js/src/wallet/wallet-utils.ts`. A wait looks at the throttled states of a wallet;
`waitForTxInHistory` waits again in every round until a state lists the transaction. -/

namespace MidnightJs.TestkitJs
open Foundations.Js Foundations.Rx
set_option autoImplicit false

structure SyncProgress where
  synced : Bool
  applyGap : ℤ
  deriving DecidableEq

structure TransactionHistoryEntry where
  identifiers : List JsString
  deriving DecidableEq

structure WalletState where
  syncProgress : Option SyncProgress
  transactionHistory : List TransactionHistoryEntry
  deriving DecidableEq

namespace WalletState

def unsynced (state : WalletState) : Bool := state.syncProgress.any fun progress => !progress.synced

def synced (state : WalletState) : Bool := state.syncProgress.any fun progress => progress.synced

def lists (txId : JsString) (state : WalletState) : Bool :=
  (state.transactionHistory.flatMap fun tx => tx.identifiers).contains txId

end WalletState

/-- The filter lets those states through whose progress is known and not synced. -/
def waitForFullSync (notifications : List (Notification WalletState)) : Promise WalletState :=
  firstValueFrom (filterNext (fun state => state.unsynced) (throttleTime false notifications))

def waitForSyncProgressDefined (notifications : List (Notification WalletState)) :
    Promise WalletState :=
  firstValueFrom (filterNext (fun state => state.syncProgress.isSome)
    (throttleTime false (timeout notifications)))

/-- What has arrived in each round so far. The state is the one that listed the transaction. -/
def waitForTxInHistory (txId : JsString) (rounds : List (List (Notification WalletState))) :
    Promise WalletState :=
  match rounds with
  | [] => .pending
  | round :: later =>
    match waitForFullSync round with
    | .pending => .pending
    | .rejected e => .rejected e
    | .resolved state => if state.lists txId then .resolved state else waitForTxInHistory txId later

end MidnightJs.TestkitJs
