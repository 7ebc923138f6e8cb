import MidnightJs.Ledger.Runtime

/-! # Unproven offers

The parts of an offer are kept as the calls that made them. An input adds its value to the balance
of its token type, an output takes it away, a transient leaves it as it is; merging two offers
unites the parts and adds the balances. -/

namespace MidnightJs
open Foundations.Js
set_option autoImplicit false

inductive UnprovenOutput
  | new (coinInfo : CoinInfo) (segment : ℕ) (targetCpk targetEpk : JsString)
  | newContractOwned (coinInfo : CoinInfo) (segment : ℕ) (contract : ContractAddress)
  deriving DecidableEq

def UnprovenOutput.coinInfo (o : UnprovenOutput) : CoinInfo :=
  match o with
  | .new coinInfo _ _ _ => coinInfo
  | .newContractOwned coinInfo _ _ => coinInfo

inductive UnprovenTransient
  | newFromContractOwnedOutput (coin : QualifiedCoinInfo) (segment : ℕ) (output : UnprovenOutput)
  deriving DecidableEq

def UnprovenTransient.coin (t : UnprovenTransient) : QualifiedCoinInfo :=
  match t with
  | .newFromContractOwnedOutput coin _ _ => coin

def UnprovenTransient.output (t : UnprovenTransient) : UnprovenOutput :=
  match t with
  | .newFromContractOwnedOutput _ _ output => output

variable [Runtime]

inductive UnprovenInput
  | newContractOwned (coin : QualifiedCoinInfo) (segment : ℕ) (contract : ContractAddress)
    (state : ZswapChainState)

def UnprovenInput.coin (i : UnprovenInput) : QualifiedCoinInfo :=
  match i with
  | .newContractOwned coin _ _ _ => coin

structure UnprovenOffer where
  inputs : List UnprovenInput
  outputs : List UnprovenOutput
  transients : List UnprovenTransient
  deltas : JsString → ℤ

namespace UnprovenOffer

def empty : UnprovenOffer := ⟨[], [], [], fun _ => 0⟩

/-- The balance that has `value` at one type. -/
def single (type : JsString) (value : ℤ) : JsString → ℤ :=
  fun t => if t = type then value else 0

def fromInput (i : UnprovenInput) (type : JsString) (value : ℤ) : UnprovenOffer :=
  ⟨[i], [], [], single type value⟩

def fromOutput (o : UnprovenOutput) (type : JsString) (value : ℤ) : UnprovenOffer :=
  ⟨[], [o], [], single type (-value)⟩

def fromTransient (t : UnprovenTransient) (type : JsString) (_value : ℤ) : UnprovenOffer :=
  ⟨[], [], [t], single type 0⟩

def merge (a b : UnprovenOffer) : UnprovenOffer where
  inputs := a.inputs ++ b.inputs
  outputs := a.outputs ++ b.outputs
  transients := a.transients ++ b.transients
  deltas := fun t => a.deltas t + b.deltas t

end UnprovenOffer

end MidnightJs
