import MidnightJs.CompactJs.Runtime
import MidnightJs.Foundations.Schema

/-! # The schema of encoded Zswap states

`compact-js-command/src/effect/internal/encodedZswapLocalStateSchema.ts`: the form in which the
commands keep a local Zswap state in a file. -/

namespace MidnightJs.CompactJs
open Foundations Foundations.Js Foundations.Js.Schema
set_option autoImplicit false

def EncodedCoinPublicKeySchema : Schema EncodedCoinPublicKey :=
  struct ((field (js "bytes") uint8Array).imap (fun bytes => ⟨bytes⟩) (fun k => k.bytes)
    fun _ => rfl) (by decide)

def EncodedContractAddressSchema : Schema EncodedContractAddress :=
  struct ((field (js "bytes") uint8Array).imap (fun bytes => ⟨bytes⟩) (fun a => a.bytes)
    fun _ => rfl) (by decide)

def EncodedQualifiedShieldedCoinInfoSchema : Schema EncodedQualifiedShieldedCoinInfo :=
  struct (((field (js "nonce") uint8Array).and ((field (js "color") uint8Array).and
      ((field (js "value") Schema.bigint).and (field (js "mt_index") Schema.bigint)))).imap
    (fun p => ⟨p.1, p.2.1, p.2.2.1, p.2.2.2⟩) (fun c => (c.nonce, c.color, c.value, c.mt_index))
    fun _ => rfl) (by decide)

def EncodedShieldedCoinInfoSchema : Schema EncodedShieldedCoinInfo :=
  struct (((field (js "nonce") uint8Array).and ((field (js "color") uint8Array).and
      (field (js "value") Schema.bigint))).imap
    (fun p => ⟨p.1, p.2.1, p.2.2⟩) (fun c => (c.nonce, c.color, c.value)) fun _ => rfl) (by decide)

def EncodedRecipientSchema : Schema EncodedRecipient :=
  struct (((field (js "is_left") Schema.boolean).and
      ((field (js "left") EncodedCoinPublicKeySchema).and
        (field (js "right") EncodedContractAddressSchema))).imap
    (fun p => ⟨p.1, p.2.1, p.2.2⟩) (fun r => (r.is_left, r.left, r.right)) fun _ => rfl) (by decide)

def EncodedOutputSchema : Schema EncodedOutput :=
  struct (((field (js "coinInfo") EncodedShieldedCoinInfoSchema).and
      (field (js "recipient") EncodedRecipientSchema)).imap
    (fun p => ⟨p.1, p.2⟩) (fun o => (o.coinInfo, o.recipient)) fun _ => rfl) (by decide)

def EncodedZswapLocalStateSchema : Schema EncodedZswapLocalState :=
  struct (((field (js "coinPublicKey") EncodedCoinPublicKeySchema).and
      ((field (js "currentIndex") Schema.bigint).and
        ((field (js "inputs") (Schema.array EncodedQualifiedShieldedCoinInfoSchema)).and
          (field (js "outputs") (Schema.array EncodedOutputSchema))))).imap
    (fun p => ⟨p.1, p.2.1, p.2.2.1, p.2.2.2⟩)
    (fun s => (s.coinPublicKey, s.currentIndex, s.inputs, s.outputs)) fun _ => rfl) (by decide)

def encodeZswapLocalStateObject (state : EncodedZswapLocalState) : JsValue :=
  EncodedZswapLocalStateSchema.encode state

def decodeZswapLocalStateObject (v : JsValue) : Except ContractError EncodedZswapLocalState :=
  match EncodedZswapLocalStateSchema.decode v with
  | some state => .ok state
  | none => .error .parseError

end MidnightJs.CompactJs
