import MidnightJs.PlatformJs.Hex

/-! # Network identifiers

`platform-js/src/effect/NetworkId.ts` and `NetworkIdMoniker.ts`. The main network is held as `true`,
every other network as its moniker; both are rendered as a moniker. -/

namespace MidnightJs.PlatformJs
open Foundations.Js
set_option autoImplicit false

/-! ## Monikers -/

def isMonikerUnit (u : UInt16) : Bool :=
  (0x61 ≤ u && u ≤ 0x7A) || (0x41 ≤ u && u ≤ 0x5A) || (0x30 ≤ u && u ≤ 0x39) || u == 0x2D

/-- `/^[a-zA-Z0-9-]+$/`. -/
def isNetworkIdMoniker (source : JsString) : Bool := !source.isEmpty && source.all isMonikerUnit

structure NetworkIdMoniker where
  text : JsString
  valid : isNetworkIdMoniker text = true
  deriving DecidableEq

/-- The brand constructor. -/
def NetworkIdMoniker.ofText (source : JsString) : Except JsError NetworkIdMoniker :=
  if h : isNetworkIdMoniker source = true then .ok ⟨source, h⟩
  else .error (.error (js "Source string '" ++ source ++ js "' is not a valid network identifier"))

def MAINNET_MONIKER : NetworkIdMoniker := ⟨js "main", rfl⟩

/-! ## Identifiers -/

/-- What an identifier holds under its moniker symbol. -/
inductive NetworkMoniker
  | mainNet
  | moniker (moniker : NetworkIdMoniker)
  deriving DecidableEq

structure NetworkId where
  networkMoniker : NetworkMoniker
  deriving DecidableEq

inductive NetworkIdInput
  | moniker (moniker : NetworkIdMoniker)
  | networkId (networkId : NetworkId)

namespace NetworkId

/-- Two values are equal if they are the same text, or both `true`. -/
def equals (self that : NetworkId) : Bool := self.networkMoniker == that.networkMoniker

def toString (self : NetworkId) : NetworkIdMoniker :=
  match self.networkMoniker with
  | .mainNet => MAINNET_MONIKER
  | .moniker moniker => moniker

def isMainNet (self : NetworkId) : Bool := self.networkMoniker == .mainNet

def MainNet : NetworkId := ⟨.mainNet⟩

def make (input : NetworkIdInput) : NetworkId :=
  match input with
  | .networkId networkId => ⟨networkId.networkMoniker⟩
  | .moniker moniker => ⟨.moniker moniker⟩

end NetworkId

/-- The configured network, or the main network if none is configured. -/
def makeNetwork (network : Option NetworkIdMoniker) : NetworkId :=
  NetworkId.make (match network with
    | some moniker => .moniker moniker
    | none => .networkId NetworkId.MainNet)

/-! ## Chains of constructions -/

/-- The ways to build an identifier. -/
inductive Construction
  | mainNet
  | moniker (moniker : NetworkIdMoniker)
  | copy (construction : Construction)

namespace Construction

def build (construction : Construction) : NetworkId :=
  match construction with
  | .mainNet => NetworkId.MainNet
  | .moniker m => NetworkId.make (.moniker m)
  | .copy construction => NetworkId.make (.networkId construction.build)

/-- The moniker at the start of the chain; there is none at the start of a chain of the constant. -/
def source (construction : Construction) : Option NetworkIdMoniker :=
  match construction with
  | .mainNet => none
  | .moniker m => some m
  | .copy construction => construction.source

/-- Copies change nothing. -/
theorem build_eq (construction : Construction) : construction.build =
    match construction.source with
    | none => NetworkId.MainNet
    | some m => ⟨.moniker m⟩ := by
  induction construction with
  | mainNet => rfl
  | moniker m => rfl
  | copy construction ih => exact ih

end Construction

/-- Equality, rendering and the test for the main network agree on two identifiers. -/
structure Coherent (n n' : NetworkId) : Prop where
  equals : n.equals n' = true ↔ n.toString = n'.toString
  mainNet : n.equals n' = true → n.isMainNet = n'.isMainNet

/-- The rendered moniker gives the identifier again. -/
def Rereads (n : NetworkId) : Prop := (NetworkId.make (.moniker n.toString)).equals n = true

/-- One chain starts with the constant, the other with its moniker. -/
def MixesMainNet (c c' : Construction) : Prop :=
  (c.source = none ∧ c'.source = some MAINNET_MONIKER) ∨
    (c.source = some MAINNET_MONIKER ∧ c'.source = none)

theorem coherent_of_monikers (m m' : NetworkIdMoniker) :
    Coherent ⟨.moniker m⟩ ⟨.moniker m'⟩ := by
  refine ⟨?_, fun _ => rfl⟩
  rw [NetworkId.equals, beq_iff_eq, NetworkMoniker.moniker.injEq]
  exact Iff.rfl

/-- The constant is different from every moniker, that of its own text included. -/
theorem coherent_mainNet_iff (m : NetworkIdMoniker) :
    Coherent NetworkId.MainNet ⟨.moniker m⟩ ↔ m ≠ MAINNET_MONIKER := by
  have hdiffer : NetworkId.MainNet.equals ⟨.moniker m⟩ = false := rfl
  constructor
  · rintro h rfl
    have hequals := h.equals.mpr rfl
    rw [hdiffer] at hequals
    cases hequals
  · intro hne
    refine ⟨iff_of_false (by rw [hdiffer]; exact Bool.false_ne_true) fun h => hne h.symm, ?_⟩
    intro h
    cases h

theorem Coherent.symm {n n' : NetworkId} (h : Coherent n n') : Coherent n' n := by
  have hequals : n'.equals n = n.equals n' := Bool.beq_comm
  refine ⟨?_, fun heq => (h.mainNet (hequals ▸ heq)).symm⟩
  rw [hequals, h.equals]
  exact eq_comm

/-- Only the constant and its moniker are told apart, and only the constant is not read again. -/
theorem network_ids_coherent (c c' : Construction) :
    (Coherent c.build c'.build ↔ ¬ MixesMainNet c c') ∧
      (Rereads c.build ↔ c.source ≠ none) := by
  constructor
  · rw [MixesMainNet, c.build_eq, c'.build_eq]
    cases c.source with
    | none =>
      cases c'.source with
      | none => exact iff_of_true ⟨by decide, fun _ => rfl⟩ (by simp)
      | some m => simpa using coherent_mainNet_iff m
    | some m =>
      cases c'.source with
      | none =>
        have hsymm : Coherent ⟨.moniker m⟩ NetworkId.MainNet ↔
          Coherent NetworkId.MainNet ⟨.moniker m⟩ := ⟨Coherent.symm, Coherent.symm⟩
        simpa [hsymm] using coherent_mainNet_iff m
      | some m' => exact iff_of_true (coherent_of_monikers m m') (by simp)
  · rw [Rereads, c.build_eq]
    cases c.source with
    | none => exact iff_of_false (by decide) (fun h => h rfl)
    | some m => exact iff_of_true (beq_self_eq_true _) (by simp)

/-- The constant and the identifier of its own moniker, as a configuration gives it. -/
theorem main_is_not_mainNet :
    NetworkId.MainNet.toString = (NetworkId.make (.moniker MAINNET_MONIKER)).toString ∧
      ¬ Coherent NetworkId.MainNet (NetworkId.make (.moniker MAINNET_MONIKER)) ∧
      ¬ Rereads NetworkId.MainNet ∧ (makeNetwork (some MAINNET_MONIKER)).isMainNet = false := by
  refine ⟨rfl, fun h => ?_, fun h => ?_, rfl⟩
  · have hequals := h.equals.mpr rfl
    cases hequals
  · cases h

end MidnightJs.PlatformJs
