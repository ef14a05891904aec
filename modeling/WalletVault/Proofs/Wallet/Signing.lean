import WalletVault.Proofs.Wallet.Sound

/-! What the taint of a key decides. A call that looks at the taint is refused in two cases only, for want of the key
and for the taint that it finds, and is done otherwise; to sign is such a call, and so are to taint and to clear a
taint. -/
namespace WalletVault
open Fallible

/-- The answer of a call that is refused where the taint of the key is `barred`, with a fault of its own. -/
inductive TaintGuarded {α : Type} (barred : Bool) (fault : WalletFault) :
    Option KeyPair → Except WalletFault α → Prop where
  | absent : TaintGuarded barred fault none (.error .noSuchKey)
  | refused {pair : KeyPair} (found : pair.tainted = barred) : TaintGuarded barred fault (some pair) (.error fault)
  | done {pair : KeyPair} (found : pair.tainted = !barred) (value : α) :
      TaintGuarded barred fault (some pair) (.ok value)

theorem TaintGuarded.map {α β : Type} {barred : Bool} {fault : WalletFault} {pair? : Option KeyPair}
    {answer : Except WalletFault α} (guarded : TaintGuarded barred fault pair? answer) (f : α → β) :
    TaintGuarded barred fault pair? (answer.map f) := by
  cases guarded with
  | absent => exact .absent
  | refused found => exact .refused found
  | done found value => exact .done found (f value)

theorem TaintGuarded.isRefused {α : Type} {barred : Bool} {fault : WalletFault} {pair : KeyPair}
    {answer : Except WalletFault α} (guarded : TaintGuarded barred fault (some pair) answer)
    (found : pair.tainted = barred) : answer = .error fault := by
  cases guarded with
  | refused _ => rfl
  | done other _ =>
    rw [found] at other
    cases barred <;> cases other

namespace KeyPair

theorem taintGuarded (pair : KeyPair) : TaintGuarded true .alreadyTainted (some pair) pair.taint := by
  unfold taint
  split
  · rename_i tainted
    exact .refused tainted
  · rename_i untainted
    exact .done (Bool.not_eq_true _ |>.mp untainted) _

theorem untaintGuarded (pair : KeyPair) : TaintGuarded false .notTainted (some pair) pair.untaint := by
  unfold untaint
  split
  · rename_i tainted
    exact .done tainted _
  · rename_i untainted
    exact .refused (Bool.not_eq_true _ |>.mp untainted)

theorem signAnyUntainted {pair : KeyPair} (keyed : pair.Keyed) (untainted : pair.tainted = false) (data : Bytes) :
    pair.signAny data = .ok (Ed25519.sign pair.privateKey.bytes data) := by
  rw [signAny, untainted, Algorithm.sign, if_pos keyed.length]
  rfl

theorem signAnyTainted {pair : KeyPair} (tainted : pair.tainted = true) (data : Bytes) :
    pair.signAny data = .error .keyTainted := if_pos tainted

theorem signAnyGuarded {pair : KeyPair} (keyed : pair.Keyed) (data : Bytes) :
    TaintGuarded true .keyTainted (some pair) (pair.signAny data) := by
  cases flag : pair.tainted with
  | true =>
    rw [signAnyTainted flag]
    exact .refused flag
  | false =>
    rw [signAnyUntainted keyed flag]
    exact .done flag _

end KeyPair

namespace KeyRing
variable {ring : KeyRing} {key : String}

theorem requireMember {pair : KeyPair} (required : ring.require key = .ok pair) : pair ∈ ring.list := by
  unfold require at required
  split at required <;> cases required
  exact findMember ‹_›

theorem requireGuarded {α : Type} {barred : Bool} {fault : WalletFault} {f : KeyPair → Except WalletFault α}
    (guarded : ∀ pair, ring.find? key = some pair → TaintGuarded barred fault (some pair) (f pair)) :
    TaintGuarded barred fault (ring.find? key) (ring.require key >>= f) := by
  cases found : ring.find? key with
  | none =>
    rw [require, found]
    exact .absent
  | some pair =>
    rw [require, found]
    exact guarded pair found

theorem changeGuarded {barred : Bool} {fault : WalletFault} {f : KeyPair → Except WalletFault KeyPair}
    (guarded : ∀ pair, TaintGuarded barred fault (some pair) (f pair)) :
    TaintGuarded barred fault (ring.find? key) (ring.change key f) := by
  refine requireGuarded fun pair _ => ?_
  have filed := (guarded pair).map ring.upsert
  cases changed : f pair <;> rwa [changed] at filed

theorem signAnyGuarded (keyed : ∀ pair ∈ ring.list, pair.Keyed) (data : Bytes) :
    TaintGuarded true .keyTainted (ring.find? key) (ring.signAny key data) :=
  requireGuarded fun pair found => KeyPair.signAnyGuarded (keyed pair (findMember found)) data

theorem signTxGuarded (keyed : ∀ pair ∈ ring.list, pair.Keyed) (data : Bytes) :
    TaintGuarded true .keyTainted (ring.find? key) (ring.signTx key data) :=
  requireGuarded fun pair found => (KeyPair.signAnyGuarded (keyed pair (findMember found)) data).map _

theorem signedAlike (keyed : ∀ pair ∈ ring.list, pair.Keyed) {data raw : Bytes}
    (signed : ring.signAny key data = .ok raw) :
    raw.length = 64 ∧ ∃ signature, ring.signTx key data = .ok signature ∧ signature.bytes = .ok raw := by
  obtain ⟨pair, required, signed⟩ := bindOk.mp signed
  have alike : ring.signTx key data = .ok (Signature.ofBytes raw pair.algorithm.descriptor) :=
    bindOk.mpr ⟨pair, required, mapOk.mpr ⟨raw, signed, rfl⟩⟩
  refine ⟨?_, _, alike, Hex.decodeEncoded raw⟩
  cases flag : pair.tainted with
  | true =>
    rw [KeyPair.signAnyTainted flag] at signed
    cases signed
  | false =>
    rw [KeyPair.signAnyUntainted (keyed pair (requireMember required)) flag] at signed
    cases signed
    exact Ed25519.lengthSign _ _

end KeyRing

namespace Wallet

theorem taintGuarded (wallet : Wallet) (key : String) :
    TaintGuarded true .alreadyTainted (wallet.ring.find? key) (wallet.taint key) :=
  (KeyRing.changeGuarded KeyPair.taintGuarded).map _

theorem untaintGuarded {wallet : Wallet} {node : Node} (derived : wallet.origin = .derived node) (key : String) :
    TaintGuarded false .notTainted (wallet.ring.find? key) (wallet.untaint key) := by
  rw [untaint, derived]
  exact (KeyRing.changeGuarded KeyPair.untaintGuarded).map _

end Wallet

end WalletVault
