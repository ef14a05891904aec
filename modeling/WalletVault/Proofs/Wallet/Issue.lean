import WalletVault.Proofs.Fallible
import WalletVault.Wallet.Basic

/-! Where the pairs of a wallet come from: every pair has a private key of 32 bytes, and in a derived
wallet a number under which the node gives its public key. -/
namespace WalletVault
open Fallible

theorem Algorithm.publicKeyOk {algorithm : Algorithm} {key : Bytes} {publicKey : PublicKey} :
    algorithm.publicKey key = .ok publicKey ↔ key.length = 32 ∧ publicKey = ⟨Ed25519.publicKey key⟩ := by
  by_cases length : key.length = 32
  · simp [Algorithm.publicKey, length, eq_comm]
  · simp [Algorithm.publicKey, length]

theorem Algorithm.keyPairOk {algorithm : Algorithm} {seed : Bytes} {keys : PublicKey × PrivateKey} :
    algorithm.keyPair seed = .ok keys ↔ algorithm.publicKey seed = .ok keys.1 ∧ keys.2 = ⟨seed⟩ := by
  obtain ⟨publicKey, privateKey⟩ := keys
  rw [Algorithm.keyPair, mapOk]
  constructor
  · rintro ⟨value, read, same⟩
    cases same
    exact ⟨read, rfl⟩
  · rintro ⟨read, rfl⟩
    exact ⟨publicKey, read, rfl⟩

theorem Node.deriveOk (node : Node) {index : UInt32} (hardened : ¬ index < firstHardened) :
    ∃ child, node.derive index = .ok child := ⟨_, if_neg hardened⟩

namespace KeyPair

structure Keyed (pair : KeyPair) : Prop where
  length : pair.privateKey.bytes.length = 32
  gives : pair.algorithm.publicKey pair.privateKey.bytes = .ok pair.publicKey

theorem Keyed.publicLength {pair : KeyPair} (keyed : pair.Keyed) : pair.publicKey.bytes.length = 32 := by
  rw [(Algorithm.publicKeyOk.mp keyed.gives).2]
  exact Ed25519.lengthPublicKey _

theorem freshKeyed {algorithm : Algorithm} {seed : Bytes} {keys : PublicKey × PrivateKey}
    (index : Option UInt32) (made : algorithm.keyPair seed = .ok keys) : (fresh index keys algorithm).Keyed := by
  obtain ⟨gives, privateKey⟩ := Algorithm.keyPairOk.mp made
  have length := (Algorithm.publicKeyOk.mp gives).1
  constructor
  · simp only [fresh, privateKey, length]
  · simp only [fresh, privateKey, gives]

end KeyPair

/-- The largest number that a derived key can have. -/
def Wallet.lastIndex : UInt32 := 0xFFFFFFFF - originIndex

namespace KeyPair

def DerivedFrom (node : Node) (pair : KeyPair) : Prop :=
  ∃ index, pair.index = some index ∧ index ≤ Wallet.lastIndex ∧
    ∃ derived, Wallet.derivePair node index = .ok derived ∧ derived.publicKey = pair.publicKey

theorem DerivedFrom.samePublic {node : Node} {first second : KeyPair} (left : first.DerivedFrom node)
    (right : second.DerivedFrom node) (same : first.index = second.index) :
    first.publicKey = second.publicKey := by
  obtain ⟨index, number, _, derived, read, gives⟩ := left
  obtain ⟨other, otherNumber, _, otherDerived, otherRead, otherGives⟩ := right
  have sameNumber : index = other := by
    rw [number, otherNumber] at same
    exact Option.some.inj same
  rw [← sameNumber, read] at otherRead
  rw [← gives, ← otherGives, Except.ok.inj otherRead]

end KeyPair

def Origin.Issues : Origin → KeyPair → Prop
  | .derived node, pair => pair.DerivedFrom node
  | .legacy, _ => True

theorem Origin.issuesSame {origin : Origin} {old new : KeyPair} (issued : origin.Issues old)
    (index : new.index = old.index) (publicKey : new.publicKey = old.publicKey) : origin.Issues new := by
  cases origin with
  | legacy => trivial
  | derived node =>
    obtain ⟨number, rest⟩ := issued
    exact ⟨number, by rw [index, publicKey]; exact rest⟩

namespace Wallet

theorem placeOk {index place : UInt32} : checkedAdd originIndex index = some place ↔
    index ≤ lastIndex ∧ place.toNat = originIndex.toNat + index.toNat := by
  have last : lastIndex.toNat = 2147481858 := by decide
  have origin : originIndex.toNat = 2147485437 := by decide
  have size : UInt32.size = 4294967296 := rfl
  rw [checkedAdd, UInt32.le_iff_toNat_le, last, origin, size]
  split
  · rename_i fits
    rw [Option.some.injEq, ← UInt32.toNat_inj, UInt32.toNat_add, origin]
    omega
  · rename_i past
    exact ⟨nofun, fun small => absurd small.1 (by omega)⟩

theorem placeSmall {index : UInt32} (small : index ≤ lastIndex) :
    checkedAdd originIndex index = some (originIndex + index) := by
  have last : lastIndex.toNat = 2147481858 := by decide
  have origin : originIndex.toNat = 2147485437 := by decide
  have size : UInt32.size = 4294967296 := rfl
  rw [UInt32.le_iff_toNat_le, last] at small
  rw [checkedAdd, if_pos (by omega)]

theorem placePast {index : UInt32} (past : lastIndex < index) : checkedAdd originIndex index = none := by
  cases added : checkedAdd originIndex index with
  | none => rfl
  | some place => exact absurd past (UInt32.not_lt.mpr (placeOk.mp added).1)

theorem afterSmall {index : UInt32} (small : index ≤ lastIndex) : (KeyRing.after index).toNat = index.toNat + 1 := by
  have last : lastIndex.toNat = 2147481858 := by decide
  have one : (1 : UInt32).toNat = 1 := rfl
  rw [UInt32.le_iff_toNat_le, last] at small
  have notLargest : index ≠ 0xFFFFFFFF := by
    rintro rfl
    exact absurd small (by decide)
  rw [KeyRing.after, if_neg notLargest, UInt32.toNat_add, one]
  omega

structure MadeAt (node : Node) (index : UInt32) (pair : KeyPair) : Prop where
  place : (originIndex + index).toNat = originIndex.toNat + index.toNat
  hardened : Node.firstHardened ≤ originIndex + index
  child : ∃ child keys, node.derive (originIndex + index) = .ok child ∧ child.keyPair algorithm = .ok keys ∧
    pair = .fresh (some index) keys algorithm

theorem placeHardened {place index : UInt32} (sum : place.toNat = originIndex.toNat + index.toNat) :
    Node.firstHardened ≤ place := by
  have origin : originIndex.toNat = 2147485437 := by decide
  have hardened : Node.firstHardened.toNat = 2147483648 := by decide
  rw [UInt32.le_iff_toNat_le, sum, origin, hardened]
  omega

theorem derivePairMade {node : Node} {index : UInt32} {pair : KeyPair} :
    derivePair node index = .ok pair ↔ index ≤ lastIndex ∧ MadeAt node index pair := by
  unfold derivePair
  constructor
  · intro derived
    split at derived
    · cases derived
    · rename_i place added
      obtain ⟨small, sum⟩ := placeOk.mp added
      cases (placeSmall small).symm.trans added
      obtain ⟨child, below, derived⟩ := bindOk.mp derived
      obtain ⟨keys, made, derived⟩ := bindOk.mp derived
      exact ⟨small, sum, placeHardened sum, child, keys, mapErrorOk.mp below, mapErrorOk.mp made,
        (pureOk.mp derived).symm⟩
  · rintro ⟨small, _, _, child, keys, below, made, rfl⟩
    rw [placeSmall small]
    exact bindOk.mpr ⟨child, mapErrorOk.mpr below, bindOk.mpr ⟨keys, mapErrorOk.mpr made, rfl⟩⟩

theorem derivePairSource {node : Node} {index : UInt32} {pair : KeyPair}
    (derived : derivePair node index = .ok pair) :
    index ≤ lastIndex ∧ pair.index = some index ∧ pair.Keyed := by
  obtain ⟨small, _, _, child, keys, _, made, rfl⟩ := derivePairMade.mp derived
  exact ⟨small, rfl, KeyPair.freshKeyed _ made⟩

theorem derivePairOk (node : Node) {index : UInt32} (small : index ≤ lastIndex) :
    ∃ pair, derivePair node index = .ok pair := by
  obtain ⟨_, sum⟩ := placeOk.mp (placeSmall small)
  have hardened := placeHardened sum
  obtain ⟨child, derived⟩ := node.deriveOk (UInt32.not_lt.mpr hardened)
  have gives : algorithm.publicKey child.key.val = .ok _ :=
    Algorithm.publicKeyOk.mpr ⟨child.key.property, rfl⟩
  have made : child.keyPair algorithm = .ok (_, ⟨child.key.val⟩) := Algorithm.keyPairOk.mpr ⟨gives, rfl⟩
  exact ⟨_, derivePairMade.mpr ⟨small, sum, hardened, child, _, derived, made, rfl⟩⟩

theorem derivePairFault {node : Node} {index : UInt32} {fault : WalletFault} :
    derivePair node index = .error fault ↔ lastIndex < index ∧ fault = .indexOverflow index := by
  by_cases small : index ≤ lastIndex
  · obtain ⟨pair, derived⟩ := derivePairOk node small
    rw [derived]
    exact ⟨nofun, fun past => absurd past.1 (UInt32.not_lt.mpr small)⟩
  · have past := UInt32.not_le.mp small
    simp only [derivePair, placePast past, Except.error.injEq, past, true_and, eq_comm]

theorem derivedFrom {node : Node} {index : UInt32} {pair : KeyPair}
    (derived : derivePair node index = .ok pair) : pair.DerivedFrom node := by
  obtain ⟨small, number, _⟩ := derivePairSource derived
  exact ⟨index, number, small, pair, derived, rfl⟩

theorem nextPairSource {wallet : Wallet} {seed : Block 32} {pair : KeyPair}
    (next : wallet.nextPair seed = .ok pair) :
    pair.Keyed ∧ wallet.origin.Issues pair ∧
      ((wallet.origin = .legacy ∧ pair.index = none) ∨
        (wallet.origin ≠ .legacy ∧ pair.index = some wallet.ring.nextIndex)) := by
  obtain ⟨name, origin, ring⟩ := wallet
  cases origin with
  | derived node =>
    obtain ⟨_, number, keyed⟩ := derivePairSource next
    exact ⟨keyed, derivedFrom next, Or.inr ⟨nofun, number⟩⟩
  | legacy =>
    obtain ⟨keys, made, next⟩ := bindOk.mp next
    cases pureOk.mp next
    exact ⟨KeyPair.freshKeyed _ (mapErrorOk.mp made), trivial, Or.inl ⟨rfl, rfl⟩⟩

end Wallet

end WalletVault
