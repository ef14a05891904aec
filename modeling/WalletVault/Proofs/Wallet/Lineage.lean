import WalletVault.Proofs.Form.RoundTrip

/-! Wallets that have grown from one node. Whatever is done to such a wallet, every pair in it is the pair that the
node gives for its number, and a wallet that starts anew from the node issues the same pairs, in the order of
their numbers. -/
namespace WalletVault
open Fallible

namespace KeyPair

theorem Replaces.symm {new old : KeyPair} (replaces : new.Replaces old) : old.Replaces new :=
  ⟨replaces.index.symm, replaces.publicKey.symm, replaces.privateKey.symm, replaces.algorithm.symm⟩

theorem Replaces.trans {newest newer old : KeyPair} (last : newest.Replaces newer) (first : newer.Replaces old) :
    newest.Replaces old :=
  ⟨last.index.trans first.index, last.publicKey.trans first.publicKey, last.privateKey.trans first.privateKey,
    last.algorithm.trans first.algorithm⟩

def GrownFrom (node : Node) (pair : KeyPair) : Prop :=
  ∃ index derived, 1 ≤ index ∧ Wallet.derivePair node index = .ok derived ∧ pair.Replaces derived

end KeyPair

namespace Wallet

structure Grown (node : Node) (wallet : Wallet) : Prop where
  settled : wallet.Settled
  origin : wallet.origin = .derived node
  pairs : ∀ pair ∈ wallet.ring.list, pair.GrownFrom node

variable {node : Node} {wallet next : Wallet}

theorem importedGrown {name phrase : String} (made : importPhrase name phrase = .ok wallet)
    (origin : wallet.origin = .derived node) : wallet.Grown node := by
  refine ⟨freshSettled (.imported made), origin, ?_⟩
  rw [freshEmpty (.imported made), KeyRing.emptyList]
  nofun

theorem fileGrown (grown : wallet.Grown node) {pair : KeyPair} (settled : (wallet.file pair).Settled)
    (given : pair.GrownFrom node) : (wallet.file pair).Grown node := by
  refine ⟨settled, grown.origin, fun other member => ?_⟩
  rcases (KeyRing.memberUpsert grown.settled.sound.filed).mp member with rfl | ⟨old, _⟩
  · exact given
  · exact grown.pairs other old

theorem movedGrown (grown : wallet.Grown node) (moved : wallet.Moved next) : next.Grown node := by
  have settled := movedSettled wallet next grown.settled moved
  cases moved with
  | issued notes made =>
    rw [nextPair, grown.origin] at made
    exact fileGrown grown settled ⟨_, _, grown.settled.sound.ahead.positive, made, rfl, rfl, rfl, rfl⟩
  | refiled member replaces =>
    obtain ⟨index, derived, positive, made, same⟩ := grown.pairs _ member
    exact fileGrown grown settled ⟨index, derived, positive, made, replaces.trans same⟩
  | reloaded read =>
    rw [settledReload grown.settled] at read
    cases read
    exact grown

theorem grownMaster (grown : wallet.Grown node) {twin : Wallet} (alike : twin.Grown node) :
    twin.masterKey = wallet.masterKey := by
  rw [masterKey, masterKey, grown.origin, alike.origin]

theorem masterKeyOk (origin : wallet.origin = .derived node) : ∃ master, wallet.masterKey = .ok master := by
  have gives : algorithm.publicKey node.key.val = .ok _ := Algorithm.publicKeyOk.mpr ⟨node.key.property, rfl⟩
  have made : node.keyPair algorithm = .ok (_, ⟨node.key.val⟩) := Algorithm.keyPairOk.mpr ⟨gives, rfl⟩
  rw [masterKey, origin]
  exact ⟨_, mapErrorOk.mpr (mapOk.mpr ⟨_, made, rfl⟩)⟩

/- The replies to calls for one new pair after another. A call that fails leaves the wallet as it is. -/
def replies (wallet : Wallet) : List (Block 32 × List Note) → List (Except WalletFault KeyPair)
  | [] => []
  | (seed, notes) :: rest =>
    (wallet.generate seed notes).map Prod.snd :: (wallet.after (.generate seed notes)).replies rest

theorem generateOk (origin : wallet.origin = .derived node) (small : wallet.ring.nextIndex ≤ lastIndex)
    (seed : Block 32) (notes : List Note) : ∃ derived, derivePair node wallet.ring.nextIndex = .ok derived ∧
      wallet.generate seed notes = .ok (wallet.file (derived.annotate notes), derived.annotate notes) := by
  obtain ⟨derived, made⟩ := derivePairOk node small
  have next : wallet.nextPair seed = .ok derived := by
    rw [nextPair, origin]
    exact made
  exact ⟨derived, made, bindOk.mpr ⟨derived, next, rfl⟩⟩

theorem repliesGiven {calls : List (Block 32 × List Note)} {place : Nat} (origin : wallet.origin = .derived node)
    (called : place < calls.length) {index : UInt32} (number : index.toNat = wallet.ring.nextIndex.toNat + place)
    (small : index ≤ lastIndex) :
    ∃ derived issued, derivePair node index = .ok derived ∧ (wallet.replies calls)[place]? = some (.ok issued) ∧
      issued.Replaces derived := by
  induction calls generalizing wallet place with
  | nil => cases called
  | cons call rest ih =>
    obtain ⟨seed, notes⟩ := call
    have first : wallet.ring.nextIndex ≤ lastIndex := by
      rw [UInt32.le_iff_toNat_le] at small ⊢
      omega
    obtain ⟨derived, made, generated⟩ := generateOk origin first seed notes
    cases place with
    | zero =>
      rw [UInt32.toNat_inj.mp number]
      refine ⟨derived, derived.annotate notes, made, ?_, rfl, rfl, rfl, rfl⟩
      rw [replies, generated]
      rfl
    | succ place =>
      have after : wallet.after (.generate seed notes) = wallet.file (derived.annotate notes) := by
        rw [Wallet.after, attempt, generated]
        rfl
      have following : index.toNat = (wallet.file (derived.annotate notes)).ring.nextIndex.toNat + place := by
        rw [issueCounts made notes, number]
        omega
      rw [replies, after, List.getElem?_cons_succ]
      exact ih origin (Nat.lt_of_succ_lt_succ called) following

theorem grownReissued {pair : KeyPair} (grown : pair.GrownFrom node) :
    ∃ index, pair.index = some index ∧ 1 ≤ index.toNat ∧ ∀ name calls, index.toNat ≤ calls.length →
      ∃ issued, (Wallet.mk name (.derived node) .empty |>.replies calls)[index.toNat - 1]? = some (.ok issued) ∧
        issued.Replaces pair := by
  obtain ⟨index, derived, positive, given, same⟩ := grown
  obtain ⟨small, number, _⟩ := derivePairSource given
  have least : 1 ≤ index.toNat := UInt32.le_iff_toNat_le.mp positive
  refine ⟨index, same.index.trans number, least, fun name calls enough => ?_⟩
  have origin : (Wallet.mk name (.derived node) .empty).origin = .derived node := rfl
  have start : KeyRing.empty.nextIndex.toNat = 1 := rfl
  have counted : index.toNat = KeyRing.empty.nextIndex.toNat + (index.toNat - 1) := by omega
  have called : index.toNat - 1 < calls.length := by omega
  obtain ⟨again, issued, twin, replied, alike⟩ := repliesGiven origin called counted small
  cases given.symm.trans twin
  exact ⟨issued, replied, alike.trans same.symm⟩

end Wallet

end WalletVault
