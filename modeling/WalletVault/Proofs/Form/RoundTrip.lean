import WalletVault.Proofs.Form.Full
import WalletVault.Proofs.Wallet.Sound

/-! Decoding of what was encoded. The counter of a ring is not recorded but found again from the numbers
of its pairs, so a wallet comes back as it was exactly if some pair still stands for its counter. -/
namespace WalletVault
open Fallible

theorem Algorithm.ofDescriptorWritten (algorithm : Algorithm) :
    ofDescriptor algorithm.descriptor = .ok algorithm := by
  cases algorithm
  rfl

theorem Node.ofBytesWritten (node : Node) : ofBytes node.bytes = .ok node := by
  obtain ⟨⟨key, keyLength⟩, ⟨chainCode, codeLength⟩⟩ := node
  have length : (key ++ chainCode).length = 64 := by simp [keyLength, codeLength]
  rw [bytes, ofBytes, dif_pos length]
  simp only [ofHalves, List.take_left' keyLength, List.drop_left' keyLength]

theorem KeyRecord.pairWritten {pair : KeyPair} (keyed : pair.Keyed) : (ofPair pair).pair = .ok pair := by
  have nonempty : pair.publicKey.bytes ≠ [] := List.ne_nil_of_length_pos (by rw [keyed.publicLength]; decide)
  have secret : pair.privateKey.bytes ≠ [] := List.ne_nil_of_length_pos (by rw [keyed.length]; decide)
  refine bindOk.mpr ⟨pair.algorithm, mapErrorOk.mpr (Algorithm.ofDescriptorWritten _), ?_⟩
  refine bindOk.mpr ⟨pair.publicKey, mapErrorOk.mpr (PublicKey.readHex nonempty), ?_⟩
  refine bindOk.mpr ⟨pair.privateKey, mapErrorOk.mpr (PrivateKey.readHex secret), ?_⟩
  refine bindOk.mpr ⟨pair.publicKey, mapErrorOk.mpr keyed.gives, ?_⟩
  rw [if_pos rfl]
  rfl

theorem KeyRecord.pairsWritten {pairs : List KeyPair} (keyed : ∀ pair ∈ pairs, pair.Keyed) :
    (pairs.map ofPair).mapM pair = .ok pairs := by
  rw [collectedOk, List.forall₂_map_left_iff, List.forall₂_same]
  exact fun pair member => pairWritten (keyed pair member)

theorem WalletRecord.nodeWritten (node : Node) :
    decodeNode (some (Base64.encode node.bytes)) = .ok node := by
  simp only [decodeNode, Base64.decodeEncoded, Node.ofBytesWritten]
  rfl

namespace Wallet

theorem reloadRing {wallet : Wallet} (sound : wallet.Sound) :
    ofFullForm wallet.fullForm = .ok { wallet with ring := .ofList wallet.ring.list } := by
  refine bindOk.mpr ⟨.ofWallet wallet, WalletRecord.ofDocumentJson _, ?_⟩
  refine bindOk.mpr ⟨wallet.ring.list, KeyRecord.pairsWritten sound.keyed, ?_⟩
  obtain ⟨name, origin, ring⟩ := wallet
  cases origin with
  | legacy => rfl
  | derived node =>
    -- The decoder checks every pair against the node again.
    have derived : ∀ pair ∈ ring.list, WalletRecord.checkDerived node pair = .ok () :=
      fun pair member => WalletRecord.checkDerivedOk.mpr (sound.issued pair member)
    have version : (WalletRecord.ofWallet ⟨name, .derived node, ring⟩).version = derivedVersion := rfl
    rw [if_pos version]
    refine bindOk.mpr ⟨node, WalletRecord.nodeWritten node, ?_⟩
    exact bindOk.mpr ⟨(), checkedOk.mpr derived, rfl⟩

theorem reloadsExactly {wallet : Wallet} (sound : wallet.Sound) :
    ofFullForm wallet.fullForm = .ok wallet ↔ wallet.ring.Anchored := by
  rw [reloadRing sound, ← KeyRing.listRestores sound.filed sound.ahead]
  obtain ⟨name, origin, ring⟩ := wallet
  simp only [Except.ok.injEq, Wallet.mk.injEq, true_and]

/-- The counter stands where a pair of the ring has moved it; in a legacy wallet it never moves. -/
structure Settled (wallet : Wallet) : Prop where
  sound : wallet.Sound
  anchored : wallet.ring.Anchored
  unmoved : wallet.origin = .legacy → wallet.ring.nextIndex = 1

theorem freshSettled {wallet : Wallet} (fresh : wallet.Fresh) : wallet.Settled := by
  have start : wallet.ring.nextIndex = 1 := by rw [freshEmpty fresh]; rfl
  exact ⟨freshSound fresh, Or.inl start, fun _ => start⟩

theorem issuedSettled {wallet : Wallet} (settled : wallet.Settled) {seed : Block 32} {pair : KeyPair}
    (notes : List Note) (next : wallet.nextPair seed = .ok pair) :
    (wallet.file (pair.annotate notes)).Settled := by
  have sound := movedSound wallet _ settled.sound (.issued notes next)
  rcases (nextPairSource next).2.2 with ⟨legacy, unnumbered⟩ | ⟨derived, number⟩
  · -- A legacy pair has no number, so the counter stays where every legacy wallet has it.
    have start : (wallet.file (pair.annotate notes)).ring.nextIndex = 1 :=
      (KeyRing.upsertUnnumbered _ unnumbered).trans (settled.unmoved legacy)
    exact ⟨sound, Or.inl start, fun _ => start⟩
  · have past : wallet.ring.nextIndex ≤ KeyRing.following (pair.annotate notes) := by
      simp only [KeyRing.following, KeyPair.annotate, number]
      exact KeyRing.belowAfter _
    exact ⟨sound, KeyRing.upsertAnchored settled.sound.filed past, fun legacy => absurd legacy derived⟩

theorem refiledSettled {wallet : Wallet} (settled : wallet.Settled) {old new : KeyPair}
    (member : old ∈ wallet.ring.list) (replaces : new.Replaces old) : (wallet.file new).Settled := by
  have sound := movedSound wallet _ settled.sound (.refiled member replaces)
  have anchored := KeyRing.refileAnchored settled.sound.filed settled.sound.ahead settled.anchored member
    replaces.index replaces.publicKey
  have counter := KeyRing.refileNextIndex settled.sound.ahead member replaces.index
  exact ⟨sound, anchored, fun legacy => counter.trans (settled.unmoved legacy)⟩

theorem settledReload {wallet : Wallet} (settled : wallet.Settled) : ofFullForm wallet.fullForm = .ok wallet :=
  (reloadsExactly settled.sound).mpr settled.anchored

theorem movedSettled (wallet next : Wallet) (settled : wallet.Settled) (moved : wallet.Moved next) :
    next.Settled := by
  cases moved with
  | issued notes made => exact issuedSettled settled notes made
  | refiled member replaces => exact refiledSettled settled member replaces
  | reloaded read =>
    rw [settledReload settled] at read
    cases read
    exact settled

theorem movedName {wallet next : Wallet} (settled : wallet.Settled) (moved : wallet.Moved next) :
    next.name = wallet.name := by
  cases moved with
  | issued notes made => rfl
  | refiled member replaces => rfl
  | reloaded read =>
    rw [settledReload settled] at read
    cases read
    rfl

/-- A wallet that the program made and then changed in any way comes back from its full form. -/
theorem runReloads {start : Wallet} (fresh : start.Fresh) (moves : List Move) :
    ofFullForm (start.run moves).fullForm = .ok (start.run moves) :=
  settledReload (runKeeps movedSettled (freshSettled fresh) moves)

def samplePhrase : String :=
  "abandon abandon abandon abandon abandon abandon abandon abandon abandon abandon abandon about"

def sampleSeed : Block 32 := ⟨List.replicate 32 0, rfl⟩

theorem samplePhraseOk (name : String) :
    ∃ node, importPhrase name samplePhrase = .ok ⟨name, .derived node, .empty⟩ := by
  have accepted : (Mnemonic.read samplePhrase).isOk := by decide +kernel
  cases read : Mnemonic.read samplePhrase with
  | error fault =>
    rw [read] at accepted
    cases accepted
  | ok words =>
    exact importPhraseOk name read

theorem samplePhraseReloads : ∃ start, importPhrase "savings" samplePhrase = .ok start ∧
    ofFullForm (start.run [.generate sampleSeed [⟨"use", "rent"⟩], .taint "unknown"]).fullForm =
      .ok (start.run [.generate sampleSeed [⟨"use", "rent"⟩], .taint "unknown"]) := by
  obtain ⟨node, made⟩ := samplePhraseOk "savings"
  exact ⟨_, made, runReloads (.imported made) _⟩

/-! Wallets that were read from a document. -/

theorem reloadKeepsKeys {wallet : Wallet} (sound : wallet.Sound) :
    ∃ counter, counter ≤ wallet.ring.nextIndex ∧
      ofFullForm wallet.fullForm = .ok { wallet with ring := ⟨wallet.ring.keys, counter⟩ } := by
  refine ⟨(KeyRing.ofList wallet.ring.list).nextIndex, ?_, ?_⟩
  · exact (KeyRing.nextIndexBelow _ _ _).mpr ⟨sound.ahead.positive, sound.ahead.past⟩
  · rw [reloadRing sound, ← KeyRing.listKeys sound.filed]

theorem movedOrigin {wallet next : Wallet} (sound : wallet.Sound) (moved : wallet.Moved next) :
    next.origin = wallet.origin := by
  cases moved with
  | issued notes made => rfl
  | refiled member replaces => rfl
  | reloaded read =>
    obtain ⟨counter, _, reloaded⟩ := reloadKeepsKeys sound
    rw [reloaded] at read
    cases read
    rfl

end Wallet

/-- Different numbers of a list give different public keys below the node. -/
def Node.Separates (node : Node) (numbers : List UInt32) : Prop :=
  ∀ first ∈ numbers, ∀ second ∈ numbers, ∀ left right : KeyPair,
    Wallet.derivePair node first = .ok left → Wallet.derivePair node second = .ok right →
      left.publicKey = right.publicKey → first = second

namespace WalletRecord

theorem separatedAnchored {node : Node} {pairs : List KeyPair}
    (issued : ∀ pair ∈ pairs, pair.DerivedFrom node)
    (separates : node.Separates (pairs.filterMap KeyPair.index)) : (KeyRing.ofList pairs).Anchored := by
  apply KeyRing.ofListAnchored
  intro first member second other same
  obtain ⟨index, number, _, derived, made, gives⟩ := issued first member
  obtain ⟨otherIndex, otherNumber, _, otherDerived, otherMade, otherGives⟩ := issued second other
  have inside : index ∈ pairs.filterMap KeyPair.index := List.mem_filterMap.mpr ⟨first, member, number⟩
  have otherInside : otherIndex ∈ pairs.filterMap KeyPair.index :=
    List.mem_filterMap.mpr ⟨second, other, otherNumber⟩
  have samePublic : derived.publicKey = otherDerived.publicKey := by rw [gives, otherGives, same]
  rw [number, otherNumber,
    separates index inside otherIndex otherInside derived otherDerived made otherMade samePublic]

theorem unnumberedAnchored {pairs : List KeyPair} (unnumbered : ∀ pair ∈ pairs, pair.index = none) :
    (KeyRing.ofList pairs).Anchored :=
  KeyRing.ofListAnchored fun first member second other _ =>
    (unnumbered first member).trans (unnumbered second other).symm

end WalletRecord

namespace Wallet

/-- What becomes of a wallet that was read from any document when it is encoded and decoded again. It
comes back but for its counter, and the counter comes back exactly if some pair still stands for it: so it
is in derived wallets whose numbers give keys of their own, and in legacy wallets without numbers. -/
theorem decodedReloads {document : Bytes} {wallet : Wallet} (read : ofFullForm document = .ok wallet) :
    (∃ counter, counter ≤ wallet.ring.nextIndex ∧
      ofFullForm wallet.fullForm = .ok { wallet with ring := ⟨wallet.ring.keys, counter⟩ }) ∧
    (ofFullForm wallet.fullForm = .ok wallet ↔ wallet.ring.Anchored) ∧
    ∃ record, WalletRecord.ofDocument document = .ok record ∧
      (∀ node, wallet.origin = .derived node → node.Separates (record.keys.filterMap KeyRecord.index) →
        ofFullForm wallet.fullForm = .ok wallet) ∧
      (wallet.origin = .legacy → (∀ key ∈ record.keys, key.index = none) →
        ofFullForm wallet.fullForm = .ok wallet) := by
  have sound := decodedSound read
  obtain ⟨record, opened, recorded⟩ := decodedSource read
  obtain ⟨pairs, collected, ring, issued, _⟩ := WalletRecord.walletSource recorded
  have numbers := (KeyRecord.pairsSource collected).2
  refine ⟨reloadKeepsKeys sound, reloadsExactly sound, record, opened, ?_, ?_⟩
  · intro node origin separates
    rw [reloadsExactly sound, ring]
    rw [origin] at issued
    refine WalletRecord.separatedAnchored issued ?_
    have same : pairs.filterMap KeyPair.index = record.keys.filterMap KeyRecord.index := by
      simpa [List.filterMap_map] using congrArg (List.filterMap id) numbers
    rwa [same]
  · intro _ unnumbered
    rw [reloadsExactly sound, ring]
    apply WalletRecord.unnumberedAnchored
    intro pair member
    have inside : pair.index ∈ record.keys.map KeyRecord.index := numbers ▸ List.mem_map_of_mem member
    obtain ⟨key, listed, same⟩ := List.mem_map.mp inside
    rw [← same, unnumbered key listed]

theorem legacyRead {pairs : List KeyPair} (keyed : ∀ pair ∈ pairs, pair.Keyed) (name : String) :
    ofFullForm (WalletRecord.mk legacyVersion name none (pairs.map .ofPair)).json.compact =
      .ok ⟨name, .legacy, .ofList pairs⟩ := by
  refine bindOk.mpr ⟨_, WalletRecord.ofDocumentJson _, ?_⟩
  refine bindOk.mpr ⟨_, KeyRecord.pairsWritten keyed, ?_⟩
  have notDerived : legacyVersion ≠ derivedVersion := by decide
  rw [if_neg notDerived, if_pos rfl]
  rfl

def numberedPair (index : UInt32) : KeyPair :=
  ⟨some index, ⟨Ed25519.publicKey sampleSeed.val⟩, ⟨sampleSeed.val⟩, false, [], .ed25519⟩

theorem numberedKeyed (index : UInt32) : (numberedPair index).Keyed :=
  ⟨sampleSeed.property, Algorithm.publicKeyOk.mpr ⟨sampleSeed.property, rfl⟩⟩

/- A legacy record may list one key twice, under two numbers: the second stays, the first has counted. -/
def renumberedRecord : WalletRecord :=
  ⟨legacyVersion, "savings", none, [numberedPair 7, numberedPair 3].map .ofPair⟩

theorem renumberedRead : ofFullForm renumberedRecord.json.compact =
    .ok ⟨"savings", .legacy, .ofList [numberedPair 7, numberedPair 3]⟩ :=
  legacyRead (by simp [numberedKeyed]) "savings"

theorem renumberedForgets : ∃ wallet, ofFullForm renumberedRecord.json.compact = .ok wallet ∧
    wallet.ring.nextIndex = 8 ∧ ofFullForm wallet.fullForm ≠ .ok wallet := by
  refine ⟨_, renumberedRead, rfl, fun same => ?_⟩
  have anchored := (decodedReloads renumberedRead).2.1.mp same
  have counter : (KeyRing.ofList [numberedPair 7, numberedPair 3]).nextIndex = 8 := rfl
  rw [KeyRing.Anchored, counter] at anchored
  rcases anchored with start | ⟨pair, member, reached⟩
  · cases start
  · have kept := (KeyRing.memberFiled (KeyRing.ofListFiled _)).mp member
    rw [KeyRing.keysOfList] at kept
    have last : pair = numberedPair 3 := by
      rcases List.mem_cons.mp (KeyRing.memberOfList member) with rfl | inside
      · simp [numberedPair] at kept
      · exact List.mem_singleton.mp inside
    subst pair
    cases reached

end Wallet

end WalletVault
