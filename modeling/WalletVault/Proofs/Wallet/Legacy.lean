import WalletVault.Proofs.Wallet.Listing

/-! Numbers in legacy wallets. No call gives one to a key or moves the counter, so a legacy wallet without numbers
stays without them. A wallet that the program makes has none; a record may bring some, and these stay with their keys.
-/
namespace WalletVault
open Fallible

theorem KeyRing.listUnnumbered {ring : KeyRing} (filed : ring.Filed)
    (unnumbered : ∀ pair ∈ ring.list, pair.index = none) :
    ring.list.Pairwise fun first second => first.publicKey.hex < second.publicKey.hex := by
  have apart := List.pairwise_map.mp (listDistinct filed)
  refine ((listSorted ring).and apart).imp_of_mem fun {first second} left right before => ?_
  have level : place first = place second := by
    rw [placeUnnumbered (unnumbered first left), placeUnnumbered (unnumbered second right)]
  rcases (listedBeforeOk first second).mp before.1 with below | ⟨_, order⟩
  · omega
  · exact String.not_le.mp fun above => before.2 (String.le_antisymm order above)

def KeyPair.NumberedBy (keys : List KeyRecord) (pair : KeyPair) : Prop :=
  pair.index = none ∨ ∃ key ∈ keys, PublicKey.ofHex key.publicKey = .ok pair.publicKey ∧ key.index = pair.index

namespace Wallet

structure Unnumbered (wallet : Wallet) : Prop where
  numbers : ∀ pair ∈ wallet.ring.list, pair.index = none
  counter : wallet.ring.nextIndex = 1
  listing : wallet.ring.list.Pairwise fun first second => first.publicKey.hex < second.publicKey.hex

inductive LegacyBegun : Wallet → List KeyRecord → Prop where
  | made (name : String) : LegacyBegun (newLegacy name) []
  | decoded {document : Bytes} {record : WalletRecord} {wallet : Wallet}
      (opened : WalletRecord.ofDocument document = .ok record) (version : record.version = legacyVersion)
      (read : ofFullForm document = .ok wallet) : LegacyBegun wallet record.keys

/- What every call keeps of a legacy wallet. Without records, and with 1 as the bound, it says that the wallet is
without numbers. -/
structure NumberedFrom (keys : List KeyRecord) (bound : UInt32) (wallet : Wallet) : Prop where
  sound : wallet.Sound
  legacy : wallet.origin = .legacy
  numbers : ∀ pair ∈ wallet.ring.list, pair.NumberedBy keys
  counter : wallet.ring.nextIndex ≤ bound

theorem movedNumberedFrom (keys : List KeyRecord) (bound : UInt32) (wallet next : Wallet)
    (kept : wallet.NumberedFrom keys bound) (moved : wallet.Moved next) : next.NumberedFrom keys bound := by
  have sound := movedSound wallet next kept.sound moved
  have legacy := (movedOrigin kept.sound moved).trans kept.legacy
  cases moved with
  | issued notes made =>
    rcases (nextPairSource made).2.2 with ⟨_, unnumbered⟩ | ⟨derived, _⟩
    · refine ⟨sound, legacy, fun pair member => ?_, ?_⟩
      · rcases (KeyRing.memberUpsert kept.sound.filed).mp member with rfl | ⟨old, _⟩
        · exact Or.inl unnumbered
        · exact kept.numbers pair old
      · exact (KeyRing.upsertUnnumbered wallet.ring unnumbered).symm ▸ kept.counter
    · exact absurd kept.legacy derived
  | @refiled old new member replaces =>
    refine ⟨sound, legacy, fun pair inside => ?_, ?_⟩
    · rcases (KeyRing.memberUpsert kept.sound.filed).mp inside with rfl | ⟨other, _⟩
      · have numbered := kept.numbers old member
        rwa [KeyPair.NumberedBy, ← replaces.index, ← replaces.publicKey] at numbered
      · exact kept.numbers pair other
    · exact (KeyRing.refileNextIndex kept.sound.ahead member replaces.index).symm ▸ kept.counter
  | reloaded read =>
    obtain ⟨counter, below, reloaded⟩ := reloadKeepsKeys kept.sound
    rw [reloaded] at read
    cases read
    refine ⟨sound, legacy, fun pair member => ?_, UInt32.le_trans below kept.counter⟩
    obtain ⟨key, found⟩ := KeyRing.memberList.mp member
    exact kept.numbers pair (KeyRing.memberList.mpr ⟨key, found⟩)

theorem unnumberedOk {wallet : Wallet} (sound : wallet.Sound) (legacy : wallet.origin = .legacy) :
    wallet.Unnumbered ↔ wallet.NumberedFrom [] 1 := by
  constructor
  · intro unnumbered
    have numbers (pair : KeyPair) (member : pair ∈ wallet.ring.list) : pair.NumberedBy [] :=
      Or.inl (unnumbered.numbers pair member)
    exact ⟨sound, legacy, numbers, UInt32.le_of_eq unnumbered.counter⟩
  · intro kept
    have numbers : ∀ pair ∈ wallet.ring.list, pair.index = none := by
      intro pair member
      rcases kept.numbers pair member with none | ⟨key, inside, _⟩
      · exact none
      · cases inside
    exact ⟨numbers, UInt32.le_antisymm kept.counter sound.ahead.positive, KeyRing.listUnnumbered sound.filed numbers⟩

section Begun
variable {start : Wallet} {keys : List KeyRecord}

theorem legacyBegunSource (begun : start.LegacyBegun keys) : start.Begun ∧ start.origin = .legacy ∧
    ∃ pairs, keys.mapM KeyRecord.pair = .ok pairs ∧ start.ring = .ofList pairs := by
  cases begun with
  | made name => exact ⟨.fresh (.legacy name), rfl, [], rfl, rfl⟩
  | decoded opened version read =>
    obtain ⟨record, again, recorded⟩ := decodedSource read
    cases opened.symm.trans again
    obtain ⟨pairs, collected, ring, _, same⟩ := WalletRecord.walletSource recorded
    refine ⟨.decoded read, ?_, pairs, collected, ring⟩
    cases origin : start.origin with
    | legacy => rfl
    | derived node =>
      have derived : start.version = derivedVersion := by rw [Wallet.version, origin]
      exact absurd (derived.symm.trans (same.trans version)) (by decide)

theorem legacyBegunNumbered (begun : start.LegacyBegun keys) : start.NumberedFrom keys start.ring.nextIndex := by
  obtain ⟨begun, legacy, pairs, collected, ring⟩ := legacyBegunSource begun
  refine ⟨begunSound begun, legacy, fun pair member => Or.inr ?_, UInt32.le_rfl⟩
  rw [ring] at member
  obtain ⟨key, inside, read⟩ := collectedFrom collected pair (KeyRing.memberOfList member)
  exact ⟨key, inside, KeyRecord.pairPublic read, (KeyRecord.pairSource read).2.symm⟩

theorem legacyBegunUnnumbered (begun : start.LegacyBegun keys) (unnumbered : ∀ key ∈ keys, key.index = none) :
    start.Unnumbered := by
  obtain ⟨begun, legacy, pairs, collected, ring⟩ := legacyBegunSource begun
  have none : ∀ pair ∈ pairs, pair.index = none := by
    intro pair member
    obtain ⟨key, inside, read⟩ := collectedFrom collected pair member
    rw [(KeyRecord.pairSource read).2, unnumbered key inside]
  refine (unnumberedOk (begunSound begun) legacy).mpr ⟨begunSound begun, legacy, fun pair member => Or.inl ?_, ?_⟩
  · rw [ring] at member
    exact none pair (KeyRing.memberOfList member)
  · rw [ring]
    refine (KeyRing.nextIndexBelow _ _ _).mpr ⟨UInt32.le_rfl, fun pair member => ?_⟩
    rw [KeyRing.following, none pair member]
    exact UInt32.zero_le

theorem legacyBegunKeeps (begun : start.LegacyBegun keys) {key : KeyRecord} (member : key ∈ keys)
    (only : ∀ other ∈ keys, PublicKey.ofHex other.publicKey = PublicKey.ofHex key.publicKey → other.index = key.index) :
    ∃ pair ∈ start.ring.list, PublicKey.ofHex key.publicKey = .ok pair.publicKey ∧ pair.index = key.index := by
  obtain ⟨_, _, pairs, collected, ring⟩ := legacyBegunSource begun
  obtain ⟨pair, inside, read⟩ := collectedInto collected key member
  obtain ⟨kept, listed, same⟩ := KeyRing.keptOfList inside
  obtain ⟨other, recorded, written⟩ := collectedFrom collected kept (KeyRing.memberOfList listed)
  have samePublic : PublicKey.ofHex other.publicKey = PublicKey.ofHex key.publicKey := by
    rw [KeyRecord.pairPublic written, KeyRecord.pairPublic read, same]
  refine ⟨kept, ring ▸ listed, by rw [KeyRecord.pairPublic read, same], ?_⟩
  rw [(KeyRecord.pairSource written).2, only other recorded samePublic]

end Begun

/-- A legacy wallet whose records give no numbers, and one that the program makes, is without numbers after any calls.
In any other the numbers of keys are those that the records gave them, no call moves the counter on, and a record's
number comes into the wallet with its key. -/
theorem legacyKeepsUnnumbered {start : Wallet} {keys : List KeyRecord} (begun : start.LegacyBegun keys)
    (moves : List Move) :
    ((∀ key ∈ keys, key.index = none) → (start.run moves).Unnumbered) ∧
    (start.Unnumbered → (start.run moves).Unnumbered) ∧
    (start.run moves).origin = .legacy ∧
    (∀ pair ∈ (start.run moves).ring.list, pair.NumberedBy keys) ∧
    (start.run moves).ring.nextIndex ≤ start.ring.nextIndex ∧
    (∀ key ∈ keys, (∀ other ∈ keys, PublicKey.ofHex other.publicKey = PublicKey.ofHex key.publicKey →
      other.index = key.index) →
      ∃ pair ∈ start.ring.list, PublicKey.ofHex key.publicKey = .ok pair.publicKey ∧ pair.index = key.index) := by
  have first := legacyBegunNumbered begun
  have kept := runKeeps (movedNumberedFrom keys _) first moves
  have unnumbered (without : start.Unnumbered) : (start.run moves).Unnumbered :=
    (unnumberedOk kept.sound kept.legacy).mpr
      (runKeeps (movedNumberedFrom [] 1) ((unnumberedOk first.sound first.legacy).mp without) moves)
  exact ⟨fun none => unnumbered (legacyBegunUnnumbered begun none), unnumbered, kept.legacy, kept.numbers, kept.counter,
    fun key member only => legacyBegunKeeps begun member only⟩

def numberedRecord : WalletRecord := ⟨legacyVersion, "savings", none, [numberedPair 7].map .ofPair⟩

theorem numberTakenOver :
    (∃ wallet, ofFullForm numberedRecord.json.compact = .ok wallet ∧ ¬ wallet.Unnumbered) ∧
      ((newLegacy "savings").run [.generate sampleSeed [⟨"use", "rent"⟩], .taint "unknown", .reload]).Unnumbered := by
  have keyed : ∀ pair ∈ [numberedPair 7], pair.Keyed := by simp [numberedKeyed]
  have read := legacyRead keyed "savings"
  have begun : LegacyBegun _ numberedRecord.keys := .decoded (WalletRecord.ofDocumentJson numberedRecord) rfl read
  have member : KeyRecord.ofPair (numberedPair 7) ∈ numberedRecord.keys := List.mem_singleton_self _
  have only : ∀ other ∈ numberedRecord.keys, other.index = some 7 := List.forall_mem_singleton.mpr rfl
  constructor
  · obtain ⟨pair, listed, _, number⟩ :=
      (legacyKeepsUnnumbered begun []).2.2.2.2.2 _ member fun other inside _ => only other inside
    refine ⟨_, read, fun unnumbered => ?_⟩
    rw [unnumbered.numbers pair listed] at number
    cases number
  · exact (legacyKeepsUnnumbered (.made "savings") _).1 nofun

end Wallet

end WalletVault
