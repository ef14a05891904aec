import WalletVault.Proofs.Wallet.History

/-! The invariant of every history of a wallet: it holds where a history begins, and every call that succeeds
preserves it. A decoded wallet has it because every check of the record speaks about its ring. -/
namespace WalletVault
open Fallible

namespace KeyRecord

theorem pairSource {record : KeyRecord} {pair : KeyPair} (read : record.pair = .ok pair) :
    pair.Keyed ∧ pair.index = record.index := by
  obtain ⟨algorithm, _, read⟩ := bindOk.mp read
  obtain ⟨publicKey, _, read⟩ := bindOk.mp read
  obtain ⟨privateKey, _, read⟩ := bindOk.mp read
  obtain ⟨expected, gives, read⟩ := bindOk.mp read
  split at read
  · rename_i same
    cases pureOk.mp read
    have gives := mapErrorOk.mp gives
    rw [same] at gives
    exact ⟨⟨(Algorithm.publicKeyOk.mp gives).1, gives⟩, rfl⟩
  · cases read

theorem pairPublic {record : KeyRecord} {pair : KeyPair} (read : record.pair = .ok pair) :
    PublicKey.ofHex record.publicKey = .ok pair.publicKey := by
  obtain ⟨algorithm, _, read⟩ := bindOk.mp read
  obtain ⟨publicKey, written, read⟩ := bindOk.mp read
  obtain ⟨privateKey, _, read⟩ := bindOk.mp read
  obtain ⟨expected, _, read⟩ := bindOk.mp read
  split at read
  · cases pureOk.mp read
    exact mapErrorOk.mp written
  · cases read

theorem pairsSource {records : List KeyRecord} {pairs : List KeyPair}
    (read : records.mapM pair = .ok pairs) :
    (∀ pair ∈ pairs, pair.Keyed) ∧ pairs.map KeyPair.index = records.map KeyRecord.index := by
  have each := collectedOk.mp read
  clear read
  induction each with
  | nil => simp
  | @cons record pair records pairs first _ ih =>
    obtain ⟨keyed, index⟩ := pairSource first
    constructor
    · exact List.forall_mem_cons.mpr ⟨keyed, ih.1⟩
    · rw [List.map_cons, List.map_cons, index, ih.2]

end KeyRecord

namespace WalletRecord

theorem checkDerivedOk {node : Node} {pair : KeyPair} :
    checkDerived node pair = .ok () ↔ pair.DerivedFrom node := by
  unfold checkDerived KeyPair.DerivedFrom
  cases number : pair.index with
  | none => simp
  | some index =>
    simp only [bindOk]
    constructor
    · rintro ⟨derived, made, checked⟩
      split at checked
      · rename_i same
        exact ⟨index, rfl, (Wallet.derivePairSource made).1, derived, made, same⟩
      · cases checked
    · rintro ⟨other, same, _, derived, made, gives⟩
      cases same
      refine ⟨derived, made, ?_⟩
      rw [if_pos gives]
      rfl

theorem walletSource {record : WalletRecord} {wallet : Wallet} (read : record.wallet = .ok wallet) :
    ∃ pairs, record.keys.mapM KeyRecord.pair = .ok pairs ∧ wallet.ring = .ofList pairs ∧
      (∀ pair ∈ pairs, wallet.origin.Issues pair) ∧ wallet.version = record.version := by
  obtain ⟨pairs, collected, read⟩ := bindOk.mp read
  refine ⟨pairs, collected, ?_⟩
  split at read
  · rename_i version
    obtain ⟨node, _, read⟩ := bindOk.mp read
    obtain ⟨_, checked, read⟩ := bindOk.mp read
    cases pureOk.mp read
    exact ⟨rfl, fun pair member => checkDerivedOk.mp (checkedOk.mp checked pair member), version.symm⟩
  · split at read
    · rename_i version
      cases pureOk.mp read
      exact ⟨rfl, fun _ _ => trivial, version.symm⟩
    · cases read

end WalletRecord

namespace Wallet

theorem ofFullFormOpened {document : Bytes} {record : WalletRecord}
    (opened : WalletRecord.ofDocument document = .ok record) : ofFullForm document = record.wallet := by
  rw [ofFullForm, opened]
  rfl

theorem decodedSource {document : Bytes} {wallet : Wallet} (read : ofFullForm document = .ok wallet) :
    ∃ record, WalletRecord.ofDocument document = .ok record ∧ record.wallet = .ok wallet :=
  bindOk.mp read

/-- The ring files its pairs by their keys and counts past them, and every pair has its keys from where
the wallet gets them. -/
structure Sound (wallet : Wallet) : Prop where
  filed : wallet.ring.Filed
  ahead : wallet.ring.Ahead
  keyed : ∀ pair ∈ wallet.ring.list, pair.Keyed
  issued : ∀ pair ∈ wallet.ring.list, wallet.origin.Issues pair

theorem fileSound {wallet : Wallet} (sound : wallet.Sound) {pair : KeyPair} (keyed : pair.Keyed)
    (issued : wallet.origin.Issues pair) : (wallet.file pair).Sound := by
  refine ⟨KeyRing.upsertFiled sound.filed pair, KeyRing.upsertAhead sound.filed sound.ahead pair, ?_, ?_⟩
  · intro other member
    rcases (KeyRing.memberUpsert sound.filed).mp member with rfl | ⟨old, _⟩
    · exact keyed
    · exact sound.keyed other old
  · intro other member
    rcases (KeyRing.memberUpsert sound.filed).mp member with rfl | ⟨old, _⟩
    · exact issued
    · exact sound.issued other old

theorem ofListSound {name : String} {origin : Origin} {pairs : List KeyPair}
    (keyed : ∀ pair ∈ pairs, pair.Keyed) (issued : ∀ pair ∈ pairs, origin.Issues pair) :
    Sound ⟨name, origin, .ofList pairs⟩ := by
  refine ⟨KeyRing.ofListFiled pairs, KeyRing.ofListAhead pairs, ?_, ?_⟩
  · exact fun pair member => keyed pair (KeyRing.memberOfList member)
  · exact fun pair member => issued pair (KeyRing.memberOfList member)

theorem decodedSound {document : Bytes} {wallet : Wallet} (read : ofFullForm document = .ok wallet) :
    wallet.Sound := by
  obtain ⟨record, _, read⟩ := decodedSource read
  obtain ⟨pairs, collected, ring, issued, _⟩ := WalletRecord.walletSource read
  obtain ⟨name, origin, _⟩ := wallet
  cases ring
  exact ofListSound (KeyRecord.pairsSource collected).1 issued

theorem freshSound {wallet : Wallet} (fresh : wallet.Fresh) : wallet.Sound := by
  obtain ⟨name, origin, ring⟩ := wallet
  cases freshEmpty fresh
  exact ⟨KeyRing.emptyFiled, KeyRing.emptyAhead, KeyRing.emptyList ▸ nofun, KeyRing.emptyList ▸ nofun⟩

theorem begunSound {wallet : Wallet} (begun : wallet.Begun) : wallet.Sound := by
  cases begun with
  | fresh made => exact freshSound made
  | decoded read => exact decodedSound read

theorem movedSound (wallet next : Wallet) (sound : wallet.Sound) (moved : wallet.Moved next) :
    next.Sound := by
  cases moved with
  | issued notes made =>
    obtain ⟨keyed, issued, _⟩ := nextPairSource made
    exact fileSound sound ⟨keyed.length, keyed.gives⟩ (Origin.issuesSame issued rfl rfl)
  | refiled member replaces =>
    have issued := Origin.issuesSame (sound.issued _ member) replaces.index replaces.publicKey
    exact fileSound sound (replaces.keyed (sound.keyed _ member)) issued
  | reloaded read => exact decodedSound read

end Wallet

end WalletVault
