import WalletVault.Proofs.Wallet.Lineage
import WalletVault.Proofs.Wallet.Signing
import WalletVault.Proofs.Wallet.Taint

/-! Signatures that a wallet has issued. To verify takes the public key alone, and no call takes a public key out of a
wallet or changes the one that a text names; so what was accepted once is accepted after every further call, whoever
has tainted the key since. -/
namespace WalletVault
open Fallible

/-- The one thing that is asked of the curve: what a seed signs verifies under the public key of the seed. -/
def Ed25519.Accepts (seed data : Bytes) : Prop := verify (publicKey seed) data (sign seed data) = true

theorem Ed25519.verifyLength {key data signature : Bytes} (length : signature.length ≠ 64) :
    verify key data signature = false := by
  unfold verify
  exact if_neg fun both => length both.1

namespace KeyPair
variable {pair : KeyPair}

theorem verifyAnyKeyed (keyed : pair.Keyed) (data signature : Bytes) :
    pair.verifyAny data signature = .ok (Ed25519.verify pair.publicKey.bytes data signature) := by
  rw [verifyAny, Algorithm.verify, if_pos keyed.publicLength]
  rfl

theorem signAnySource (keyed : pair.Keyed) {data signature : Bytes} (signed : pair.signAny data = .ok signature) :
    pair.publicKey.bytes = Ed25519.publicKey pair.privateKey.bytes ∧
      signature = Ed25519.sign pair.privateKey.bytes data := by
  refine ⟨congrArg PublicKey.bytes (Algorithm.publicKeyOk.mp keyed.gives).2, ?_⟩
  cases tainted : pair.tainted with
  | true =>
    rw [signAnyTainted tainted] at signed
    cases signed
  | false =>
    rw [signAnyUntainted keyed tainted] at signed
    exact (Except.ok.inj signed).symm

end KeyPair

namespace KeyRing
variable {ring : KeyRing} {key : String} {pair : KeyPair}

theorem verifyAnyAbsent (absent : ring.find? key = none) (data signature : Bytes) :
    ring.verifyAny key data signature = .error .noSuchKey := by
  rw [verifyAny, require, absent]
  rfl

theorem verifyAnyFound (keyed : ∀ pair ∈ ring.list, pair.Keyed) (found : ring.find? key = some pair)
    (data signature : Bytes) :
    ring.verifyAny key data signature = .ok (Ed25519.verify pair.publicKey.bytes data signature) := by
  rw [verifyAny, require, found]
  exact KeyPair.verifyAnyKeyed (keyed pair (findMember found)) data signature

theorem requireOk : ring.require key = .ok pair ↔ ring.find? key = some pair := by
  unfold require
  split
  · rename_i found
    rw [found, Except.ok.injEq, Option.some.injEq]
  · rename_i absent
    simp [absent]

end KeyRing

namespace Wallet
variable {wallet next : Wallet} {key : String} {pair : KeyPair}

def Holds (key : String) (publicKey : PublicKey) (wallet : Wallet) : Prop :=
  wallet.Sound ∧ ∃ pair, wallet.ring.find? key = some pair ∧ pair.publicKey = publicKey

theorem movedHolds {publicKey : PublicKey} (wallet next : Wallet) (holds : wallet.Holds key publicKey)
    (moved : wallet.Moved next) : next.Holds key publicKey := by
  obtain ⟨sound, pair, found, rfl⟩ := holds
  have after := movedSound wallet next sound moved
  have stays : ∃ kept, next.ring.find? key = some kept := by
    cases moved with
    | issued notes made => exact KeyRing.findUpsert found _
    | refiled member replaces => exact KeyRing.findUpsert found _
    | reloaded read => exact ⟨pair, (reloadFinds sound read).trans found⟩
  obtain ⟨kept, still⟩ := stays
  refine ⟨after, kept, still, PublicKey.hexInjective ?_⟩
  exact (KeyRing.findHex after.filed still).trans (KeyRing.findHex sound.filed found).symm

theorem verifyAnswers (sound : wallet.Sound) (found : wallet.ring.find? key = some pair) (data signature : Bytes) :
    ∃ valid, wallet.ring.verifyAny key data signature = .ok valid ∧ (signature.length ≠ 64 → valid = false) :=
  ⟨_, KeyRing.verifyAnyFound sound.keyed found data signature, Ed25519.verifyLength⟩

theorem signedVerifies (sound : wallet.Sound) {data signature : Bytes}
    (signed : wallet.ring.signAny key data = .ok signature)
    (accepts : ∀ pair, wallet.ring.find? key = some pair → Ed25519.Accepts pair.privateKey.bytes data)
    (later : List Move) : (wallet.run later).ring.verifyAny key data signature = .ok true := by
  obtain ⟨pair, required, signed⟩ := bindOk.mp signed
  have found := KeyRing.requireOk.mp required
  obtain ⟨publicKey, rfl⟩ := KeyPair.signAnySource (sound.keyed pair (KeyRing.findMember found)) signed
  obtain ⟨after, kept, still, same⟩ := runKeeps movedHolds ⟨sound, pair, found, rfl⟩ later
  rw [KeyRing.verifyAnyFound after.keyed still, same, publicKey]
  exact congrArg Except.ok (accepts pair found)

/-! The master key of a derived wallet. -/

theorem masterKeySource {node : Node} {master : MasterKey} (origin : wallet.origin = .derived node)
    (made : wallet.masterKey = .ok master) : master.privateKey.bytes = node.key.val ∧
      master.publicKey.bytes = Ed25519.publicKey node.key.val := by
  rw [masterKey, origin] at made
  obtain ⟨keys, paired, rfl⟩ := mapOk.mp (mapErrorOk.mp made)
  obtain ⟨gives, privateKey⟩ := Algorithm.keyPairOk.mp paired
  exact ⟨congrArg PrivateKey.bytes privateKey, congrArg PublicKey.bytes (Algorithm.publicKeyOk.mp gives).2⟩

theorem masterVerifies {node : Node} {master : MasterKey} (origin : wallet.origin = .derived node)
    (made : wallet.masterKey = .ok master) (data signature : Bytes) :
    master.verifyAny data signature = .ok (Ed25519.verify master.publicKey.bytes data signature) := by
  have length : master.publicKey.bytes.length = 32 := by
    rw [(masterKeySource origin made).2, Ed25519.lengthPublicKey]
  rw [MasterKey.verifyAny, Algorithm.verify, if_pos length]
  rfl

theorem masterSigns {node : Node} {master : MasterKey} (origin : wallet.origin = .derived node)
    (made : wallet.masterKey = .ok master) (data : Bytes) :
    master.signAny data = .ok (Ed25519.sign node.key.val data) := by
  have privateKey := (masterKeySource origin made).1
  rw [MasterKey.signAny, Algorithm.sign, if_pos (privateKey ▸ node.key.property), privateKey]
  rfl

theorem runOrigin (sound : wallet.Sound) (later : List Move) : (wallet.run later).origin = wallet.origin := by
  have kept (before next : Wallet) (holds : before.Sound ∧ before.origin = wallet.origin)
      (moved : before.Moved next) : next.Sound ∧ next.origin = wallet.origin :=
    ⟨movedSound before next holds.1 moved, (movedOrigin holds.1 moved).trans holds.2⟩
  exact (runKeeps kept ⟨sound, rfl⟩ later).2

theorem runMasterKey (sound : wallet.Sound) (later : List Move) : (wallet.run later).masterKey = wallet.masterKey := by
  rw [masterKey, runOrigin sound, masterKey]

/-- Verification never fails for a cause in the key: after any history it says that a key is absent, or answers yes or
no, and no where the signature has not 64 bytes. What a key has signed at some point verifies then and after every
further run of calls, if the curve accepts what the seed of that key signs; so it is for the master key of a derived
wallet, which never changes. -/
theorem issuedSignaturesVerify {start wallet : Wallet} (begun : start.Begun) {earlier : List Move}
    (reached : start.run earlier = wallet) :
    (∀ key data signature,
      (wallet.ring.find? key = none → wallet.ring.verifyAny key data signature = .error .noSuchKey) ∧
      ∀ pair, wallet.ring.find? key = some pair → ∃ valid,
        wallet.ring.verifyAny key data signature = .ok valid ∧ (signature.length ≠ 64 → valid = false)) ∧
    (∀ key data signature, wallet.ring.signAny key data = .ok signature →
      (∀ pair, wallet.ring.find? key = some pair → Ed25519.Accepts pair.privateKey.bytes data) →
      ∀ later, (wallet.run later).ring.verifyAny key data signature = .ok true) ∧
    ∀ node, wallet.origin = .derived node → ∃ master,
      (∀ later, (wallet.run later).masterKey = .ok master) ∧
      (∀ data signature, ∃ valid, master.verifyAny data signature = .ok valid ∧
        (signature.length ≠ 64 → valid = false)) ∧
      ∀ data, ∃ signature, master.signAny data = .ok signature ∧
        (Ed25519.Accepts node.key.val data → master.verifyAny data signature = .ok true) := by
  have sound : wallet.Sound := reached ▸ runKeeps movedSound (begunSound begun) earlier
  refine ⟨fun key data signature => ⟨fun absent => ?_, fun pair found => ?_⟩, fun key data signature signed => ?_, ?_⟩
  · exact KeyRing.verifyAnyAbsent absent data signature
  · exact verifyAnswers sound found data signature
  · exact signedVerifies sound signed
  · intro node origin
    obtain ⟨master, made⟩ := masterKeyOk origin
    have verifies := masterVerifies origin made
    refine ⟨master, fun later => (runMasterKey sound later).trans made, fun data signature => ?_, fun data => ?_⟩
    · exact ⟨_, verifies data signature, Ed25519.verifyLength⟩
    · refine ⟨_, masterSigns origin made data, fun accepts => ?_⟩
      rw [verifies, (masterKeySource origin made).2]
      exact congrArg Except.ok accepts

def sampleSigner : KeyPair := { sampleTainted with tainted := false }

def sampleSigning : Wallet := ⟨"savings", .legacy, .ofList [sampleSigner]⟩

def sampleRooted : Wallet := ⟨"travel", .derived ⟨sampleSeed, sampleSeed⟩, .empty⟩

/- What the seed gives, digest by digest, so that no step has much to evaluate. -/
theorem sampleDigested : Sha512.digest sampleSeed.val = Bytes.ofNatBig 64
    0x5046adc1dba838867b2bbbfdd0c3423e58b57970b5267a90f57960924a87f1960a6a85eaa642dac835424b5d7c8d637c00408c7a73da672b7f498521420b6dd3 := by
  decide +kernel

theorem samplePublished : Ed25519.publicKey sampleSeed.val =
    Bytes.ofNatBig 32 0x3b6a27bcceb6a42d62a3a8d02a6f0d73653215771de243a63ac048a18b59da29 := by
  rw [Ed25519.publicKey, Ed25519.secret, sampleDigested]
  decide +kernel

theorem sampleSigned : Ed25519.sign sampleSeed.val [1, 2] = Bytes.ofNatBig 64
    0xe09e13bcdd74a2d28a561ea48602e735a268ee9ef8215de2b18d9bf0cc6c0a172d0659c9b5a3b51db4a322799ab87ab9cfef736f7365c99a4f8d1177cd5dd60c := by
  rw [Ed25519.sign, samplePublished, Ed25519.secret, sampleDigested]
  decide +kernel

theorem sampleAccepted : Ed25519.Accepts sampleSeed.val [1, 2] := by
  rw [Ed25519.Accepts, samplePublished, sampleSigned]
  decide +kernel

theorem sampleSignerKeyed : sampleSigner.Keyed := ⟨(numberedKeyed 7).length, (numberedKeyed 7).gives⟩

theorem sampleSigningBegun : sampleSigning.Begun :=
  .decoded (legacyRead (List.forall_mem_singleton.mpr sampleSignerKeyed) "savings")

theorem sampleRootedBegun : sampleRooted.Begun := by
  have opened := WalletRecord.ofDocumentJson (.ofWallet sampleRooted)
  have noKeys : (WalletRecord.ofWallet sampleRooted).keys = [] := by
    simp only [WalletRecord.ofWallet, sampleRooted, KeyRing.emptyList, List.map_nil]
  refine .decoded (bindOk.mpr ⟨_, opened, bindOk.mpr ⟨[], ?_, ?_⟩⟩)
  · rw [noKeys]
    rfl
  · exact (if_pos rfl).trans (bindOk.mpr ⟨_, WalletRecord.nodeWritten _, rfl⟩)

theorem sampleSignerFound : sampleSigning.ring.find? sampleKey = some sampleSigner :=
  (KeyRing.findFiling KeyRing.emptyFiled _ _).trans (if_pos sampleNamed)

theorem sampleVerifiesTainted : ∃ signature, sampleSigning.ring.signAny sampleKey [1, 2] = .ok signature ∧
    (sampleSigning.run [.taint sampleKey, .generate otherSeed [], .reload]).ring.verifyAny sampleKey [1, 2] signature =
      .ok true ∧
    sampleSigning.ring.verifyAny sampleKey [1, 2] [] = .ok false ∧
    ∃ master again, (sampleRooted.run [.reload]).masterKey = .ok master ∧ master.signAny [1, 2] = .ok again ∧
      master.verifyAny [1, 2] again = .ok true := by
  have required := KeyRing.requireOk.mpr sampleSignerFound
  have signed : sampleSigning.ring.signAny sampleKey [1, 2] = .ok (Ed25519.sign sampleSeed.val [1, 2]) :=
    bindOk.mpr ⟨_, required, KeyPair.signAnyUntainted sampleSignerKeyed rfl _⟩
  obtain ⟨answers, verifies, _⟩ := issuedSignaturesVerify sampleSigningBegun (Eq.refl (sampleSigning.run []))
  obtain ⟨_, _, masters⟩ := issuedSignaturesVerify sampleRootedBegun (Eq.refl (sampleRooted.run []))
  obtain ⟨master, kept, _, signs⟩ := masters _ rfl
  obtain ⟨again, masterSigned, accepted⟩ := signs [1, 2]
  have accepts : ∀ pair, sampleSigning.ring.find? sampleKey = some pair →
      Ed25519.Accepts pair.privateKey.bytes [1, 2] := by
    intro pair found
    rw [sampleSignerFound] at found
    cases found
    exact sampleAccepted
  obtain ⟨valid, answered, short⟩ := (answers sampleKey [1, 2] []).2 _ sampleSignerFound
  rw [short (by decide)] at answered
  exact ⟨_, signed, verifies _ _ _ signed accepts _, answered, master, again, kept _, masterSigned,
    accepted sampleAccepted⟩

end Wallet

end WalletVault
