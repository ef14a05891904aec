import WalletVault.Proofs.Form.RoundTrip

/-! Which fault of a record is reported. The keys are read before the version and the node are looked at, so a key
that cannot be read hides what is wrong with these; where every key can be read, they decide. -/
namespace WalletVault
open Fallible

def KeyRecord.Readable (key : KeyRecord) : Prop := ∃ pair, key.pair = .ok pair

inductive KeyCheck where
  | algorithm
  | publicKey
  | privateKey
  | keyLength
  | agreement
  deriving DecidableEq, Repr

namespace KeyRecord

inductive RefusedAt (record : KeyRecord) : KeyCheck → WalletFault → Prop where
  | algorithm {cause : CryptoFault} (refused : Algorithm.ofDescriptor record.algorithm = .error cause) :
      RefusedAt record .algorithm (.crypto cause)
  | publicKey {algorithm : Algorithm} {cause : KeyFault}
      (known : Algorithm.ofDescriptor record.algorithm = .ok algorithm)
      (refused : PublicKey.ofHex record.publicKey = .error cause) : RefusedAt record .publicKey (.keyEncoding cause)
  | privateKey {algorithm : Algorithm} {publicKey : PublicKey} {cause : KeyFault}
      (known : Algorithm.ofDescriptor record.algorithm = .ok algorithm)
      (written : PublicKey.ofHex record.publicKey = .ok publicKey)
      (refused : PrivateKey.ofHex record.privateKey = .error cause) :
      RefusedAt record .privateKey (.keyEncoding cause)
  | keyLength {algorithm : Algorithm} {publicKey : PublicKey} {privateKey : PrivateKey} {cause : CryptoFault}
      (known : Algorithm.ofDescriptor record.algorithm = .ok algorithm)
      (written : PublicKey.ofHex record.publicKey = .ok publicKey)
      (secret : PrivateKey.ofHex record.privateKey = .ok privateKey)
      (refused : algorithm.publicKey privateKey.bytes = .error cause) : RefusedAt record .keyLength (.crypto cause)
  | agreement {algorithm : Algorithm} {publicKey expected : PublicKey} {privateKey : PrivateKey}
      (known : Algorithm.ofDescriptor record.algorithm = .ok algorithm)
      (written : PublicKey.ofHex record.publicKey = .ok publicKey)
      (secret : PrivateKey.ofHex record.privateKey = .ok privateKey)
      (given : algorithm.publicKey privateKey.bytes = .ok expected) (differs : expected ≠ publicKey) :
      RefusedAt record .agreement (.invalidKeyRecord (.mismatch publicKey.hex))

variable {record : KeyRecord} {check : KeyCheck} {fault : WalletFault}

theorem refusedPair (refused : record.RefusedAt check fault) : record.pair = .error fault := by
  cases refused with
  | algorithm refused => simp only [pair, refused, Except.mapError, bind, Except.bind]
  | publicKey known refused => simp only [pair, known, refused, Except.mapError, bind, Except.bind]
  | privateKey known written refused => simp only [pair, known, written, refused, Except.mapError, bind, Except.bind]
  | keyLength known written secret refused =>
    simp only [pair, known, written, secret, refused, Except.mapError, bind, Except.bind]
  | agreement known written secret given differs =>
    simp only [pair, known, written, secret, given, if_neg differs, Except.mapError, bind, Except.bind]
    rfl

theorem pairRefused : record.pair = .error fault ↔ ∃ check, record.RefusedAt check fault := by
  refine ⟨fun refused => ?_, fun ⟨_, refused⟩ => refusedPair refused⟩
  rcases bindFault.mp refused with refused | ⟨algorithm, known, refused⟩
  · obtain ⟨_, unknown, rfl⟩ := mapErrorFault.mp refused
    exact ⟨_, .algorithm unknown⟩
  have known := mapErrorOk.mp known
  rcases bindFault.mp refused with refused | ⟨publicKey, written, refused⟩
  · obtain ⟨_, unread, rfl⟩ := mapErrorFault.mp refused
    exact ⟨_, .publicKey known unread⟩
  have written := mapErrorOk.mp written
  rcases bindFault.mp refused with refused | ⟨privateKey, secret, refused⟩
  · obtain ⟨_, unread, rfl⟩ := mapErrorFault.mp refused
    exact ⟨_, .privateKey known written unread⟩
  have secret := mapErrorOk.mp secret
  rcases bindFault.mp refused with refused | ⟨expected, given, refused⟩
  · obtain ⟨_, unfit, rfl⟩ := mapErrorFault.mp refused
    exact ⟨_, .keyLength known written secret unfit⟩
  · split at refused <;> cases refused
    exact ⟨_, .agreement known written secret (mapErrorOk.mp given) (by assumption)⟩

theorem pairFault (refused : record.pair = .error fault) : (∃ cause, fault = .crypto cause) ∨
    (∃ cause, fault = .keyEncoding cause) ∨ ∃ cause, fault = .invalidKeyRecord cause := by
  obtain ⟨_, refused⟩ := pairRefused.mp refused
  cases refused with
  | algorithm => exact .inl ⟨_, rfl⟩
  | publicKey => exact .inr (.inl ⟨_, rfl⟩)
  | privateKey => exact .inr (.inl ⟨_, rfl⟩)
  | keyLength => exact .inl ⟨_, rfl⟩
  | agreement => exact .inr (.inr ⟨_, rfl⟩)

end KeyRecord

namespace WalletRecord

inductive NodeRefused : Option String → NodeFault → Prop where
  | missing : NodeRefused none .missing
  | notBase64 {text : String} (foreign : ∀ raw, text ≠ Base64.encode raw) : NodeRefused (some text) .notBase64
  | badLength {raw : Bytes} (length : raw.length ≠ 64) :
      NodeRefused (some (Base64.encode raw)) (.badLength (.nodeLength raw.length))

theorem refusedNode {text : Option String} {why : NodeFault} (refused : NodeRefused text why) :
    decodeNode text = .error (.invalidNode why) := by
  cases refused with
  | missing => rfl
  | @notBase64 text foreign =>
    cases decoded : Base64.decode? text with
    | none => simp only [decodeNode, decoded]
    | some raw => exact absurd (Base64.decodeOk.mp decoded) (foreign raw)
  | badLength length =>
    simp only [decodeNode, Base64.decodeEncoded, Node.ofBytes, dif_neg length]
    rfl

theorem nodeCases (text : Option String) :
    (∃ raw, raw.length = 64 ∧ text = some (Base64.encode raw)) ∨ ∃ why, NodeRefused text why := by
  cases text with
  | none => exact Or.inr ⟨_, .missing⟩
  | some text =>
    cases decoded : Base64.decode? text with
    | none =>
      refine Or.inr ⟨_, .notBase64 fun raw same => ?_⟩
      rw [Base64.decodeOk.mpr same] at decoded
      cases decoded
    | some raw =>
      cases Base64.decodeOk.mp decoded
      by_cases length : raw.length = 64
      · exact Or.inl ⟨raw, length, rfl⟩
      · exact Or.inr ⟨_, .badLength length⟩

theorem decodeNodeRefused {text : Option String} (unfit : ∀ raw, raw.length = 64 → text ≠ some (Base64.encode raw)) :
    ∃ why, NodeRefused text why ∧ decodeNode text = .error (.invalidNode why) := by
  rcases nodeCases text with ⟨raw, length, same⟩ | ⟨why, refused⟩
  · exact absurd same (unfit raw length)
  · exact ⟨why, refused, refusedNode refused⟩

theorem decodeNodeFault {text : Option String} {fault : WalletFault} (refused : decodeNode text = .error fault) :
    ∃ why, NodeRefused text why ∧ fault = .invalidNode why := by
  rcases nodeCases text with ⟨raw, length, rfl⟩ | ⟨why, node⟩
  · simp only [decodeNode, Base64.decodeEncoded, Node.ofBytes, dif_pos length] at refused
    cases refused
  · exact ⟨why, node, Except.error.inj (refused.symm.trans (refusedNode node))⟩

theorem headDecides {record : WalletRecord} {fault : WalletFault}
    (met : ∀ pairs, record.keys.mapM KeyRecord.pair = .ok pairs → record.wallet = .error fault)
    (foreign : ∀ key : KeyRecord, key.pair ≠ .error fault) :
    record.wallet = .error fault ↔ ∀ key ∈ record.keys, key.Readable := by
  constructor
  · intro refused
    apply collectedAll.mp
    rcases bindFault.mp refused with refused | ⟨pairs, read, _⟩
    · obtain ⟨_, key, _, _, _, refused⟩ := collectedFault.mp refused
      exact absurd refused (foreign key)
    · exact ⟨pairs, read⟩
  · intro readable
    obtain ⟨pairs, read⟩ := collectedAll.mpr readable
    exact met pairs read

theorem versionDecides {record : WalletRecord} (notDerived : record.version ≠ Wallet.derivedVersion)
    (notLegacy : record.version ≠ Wallet.legacyVersion) :
    record.wallet = .error (.unsupportedVersion record.version) ↔ ∀ key ∈ record.keys, key.Readable := by
  apply headDecides
  · intro pairs read
    refine bindFault.mpr (.inr ⟨pairs, read, ?_⟩)
    rw [if_neg notDerived, if_neg notLegacy]
    rfl
  · intro key refused
    rcases KeyRecord.pairFault refused with ⟨_, same⟩ | ⟨_, same⟩ | ⟨_, same⟩ <;> cases same

theorem nodeDecides {record : WalletRecord} (derived : record.version = Wallet.derivedVersion) {why : NodeFault}
    (refused : decodeNode record.node = .error (.invalidNode why)) :
    record.wallet = .error (.invalidNode why) ↔ ∀ key ∈ record.keys, key.Readable := by
  apply headDecides
  · intro pairs read
    refine bindFault.mpr (.inr ⟨pairs, read, ?_⟩)
    rw [if_pos derived]
    exact bindFault.mpr (.inl refused)
  · intro key refused
    rcases KeyRecord.pairFault refused with ⟨_, same⟩ | ⟨_, same⟩ | ⟨_, same⟩ <;> cases same

end WalletRecord

namespace Wallet

/-- The first key that cannot be read settles the fault of a document, whatever its version and its node. A version
that is not known, and a node that is not canonical base64 of 64 bytes in a derived wallet, are reported exactly if
every key can be read. -/
theorem headJudgedAfterKeys {document : Bytes} {record : WalletRecord}
    (opened : WalletRecord.ofDocument document = .ok record) :
    (∀ before key rest fault, record.keys = before ++ key :: rest → (∀ earlier ∈ before, earlier.Readable) →
      key.pair = .error fault → ofFullForm document = .error fault) ∧
    (record.version ≠ derivedVersion → record.version ≠ legacyVersion →
      (ofFullForm document = .error (.unsupportedVersion record.version) ↔ ∀ key ∈ record.keys, key.Readable)) ∧
    (record.version = derivedVersion → (∀ raw, raw.length = 64 → record.node ≠ some (Base64.encode raw)) →
      ∃ why, WalletRecord.NodeRefused record.node why ∧
        (ofFullForm document = .error (.invalidNode why) ↔ ∀ key ∈ record.keys, key.Readable)) := by
  rw [ofFullFormOpened opened]
  refine ⟨?_, WalletRecord.versionDecides, ?_⟩
  · intro before key rest fault split readable refused
    exact bindFault.mpr (.inl (collectedFault.mpr ⟨before, key, rest, split, readable, refused⟩))
  · intro derived unfit
    obtain ⟨why, refused, judged⟩ := WalletRecord.decodeNodeRefused unfit
    exact ⟨why, refused, WalletRecord.nodeDecides derived judged⟩

def laterKey : KeyRecord := { KeyRecord.ofPair (numberedPair 1) with algorithm := ⟨"walletd/ed448", 1⟩ }

def laterRecord : WalletRecord := ⟨3, "savings", none, [laterKey]⟩

theorem laterVersionHidden :
    WalletRecord.ofDocument laterRecord.json.compact = .ok laterRecord ∧
      ofFullForm laterRecord.json.compact = .error (.crypto (.unsupportedAlgorithm "walletd/ed448" 1)) ∧
      ofFullForm laterRecord.json.compact ≠ .error (.unsupportedVersion 3) := by
  have opened := WalletRecord.ofDocumentJson laterRecord
  have refused : laterKey.pair = .error (.crypto (.unsupportedAlgorithm "walletd/ed448" 1)) := rfl
  have judged := headJudgedAfterKeys opened
  refine ⟨opened, judged.1 [] laterKey [] _ rfl nofun refused, fun known => ?_⟩
  obtain ⟨pair, read⟩ := (judged.2.1 (by decide) (by decide)).mp known laterKey (List.mem_singleton_self _)
  rw [refused] at read
  cases read

end Wallet

end WalletVault
