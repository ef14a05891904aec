import WalletVault.Proofs.Form.Precedence

/-! Refusals of records and the secrets in them. Every refusal comes from one check, and what it reports is taken from
the public part of the record and from the lengths of its secrets. Of two records that differ in their secrets only,
the same check reports the same. -/
namespace WalletVault
open Fallible

def SameLength (first second : String) : Prop :=
  first.length = second.length ∨ (Utf8.encode first).length = (Utf8.encode second).length

theorem sameLengthEmpty {text : String} (same : SameLength "" text) : text = "" := by
  rcases same with characters | bytes
  · exact String.length_eq_zero_iff.mp characters.symm
  · exact Utf8.encodeInjective (List.eq_nil_of_length_eq_zero bytes.symm)

theorem SameLength.symm {first second : String} (same : SameLength first second) : SameLength second first :=
  same.imp Eq.symm Eq.symm

namespace PrivateKey
variable {first second : String} {left right : PrivateKey} {fault reason : KeyFault}

theorem sameLengthBytes (same : SameLength first second) (one : ofHex first = .ok left)
    (other : ofHex second = .ok right) : left.bytes.length = right.bytes.length := by
  have lengths {text : String} {key : PrivateKey} (read : ofHex text = .ok key) :=
    Hex.decodeLength (Hex.decodeMeans.mpr (ofHexOk.mp read).1)
  obtain ⟨characters, bytes⟩ := lengths one
  obtain ⟨moreCharacters, moreBytes⟩ := lengths other
  rcases same with same | same <;> omega

theorem sameLengthFault (same : SameLength first second) (one : ofHex first = .error fault)
    (other : ofHex second = .error reason) : fault = reason := by
  rcases ofHexFault one with ⟨rfl, rfl⟩ | ⟨rfl, filled⟩
  · rcases ofHexFault other with ⟨rfl, _⟩ | ⟨_, filled⟩
    · rfl
    · exact absurd (sameLengthEmpty same) filled
  · rcases ofHexFault other with ⟨_, rfl⟩ | ⟨rfl, _⟩
    · exact absurd (sameLengthEmpty same.symm) filled
    · rfl

end PrivateKey

/-- Keys that agree in all but the contents of their private keys, which have one length. -/
structure KeyRecord.Twin (first second : KeyRecord) : Prop where
  index : first.index = second.index
  publicKey : first.publicKey = second.publicKey
  notes : first.notes = second.notes
  tainted : first.tainted = second.tainted
  algorithm : first.algorithm = second.algorithm
  length : SameLength first.privateKey second.privateKey

theorem Algorithm.publicKeyFault {algorithm : Algorithm} {key : Bytes} {fault : CryptoFault}
    (refused : algorithm.publicKey key = .error fault) : fault = .keyLength key.length := by
  unfold Algorithm.publicKey at refused
  split at refused <;> cases refused
  rfl

theorem KeyRecord.twinRefused {first second : KeyRecord} {check : KeyCheck} {fault reason : WalletFault}
    (twin : first.Twin second) (left : first.RefusedAt check fault) (right : second.RefusedAt check reason) :
    fault = reason := by
  cases left with
  | algorithm refused =>
    cases right with
    | algorithm again =>
      rw [twin.algorithm, again] at refused
      cases refused
      rfl
  | publicKey _ refused =>
    cases right with
    | publicKey _ again =>
      rw [twin.publicKey, again] at refused
      cases refused
      rfl
  | privateKey _ _ refused =>
    cases right with
    | privateKey _ _ again => exact congrArg _ (PrivateKey.sameLengthFault twin.length refused again)
  | keyLength _ _ secret refused =>
    cases right with
    | keyLength _ _ other again =>
      -- The only fault that tells something of a private key tells its length.
      rw [Algorithm.publicKeyFault refused, Algorithm.publicKeyFault again,
        PrivateKey.sameLengthBytes twin.length secret other]
  | agreement _ written =>
    cases right with
    | agreement _ again =>
      rw [twin.publicKey, again] at written
      cases written
      rfl

inductive NodeCheck where
  | presence
  | base64
  | length
  deriving DecidableEq, Repr

def NodeFault.check : NodeFault → NodeCheck
  | .missing => .presence
  | .notBase64 => .base64
  | .badLength _ => .length

inductive Check where
  | key (place : Nat) (check : KeyCheck)
  | version
  | node (check : NodeCheck)
  | lineage (place : Nat)
  deriving DecidableEq, Repr

namespace WalletRecord

inductive RefusedAt (record : WalletRecord) : Check → WalletFault → Prop where
  | key {place : Nat} {key : KeyRecord} {check : KeyCheck} {fault : WalletFault}
      (here : record.keys[place]? = some key) (before : ∀ earlier ∈ record.keys.take place, earlier.Readable)
      (refused : key.RefusedAt check fault) : RefusedAt record (.key place check) fault
  | version (readable : ∀ key ∈ record.keys, key.Readable) (notDerived : record.version ≠ Wallet.derivedVersion)
      (notLegacy : record.version ≠ Wallet.legacyVersion) :
      RefusedAt record .version (.unsupportedVersion record.version)
  | node {check : NodeCheck} {why : NodeFault} (readable : ∀ key ∈ record.keys, key.Readable)
      (derived : record.version = Wallet.derivedVersion) (refused : NodeRefused record.node why)
      (concerns : why.check = check) : RefusedAt record (.node check) (.invalidNode why)
  | lineage {place : Nat} {pairs : List KeyPair} {node : Node} {pair : KeyPair} {fault : WalletFault}
      (read : record.keys.mapM KeyRecord.pair = .ok pairs) (derived : record.version = Wallet.derivedVersion)
      (decoded : decodeNode record.node = .ok node) (here : pairs[place]? = some pair)
      (before : ∀ earlier ∈ pairs.take place, checkDerived node earlier = .ok ())
      (refused : checkDerived node pair = .error fault) : RefusedAt record (.lineage place) fault

variable {record first second : WalletRecord} {check : Check} {fault reason : WalletFault}

theorem walletRefused : record.wallet = .error fault ↔ ∃ check, record.RefusedAt check fault := by
  constructor
  · intro refused
    rcases bindFault.mp refused with unread | ⟨pairs, read, refused⟩
    · obtain ⟨place, key, here, before, refused⟩ := firstPlace.mp (collectedFault.mp unread)
      obtain ⟨check, refused⟩ := KeyRecord.pairRefused.mp refused
      exact ⟨_, .key here before refused⟩
    have readable := collectedAll.mp ⟨pairs, read⟩
    split at refused
    · rename_i derived
      rcases bindFault.mp refused with unfit | ⟨node, decoded, refused⟩
      · obtain ⟨why, node, rfl⟩ := decodeNodeFault unfit
        exact ⟨_, .node readable derived node rfl⟩
      rcases bindFault.mp refused with foreign | ⟨_, _, done⟩
      · obtain ⟨place, pair, here, before, foreign⟩ := firstPlace.mp (checkedFault.mp foreign)
        exact ⟨_, .lineage read derived decoded here before foreign⟩
      · cases done
    · split at refused <;> cases refused
      rename_i notDerived notLegacy
      exact ⟨_, .version readable notDerived notLegacy⟩
  · rintro ⟨check, refused⟩
    cases refused with
    | key here before refused =>
      have unread := collectedFault.mpr (firstPlace.mpr ⟨_, _, here, before, KeyRecord.refusedPair refused⟩)
      exact bindFault.mpr (.inl unread)
    | version readable notDerived notLegacy => exact (versionDecides notDerived notLegacy).mpr readable
    | node readable derived refused => exact (nodeDecides derived (refusedNode refused)).mpr readable
    | lineage read derived decoded here before refused =>
      have foreign := checkedFault.mpr (firstPlace.mpr ⟨_, _, here, before, refused⟩)
      refine bindFault.mpr (.inr ⟨_, read, ?_⟩)
      rw [if_pos derived]
      exact bindFault.mpr (.inr ⟨_, decoded, bindFault.mpr (.inl foreign)⟩)

/-- Nodes of twin records: both are absent, or both are there and decode to equally many bytes if both decode. -/
inductive TwinNode : Option String → Option String → Prop where
  | absent : TwinNode none none
  | present {first second : String} (length : ∀ left right, Base64.decode? first = some left →
      Base64.decode? second = some right → left.length = right.length) : TwinNode (some first) (some second)

structure Twin (first second : WalletRecord) : Prop where
  version : first.version = second.version
  name : first.name = second.name
  node : TwinNode first.node second.node
  keys : List.Forall₂ KeyRecord.Twin first.keys second.keys

theorem twinKey (twin : first.Twin second) {place : Nat} {key other : KeyRecord}
    (here : first.keys[place]? = some key) (there : second.keys[place]? = some other) : key.Twin other := by
  obtain ⟨_, again, alike⟩ := alignedPlace twin.keys there
  cases here.symm.trans again
  exact alike

theorem twinNodeRefused {text other : Option String} {why reason : NodeFault} (twin : TwinNode text other)
    (left : NodeRefused text why) (right : NodeRefused other reason) (same : why.check = reason.check) :
    why = reason := by
  cases left with
  | missing => cases right <;> first | rfl | cases same
  | notBase64 foreign => cases right <;> first | rfl | cases same
  | badLength length =>
    cases right with
    | missing => cases same
    | notBase64 foreign => cases same
    | badLength other =>
      cases twin with
      | present lengths => rw [lengths _ _ (Base64.decodeEncoded _) (Base64.decodeEncoded _)]

def lineageReport (pair : KeyPair) : WalletFault :=
  match pair.index with
  | none => .invalidKeyRecord (.missingIndex pair.publicKey.hex)
  | some index =>
    if index ≤ Wallet.lastIndex then .invalidKeyRecord (.notDerived pair.publicKey.hex index) else .indexOverflow index

theorem lineageFault {node : Node} {pair : KeyPair} (refused : checkDerived node pair = .error fault) :
    fault = lineageReport pair := by
  unfold checkDerived at refused
  unfold lineageReport
  cases number : pair.index with
  | none =>
    rw [number] at refused
    cases refused
    rfl
  | some index =>
    rw [number] at refused
    rcases bindFault.mp refused with past | ⟨derived, made, refused⟩
    · obtain ⟨beyond, rfl⟩ := Wallet.derivePairFault.mp past
      simp only [if_neg (UInt32.not_le.mpr beyond)]
    · simp only [if_pos (Wallet.derivePairSource made).1]
      split at refused <;> cases refused
      rfl

theorem twinLineage {key other : KeyRecord} {pair twin : KeyPair} (alike : key.Twin other)
    (read : key.pair = .ok pair) (reread : other.pair = .ok twin) : lineageReport pair = lineageReport twin := by
  have index : pair.index = twin.index := by
    rw [(KeyRecord.pairSource read).2, (KeyRecord.pairSource reread).2, alike.index]
  have written := KeyRecord.pairPublic read
  rw [alike.publicKey, KeyRecord.pairPublic reread] at written
  unfold lineageReport
  rw [index, Except.ok.inj written]

theorem twinRefused (twin : first.Twin second) (left : first.RefusedAt check fault)
    (right : second.RefusedAt check reason) : fault = reason := by
  cases left with
  | key here _ refused =>
    cases right with
    | key there _ again => exact KeyRecord.twinRefused (twinKey twin here there) refused again
  | version =>
    cases right with
    | version => rw [twin.version]
  | node _ _ refused concerns =>
    cases right with
    | node _ _ again same => rw [twinNodeRefused twin.node refused again (concerns.trans same.symm)]
  | lineage read _ _ here _ refused =>
    cases right with
    | lineage reread _ _ there _ again =>
      -- The nodes may differ, so may the pairs; the pairs of one place still have one number and one public key.
      obtain ⟨key, inside, given⟩ := alignedPlace (collectedOk.mp read) here
      obtain ⟨other, within, regiven⟩ := alignedPlace (collectedOk.mp reread) there
      rw [lineageFault refused, lineageFault again, twinLineage (twinKey twin inside within) given regiven]

end WalletRecord

end WalletVault
