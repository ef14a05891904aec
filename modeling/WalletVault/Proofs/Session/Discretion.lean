import WalletVault.Proofs.Form.Discretion
import WalletVault.Proofs.Store.Record
import WalletVault.Proofs.Store.Sealed
import WalletVault.Session.Basic

/-! Refusals to open a sealed record, and to log in with it. They pass on what the record inside is refused for, or
tell its name; so records that differ in their secrets only are refused alike here too. -/
namespace WalletVault
open Fallible

theorem WalletRecord.walletNamed {record : WalletRecord} {wallet : Wallet} (read : record.wallet = .ok wallet) :
    wallet.name = record.name := by
  obtain ⟨pairs, _, read⟩ := bindOk.mp read
  split at read
  · obtain ⟨node, _, read⟩ := bindOk.mp read
    obtain ⟨_, _, read⟩ := bindOk.mp read
    cases pureOk.mp read
    rfl
  · split at read <;> cases read
    rfl

inductive SealCheck where
  | decryption
  | document
  | content (check : Check)
  | name
  deriving DecidableEq, Repr

namespace Sealed

inductive RefusedAt (record : Bytes) (name passphrase : String) : SealCheck → StoreFault → Prop where
  | decryption (closed : ¬ Opens record passphrase) : RefusedAt record name passphrase .decryption .cannotDecrypt
  | document {text : Bytes} {fault : WalletFault} (decrypted : decrypt record passphrase = .ok text)
      (malformed : WalletRecord.ofDocument text = .error fault) :
      RefusedAt record name passphrase .document (.wallet fault)
  | content {text : Bytes} {contents : WalletRecord} {check : Check} {fault : WalletFault}
      (decrypted : decrypt record passphrase = .ok text) (opened : WalletRecord.ofDocument text = .ok contents)
      (refused : contents.RefusedAt check fault) :
      RefusedAt record name passphrase (.content check) (.wallet fault)
  | name {text : Bytes} {contents : WalletRecord} {wallet : Wallet} (decrypted : decrypt record passphrase = .ok text)
      (opened : WalletRecord.ofDocument text = .ok contents) (read : contents.wallet = .ok wallet)
      (differs : contents.name ≠ name) :
      RefusedAt record name passphrase .name (.nameMismatch name contents.name)

variable {record : Bytes} {name passphrase : String} {fault : StoreFault}

theorem refusedWallet {check : SealCheck} (refused : RefusedAt record name passphrase check fault) :
    Sealed.wallet record name passphrase = .error fault := by
  cases refused with
  | decryption closed => exact walletRefused name closed
  | document decrypted malformed =>
    simp only [Sealed.wallet, decrypted, Wallet.ofFullForm, malformed, bind, Except.bind]
  | content decrypted opened refused =>
    have unread := WalletRecord.walletRefused.mpr ⟨_, refused⟩
    simp only [Sealed.wallet, decrypted, Wallet.ofFullForm, opened, unread, bind, Except.bind]
  | name decrypted opened read differs =>
    simp only [Sealed.wallet, decrypted, Wallet.ofFullForm, opened, read, bind, Except.bind,
      WalletRecord.walletNamed read, if_neg differs]

theorem walletRefusedAt : Sealed.wallet record name passphrase = .error fault ↔
    ∃ check, RefusedAt record name passphrase check fault := by
  refine ⟨fun refused => ?_, fun ⟨_, refused⟩ => refusedWallet refused⟩
  rcases decryptCases record passphrase with closed | ⟨text, decrypted⟩
  · have sealed : ¬ Opens record passphrase := by
      rintro ⟨text, decrypted⟩
      rw [closed] at decrypted
      cases decrypted
    rw [walletRefused name sealed] at refused
    cases refused
    exact ⟨_, .decryption sealed⟩
  simp only [Sealed.wallet, decrypted] at refused
  split at refused
  · rename_i cause unread
    cases refused
    rcases bindFault.mp unread with malformed | ⟨contents, opened, unread⟩
    · exact ⟨_, .document decrypted malformed⟩
    · obtain ⟨check, unread⟩ := WalletRecord.walletRefused.mp unread
      exact ⟨_, .content decrypted opened unread⟩
  · rename_i wallet read
    obtain ⟨contents, opened, read⟩ := bindOk.mp read
    have named := WalletRecord.walletNamed read
    split at refused <;> cases refused
    rename_i differs
    rw [named] at differs ⊢
    exact ⟨_, .name decrypted opened read differs⟩

/- Bytes that open to a document, if they open at all: such as the records that seal it. -/
def Holds (record : Bytes) (passphrase : String) (document : Bytes) : Prop :=
  ∀ text, decrypt record passphrase = .ok text → text = document

theorem encryptedHolds (document : Bytes) (passphrase : String) (nonce : Block 12) :
    Holds (encrypt document passphrase nonce) passphrase document := by
  intro text decrypted
  rw [decryptEncrypted] at decrypted
  cases decrypted
  rfl

theorem twinRefused {document other first second : Bytes} {contents twin : WalletRecord} {given : String}
    {check : SealCheck} {reason : StoreFault} (opened : WalletRecord.ofDocument document = .ok contents)
    (reopened : WalletRecord.ofDocument other = .ok twin) (alike : contents.Twin twin)
    (holds : Holds first passphrase document) (same : Holds second given other)
    (left : RefusedAt first name passphrase check fault) (right : RefusedAt second name given check reason) :
    fault = reason := by
  cases left with
  | decryption =>
    cases right with
    | decryption => rfl
  | document decrypted malformed =>
    cases holds _ decrypted
    rw [opened] at malformed
    cases malformed
  | content decrypted here refused =>
    cases right with
    | content redecrypted there again =>
      cases holds _ decrypted
      cases same _ redecrypted
      cases opened.symm.trans here
      cases reopened.symm.trans there
      rw [WalletRecord.twinRefused alike refused again]
  | name decrypted here =>
    cases right with
    | name redecrypted there =>
      cases holds _ decrypted
      cases same _ redecrypted
      cases opened.symm.trans here
      cases reopened.symm.trans there
      rw [alike.name]

end Sealed

class NamedStore (σ : Type) [WalletStore σ] : Prop where
  loadInvalid {store : σ} {name : String} (passphrase : String) (invalid : ¬ isWalletName name = true) :
    WalletStore.load store name passphrase = .error (.invalidName name)

instance : NamedStore MemoryStore where
  loadInvalid _ invalid := MemoryStore.loadInvalid invalid

instance : NamedStore Folder where
  loadInvalid passphrase invalid := by
    simp only [WalletStore.load, Folder.load, requireName, if_neg invalid]
    rfl

namespace Session
variable {σ τ : Type} [WalletStore σ] [WalletStore τ]

def loginFault (name : String) : StoreFault → SessionFault
  | .noSuchWallet _ => .noSuchWallet name
  | .cannotDecrypt => .noSuchWallet name
  | fault => .ofStore fault

theorem loginRefused {session : Session σ} {name passphrase : String} {fault : StoreFault}
    (refused : WalletStore.load session.store name passphrase = .error fault) :
    session.login name passphrase = (.error (loginFault name fault), session) := by
  cases fault <;> simp only [login, loadStored, refused, loginFault]

variable [RecordStore σ] [NamedStore σ] [RecordStore τ] [NamedStore τ]

theorem loginSealed {session : Session σ} {name passphrase : String} {record : Bytes} {fault : StoreFault}
    (stored : RecordStore.record? session.store name = some record)
    (refused : Sealed.wallet record name passphrase = .error fault) : session.login name passphrase =
      (.error (loginFault name (if isWalletName name then fault else .invalidName name)), session) := by
  apply loginRefused
  split
  · rename_i valid
    exact (RecordStore.loadRecord passphrase stored valid).trans refused
  · rename_i invalid
    exact NamedStore.loadInvalid passphrase invalid

/-- Refusals do not tell secrets. Take two documents whose records agree in all but the contents of the private keys,
which have the same lengths one by one, and of the node, which decodes to equally many bytes if it decodes in both.
Every refusal of such a document is made by one of the checks of its record; if the same check refuses both, both are
refused with one fault. So it is with bytes that open to these documents under some passphrases, if they open at all,
and with a login on two stores that have such bytes under one name. -/
theorem refusalsTellNoSecrets {document other : Bytes} {record twin : WalletRecord}
    (opened : WalletRecord.ofDocument document = .ok record) (reopened : WalletRecord.ofDocument other = .ok twin)
    (alike : record.Twin twin) :
    (∀ fault, Wallet.ofFullForm document = .error fault ↔ ∃ check, record.RefusedAt check fault) ∧
    (∀ fault, Wallet.ofFullForm other = .error fault ↔ ∃ check, twin.RefusedAt check fault) ∧
    (∀ check fault reason, record.RefusedAt check fault → twin.RefusedAt check reason → fault = reason) ∧
    ∀ (first second : Bytes) (passphrase given name : String), Sealed.Holds first passphrase document →
      Sealed.Holds second given other →
      (∀ fault, Sealed.wallet first name passphrase = .error fault ↔
        ∃ check, Sealed.RefusedAt first name passphrase check fault) ∧
      (∀ fault, Sealed.wallet second name given = .error fault ↔
        ∃ check, Sealed.RefusedAt second name given check fault) ∧
      ∀ check fault reason, Sealed.RefusedAt first name passphrase check fault →
        Sealed.RefusedAt second name given check reason → fault = reason ∧
        ∀ (session : Session σ) (twinned : Session τ),
          RecordStore.record? session.store name = some first →
          RecordStore.record? twinned.store name = some second →
          ∃ answer, session.login name passphrase = (.error answer, session) ∧
            twinned.login name given = (.error answer, twinned) := by
  rw [Wallet.ofFullFormOpened opened, Wallet.ofFullFormOpened reopened]
  refine ⟨fun _ => WalletRecord.walletRefused, fun _ => WalletRecord.walletRefused,
    fun _ _ _ => WalletRecord.twinRefused alike, fun first second passphrase given name holds same => ?_⟩
  refine ⟨fun _ => Sealed.walletRefusedAt, fun _ => Sealed.walletRefusedAt, fun check fault reason left right => ?_⟩
  have equal := Sealed.twinRefused opened reopened alike holds same left right
  subst equal
  exact ⟨rfl, fun session twinned stored found => ⟨_, loginSealed stored (Sealed.refusedWallet left),
    loginSealed found (Sealed.refusedWallet right)⟩⟩

def sampleGuarded (privateKey node : String) : WalletRecord :=
  ⟨2, "savings", some node, [⟨some 1, "ab", privateKey, [⟨"use", "rent"⟩], false, Algorithm.ed25519.descriptor⟩]⟩

def sampleZeros : WalletRecord := sampleGuarded "00" "AAAA"

def sampleOnes : WalletRecord := sampleGuarded "FF" "zzzz"

theorem sampleTwin : sampleZeros.Twin sampleOnes := by
  refine ⟨rfl, rfl, .present fun left right read reread => ?_, .cons ⟨rfl, rfl, rfl, rfl, rfl, Or.inl rfl⟩ .nil⟩
  have zeros : Base64.decode? "AAAA" = some [0, 0, 0] := by decide +kernel
  have others : Base64.decode? "zzzz" = some [0xCF, 0x3C, 0xF3] := by decide +kernel
  cases zeros.symm.trans read
  cases others.symm.trans reread
  rfl

theorem sampleGuardedRefused {privateKey : String} {b : UInt8} (read : PrivateKey.ofHex privateKey = .ok ⟨[b]⟩)
    (node : String) : (sampleGuarded privateKey node).RefusedAt (.key 0 .keyLength) (.crypto (.keyLength 1)) := by
  have written : PublicKey.ofHex "ab" = .ok ⟨[0xAB]⟩ := by decide +kernel
  exact .key rfl nofun (.keyLength rfl written read rfl)

def sampleNonce : Block 12 := ⟨List.replicate 12 9, rfl⟩

def sampleSafe (record : WalletRecord) (passphrase : String) : MemoryStore :=
  MemoryStore.empty.put "savings" (Sealed.encrypt record.json.compact passphrase sampleNonce)

theorem sampleSafeRecord (record : WalletRecord) (passphrase : String) :
    RecordStore.record? (sampleSafe record passphrase) "savings" =
      some (Sealed.encrypt record.json.compact passphrase sampleNonce) := by
  change (MemoryStore.empty.records.insert "savings" _)["savings"]? = _
  rw [TextMap.lookupInsert, if_pos rfl]

theorem sampleRefusedAlike : WalletRecord.ofDocument sampleZeros.json.compact = .ok sampleZeros ∧
    WalletRecord.ofDocument sampleOnes.json.compact = .ok sampleOnes ∧ sampleZeros.Twin sampleOnes ∧
    Wallet.ofFullForm sampleZeros.json.compact = .error (.crypto (.keyLength 1)) ∧
    Wallet.ofFullForm sampleOnes.json.compact = .error (.crypto (.keyLength 1)) ∧
    ∃ answer, (start (sampleSafe sampleZeros "open sesame")).login "savings" "open sesame" =
        (.error answer, start (sampleSafe sampleZeros "open sesame")) ∧
      (start (sampleSafe sampleOnes "let me in")).login "savings" "let me in" =
        (.error answer, start (sampleSafe sampleOnes "let me in")) := by
  have opened := WalletRecord.ofDocumentJson sampleZeros
  have reopened := WalletRecord.ofDocumentJson sampleOnes
  have zero : PrivateKey.ofHex "00" = .ok ⟨[0]⟩ := by decide +kernel
  have full : PrivateKey.ofHex "FF" = .ok ⟨[0xFF]⟩ := by decide +kernel
  have left := sampleGuardedRefused zero "AAAA"
  have right := sampleGuardedRefused full "zzzz"
  obtain ⟨refuses, again, _, sealing⟩ :=
    @refusalsTellNoSecrets MemoryStore MemoryStore _ _ _ _ _ _ _ _ _ _ opened reopened sampleTwin
  obtain ⟨_, _, logins⟩ := sealing _ _ _ _ "savings" (Sealed.encryptedHolds sampleZeros.json.compact "open sesame"
    sampleNonce) (Sealed.encryptedHolds sampleOnes.json.compact "let me in" sampleNonce)
  obtain ⟨_, alike⟩ := logins _ _ _ (.content (Sealed.decryptEncrypted _ _ _) opened left)
    (.content (Sealed.decryptEncrypted _ _ _) reopened right)
  exact ⟨opened, reopened, sampleTwin, (refuses _).mpr ⟨_, left⟩, (again _).mpr ⟨_, right⟩,
    alike (start _) (start _) (sampleSafeRecord _ _) (sampleSafeRecord _ _)⟩

end Session

end WalletVault
