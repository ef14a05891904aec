import WalletVault.Proofs.Cipher
import WalletVault.Proofs.Form.RoundTrip
import WalletVault.Store.Basic
import WalletVault.Store.Memory

/-! Sealed records open under the passphrase they were sealed with, and give back the wallet. What opens at all was
sealed: under a passphrase and a nonce a text has one record, and no other bytes open to it. -/
namespace WalletVault.Sealed

theorem decryptEncrypted (text : Bytes) (passphrase : String) (nonce : Block 12) :
    decrypt (encrypt text passphrase nonce) passphrase = .ok text := by
  have nonceLength : nonce.val.length = 12 := nonce.property
  have bodyLength : 16 ≤ (Gcm.encrypt (key passphrase) nonce.val text).length := by
    rw [Gcm.encrypt, List.length_append, Gcm.tagLength]
    omega
  have notShort : ¬ (encrypt text passphrase nonce).length < overhead := by
    rw [encrypt, List.length_append, nonceLength, overhead]
    omega
  have opened := Gcm.decryptEncrypted (Sha256.lengthDigest (Utf8.encode passphrase)) nonceLength text
  rw [decrypt, if_neg notShort, encrypt, List.take_left' nonceLength, List.drop_left' nonceLength, key, opened]

theorem walletOpened {wallet : Wallet} (settled : wallet.Settled) (passphrase : String) (nonce : Block 12) :
    Sealed.wallet (ofWallet wallet passphrase nonce) wallet.name passphrase = .ok wallet := by
  simp only [Sealed.wallet, ofWallet, decryptEncrypted, Wallet.settledReload settled, if_pos]

theorem walletSource {record : Bytes} {name passphrase : String} {wallet : Wallet}
    (opened : Sealed.wallet record name passphrase = .ok wallet) :
    ∃ text, decrypt record passphrase = .ok text ∧ Wallet.ofFullForm text = .ok wallet ∧ wallet.name = name := by
  unfold Sealed.wallet at opened
  split at opened
  · cases opened
  · rename_i text decrypted
    split at opened
    · cases opened
    · rename_i read
      split at opened <;> cases opened
      rename_i named
      exact ⟨text, decrypted, read, named⟩

theorem walletName {record : Bytes} {name passphrase : String} {wallet : Wallet}
    (opened : Sealed.wallet record name passphrase = .ok wallet) : wallet.name = name := by
  obtain ⟨_, _, _, named⟩ := walletSource opened
  exact named

theorem encryptLength (text : Bytes) (passphrase : String) (nonce : Block 12) :
    (encrypt text passphrase nonce).length = text.length + overhead := by
  have keyLength := Sha256.lengthDigest (Utf8.encode passphrase)
  rw [encrypt, List.length_append, nonce.property, key, Gcm.encryptLength keyLength nonce.property, overhead]
  omega

theorem encryptNonce (text : Bytes) (passphrase : String) (nonce : Block 12) :
    (encrypt text passphrase nonce).take 12 = nonce.val :=
  List.take_left' nonce.property

theorem decryptCases (record : Bytes) (passphrase : String) :
    decrypt record passphrase = .error .cannotDecrypt ∨ ∃ text, decrypt record passphrase = .ok text := by
  unfold decrypt
  split
  · exact Or.inl rfl
  · cases Gcm.decrypt? (key passphrase) (record.take 12) (record.drop 12) with
    | none => exact Or.inl rfl
    | some text => exact Or.inr ⟨text, rfl⟩

theorem decryptShort {record : Bytes} (short : record.length < overhead) (passphrase : String) :
    decrypt record passphrase = .error .cannotDecrypt := if_pos short

theorem decryptSource {record text : Bytes} {passphrase : String} (opened : decrypt record passphrase = .ok text) :
    ∃ nonce : Block 12, nonce.val = record.take 12 ∧ record = encrypt text passphrase nonce := by
  unfold decrypt at opened
  split at opened
  · cases opened
  · rename_i long
    rw [overhead] at long
    have nonceLength : (record.take 12).length = 12 := by
      rw [List.length_take]
      omega
    split at opened <;> cases opened
    rename_i body
    have sealing := Gcm.decryptSource (Sha256.lengthDigest (Utf8.encode passphrase)) nonceLength body
    refine ⟨⟨record.take 12, nonceLength⟩, rfl, ?_⟩
    rw [encrypt, key, ← sealing, List.take_append_drop]

theorem encryptTake (text : Bytes) (passphrase : String) (nonce : Block 12) (count : Nat) :
    (encrypt text passphrase nonce).take (count + 12) =
      nonce.val ++ (Gcm.encrypt (key passphrase) nonce.val text).take count := by
  have whole : nonce.val.length ≤ count + 12 := by rw [nonce.property]; omega
  rw [encrypt, List.take_append, List.take_of_length_le whole, nonce.property, Nat.add_sub_cancel]

theorem tagSettled {record text : Bytes} {passphrase : String} {nonce : Block 12}
    (length : record.length = (encrypt text passphrase nonce).length)
    (same : record.take (text.length + 12) = (encrypt text passphrase nonce).take (text.length + 12))
    (opens : ∃ other, decrypt record passphrase = .ok other) : record = encrypt text passphrase nonce := by
  obtain ⟨other, opened⟩ := opens
  obtain ⟨again, _, rfl⟩ := decryptSource opened
  rw [encryptLength, encryptLength] at length
  rw [encryptTake, encryptTake] at same
  obtain ⟨nonces, bodies⟩ := List.append_inj same (again.property.trans nonce.property.symm)
  cases Subtype.ext nonces
  have keyLength := Sha256.lengthDigest (Utf8.encode passphrase)
  rw [Gcm.ciphertextSettles keyLength nonce.property bodies (Nat.add_right_cancel length)]

def Opens (record : Bytes) (passphrase : String) : Prop := ∃ text, decrypt record passphrase = .ok text

def altered (text : Bytes) (passphrase : String) (nonce : Block 12) : Bytes :=
  let record := encrypt text passphrase nonce
  record.take (text.length + 12) ++ (record.drop (text.length + 12)).map (· + 1)

section Altered
variable (text : Bytes) (passphrase : String) (nonce : Block 12)

theorem headLength : ((encrypt text passphrase nonce).take (text.length + 12)).length = text.length + 12 := by
  rw [List.length_take, encryptLength, overhead]
  omega

theorem alteredLength : (altered text passphrase nonce).length = (encrypt text passphrase nonce).length := by
  rw [altered, List.length_append, List.length_map, ← List.length_append, List.take_append_drop]

theorem alteredHead : (altered text passphrase nonce).take (text.length + 12) =
    (encrypt text passphrase nonce).take (text.length + 12) :=
  List.take_left' (headLength text passphrase nonce)

theorem alteredDiffers : altered text passphrase nonce ≠ encrypt text passphrase nonce := by
  intro equal
  have tags := congrArg (List.drop (text.length + 12)) equal
  rw [altered, List.drop_left' (headLength text passphrase nonce)] at tags
  have tagSize : ((encrypt text passphrase nonce).drop (text.length + 12)).length = 16 := by
    rw [List.length_drop, encryptLength, overhead]
    omega
  cases tag : (encrypt text passphrase nonce).drop (text.length + 12) with
  | nil =>
    rw [tag] at tagSize
    cases tagSize
  | cons b rest =>
    rw [tag, List.map_cons] at tags
    have increased : b + 1 = b := (List.cons.inj tags).1
    simp at increased

theorem alteredCloses : ¬ Opens (altered text passphrase nonce) passphrase := fun opens =>
  alteredDiffers text passphrase nonce
    (tagSettled (alteredLength text passphrase nonce) (alteredHead text passphrase nonce) opens)

end Altered

/-- Sealing and opening are inverse to each other. A record is 28 bytes longer than its text, begins with its
nonce and opens to its text. Bytes that open are the record of what they open to under the nonce that they
begin with, and bytes that do not open are refused with one fault. So no bytes shorter than 28 open, no record
with another tag opens, and under one nonce a text has one record. -/
theorem recordsCanonical (passphrase : String) :
    (∀ (text : Bytes) (nonce : Block 12),
      (encrypt text passphrase nonce).length = text.length + 28 ∧
      (encrypt text passphrase nonce).take 12 = nonce.val ∧
      decrypt (encrypt text passphrase nonce) passphrase = .ok text) ∧
    (∀ record, decrypt record passphrase = .error .cannotDecrypt ∨
      ∃ (text : Bytes) (nonce : Block 12), decrypt record passphrase = .ok text ∧
        record.length = text.length + 28 ∧ nonce.val = record.take 12 ∧
        record = encrypt text passphrase nonce) ∧
    (∀ record : Bytes, record.length < 28 → decrypt record passphrase = .error .cannotDecrypt) ∧
    (∀ (text : Bytes) (nonce : Block 12) (forged : Bytes),
      forged.length = (encrypt text passphrase nonce).length →
      forged.take (text.length + 12) = (encrypt text passphrase nonce).take (text.length + 12) →
      forged ≠ encrypt text passphrase nonce → decrypt forged passphrase = .error .cannotDecrypt) ∧
    ∀ first second text : Bytes, decrypt first passphrase = .ok text → decrypt second passphrase = .ok text →
      first.take 12 = second.take 12 → first = second := by
  refine ⟨fun text nonce => ?_, fun record => ?_, fun record short => decryptShort short passphrase, ?_, ?_⟩
  · exact ⟨encryptLength text passphrase nonce, encryptNonce text passphrase nonce,
      decryptEncrypted text passphrase nonce⟩
  · rcases decryptCases record passphrase with refused | ⟨text, opened⟩
    · exact Or.inl refused
    · obtain ⟨nonce, first, sealing⟩ := decryptSource opened
      have length : record.length = text.length + 28 := by
        rw [sealing]
        exact encryptLength text passphrase nonce
      exact Or.inr ⟨text, nonce, opened, length, first, sealing⟩
  · intro text nonce forged length same differs
    exact (decryptCases forged passphrase).resolve_right fun opens => differs (tagSettled length same opens)
  · intro first second text left right same
    obtain ⟨nonce, starts, rfl⟩ := decryptSource left
    obtain ⟨again, startsAgain, rfl⟩ := decryptSource right
    rw [Subtype.ext (starts.trans (same.trans startsAgain.symm))]

def sampleSealed : Bytes := encrypt [1, 2, 3] "open sesame" ⟨List.replicate 12 7, rfl⟩

def sampleForged : Bytes := altered [1, 2, 3] "open sesame" ⟨List.replicate 12 7, rfl⟩

theorem sampleForgedRefused : decrypt [1, 2, 3] "open sesame" = .error .cannotDecrypt ∧
    sampleForged.length = sampleSealed.length ∧ sampleForged.take 15 = sampleSealed.take 15 ∧
    sampleForged ≠ sampleSealed ∧ decrypt sampleForged "open sesame" = .error .cannotDecrypt ∧
    ∀ record, decrypt record "open sesame" = .ok [1, 2, 3] → record.take 12 = List.replicate 12 7 →
      record = sampleSealed := by
  obtain ⟨opens, _, short, forged, unique⟩ := recordsCanonical "open sesame"
  obtain ⟨_, nonce, opened⟩ := opens [1, 2, 3] ⟨List.replicate 12 7, rfl⟩
  have length : sampleForged.length = sampleSealed.length := alteredLength _ _ _
  have same : sampleForged.take 15 = sampleSealed.take 15 := alteredHead [1, 2, 3] _ _
  have differs : sampleForged ≠ sampleSealed := alteredDiffers _ _ _
  refine ⟨short [1, 2, 3] (by decide), length, same, differs, forged _ _ sampleForged length same differs, ?_⟩
  exact fun record right starts => unique record sampleSealed [1, 2, 3] right opened (starts.trans nonce.symm)

theorem walletRefused {record : Bytes} {passphrase : String} (name : String)
    (closed : ¬ Opens record passphrase) : Sealed.wallet record name passphrase = .error .cannotDecrypt := by
  have refused := (decryptCases record passphrase).resolve_right closed
  simp only [Sealed.wallet, refused]

theorem reopened {wallet next : Wallet} {name sealing given : String} {nonce : Block 12} (settled : wallet.Settled)
    (guarded : given ≠ sealing → ¬ Opens (ofWallet wallet sealing nonce) given)
    (opened : Sealed.wallet (ofWallet wallet sealing nonce) name given = .ok next) :
    given = sealing ∧ next = wallet := by
  by_cases right : given = sealing
  · subst right
    simp only [Sealed.wallet, ofWallet, decryptEncrypted, Wallet.settledReload settled] at opened
    split at opened <;> cases opened
    exact ⟨rfl, rfl⟩
  · rw [walletRefused name (guarded right)] at opened
    cases opened

end WalletVault.Sealed

namespace WalletVault.MemoryStore

/-! A store in memory keeps one record for every name, and refuses a name that no wallet may have. -/

variable {store : MemoryStore} {name passphrase : String}

theorem loadInvalid (invalid : ¬ isWalletName name = true) :
    store.load name passphrase = .error (.invalidName name) := by
  simp only [load, requireName, if_neg invalid]
  rfl

theorem loadAbsent (valid : isWalletName name = true) (absent : store.record? name = none) :
    store.load name passphrase = .error (.noSuchWallet name) := by
  simp only [load, requireName, valid, absent]
  rfl

theorem loadStored {record : Bytes} (valid : isWalletName name = true) (stored : store.record? name = some record) :
    store.load name passphrase = Sealed.wallet record name passphrase := by
  simp only [load, requireName, valid, stored]
  rfl

theorem containsInvalid (invalid : ¬ isWalletName name = true) :
    store.contains name = .error (.invalidName name) := by
  simp only [contains, requireName, if_neg invalid]
  rfl

theorem containsValid (valid : isWalletName name = true) :
    store.contains name = .ok (store.record? name).isSome := by
  simp only [contains, requireName, if_pos valid]
  rfl

theorem saveValid {wallet : Wallet} (valid : isWalletName wallet.name = true) (passphrase : String)
    (nonce : Block 12) : store.save wallet passphrase nonce =
      (.ok (), ⟨store.records.insert wallet.name (Sealed.ofWallet wallet passphrase nonce), store.saves + 1⟩) := by
  simp only [save, requireName, valid]
  rfl

theorem saveInvalid {wallet : Wallet} (invalid : ¬ isWalletName wallet.name = true) (passphrase : String)
    (nonce : Block 12) : store.save wallet passphrase nonce = (.error (.invalidName wallet.name), store) := by
  simp only [save, requireName, if_neg invalid]

end WalletVault.MemoryStore
