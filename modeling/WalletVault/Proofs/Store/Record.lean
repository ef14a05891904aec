import WalletVault.Proofs.Store.Crash
import WalletVault.Proofs.Store.Sealed

/-! Stores as what they record: one sealed record for every name. The store in memory and the store in a
folder obey the same laws, so that what is said of sessions over one of them is said of both. -/
namespace WalletVault
open Fallible

theorem requireNameOk {name : String} : requireName name = .ok () ↔ isWalletName name = true := by
  unfold requireName
  split
  · rename_i valid
    simp [valid]
  · rename_i invalid
    simp [invalid]

/- A store in which the record under each name is all that counts. A save that fails leaves every record. -/
class RecordStore (σ : Type) [WalletStore σ] where
  record? : σ → String → Option Bytes
  loadRecord {store : σ} {name : String} {record : Bytes} (passphrase : String)
    (stored : record? store name = some record) (valid : isWalletName name = true) :
    WalletStore.load store name passphrase = Sealed.wallet record name passphrase
  loadSource {store : σ} {name passphrase : String} {wallet : Wallet}
    (loaded : WalletStore.load store name passphrase = .ok wallet) :
    ∃ record, isWalletName name = true ∧ record? store name = some record ∧
      Sealed.wallet record name passphrase = .ok wallet
  containsSource {store : σ} {name : String} {found : Bool}
    (answer : WalletStore.contains store name = .ok found) :
    isWalletName name = true ∧ found = (record? store name).isSome
  saved {store next : σ} {wallet : Wallet} {passphrase : String} {nonce : Block 12}
    (done : WalletStore.save store wallet passphrase nonce = (.ok (), next)) :
    isWalletName wallet.name = true ∧ ∀ name, record? next name =
      if wallet.name = name then some (Sealed.ofWallet wallet passphrase nonce) else record? store name
  unsaved {store next : σ} {wallet : Wallet} {passphrase : String} {nonce : Block 12} {fault : StoreFault}
    (failed : WalletStore.save store wallet passphrase nonce = (.error fault, next)) :
    ∀ name, record? next name = record? store name

namespace MemoryStore

theorem saveCases (store : MemoryStore) (wallet : Wallet) (passphrase : String) (nonce : Block 12) :
    (∃ fault, store.save wallet passphrase nonce = (.error fault, store)) ∨
    (isWalletName wallet.name = true ∧ store.save wallet passphrase nonce =
      (.ok (), ⟨store.records.insert wallet.name (Sealed.ofWallet wallet passphrase nonce), store.saves + 1⟩)) := by
  by_cases valid : isWalletName wallet.name = true
  · exact Or.inr ⟨valid, saveValid valid passphrase nonce⟩
  · exact Or.inl ⟨.invalidName wallet.name, saveInvalid valid passphrase nonce⟩

instance : RecordStore MemoryStore where
  record? := record?
  loadRecord passphrase stored valid := loadStored valid stored
  loadSource {store name passphrase wallet} loaded := by
    change store.load name passphrase = _ at loaded
    by_cases valid : isWalletName name = true
    · cases stored : store.record? name with
      | none => rw [loadAbsent valid stored] at loaded; cases loaded
      | some record => exact ⟨record, valid, rfl, (loadStored valid stored).symm.trans loaded⟩
    · rw [loadInvalid valid] at loaded
      cases loaded
  containsSource {store name found} answer := by
    change store.contains name = _ at answer
    by_cases valid : isWalletName name = true
    · rw [containsValid valid] at answer
      exact ⟨valid, (Except.ok.inj answer).symm⟩
    · rw [containsInvalid valid] at answer
      cases answer
  saved {store next wallet passphrase nonce} done := by
    change store.save wallet passphrase nonce = _ at done
    rcases saveCases store wallet passphrase nonce with ⟨fault, failed⟩ | ⟨valid, kept⟩
    · rw [failed] at done
      cases done
    · rw [kept] at done
      cases done
      exact ⟨valid, fun name => TextMap.lookupInsert _ _ _ _⟩
  unsaved {store next wallet passphrase nonce fault} failed := by
    change store.save wallet passphrase nonce = _ at failed
    rcases saveCases store wallet passphrase nonce with ⟨reason, left⟩ | ⟨valid, kept⟩
    · rw [left] at failed
      cases failed
      exact fun _ => rfl
    · rw [kept] at failed
      cases failed

end MemoryStore

namespace Folder

def record? (folder : Folder) (name : String) : Option Bytes :=
  if isWalletName name then (folder.read (Utf8.encode name)).toOption else none

theorem recordOk {folder : Folder} {name : String} {record : Bytes} :
    folder.record? name = some record ↔
      isWalletName name = true ∧ folder.read (Utf8.encode name) = .ok record := by
  unfold record?
  split
  · rename_i valid
    cases folder.read (Utf8.encode name) with
    | error fault => simp [Except.toOption]
    | ok contents => simp [Except.toOption, valid]
  · rename_i invalid
    simp [invalid]

theorem recordSame {before after : Folder} {name : String}
    (same : isWalletName name = true →
      after.under? (Utf8.encode name) = before.under? (Utf8.encode name)) :
    after.record? name = before.record? name := by
  refine Option.ext fun record => ?_
  rw [recordOk, recordOk, readOk, readOk]
  exact and_congr_right fun valid => by rw [same valid]

theorem loadStored {folder : Folder} {name : String} {record : Bytes} (passphrase : String)
    (stored : folder.record? name = some record) :
    folder.load name passphrase = Sealed.wallet record name passphrase := by
  obtain ⟨valid, read⟩ := recordOk.mp stored
  simp only [load, requireName, valid, read]
  rfl

theorem loadOk {folder : Folder} {name passphrase : String} {wallet : Wallet}
    (loaded : folder.load name passphrase = .ok wallet) :
    ∃ record, isWalletName name = true ∧ folder.record? name = some record ∧
      Sealed.wallet record name passphrase = .ok wallet := by
  obtain ⟨_, named, loaded⟩ := bindOk.mp loaded
  have valid := requireNameOk.mp named
  split at loaded
  · cases loaded
  · cases loaded
  · rename_i record read
    exact ⟨record, valid, recordOk.mpr ⟨valid, read⟩, loaded⟩

theorem saveName {folder next : Folder} {wallet : Wallet} {passphrase : String} {nonce : Block 12}
    (done : folder.save wallet passphrase nonce = (.ok (), next)) : isWalletName wallet.name = true := by
  unfold save at done
  split at done
  · cases done
  · rename_i named
    exact requireNameOk.mp named

theorem savedRecord {folder next : Folder} {wallet : Wallet} {passphrase : String} {nonce : Block 12}
    (done : folder.save wallet passphrase nonce = (.ok (), next)) (name : String) : next.record? name =
      if wallet.name = name then some (Sealed.ofWallet wallet passphrase nonce) else folder.record? name := by
  have valid := saveName done
  rw [saveValid folder valid, Prod.mk.injEq, mapErrorOk] at done
  obtain ⟨accepted, left⟩ := done
  have reaches := Saving.putReaches folder (Utf8.encode wallet.name) (Sealed.ofWallet wallet passphrase nonce)
  rw [accepted, left] at reaches
  split
  · rename_i same
    subst same
    cases (Saving.reachesStage reaches).1 with
    | accepted saved short =>
      rw [List.flatten_singleton] at saved
      exact recordOk.mpr ⟨valid, readOk.mpr ⟨short, saved⟩⟩
  · rename_i differs
    exact recordSame fun other => (Saving.reachesConsistent valid reaches).others name other (Ne.symm differs)

theorem unsavedRecord {folder next : Folder} {wallet : Wallet} {passphrase : String} {nonce : Block 12}
    {fault : StoreFault} (failed : folder.save wallet passphrase nonce = (.error fault, next)) (name : String) :
    next.record? name = folder.record? name := by
  by_cases valid : isWalletName wallet.name = true
  · rw [saveValid folder valid, Prod.mk.injEq] at failed
    obtain ⟨refused, left⟩ := failed
    have reaches := Saving.putReaches folder (Utf8.encode wallet.name) (Sealed.ofWallet wallet passphrase nonce)
    cases result : (folder.put (Utf8.encode wallet.name) (Sealed.ofWallet wallet passphrase nonce)).1 with
    | ok =>
      rw [result] at refused
      cases refused
    | error reason =>
      rw [result, left] at reaches
      have consistent := Saving.reachesConsistent valid reaches
      refine recordSame fun other => ?_
      by_cases same : name = wallet.name
      · rw [same]
        exact consistent.refused reason rfl
      · exact consistent.others name other same
  · simp only [save, requireName, if_neg valid, Prod.mk.injEq] at failed
    rw [failed.2]

theorem containsOk {folder : Folder} {name : String} {found : Bool}
    (answer : folder.contains name = .ok found) :
    isWalletName name = true ∧ found = (folder.record? name).isSome := by
  obtain ⟨_, named, answer⟩ := bindOk.mp answer
  have valid := requireNameOk.mp named
  refine ⟨valid, ?_⟩
  rw [← pureOk.mp answer, record?, if_pos valid]
  cases folder.read (Utf8.encode name) with
  | error fault => rfl
  | ok contents => rfl

instance : RecordStore Folder where
  record? := record?
  loadRecord passphrase stored _ := loadStored passphrase stored
  loadSource := loadOk
  containsSource := containsOk
  saved done := ⟨saveName done, savedRecord done⟩
  unsaved failed := unsavedRecord failed

end Folder

end WalletVault
