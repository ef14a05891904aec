import WalletVault.Proofs.Files
import WalletVault.Proofs.Store.Record
import WalletVault.Store.Folder

/-! Stores whose records last. A save of one wallet replaces its own record and leaves the records of others. The
store of a root among all files keeps to this too, though only for records that it has: where the folder of the
wallets is not there yet, a save makes it, and what is in it then is not said. -/
namespace WalletVault
open Fallible

class LastingStore (σ : Type) [WalletStore σ] where
  record? : σ → String → Option Bytes
  loadRecord {store : σ} {name : String} {record : Bytes} (passphrase : String)
    (stored : record? store name = some record) (valid : isWalletName name = true) :
    WalletStore.load store name passphrase = Sealed.wallet record name passphrase
  loadSource {store : σ} {name passphrase : String} {wallet : Wallet}
    (loaded : WalletStore.load store name passphrase = .ok wallet) :
    ∃ record, isWalletName name = true ∧ record? store name = some record ∧
      Sealed.wallet record name passphrase = .ok wallet
  containsSource {store : σ} {name : String} {found : Bool}
    (answer : WalletStore.contains store name = .ok found) :
    isWalletName name = true ∧ found = (record? store name).isSome
  replaced {store next : σ} {wallet : Wallet} {passphrase : String} {nonce : Block 12} {record : Bytes}
    (done : WalletStore.save store wallet passphrase nonce = (.ok (), next))
    (stored : record? store wallet.name = some record) :
    record? next wallet.name = some (Sealed.ofWallet wallet passphrase nonce)
  lasts {store next : σ} {wallet : Wallet} {passphrase : String} {nonce : Block 12} {result : Except StoreFault Unit}
    {name : String} {record : Bytes} (done : WalletStore.save store wallet passphrase nonce = (result, next))
    (stored : record? store name = some record) (apart : wallet.name = name → ∃ fault, result = .error fault) :
    record? next name = some record

instance {σ : Type} [WalletStore σ] [RecordStore σ] : LastingStore σ where
  record? := RecordStore.record?
  loadRecord := RecordStore.loadRecord
  loadSource := RecordStore.loadSource
  containsSource := RecordStore.containsSource
  replaced done _ := ((RecordStore.saved done).2 _).trans (if_pos rfl)
  lasts {store next wallet passphrase nonce result name record} done stored apart := by
    cases result with
    | error fault => exact (RecordStore.unsaved done name).trans stored
    | ok =>
      have differs : wallet.name ≠ name := fun same => by
        obtain ⟨_, failed⟩ := apart same
        cases failed
      exact ((RecordStore.saved done).2 name).trans ((if_neg differs).trans stored)

namespace Folder
variable {before : Entries} {folder next : Folder}

def Stands (before : Entries) (folder : Folder) : Prop :=
  ∃ entries, folder = .present entries ∧ ∀ name : Bytes, before[name]? = some .other → entries[name]? = some .other

theorem stands (entries : Entries) : Stands entries (.present entries) := ⟨entries, rfl, fun _ stood => stood⟩

end Folder

namespace FolderStep
open Folder
variable {before entries after : Entries} {folder next : Folder} {name other : Bytes}

theorem fileApart {contents : Bytes} (file : requireFile entries name = .ok contents)
    (stood : entries[other]? = some .other) : name ≠ other := by
  rintro rfl
  cases (requireFileOk.mp file).symm.trans stood

theorem placeApart (place : requirePlace entries name = .ok ()) (stood : entries[other]? = some .other) :
    name ≠ other := by
  rintro rfl
  exact (requirePlaceOk.mp place).2 stood

theorem insideKeeps {step : FolderStep} (ran : runInside entries step = .ok after)
    (stood : entries[other]? = some .other) : after[other]? = some .other := by
  cases step with
  | makeFolder =>
    cases ran
    exact stood
  | truncate name =>
    obtain ⟨_, place, rfl⟩ := mapOk.mp ran
    simpa [Std.ExtTreeMap.getElem?_insert, placeApart place stood] using stood
  | append name piece =>
    obtain ⟨_, file, rfl⟩ := mapOk.mp ran
    simpa [Std.ExtTreeMap.getElem?_insert, fileApart file stood] using stood
  | flush name =>
    obtain ⟨_, _, rfl⟩ := mapOk.mp ran
    exact stood
  | rename source target =>
    obtain ⟨_, file, ran⟩ := bindOk.mp ran
    obtain ⟨_, place, ran⟩ := bindOk.mp ran
    cases pureOk.mp ran
    simpa [Std.ExtTreeMap.getElem?_insert, Std.ExtTreeMap.getElem?_erase, fileApart file stood,
      placeApart place stood] using stood
  | remove name =>
    obtain ⟨_, file, rfl⟩ := mapOk.mp ran
    simpa [Std.ExtTreeMap.getElem?_erase, fileApart file stood] using stood

theorem runStands {step : FolderStep} (stands : Stands before folder) (ran : step.run folder = .ok next) :
    Stands before next := by
  obtain ⟨entries, rfl, stood⟩ := stands
  obtain ⟨after, inside, rfl⟩ := mapOk.mp ran
  exact ⟨after, rfl, fun name folder => insideKeeps inside (stood name folder)⟩

theorem runAllStands (steps : List FolderStep) (stands : Stands before folder) :
    Stands before (runAll steps folder).2 := by
  induction steps generalizing folder with
  | nil => exact stands
  | cons step steps ih =>
    rw [runAll]
    cases ran : step.run folder with
    | error fault => exact stands
    | ok next => exact ih (runStands stands ran)

end FolderStep

namespace Folder
variable {before : Entries} {folder : Folder}

theorem discardStands (stands : Stands before folder) (name : Bytes) : Stands before (folder.discard name) := by
  unfold discard
  cases ran : (FolderStep.remove name).run folder with
  | error fault => exact stands
  | ok next => exact FolderStep.runStands stands ran

theorem putStands (stands : Stands before folder) (name record : Bytes) : Stands before (folder.put name record).2 := by
  unfold put
  split
  · exact stands
  · rename_i made run
    have steps := FolderStep.runAllStands (saveSteps name [record]) (FolderStep.runStands stands run)
    split
    · rename_i ran
      rwa [ran] at steps
    · rename_i ran
      rw [ran] at steps
      exact discardStands steps _

theorem saveStands (entries : Entries) (wallet : Wallet) (passphrase : String) (nonce : Block 12) :
    Stands entries ((present entries).save wallet passphrase nonce).2 := by
  unfold save
  split
  · exact stands entries
  · exact putStands (stands entries) _ _

end Folder

namespace RootedStore
variable {store next : RootedStore} {name passphrase : String} {wallet : Wallet} {nonce : Block 12} {place : Place}

theorem folderStanding (leads : store.tree.folderAt store.path = .ok place) :
    store.folder = .present (store.tree.entriesIn place) := by
  simp only [folder, leads]

theorem folderPlace {entries : Entries} (stands : store.folder = .present entries) :
    ∃ place, store.tree.folderAt store.path = .ok place := by
  unfold folder at stands
  split at stands
  · rename_i place leads
    exact ⟨place, leads⟩
  · cases stands
  · split at stands <;> cases stands

theorem saveStanding (leads : store.tree.folderAt store.path = .ok place) (wallet : Wallet) (passphrase : String)
    (nonce : Block 12) : (∃ fault, store.save wallet passphrase nonce = (.error fault, store)) ∨
      ∃ next, store.save wallet passphrase nonce = ((store.folder.save wallet passphrase nonce).1, next) ∧
        next.root = store.root ∧ next.folder = (store.folder.save wallet passphrase nonce).2 := by
  unfold save
  split
  · exact .inl ⟨_, rfl⟩
  · simp only [FileTree.makeStanding leads]
    split
    · exact .inl ⟨_, rfl⟩
    · right
      have stands := Folder.saveStands (store.tree.entriesIn place) wallet passphrase nonce
      simp only [inside, leads, folderStanding leads]
      cases saved : Folder.save (.present (store.tree.entriesIn place)) wallet passphrase nonce with
      | mk result folder =>
        rw [saved] at stands
        obtain ⟨entries, rfl, kept⟩ := stands
        refine ⟨_, rfl, rfl, ?_⟩
        have still := FileTree.folderAtKept (FileTree.withEntriesKeeps kept) leads
        refine (folderStanding still).trans ?_
        simp only [Folder.entries?, Option.getD_some, FileTree.entriesWith kept]

def record? (store : RootedStore) (name : String) : Option Bytes :=
  if (store.requirePath (Utf8.encode name)).isOk then store.folder.record? name else none

theorem recordOk {record : Bytes} : store.record? name = some record ↔
    store.requirePath (Utf8.encode name) = .ok () ∧ store.folder.record? name = some record := by
  unfold record?
  cases store.requirePath (Utf8.encode name) with
  | error fault => simp [Except.isOk, Except.toBool]
  | ok => simp [Except.isOk, Except.toBool]

theorem recordPlace {record : Bytes} (stored : store.record? name = some record) :
    ∃ place, store.tree.folderAt store.path = .ok place := by
  obtain ⟨_, read⟩ := recordOk.mp stored
  obtain ⟨_, read⟩ := Folder.recordOk.mp read
  cases folder : store.folder with
  | present entries => exact folderPlace folder
  | absent =>
    rw [folder] at read
    cases read
  | blocked reading making =>
    rw [folder] at read
    cases read

theorem requirePathSame (same : next.root = store.root) (name : Bytes) :
    next.requirePath name = store.requirePath name := by
  simp only [requirePath, path, same]

instance : LastingStore RootedStore where
  record? := record?
  loadRecord {store name record} passphrase stored valid := by
    obtain ⟨named, inside⟩ := recordOk.mp stored
    have loads := Folder.loadStored passphrase inside
    change store.load name passphrase = _
    simp only [load, requireNameOk.mpr valid, named, ← loads]
    rfl
  loadSource {store name passphrase wallet} loaded := by
    obtain ⟨_, _, loaded⟩ := bindOk.mp loaded
    obtain ⟨_, named, loaded⟩ := bindOk.mp loaded
    obtain ⟨record, valid, stored, opened⟩ := Folder.loadOk loaded
    exact ⟨record, valid, recordOk.mpr ⟨mapErrorOk.mp named, stored⟩, opened⟩
  containsSource {store name found} answer := by
    obtain ⟨inside, answered, answer⟩ := bindOk.mp answer
    obtain ⟨valid, rfl⟩ := Folder.containsOk answered
    refine ⟨valid, (pureOk.mp answer).symm.trans ?_⟩
    unfold record?
    split
    · rename_i reached
      rw [reached, Bool.and_true]
    · rename_i unreached
      rw [Bool.eq_false_iff.mpr unreached, Bool.and_false]
      rfl
  replaced {store next wallet passphrase nonce record} done stored := by
    obtain ⟨place, leads⟩ := recordPlace stored
    obtain ⟨named, _⟩ := recordOk.mp stored
    rcases saveStanding leads wallet passphrase nonce with ⟨fault, refused⟩ | ⟨left, saved, root, folder⟩
    · cases refused.symm.trans done
    · obtain ⟨result, rfl⟩ := Prod.mk.inj (saved.symm.trans done)
      refine recordOk.mpr ⟨(requirePathSame root _).trans named, ?_⟩
      rw [folder]
      exact (Folder.savedRecord (Prod.ext result rfl) wallet.name).trans (if_pos rfl)
  lasts {store next wallet passphrase nonce result name record} done stored apart := by
    obtain ⟨place, leads⟩ := recordPlace stored
    obtain ⟨named, inside⟩ := recordOk.mp stored
    rcases saveStanding leads wallet passphrase nonce with ⟨fault, refused⟩ | ⟨left, saved, root, folder⟩
    · cases refused.symm.trans done
      exact stored
    · obtain ⟨answered, rfl⟩ := Prod.mk.inj (saved.symm.trans done)
      refine recordOk.mpr ⟨(requirePathSame root _).trans named, ?_⟩
      rw [folder]
      exact LastingStore.lasts (Prod.ext answered rfl) inside apart

end RootedStore

end WalletVault
