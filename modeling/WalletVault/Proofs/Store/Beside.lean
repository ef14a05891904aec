import WalletVault.Proofs.Store.Record

/-! Stores that differ in the record of one name only. What is read and saved under other names does not tell
them apart, so that a store without the record can be set against one with a record that nobody can open. -/
namespace WalletVault
open Fallible

/- Stores compared beside one name: nothing stands under it, or whatever stands there is all that differs. -/
class BesideStore (σ : Type) [WalletStore σ] where
  lacks : σ → String → Prop
  beside : String → σ → σ → Prop
  loadLacking {store : σ} {name : String} (passphrase : String) (lacking : lacks store name)
    (valid : isWalletName name = true) : WalletStore.load store name passphrase = .error (.noSuchWallet name)
  loadBeside {first second : σ} {name other : String} (passphrase : String) (same : beside name first second)
    (differs : other ≠ name) : WalletStore.load first other passphrase = WalletStore.load second other passphrase
  saveBeside {first second : σ} {name : String} {wallet : Wallet} (passphrase : String) (nonce : Block 12)
    (same : beside name first second) (valid : isWalletName name = true) (differs : wallet.name ≠ name) :
    (WalletStore.save first wallet passphrase nonce).1 = (WalletStore.save second wallet passphrase nonce).1

namespace MemoryStore

instance : BesideStore MemoryStore where
  lacks store name := store.record? name = none
  beside name first second := ∀ other, other ≠ name → first.record? other = second.record? other
  loadLacking passphrase lacking valid := loadAbsent valid lacking
  loadBeside passphrase same differs := by simp only [WalletStore.load, load, same _ differs]
  saveBeside {first second name wallet} passphrase nonce same valid differs := by
    simp only [WalletStore.save, save]
    cases requireName wallet.name <;> rfl

end MemoryStore

/-! Folders. A save under another name never looks at the file of the name. -/

def FolderStep.files : FolderStep → List Bytes
  | makeFolder => []
  | truncate name | append name _ | flush name | remove name => [name]
  | rename source target => [source, target]

def BesideEntries (file : Bytes) (first second : Entries) : Prop :=
  ∀ other, other ≠ file → first[other]? = second[other]?

namespace BesideEntries
variable {file name : Bytes} {first second : Entries}

theorem insert (same : BesideEntries file first second) (name : Bytes) (entry : Entry) :
    BesideEntries file (first.insert name entry) (second.insert name entry) := by
  intro other differs
  simp only [Std.ExtTreeMap.getElem?_insert, same other differs]

theorem erase (same : BesideEntries file first second) (name : Bytes) :
    BesideEntries file (first.erase name) (second.erase name) := by
  intro other differs
  simp only [Std.ExtTreeMap.getElem?_erase, same other differs]

theorem required (same : BesideEntries file first second) (differs : name ≠ file) :
    FolderStep.requireFile first name = FolderStep.requireFile second name := by
  simp only [FolderStep.requireFile, same name differs]

theorem placed (same : BesideEntries file first second) (differs : name ≠ file) :
    FolderStep.requirePlace first name = FolderStep.requirePlace second name := by
  simp only [FolderStep.requirePlace, same name differs]

theorem step (same : BesideEntries file first second) {step : FolderStep}
    (apart : ∀ name ∈ step.files, name ≠ file) :
    (∃ fault, FolderStep.runInside first step = .error fault ∧ FolderStep.runInside second step = .error fault) ∨
    ∃ left right, FolderStep.runInside first step = .ok left ∧ FolderStep.runInside second step = .ok right ∧
      BesideEntries file left right := by
  cases step with
  | makeFolder => exact Or.inr ⟨first, second, rfl, rfl, same⟩
  | truncate name =>
    have differs : name ≠ file := apart name List.mem_cons_self
    simp only [FolderStep.runInside, placed same differs]
    cases FolderStep.requirePlace second name with
    | error fault => exact Or.inl ⟨fault, rfl, rfl⟩
    | ok => exact Or.inr ⟨_, _, rfl, rfl, same.insert name _⟩
  | append name piece =>
    have differs : name ≠ file := apart name List.mem_cons_self
    simp only [FolderStep.runInside, required same differs]
    cases FolderStep.requireFile second name with
    | error fault => exact Or.inl ⟨fault, rfl, rfl⟩
    | ok contents => exact Or.inr ⟨_, _, rfl, rfl, same.insert name _⟩
  | flush name =>
    have differs : name ≠ file := apart name List.mem_cons_self
    simp only [FolderStep.runInside, required same differs]
    cases FolderStep.requireFile second name with
    | error fault => exact Or.inl ⟨fault, rfl, rfl⟩
    | ok contents => exact Or.inr ⟨_, _, rfl, rfl, same⟩
  | remove name =>
    have differs : name ≠ file := apart name List.mem_cons_self
    simp only [FolderStep.runInside, required same differs]
    cases FolderStep.requireFile second name with
    | error fault => exact Or.inl ⟨fault, rfl, rfl⟩
    | ok contents => exact Or.inr ⟨_, _, rfl, rfl, same.erase name⟩
  | rename source target =>
    have away : source ≠ file := apart source List.mem_cons_self
    have differs : target ≠ file := apart target (List.mem_cons_of_mem _ List.mem_cons_self)
    simp only [FolderStep.runInside, required same away, placed same differs]
    cases FolderStep.requireFile second source with
    | error fault => exact Or.inl ⟨fault, rfl, rfl⟩
    | ok contents =>
      cases FolderStep.requirePlace second target with
      | error fault => exact Or.inl ⟨fault, rfl, rfl⟩
      | ok => exact Or.inr ⟨_, _, rfl, rfl, (same.erase source).insert target _⟩

theorem steps (same : BesideEntries file first second) {steps : List FolderStep}
    (apart : ∀ step ∈ steps, ∀ name ∈ step.files, name ≠ file) :
    (FolderStep.runAll steps (.present first)).1 = (FolderStep.runAll steps (.present second)).1 := by
  induction steps generalizing first second with
  | nil => rfl
  | cons head rest ih =>
    have later : ∀ step ∈ rest, ∀ name ∈ step.files, name ≠ file :=
      fun step member => apart step (List.mem_cons_of_mem head member)
    rcases same.step (apart head List.mem_cons_self) with ⟨fault, left, right⟩ | ⟨_, _, left, right, again⟩
    · simp only [FolderStep.runAll, FolderStep.run, left, right, Except.map]
    · simp only [FolderStep.runAll, FolderStep.run, left, right, Except.map]
      exact ih again later

theorem putAnswer (entries : Entries) (name record : Bytes) : ((Folder.present entries).put name record).1 =
    (FolderStep.runAll (Folder.saveSteps name [record]) (.present entries)).1 := by
  have made : FolderStep.makeFolder.run (.present entries) = .ok (.present entries) := rfl
  simp only [Folder.put, made]
  cases FolderStep.runAll (Folder.saveSteps name [record]) (.present entries) with
  | mk result left => cases result <;> rfl

theorem put (same : BesideEntries file first second) (differs : name ≠ file)
    (apart : Folder.temporaryName name ≠ file) (record : Bytes) :
    ((Folder.present first).put name record).1 = ((Folder.present second).put name record).1 := by
  rw [putAnswer, putAnswer]
  apply same.steps
  simp [Folder.saveSteps, FolderStep.files, apart, differs]

end BesideEntries

namespace Folder

def Lacks (folder : Folder) (name : String) : Prop :=
  folder.isOpen ∧ (Utf8.encode name).length ≤ maxEntryName ∧ folder.under? (Utf8.encode name) = none

def Beside (name : String) (first second : Folder) : Prop :=
  ∃ entries others, first = .present entries ∧ second = .present others ∧
    BesideEntries (Utf8.encode name) entries others

theorem readLacking {folder : Folder} {name : String} (lacking : folder.Lacks name) :
    folder.read (Utf8.encode name) = .error .missing := by
  obtain ⟨reach, short, nothing⟩ := lacking
  cases folder with
  | absent => rfl
  | blocked reading making => cases reach
  | present entries =>
    rw [underPresent] at nothing
    simp only [read, if_neg (Nat.not_lt.mpr short), FolderStep.requireFile, nothing]

instance : BesideStore Folder where
  lacks := Lacks
  beside := Beside
  loadLacking {folder name} passphrase lacking valid := by
    simp only [WalletStore.load, load, requireName, valid, readLacking lacking]
    rfl
  loadBeside {first second name other} passphrase same differs := by
    obtain ⟨entries, others, rfl, rfl, same⟩ := same
    have apart : Utf8.encode other ≠ Utf8.encode name := fun equal => differs (Utf8.encodeInjective equal)
    simp only [WalletStore.load, load, read, BesideEntries.required same apart]
  saveBeside {first second name wallet} passphrase nonce same valid differs := by
    obtain ⟨entries, others, rfl, rfl, same⟩ := same
    have apart : Utf8.encode wallet.name ≠ Utf8.encode name := fun equal => differs (Utf8.encodeInjective equal)
    have away := Ne.symm (temporaryApart valid wallet.name)
    simp only [WalletStore.save, save, BesideEntries.put same apart away]
    cases requireName wallet.name <;> rfl

end Folder

end WalletVault
