import WalletVault.Proofs.Store.Record
import WalletVault.Proofs.Store.Sealed
import WalletVault.Proofs.Text.Order

/-! A store in a folder and a store in memory answer alike. What ties them is that the folder holds one file
for each record in memory, under the bytes of its name, and nothing else once a save is over. -/
namespace WalletVault
open Fallible

variable {α β σ : Type}

inductive Request where
  | save (wallet : Wallet) (passphrase : String) (nonce : Block 12)
  | load (name passphrase : String)
  | contains (name : String)
  | names

inductive Request.Result where
  | saved
  | loaded (wallet : Wallet)
  | found (there : Bool)
  | listed (names : List String)
  deriving DecidableEq

namespace Request

def run [WalletStore σ] (store : σ) : Request → Except StoreFault Result × σ
  | save wallet passphrase nonce =>
    let (result, left) := WalletStore.save store wallet passphrase nonce
    (result.map fun () => .saved, left)
  | load name passphrase => ((WalletStore.load store name passphrase).map .loaded, store)
  | contains name => ((WalletStore.contains store name).map .found, store)
  | names => ((WalletStore.names store).map .listed, store)

def runAll [WalletStore σ] (store : σ) : List Request → List (Except StoreFault Result) × σ
  | [] => ([], store)
  | request :: rest =>
    let (result, next) := request.run store
    let (results, last) := runAll next rest
    (result :: results, last)

/- The file system has room for the names of a request, that of the temporary file among them. -/
def Fits : Request → Prop
  | save wallet _ _ => (Folder.temporaryName (Utf8.encode wallet.name)).length ≤ maxEntryName
  | load name _ => (Utf8.encode name).length ≤ maxEntryName
  | contains _ | names => True

instance : DecidablePred Fits
  | save _ _ _ | load _ _ => Nat.decLe _ _
  | contains _ | names => isTrue trivial

end Request

def Undisturbed (result : Except StoreFault α) : Prop := ∀ fault, result ≠ .error (.inputOutput fault)

theorem Undisturbed.map {result : Except StoreFault α} (quiet : Undisturbed result) (f : α → β) :
    Undisturbed (result.map f) := by
  cases result with
  | ok value => nofun
  | error fault =>
    intro reason same
    cases same
    exact quiet reason rfl

theorem MemoryStore.loadUndisturbed (store : MemoryStore) (name passphrase : String) :
    Undisturbed (store.load name passphrase) := by
  intro fault disturbed
  by_cases valid : isWalletName name = true
  · cases stored : store.record? name with
    | none =>
      rw [loadAbsent valid stored] at disturbed
      cases disturbed
    | some record =>
      rw [loadStored valid stored, Sealed.wallet] at disturbed
      rcases Sealed.decryptCases record passphrase with refused | ⟨text, opened⟩
      · rw [refused] at disturbed
        cases disturbed
      · rw [opened] at disturbed
        dsimp only at disturbed
        split at disturbed
        · cases disturbed
        · split at disturbed <;> cases disturbed
  · rw [loadInvalid valid] at disturbed
    cases disturbed

theorem Request.memoryUndisturbed (store : MemoryStore) (request : Request) :
    Undisturbed (request.run store).1 := by
  cases request with
  | save wallet passphrase nonce =>
    change Undisturbed ((store.save wallet passphrase nonce).1.map _)
    by_cases valid : isWalletName wallet.name = true
    · rw [MemoryStore.saveValid valid]
      nofun
    · rw [MemoryStore.saveInvalid valid]
      nofun
  | load name passphrase => exact (MemoryStore.loadUndisturbed store name passphrase).map _
  | contains name =>
    change Undisturbed ((store.contains name).map _)
    by_cases valid : isWalletName name = true
    · rw [MemoryStore.containsValid valid]
      nofun
    · rw [MemoryStore.containsInvalid valid]
      nofun
  | names => nofun

namespace Folder

theorem readAbsent {folder : Folder} {name : Bytes} (reach : folder.isOpen) (absent : folder.under? name = none) :
    folder.read name = .error .missing ∨
      maxEntryName < name.length ∧ folder.read name = .error .nameTooLong := by
  cases folder with
  | absent => exact Or.inl rfl
  | blocked reading making => cases reach
  | present entries =>
    by_cases long : maxEntryName < name.length
    · exact Or.inr ⟨long, by simp only [read, if_pos long]⟩
    · rw [underPresent] at absent
      exact Or.inl (by simp only [read, if_neg long, FolderStep.requireFile, absent])

theorem saveInvalid {wallet : Wallet} (invalid : ¬ isWalletName wallet.name = true) (folder : Folder)
    (passphrase : String) (nonce : Block 12) :
    folder.save wallet passphrase nonce = (.error (.invalidName wallet.name), folder) := by
  simp only [save, requireName, if_neg invalid]

theorem saveCases {wallet : Wallet} (valid : isWalletName wallet.name = true) (folder : Folder)
    (passphrase : String) (nonce : Block 12) :
    (∃ next, folder.save wallet passphrase nonce = (.ok (), next)) ∨
      ∃ fault next, folder.save wallet passphrase nonce = (.error (.inputOutput fault), next) := by
  rw [saveValid folder valid]
  cases (folder.put (Utf8.encode wallet.name) (Sealed.ofWallet wallet passphrase nonce)).1 with
  | ok => exact Or.inl ⟨_, rfl⟩
  | error fault => exact Or.inr ⟨fault, _, rfl⟩

theorem containsValid {folder : Folder} {name : String} (valid : isWalletName name = true) :
    folder.contains name = .ok (folder.record? name).isSome := by
  have answer : folder.contains name = .ok (folder.read (Utf8.encode name)).isOk := by
    simp only [contains, requireName, if_pos valid]
    rfl
  rw [answer, (containsOk answer).2]

end Folder

structure Filed (folder : Folder) (memory : MemoryStore) : Prop where
  reach : folder.isOpen
  files : ∀ file, folder.under? file = ((Utf8.decode? file).bind memory.record?).map .file
  named : ∀ name record, memory.record? name = some record →
    isWalletName name = true ∧ (Utf8.encode name).length ≤ maxEntryName

namespace Filed
variable {folder : Folder} {memory : MemoryStore} {name : String}

theorem absentEmpty : Filed .absent .empty := by
  have none (name : String) : MemoryStore.empty.record? name = none := Std.ExtTreeMap.getElem?_empty
  refine ⟨rfl, fun file => ?_, fun name record stored => ?_⟩
  · cases Utf8.decode? file with
    | none => rfl
    | some name => exact (congrArg (Option.map Entry.file) (none name)).symm
  · rw [none] at stored
    cases stored

section
variable (filed : Filed folder memory)
include filed

theorem under (name : String) : folder.under? (Utf8.encode name) = (memory.record? name).map .file := by
  rw [filed.files, Utf8.decodeEncoded]
  rfl

theorem noFolder (file : Bytes) : folder.under? file ≠ some .other := by
  rw [filed.files]
  cases (Utf8.decode? file).bind memory.record? <;> nofun

theorem record (name : String) : folder.record? name = memory.record? name := by
  refine Option.ext fun record => ?_
  rw [Folder.recordOk, Folder.readOk, filed.under]
  constructor
  · rintro ⟨_, _, stored⟩
    simpa using stored
  · intro stored
    obtain ⟨valid, short⟩ := filed.named name record stored
    exact ⟨valid, short, by rw [stored]; rfl⟩

theorem loadSame (passphrase : String) :
    folder.load name passphrase = memory.load name passphrase ∨
      maxEntryName < (Utf8.encode name).length ∧
        folder.load name passphrase = .error (.inputOutput .nameTooLong) := by
  by_cases valid : isWalletName name = true
  · cases stored : memory.record? name with
    | some record =>
      have kept := (filed.record name).trans stored
      exact Or.inl ((Folder.loadStored passphrase kept).trans (MemoryStore.loadStored valid stored).symm)
    | none =>
      have absent : folder.under? (Utf8.encode name) = none := by rw [filed.under, stored]; rfl
      rcases Folder.readAbsent filed.reach absent with read | ⟨long, read⟩
      · rw [MemoryStore.loadAbsent valid stored]
        exact Or.inl (by simp only [Folder.load, requireName, if_pos valid, read]; rfl)
      · exact Or.inr ⟨long, by simp only [Folder.load, requireName, if_pos valid, read]; rfl⟩
  · rw [MemoryStore.loadInvalid valid]
    exact Or.inl (by simp only [Folder.load, requireName, if_neg valid]; rfl)

theorem containsSame (name : String) : folder.contains name = memory.contains name := by
  by_cases valid : isWalletName name = true
  · rw [Folder.containsValid valid, MemoryStore.containsValid valid, filed.record]
  · rw [MemoryStore.containsInvalid valid]
    simp only [Folder.contains, requireName, if_neg valid]
    rfl

theorem namesSame : folder.names = memory.names := by
  obtain ⟨entries, names, entry⟩ := Folder.listed filed.reach
  rw [names, MemoryStore.names]
  have ascends : memory.records.keys.Pairwise fun a b => compare (Utf8.encode a) (Utf8.encode b) = .lt :=
    Std.ExtTreeMap.ordered_keys.imp Utf8.encodeOrdered
  refine congrArg Except.ok (Folder.ascendingSame (Folder.listingAscends entries) ascends fun name => ?_)
  rw [Folder.memberListing, entry, filed.under, Std.ExtTreeMap.mem_keys, Std.ExtTreeMap.mem_iff_isSome_getElem?]
  constructor
  · rintro ⟨_, record, stored⟩
    cases found : memory.record? name with
    | none => simp [found] at stored
    | some record => exact congrArg Option.isSome found
  · intro present
    obtain ⟨record, stored⟩ := Option.isSome_iff_exists.mp present
    exact ⟨(filed.named name record stored).1, record, congrArg (Option.map Entry.file) stored⟩

theorem saveFiled {wallet : Wallet} {passphrase : String} {nonce : Block 12} {next : Folder}
    (done : folder.save wallet passphrase nonce = (.ok (), next)) :
    ∃ after, memory.save wallet passphrase nonce = (.ok (), after) ∧ Filed next after := by
  have valid := Folder.saveName done
  obtain ⟨accepted, reach, nextAt⟩ := Folder.putSource ((Folder.saveOk valid).mp done)
  have short := Nat.le_trans (Folder.temporaryLonger _) accepted.short
  refine ⟨_, MemoryStore.saveValid valid passphrase nonce, ?_⟩
  generalize kept : MemoryStore.mk _ _ = after
  have recorded (name : String) : after.record? name =
      if wallet.name = name then some (Sealed.ofWallet wallet passphrase nonce) else memory.record? name := by
    subst kept
    exact TextMap.lookupInsert _ _ _ _
  have nextUnder (name : String) : next.under? (Utf8.encode name) = (after.record? name).map .file := by
    rw [nextAt, recorded, filed.under]
    by_cases same : wallet.name = name
    · rw [if_pos (congrArg Utf8.encode same), if_pos same]
      rfl
    · rw [if_neg fun equal => same (Utf8.encodeInjective equal), if_neg same]
      split
      · rename_i temporary
        cases stored : memory.record? name with
        | none => rfl
        | some record => exact absurd temporary.symm (Folder.temporaryApart (filed.named name record stored).1 _)
      · rfl
  refine ⟨reach, fun file => ?_, fun name record stored => ?_⟩
  · cases read : Utf8.decode? file with
    | some name =>
      rw [← Utf8.encodeDecoded read, nextUnder]
      rfl
    | none =>
      have unnamed (name : String) : ¬ Utf8.encode name = file := by
        rintro rfl
        rw [Utf8.decodeEncoded] at read
        cases read
      rw [nextAt, if_neg (unnamed _), Folder.temporaryText, if_neg (unnamed _), filed.files, read]
      rfl
  · rw [recorded] at stored
    split at stored
    · rename_i same
      rw [← same]
      exact ⟨valid, short⟩
    · exact filed.named name record stored

theorem runCases (request : Request) :
    ((request.run folder).1 = (request.run memory).1 ∧ Filed (request.run folder).2 (request.run memory).2) ∨
      ¬ request.Fits ∧ ∃ fault, (request.run folder).1 = .error (.inputOutput fault) := by
  cases request with
  | save wallet passphrase nonce =>
    change ((folder.save wallet passphrase nonce).1.map _ = (memory.save wallet passphrase nonce).1.map _ ∧
      Filed (folder.save wallet passphrase nonce).2 (memory.save wallet passphrase nonce).2) ∨
      _ ∧ ∃ fault, (folder.save wallet passphrase nonce).1.map _ = _
    by_cases valid : isWalletName wallet.name = true
    · rcases Folder.saveCases valid folder passphrase nonce with ⟨next, saved⟩ | ⟨fault, next, failed⟩
      · obtain ⟨after, kept, left⟩ := filed.saveFiled saved
        rw [saved, kept]
        exact Or.inl ⟨rfl, left⟩
      · rw [failed]
        refine Or.inr ⟨fun fits => ?_, fault, rfl⟩
        have accepts : folder.Accepts (Utf8.encode wallet.name) :=
          ⟨filed.reach, fits, filed.noFolder _, filed.noFolder _⟩
        obtain ⟨_, saved, _⟩ := Folder.acceptedSaves valid accepts passphrase nonce
        cases saved.symm.trans failed
    · rw [Folder.saveInvalid valid, MemoryStore.saveInvalid valid]
      exact Or.inl ⟨rfl, filed⟩
  | load name passphrase =>
    rcases filed.loadSame passphrase with same | ⟨long, refused⟩
    · exact Or.inl ⟨congrArg (Except.map _) same, filed⟩
    · exact Or.inr ⟨Nat.not_le.mpr long, .nameTooLong, congrArg (Except.map _) refused⟩
  | contains name => exact Or.inl ⟨congrArg (Except.map _) (filed.containsSame name), filed⟩
  | names => exact Or.inl ⟨congrArg (Except.map _) filed.namesSame, filed⟩

end

theorem runAllUndisturbed (filed : Filed folder memory) {requests : List Request}
    (fits : ∀ request ∈ requests, request.Fits) :
    ∀ result ∈ (Request.runAll folder requests).1, Undisturbed result := by
  induction requests generalizing folder memory with
  | nil => simp [Request.runAll]
  | cons request rest ih =>
    obtain ⟨first, later⟩ := List.forall_mem_cons.mp fits
    obtain ⟨same, next⟩ := (filed.runCases request).resolve_right fun long => long.1 first
    have quiet : Undisturbed (request.run folder).1 := by
      rw [same]
      exact Request.memoryUndisturbed memory request
    exact List.forall_mem_cons.mpr ⟨quiet, ih next later⟩

theorem runAllSame (filed : Filed folder memory) {requests : List Request}
    (quiet : ∀ result ∈ (Request.runAll folder requests).1, Undisturbed result) :
    (Request.runAll folder requests).1 = (Request.runAll memory requests).1 ∧
      Filed (Request.runAll folder requests).2 (Request.runAll memory requests).2 := by
  induction requests generalizing folder memory with
  | nil => exact ⟨rfl, filed⟩
  | cons request rest ih =>
    obtain ⟨first, later⟩ := List.forall_mem_cons.mp quiet
    obtain ⟨same, next⟩ := (filed.runCases request).resolve_right fun ⟨_, fault, failed⟩ => first fault failed
    obtain ⟨results, last⟩ := ih next later
    exact ⟨List.cons_eq_cons.mpr ⟨same, results⟩, last⟩

end Filed

/-- Whatever is asked of a store in a folder that is not there yet and of an empty store in memory, the results
are the same at every step, unless the file system fails, and at the end each name has the same record in both.
The file system fails at no request whose file names fit. -/
theorem storesInterchangeable (requests : List Request) :
    ((∀ request ∈ requests, request.Fits) →
      ∀ result ∈ (Request.runAll Folder.absent requests).1, Undisturbed result) ∧
    ((∀ result ∈ (Request.runAll Folder.absent requests).1, Undisturbed result) →
      (Request.runAll Folder.absent requests).1 = (Request.runAll MemoryStore.empty requests).1 ∧
      ∀ name, (Request.runAll Folder.absent requests).2.under? (Utf8.encode name) =
        ((Request.runAll MemoryStore.empty requests).2.record? name).map .file) := by
  refine ⟨Filed.absentEmpty.runAllUndisturbed, fun quiet => ?_⟩
  obtain ⟨results, filed⟩ := Filed.absentEmpty.runAllSame quiet
  exact ⟨results, filed.under⟩

def sampleRequests : List Request :=
  [.names, .load "savings" "open sesame", .contains "../savings",
    .save (.newLegacy "savings") "open sesame" ⟨List.replicate 12 2, rfl⟩,
    .save (.newLegacy "über") "open sesame" ⟨List.replicate 12 3, rfl⟩,
    .names, .load "savings" "open sesam", .load "savings" "open sesame", .contains "über"]

theorem sampleInterchanged : (∀ request ∈ sampleRequests, request.Fits) ∧
    (∀ result ∈ (Request.runAll Folder.absent sampleRequests).1, Undisturbed result) ∧
    (Request.runAll Folder.absent sampleRequests).1 = (Request.runAll MemoryStore.empty sampleRequests).1 ∧
    ∀ name, (Request.runAll Folder.absent sampleRequests).2.under? (Utf8.encode name) =
      ((Request.runAll MemoryStore.empty sampleRequests).2.record? name).map .file := by
  have fits : ∀ request ∈ sampleRequests, request.Fits := by decide
  have quiet := (storesInterchangeable sampleRequests).1 fits
  exact ⟨fits, quiet, (storesInterchangeable sampleRequests).2 quiet⟩

end WalletVault
