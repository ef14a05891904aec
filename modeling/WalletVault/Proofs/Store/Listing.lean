import WalletVault.Proofs.Store.Interchange
import WalletVault.Store.Folder

/-! What a folder lists and what it finds. The listing reads the entries, asking for a wallet and loading it read one
file, and they agree on what is a wallet whatever else is in the folder. -/
namespace WalletVault
open Fallible

/-- The names that a store lists are in order, and are those under which it finds a wallet. Each may be the name of a
wallet, is not the temporary file of a save, and is never missing when it is loaded. -/
structure Lists {σ : Type} [WalletStore σ] (store : σ) (names : List String) : Prop where
  answered : WalletStore.names store = .ok names
  ascends : names.Pairwise fun first second => compare (Utf8.encode first) (Utf8.encode second) = .lt
  found : ∀ name, name ∈ names ↔ WalletStore.contains store name = .ok true
  valid : ∀ name ∈ names, isWalletName name = true
  apart : ∀ name ∈ names, ∀ other, Utf8.encode name ≠ Folder.temporaryName (Utf8.encode other)
  present : ∀ name ∈ names, ∀ passphrase missing,
    WalletStore.load store name passphrase ≠ .error (.noSuchWallet missing)

theorem Sealed.walletPresent (record : Bytes) (name passphrase missing : String) :
    wallet record name passphrase ≠ .error (.noSuchWallet missing) := by
  intro refused
  unfold wallet decrypt at refused
  grind

namespace Folder
variable {folder : Folder} {name : String}

def Fits (folder : Folder) : Prop := ∀ file entry, folder.under? file = some entry → file.length ≤ maxEntryName

theorem containsTrue : folder.contains name = .ok true ↔ ∃ record, folder.record? name = some record := by
  rw [← Option.isSome_iff_exists]
  constructor
  · intro answer
    exact (containsOk answer).2.symm
  · intro stored
    obtain ⟨record, found⟩ := Option.isSome_iff_exists.mp stored
    rw [containsValid (recordOk.mp found).1, stored]

theorem recordListed (fits : folder.Fits) : (∃ record, folder.record? name = some record) ↔
    isWalletName name = true ∧ ∃ contents, folder.under? (Utf8.encode name) = some (.file contents) := by
  constructor
  · rintro ⟨record, found⟩
    obtain ⟨valid, read⟩ := recordOk.mp found
    exact ⟨valid, record, (readOk.mp read).2⟩
  · rintro ⟨valid, contents, there⟩
    exact ⟨contents, recordOk.mpr ⟨valid, readOk.mpr ⟨fits _ _ there, there⟩⟩⟩

theorem lists (reach : folder.isOpen) (fits : folder.Fits) : ∃ names, Lists folder names := by
  obtain ⟨entries, answered, same⟩ := listed reach
  have found (name : String) : name ∈ listing entries ↔ folder.contains name = .ok true := by
    rw [containsTrue, recordListed fits, memberListing, same]
  have valid (name : String) (member : name ∈ listing entries) : isWalletName name = true :=
    (memberListing.mp member).1
  refine ⟨_, answered, listingAscends entries, found, valid, fun name member => temporaryApart (valid name member), ?_⟩
  intro name member passphrase missing
  obtain ⟨record, stored⟩ := containsTrue.mp ((found name).mp member)
  change folder.load name passphrase ≠ _
  rw [loadStored passphrase stored]
  exact Sealed.walletPresent record name passphrase missing

end Folder

/-! The same store among all files. A name also has to fit into a path. -/

theorem nameBytes {name : String} (valid : isWalletName name = true) :
    Utf8.encode name ≠ [] ∧ 0 ∉ Utf8.encode name := by
  constructor
  · intro none
    have empty : name = "" := Utf8.encodeInjective none
    rw [empty] at valid
    exact absurd valid (by decide)
  · intro null
    have member : '\x00' ∈ name.toList := Utf8.asciiCharacter null (by decide)
    unfold isWalletName at valid
    split at valid
    · cases valid
    · simp only [decide_eq_true_eq, List.all_eq_true] at valid
      exact (valid.2 _ member).2.2 rfl

namespace Path
variable {folder rest : Bytes}

theorem ofTextOk {text : Bytes} (plain : 0 ∉ text) (short : text.length ≤ maxText) (written : text ≠ []) :
    ∃ path, ofText text = .ok path :=
  ⟨_, by rw [ofText, if_neg plain, if_neg (Nat.not_lt.mpr short), if_neg written]⟩

theorem ofTextShort {text : Bytes} {path : Path} (read : ofText text = .ok path) : text.length ≤ maxText := by
  by_contra long
  unfold ofText at read
  split at read
  · cases read
  · rw [if_pos (Nat.not_le.mp long)] at read
    cases read

theorem joinCases : join folder rest = rest ∨ join folder rest = folder ++ rest ∨
    join folder rest = folder ++ slash :: rest := by
  unfold join
  split
  · exact .inl rfl
  · split
    · exact .inr (.inl rfl)
    · exact .inr (.inr rfl)

theorem joinPlain (outer : 0 ∉ folder) (inner : 0 ∉ rest) : 0 ∉ join folder rest := by
  have apart : 0 ≠ slash := by decide
  rcases @joinCases folder rest with same | same | same <;> rw [same] <;> simp [outer, inner, apart]

theorem joinWritten (written : rest ≠ []) : join folder rest ≠ [] := by
  rcases @joinCases folder rest with same | same | same <;> rw [same] <;> simp [written]

end Path

namespace RootedStore
variable {store : RootedStore} {name : String}

theorem pathReached (reach : store.folder.isOpen) : 0 ∉ store.path := by
  intro null
  have refused : store.tree.folderAt store.path = .error .nulInName := by
    simp only [FileTree.folderAt, FileTree.locate, Path.ofText, if_pos null]
    rfl
  simp only [folder, refused] at reach
  split at reach <;> cases reach

def HasRoom (store : RootedStore) (file : Bytes) : Prop := (Path.join store.path file).length ≤ Path.maxText

theorem requirePathOk (reach : store.folder.isOpen) (valid : isWalletName name = true) :
    store.requirePath (Utf8.encode name) = .ok () ↔ store.HasRoom (Utf8.encode name) := by
  constructor
  · intro named
    obtain ⟨path, read, _⟩ := mapOk.mp named
    exact Path.ofTextShort read
  · intro short
    obtain ⟨written, plain⟩ := nameBytes valid
    obtain ⟨path, read⟩ :=
      Path.ofTextOk (Path.joinPlain (pathReached reach) plain) short (Path.joinWritten written)
    exact mapOk.mpr ⟨path, read, rfl⟩

theorem containsTrue : store.contains name = .ok true ↔
    store.folder.contains name = .ok true ∧ store.requirePath (Utf8.encode name) = .ok () := by
  unfold contains
  constructor
  · intro answer
    obtain ⟨found, there, answer⟩ := bindOk.mp answer
    have both := pureOk.mp answer
    cases found with
    | false => cases both
    | true =>
      refine ⟨there, ?_⟩
      cases named : store.requirePath (Utf8.encode name) with
      | ok => rfl
      | error fault =>
        rw [named] at both
        cases both
  · rintro ⟨there, named⟩
    exact bindOk.mpr ⟨true, there, by rw [named]; rfl⟩

/- Every entry can be named in a path. -/
def Reaches (store : RootedStore) : Prop :=
  ∀ file entry, store.folder.under? file = some entry → store.HasRoom file

theorem reachesBelow (fits : store.folder.Fits) (room : store.path.length + 1 + maxEntryName ≤ Path.maxText) :
    store.Reaches := by
  intro file entry there
  have short := fits file entry there
  unfold HasRoom
  rcases @Path.joinCases store.path file with same | same | same
  · rw [same]
    omega
  · rw [same, List.length_append]
    omega
  · rw [same, List.length_append, List.length_cons]
    omega

/- A name that is too long to be named in a path is listed all the same, and only then it is not found. -/
theorem listsWithin (reach : store.folder.isOpen) (fits : store.folder.Fits) : ∃ names,
    Lists store.folder names ∧
      ∀ name, store.contains name = .ok true ↔ name ∈ names ∧ store.HasRoom (Utf8.encode name) := by
  obtain ⟨names, inside⟩ := Folder.lists reach fits
  refine ⟨names, inside, fun name => ?_⟩
  rw [containsTrue, inside.found]
  exact and_congr_right fun found => requirePathOk reach (inside.valid name ((inside.found name).mpr found))

theorem lists (reach : store.folder.isOpen) (fits : store.folder.Fits) (reaches : store.Reaches) :
    ∃ names, Lists store names := by
  obtain ⟨names, inside, within⟩ := listsWithin reach fits
  have found (name : String) : name ∈ names ↔ store.contains name = .ok true := by
    rw [within]
    refine ⟨fun listed => ⟨listed, ?_⟩, And.left⟩
    obtain ⟨_, contents, there⟩ :=
      (Folder.recordListed fits).mp (Folder.containsTrue.mp ((inside.found name).mp listed))
    exact reaches _ _ there
  refine ⟨names, inside.answered, inside.ascends, found, inside.valid, inside.apart, ?_⟩
  intro name member passphrase missing absent
  obtain ⟨there, path⟩ := containsTrue.mp ((found name).mp member)
  change store.load name passphrase = _ at absent
  have valid : requireName name = .ok () := requireNameOk.mpr (inside.valid name member)
  simp only [load, valid, path] at absent
  exact inside.present name member passphrase missing absent

end RootedStore

/-- Whatever the folder of the wallets holds, the listing is in strict order, has exactly the names under which a
wallet is found, and only names of wallets, never one of a temporary file; loading a listed wallet never says that it
is missing. So it is of a folder by itself, and of the folder under the root of a store, as long as the path of the
root leaves room for the names of all its entries. Under a longer root the same names are listed, but one whose path
would be too long is not found. -/
theorem listingAgrees :
    (∀ folder : Folder, folder.isOpen → folder.Fits → ∃ names, Lists folder names) ∧
    (∀ store : RootedStore, store.folder.isOpen → store.folder.Fits → store.Reaches → ∃ names, Lists store names) ∧
    ∀ store : RootedStore, store.folder.isOpen → store.folder.Fits → ∃ names, store.names = .ok names ∧
      ∀ name, store.contains name = .ok true ↔ name ∈ names ∧ store.HasRoom (Utf8.encode name) := by
  refine ⟨fun _ => Folder.lists, fun _ => RootedStore.lists, fun store reach fits => ?_⟩
  obtain ⟨names, inside, within⟩ := RootedStore.listsWithin reach fits
  exact ⟨names, inside.answered, within⟩

theorem Folder.fitsListed {folder : Folder} {files : List (Bytes × Entry)}
    (listed : folder.entries?.map (·.toList) = some files) (short : ∀ file ∈ files, file.1.length ≤ maxEntryName) :
    folder.isOpen ∧ folder.Fits := by
  obtain ⟨entries, held, rfl⟩ := Option.map_eq_some_iff.mp listed
  cases folder with
  | absent => cases held
  | blocked reading making => cases held
  | present entries =>
    cases held
    exact ⟨rfl, fun file entry there => short _ (Std.ExtTreeMap.mem_toList_iff_getElem?_eq_some.mpr there)⟩

def crowdedStore : RootedStore :=
  let tree := (FileTree.empty.put (Utf8.encode "data/wallets/savings") [1]).put (Utf8.encode "data/wallets/.hidden") []
  let tree := tree.put (Utf8.encode "data/wallets/.savings.tmp") []
  let tree := tree.put (Utf8.encode "data/wallets/backup/savings") []
  ⟨tree.put (Utf8.encode "data/wallets/" ++ [255]) [], Utf8.encode "data"⟩

def crowdedFiles : List (Bytes × Entry) :=
  [(Utf8.encode ".hidden", .file []), (Utf8.encode ".savings.tmp", .file []), (Utf8.encode "backup", .other),
    (Utf8.encode "savings", .file [1]), ([255], .file [])]

theorem crowdedListed : (∃ names, Lists crowdedStore.folder names) ∧ Lists crowdedStore ["savings"] := by
  have files : crowdedStore.folder.entries?.map (·.toList) = some crowdedFiles := by decide +kernel
  obtain ⟨reach, fits⟩ := Folder.fitsListed files (by decide +kernel)
  have reaches := RootedStore.reachesBelow fits (by decide +kernel)
  obtain ⟨folders, stores, _⟩ := listingAgrees
  obtain ⟨names, lists⟩ := stores crowdedStore reach fits reaches
  have answered : crowdedStore.names = .ok ["savings"] := by decide +kernel
  cases lists.answered.symm.trans answered
  exact ⟨folders _ reach fits, lists⟩

end WalletVault
