import WalletVault.Files
import WalletVault.Store.Basic

/-! A store in a folder: one file for each sealed record. A save writes a temporary file, whose name begins
with a dot, and then renames it, so that the file of a wallet is always a whole record. Saving is given
as the list of its single steps, and the folder as the value that these steps change. -/
namespace WalletVault

/-- The folder of the wallets: not there yet, out of reach, or its entries by name. `blocked` holds the
fault of reading in the folder and the fault of making it. -/
inductive Folder where
  | absent
  | blocked (reading making : FileFault)
  | present (entries : Entries)
  deriving DecidableEq

inductive FolderStep where
  | makeFolder
  | truncate (name : Bytes)
  | append (name piece : Bytes)
  | flush (name : Bytes)
  | rename (source target : Bytes)
  | remove (name : Bytes)
  deriving DecidableEq, Repr

namespace FolderStep

def requireFile (entries : Entries) (name : Bytes) : Except FileFault Bytes :=
  match entries[name]? with
  | some (.file contents) => .ok contents
  | some .other => .error .isFolder
  | none => .error .missing

def requirePlace (entries : Entries) (name : Bytes) : Except FileFault Unit :=
  if maxEntryName < name.length then .error .nameTooLong
  else if entries[name]? = some .other then .error .isFolder
  else .ok ()

def runInside (entries : Entries) : FolderStep → Except FileFault Entries
  | makeFolder => .ok entries
  | truncate name => (requirePlace entries name).map fun () => entries.insert name (.file [])
  | append name piece =>
    (requireFile entries name).map fun contents => entries.insert name (.file (contents ++ piece))
  | flush name => (requireFile entries name).map fun _ => entries
  | rename source target => do
    let contents ← requireFile entries source
    requirePlace entries target
    pure ((entries.erase source).insert target (.file contents))
  | remove name => (requireFile entries name).map fun _ => entries.erase name

def run (step : FolderStep) : Folder → Except FileFault Folder
  | .present entries => (runInside entries step).map .present
  | .absent => if step = makeFolder then .ok (.present ∅) else .error .missing
  | .blocked reading making => .error (if step = makeFolder then making else reading)

def runAll : List FolderStep → Folder → Except FileFault Unit × Folder
  | [], folder => (.ok (), folder)
  | step :: rest, folder =>
    match step.run folder with
    | .error fault => (.error fault, folder)
    | .ok folder => runAll rest folder

end FolderStep

namespace Folder

def temporaryName (name : Bytes) : Bytes := 46 :: name ++ Utf8.encode ".tmp"

/-- The steps that put a record under a name, once the folder is there. The file system may take the record
in several pieces. -/
def saveSteps (name : Bytes) (pieces : List Bytes) : List FolderStep :=
  let temporary := temporaryName name
  .truncate temporary :: (pieces.map (.append temporary) ++ [.flush temporary, .rename temporary name])

def discard (folder : Folder) (name : Bytes) : Folder :=
  ((FolderStep.remove name).run folder).toOption.getD folder

def put (folder : Folder) (name record : Bytes) : Except FileFault Unit × Folder :=
  match FolderStep.makeFolder.run folder with
  | .error fault => (.error fault, folder)
  | .ok folder =>
    match FolderStep.runAll (saveSteps name [record]) folder with
    | (.ok (), folder) => (.ok (), folder)
    | (.error fault, folder) => (.error fault, folder.discard (temporaryName name))

def read (folder : Folder) (name : Bytes) : Except FileFault Bytes :=
  match folder with
  | absent => .error .missing
  | blocked reading _ => .error reading
  | present entries =>
    if maxEntryName < name.length then .error .nameTooLong else FolderStep.requireFile entries name

def entries? : Folder → Option Entries
  | present entries => some entries
  | _ => none

def recordName? : Bytes × Entry → Option String
  | (name, .file _) => (Utf8.decode? name).filter isWalletName
  | (_, .other) => none

def save (folder : Folder) (wallet : Wallet) (passphrase : String) (nonce : Block 12) :
    Except StoreFault Unit × Folder :=
  match requireName wallet.name with
  | .error fault => (.error fault, folder)
  | .ok () =>
    let (result, folder) := folder.put (Utf8.encode wallet.name) (Sealed.ofWallet wallet passphrase nonce)
    (result.mapError .inputOutput, folder)

def load (folder : Folder) (name passphrase : String) : Except StoreFault Wallet := do
  requireName name
  match folder.read (Utf8.encode name) with
  | .error .missing => throw (.noSuchWallet name)
  | .error fault => throw (.inputOutput fault)
  | .ok record => Sealed.wallet record name passphrase

def contains (folder : Folder) (name : String) : Except StoreFault Bool := do
  requireName name
  pure (folder.read (Utf8.encode name)).isOk

def names : Folder → Except StoreFault (List String)
  | absent => .ok []
  | blocked reading _ => .error (.inputOutput reading)
  | present entries => .ok (entries.toList.filterMap recordName?)

instance : WalletStore Folder := ⟨save, load, contains, names⟩

end Folder

/-! The store of a root among files: the wallets are in the folder `wallets` under the root. Each operation
follows the path of that folder anew, and works there as on a folder by itself. A save first makes the
folder, and a folder that is made may turn out to hold records already, since two dots in its path lead
through folders that were not there before. -/

structure RootedStore where
  tree : FileTree
  root : Bytes

namespace RootedStore

def path (store : RootedStore) : Bytes := Path.join store.root (Utf8.encode "wallets")

def requirePath (store : RootedStore) (name : Bytes) : Except FileFault Unit :=
  (Path.ofText (Path.join store.path name)).map fun _ => ()

def folder (store : RootedStore) : Folder :=
  match store.tree.folderAt store.path with
  | .ok place => .present (store.tree.entriesIn place)
  | .error .missing => .absent
  | .error fault =>
    match (store.tree.makeFolder store.path).1 with
    | .error making => .blocked fault making
    | .ok () => .blocked fault fault

def inside (store : RootedStore) (work : Folder → Except StoreFault Unit × Folder) :
    Except StoreFault Unit × RootedStore :=
  match store.tree.folderAt store.path with
  | .error fault => (.error (.inputOutput fault), store)
  | .ok place =>
    let (result, folder) := work (.present (store.tree.entriesIn place))
    (result, { store with tree := store.tree.withEntries place (folder.entries?.getD ∅) })

def save (store : RootedStore) (wallet : Wallet) (passphrase : String) (nonce : Block 12) :
    Except StoreFault Unit × RootedStore :=
  match requireName wallet.name with
  | .error fault => (.error fault, store)
  | .ok () =>
    let (made, tree) := store.tree.makeFolder store.path
    let store := { store with tree := tree }
    match made.bind fun () => store.requirePath (Folder.temporaryName (Utf8.encode wallet.name)) with
    | .error fault => (.error (.inputOutput fault), store)
    | .ok () => store.inside fun folder => folder.save wallet passphrase nonce

def load (store : RootedStore) (name passphrase : String) : Except StoreFault Wallet := do
  requireName name
  (store.requirePath (Utf8.encode name)).mapError .inputOutput
  store.folder.load name passphrase

def contains (store : RootedStore) (name : String) : Except StoreFault Bool := do
  let found ← store.folder.contains name
  pure (found && (store.requirePath (Utf8.encode name)).isOk)

def names (store : RootedStore) : Except StoreFault (List String) := store.folder.names

instance : WalletStore RootedStore := ⟨save, load, contains, names⟩

end RootedStore

end WalletVault
