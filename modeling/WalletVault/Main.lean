import WalletVault.Program.Run

/-! The program itself: it takes words, variables, randomness and the files it needs from its surroundings,
runs, and then does the steps of each save among the files. -/
namespace WalletVault.Program

def usageText : String :=
  "Usage: walletd [OPTIONS] <COMMAND>\n\nCommands: " ++
    ", ".intercalate (CommandLine.Verb.all.map CommandLine.Verb.word) ++ ", help\n"

def readEnvironment : IO CommandLine.Environment := do
  let parameters := CommandLine.Parameter.everywhere ++ [.mnemonic]
  let found ← (parameters.filterMap CommandLine.Parameter.variableName?).mapM fun name => do
    pure (name, ← IO.getEnv name)
  pure fun name => (found.lookup name).join

def drawBlock (n : Nat) : IO (Block n) := do
  let bytes := (← IO.getRandomBytes n.toUSize).toList
  if h : bytes.length = n then pure ⟨bytes, h⟩
  else throw (IO.userError "no random bytes")

def faultOf : IO.Error → FileFault
  | .noFileOrDirectory .. => .missing
  | .alreadyExists .. => .alreadyThere
  | .inappropriateType _ 21 _ => .isFolder
  | .invalidArgument _ 36 _ => .nameTooLong
  | _ => .belowFile

def attempt {α : Type} (path : String) (work : IO α) : IO (Except FileFault α) := do
  match Path.ofText (Utf8.encode path) with
  | .error fault => pure (.error fault)
  | .ok _ =>
    try
      pure (.ok (← work))
    catch error => pure (.error (faultOf error))

def readFile (path : String) : IO (Except FileFault Bytes) :=
  attempt path do pure (← IO.FS.readBinFile path).toList

def readEntries (path : String) : IO Entries := do
  let mut entries : Entries := ∅
  for entry in ← ((← IO.currentDir) / path).readDir do
    let contents ← readFile entry.path.toString
    entries := entries.insert (Utf8.encode entry.fileName) (contents.toOption.elim .other .file)
  pure entries

def readFolder (path : String) : IO Folder := do
  match ← attempt path (readEntries path) with
  | .ok entries => pure (.present entries)
  | .error .missing => pure .absent
  | .error fault =>
    let inPlace := (← readFile path).isOk
    pure (.blocked fault (if inPlace then .alreadyThere else fault))

/-- The folder of the wallets, and the records that were to be put there, in order. -/
structure Journal where
  folder : Folder
  puts : List (Bytes × Bytes)

instance : WalletStore Journal where
  save journal wallet passphrase nonce :=
    let (result, folder) := journal.folder.save wallet passphrase nonce
    let put := (Utf8.encode wallet.name, Sealed.ofWallet wallet passphrase nonce)
    (result, ⟨folder, if isWalletName wallet.name then journal.puts ++ [put] else journal.puts⟩)
  load journal := journal.folder.load
  contains journal := journal.folder.contains
  names journal := journal.folder.names

def inside (path : String) (name : Bytes) : String := path ++ "/" ++ (Utf8.decode? name).getD ""

/-- Does a step in the folder at a path. Only the owner may read a file that is begun. -/
def performStep (path : String) : FolderStep → IO (Except FileFault Unit)
  | .makeFolder => attempt path (IO.FS.createDirAll path)
  | .truncate name => attempt (inside path name) do
    IO.FS.writeBinFile (inside path name) ⟨#[]⟩
    IO.setAccessRights (inside path name) ⟨⟨true, true, false⟩, ⟨false, false, false⟩, ⟨false, false, false⟩⟩
  | .append name piece => attempt (inside path name) do
    (← IO.FS.Handle.mk (inside path name) .append).write ⟨piece.toArray⟩
  | .flush name => attempt (inside path name) do
    (← IO.FS.Handle.mk (inside path name) .append).flush
  | .rename source target => attempt (inside path target) (IO.FS.rename (inside path source) (inside path target))
  | .remove name => attempt (inside path name) (IO.FS.removeFile (inside path name))

def performAll (path : String) : List FolderStep → IO (Except FileFault Unit)
  | [] => pure (.ok ())
  | step :: rest => do
    match ← performStep path step with
    | .error fault => pure (.error fault)
    | .ok () => performAll path rest

def performPut (path : String) (name record : Bytes) : IO (Except FileFault Unit) := do
  match ← performStep path .makeFolder with
  | .error fault => pure (.error fault)
  | .ok () =>
    match ← performAll path (Folder.saveSteps name [record]) with
    | .ok () => pure (.ok ())
    | .error fault =>
      discard (performStep path (.remove (Folder.temporaryName name)))
      pure (.error fault)

def finish (outcome : Outcome) : IO UInt32 := do
  IO.print outcome.output
  if let some text := outcome.error then IO.eprintln text
  pure outcome.code.toUInt32

def perform (invocation : CommandLine.Invocation) : IO UInt32 := do
  let contents ← match invocation.configFile with
    | some path => readFile path
    | none => pure (.error .missing)
  match config invocation fun _ => contents with
  | .error fault => finish (.failure fault.message fault.cause?)
  | .ok config =>
    let path := config.root ++ "/wallets"
    let draw : Draw := ⟨← drawBlock 32, ← drawBlock 32, ← drawBlock 12⟩
    let (outcome, journal) := carryOut invocation draw (Journal.mk (← readFolder path) [])
    for (name, record) in journal.puts do
      if let .error fault ← performPut path name record then
        let fault := StoreFault.inputOutput fault
        return ← finish (.failure fault.message fault.cause?)
    finish outcome

end WalletVault.Program

open WalletVault in
def main (words : List String) : IO UInt32 := do
  match CommandLine.read (← Program.readEnvironment) words with
  | .ok invocation => Program.perform invocation
  | .error usage =>
    let outcome := Outcome.ofUsage usage
    if usage = .version then Program.finish outcome
    else if usage = .help then do
      IO.print Program.usageText
      Program.finish outcome
    else do
      IO.eprint Program.usageText
      Program.finish outcome
