import WalletVault.Command
import WalletVault.CommandLine.Read
import WalletVault.Store.Folder

/-! A run of the program: it reads its line and its settings, carries out one command on the store under its
root, and leaves an exit code, a document or the text of an error. -/
namespace WalletVault

structure Outcome where
  code : Nat
  output : String
  error : Option String
  deriving DecidableEq, Repr

namespace Outcome

def ofUsage : CommandLine.Usage → Outcome
  | .help => ⟨0, "", none⟩
  | .version => ⟨0, "walletd 0.1.0\n", none⟩
  | _ => ⟨2, "", none⟩

def failure (message : String) (cause : Option String) : Outcome :=
  ⟨1, "", some ("Error: " ++ message ++
    match cause with
    | some cause => "\n\nCaused by:\n    " ++ cause
    | none => "")⟩

def document (json : Json) : Outcome :=
  ⟨0, (Utf8.decode? (json.indented 0)).getD "" ++ "\n", none⟩

end Outcome

namespace Program

def config (invocation : CommandLine.Invocation) (readFile : String → Except FileFault Bytes) :
    Except ConfigFault Config := do
  let base ← match invocation.configFile with
    | none => .ok Config.default
    | some path => Config.ofFile path (readFile path)
  pure (base.override invocation.root invocation.logFormat invocation.logLevel)

def carryOut {σ : Type} [WalletStore σ] (invocation : CommandLine.Invocation) (draw : Draw) (store : σ) :
    Outcome × σ :=
  let (result, session) := invocation.command.execute (Session.start store) invocation.passphrase draw
  (match result with
    | .ok answer => .document answer.json
    | .error fault => .failure fault.message fault.cause?, session.store)

def run (tree : FileTree) (environment : CommandLine.Environment) (words : List String) (draw : Draw) :
    Outcome × FileTree :=
  match CommandLine.read environment words with
  | .error usage => (.ofUsage usage, tree)
  | .ok invocation =>
    match config invocation (fun path => tree.read (Utf8.encode path)) with
    | .error fault => (.failure fault.message fault.cause?, tree)
    | .ok config =>
      let (outcome, store) := carryOut invocation draw (RootedStore.mk tree (Utf8.encode config.root))
      (outcome, store.tree)

end Program

end WalletVault
