import WalletVault.Config.Toml
import WalletVault.Files
import WalletVault.Json.Record
import WalletVault.Json.Value
import WalletVault.Text.Quoted

/-! Settings of the program: the folder that the wallets live under, and how it logs. A file gives them, and each may
be overridden. -/
namespace WalletVault

inductive ConfigFault where
  | unread (path : String) (fault : FileFault)
  | malformed
  deriving DecidableEq, Repr

namespace ConfigFault

def message : ConfigFault → String
  | unread path fault => "failed to read config file " ++ path ++ ": " ++ fault.message
  | malformed => "invalid config"

def cause? : ConfigFault → Option String
  | unread _ fault => some fault.message
  | malformed => none

end ConfigFault

inductive LogFormat where
  | human
  | json
  deriving DecidableEq, Repr

namespace LogFormat

def word : LogFormat → String
  | human => "human"
  | json => "json"

def ofWord? (word : String) : Option LogFormat :=
  if word = "human" then some human else if word = "json" then some json else none

def ofText (text : String) : Except String LogFormat :=
  match ofWord? text.toLower with
  | some format => .ok format
  | none => .error ("unknown log format " ++ Quoted.text text ++ " (expected \"human\" or \"json\")")

def document (format : LogFormat) : Json := .text format.word

def reader : Json.Reader LogFormat := Json.readChoice ofWord?

end LogFormat

structure Config where
  root : String
  logFormat : LogFormat
  logLevel : String
  deriving DecidableEq, Repr

namespace Config

def default : Config := ⟨"./walletd_data", .human, "warn"⟩

def textAt (entries : Toml.Entries) (key default : String) : Option String :=
  match entries.lookup key with
  | none => some default
  | some (.text value) => some value
  | some _ => none

def isVoid : Toml.Item → Bool
  | .list items => items.isEmpty
  | .inline entries => entries.isEmpty
  | .table _ entries => entries.isEmpty
  | _ => false

/-- A log format is a text, or a table with its name as the only key and nothing under it. -/
def logFormatAt (entries : Toml.Entries) : Option LogFormat :=
  match entries.lookup "log_format" with
  | none => some default.logFormat
  | some (.text word) => LogFormat.ofWord? word
  | some (.inline [(word, item)]) => if isVoid item then LogFormat.ofWord? word else none
  | some (.table _ [(word, item)]) => if isVoid item then LogFormat.ofWord? word else none
  | some _ => none

def ofText (text : String) : Option Config := do
  let entries ← Toml.read text
  let root ← textAt entries "root" default.root
  let logFormat ← logFormatAt entries
  let logLevel ← textAt entries "log_level" default.logLevel
  some ⟨root, logFormat, logLevel⟩

def ofFile (path : String) (contents : Except FileFault Bytes) : Except ConfigFault Config :=
  match contents with
  | .error fault => .error (.unread path fault)
  | .ok bytes =>
    match Utf8.decode? bytes with
    | none => .error (.unread path .notText)
    | some text => (ofText text).elim (.error .malformed) .ok

def override (config : Config) (root : Option String) (logFormat : Option LogFormat)
    (logLevel : Option String) : Config :=
  ⟨root.getD config.root, logFormat.getD config.logFormat, logLevel.getD config.logLevel⟩

end Config

end WalletVault
