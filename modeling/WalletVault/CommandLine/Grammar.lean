import WalletVault.Key
import WalletVault.Config.Basic

/-! The words of the command line: the verbs, the options that each takes, and the variables that
stand in for options. -/
namespace WalletVault.CommandLine

inductive Verb where
  | create
  | importPhrase
  | names
  | «show»
  | generateKey
  | listKeys
  | describe
  | sign
  | verify
  | taint
  | untaint
  | annotate
  deriving DecidableEq, Repr

inductive Parameter where
  | root
  | passphrase
  | logFormat
  | logLevel
  | config
  | wallet
  | mnemonic
  | note
  | key
  | message
  | hex
  | tx
  | signature
  deriving DecidableEq, Repr

inductive Intake where
  | nothing
  | single
  | many
  deriving DecidableEq, Repr

namespace Parameter

def word : Parameter → String
  | root => "root"
  | passphrase => "passphrase"
  | logFormat => "log-format"
  | logLevel => "log-level"
  | config => "config"
  | wallet => "wallet"
  | mnemonic => "mnemonic"
  | note => "meta"
  | key => "pubkey"
  | message => "message"
  | hex => "hex"
  | tx => "tx"
  | signature => "signature"

def variableName? : Parameter → Option String
  | root => some "WALLETD_ROOT"
  | passphrase => some "WALLETD_PASSPHRASE"
  | logFormat => some "WALLETD_LOG_FORMAT"
  | logLevel => some "WALLETD_LOG_LEVEL"
  | config => some "WALLETD_CONFIG"
  | mnemonic => some "WALLETD_MNEMONIC"
  | _ => none

def intake : Parameter → Intake
  | hex | tx => .nothing
  | note => .many
  | _ => .single

def everywhere : List Parameter := [root, passphrase, logFormat, logLevel, config]

end Parameter

namespace Verb

def word : Verb → String
  | create => "create"
  | importPhrase => "import"
  | names => "list"
  | «show» => "show"
  | generateKey => "generate-key"
  | listKeys => "list-keys"
  | describe => "describe"
  | sign => "sign"
  | verify => "verify"
  | taint => "taint"
  | untaint => "untaint"
  | annotate => "annotate"

def all : List Verb :=
  [create, importPhrase, names, «show», generateKey, listKeys, describe, sign, verify, taint, untaint, annotate]

def ofWord? (word : String) : Option Verb := all.find? (·.word = word)

def required : Verb → List Parameter
  | names => []
  | create | «show» | generateKey | listKeys => [.wallet]
  | importPhrase => [.wallet, .mnemonic]
  | describe | taint | untaint | annotate => [.wallet, .key]
  | sign => [.wallet, .key, .message]
  | verify => [.wallet, .key, .message, .signature]

def optional : Verb → List Parameter
  | generateKey | annotate => [.note]
  | sign => [.hex, .tx]
  | verify => [.hex]
  | _ => []

end Verb

inductive Usage where
  | help
  | version
  | nothingGiven
  | verbMissing
  | unknownVerb
  | optionMissing
  | unknownWord
  | valueMissing
  | repeated
  | badValue
  | unwantedValue
  deriving DecidableEq, Repr

def Parameter.check (parameter : Parameter) (value : String) : Except Usage Unit :=
  match parameter with
  | .root | .config => if value = "" then .error .valueMissing else .ok ()
  | .logFormat => if (LogFormat.ofText value).isOk then .ok () else .error .badValue
  | .note => if (Note.ofText value).isOk then .ok () else .error .badValue
  | _ => .ok ()

end WalletVault.CommandLine
