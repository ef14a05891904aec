import WalletVault.Algorithm

/-! The kinds that every failure falls into, and the faults of wallet operations and of wallet records. No text tells
anything of a private key or of a derivation node. -/
namespace WalletVault

inductive ErrorKind where
  | notFound
  | alreadyExists
  | tainted
  | invalidInput
  | cryptoFailure
  | storageFailure
  | unsupported
  deriving DecidableEq, Repr

namespace ErrorKind

def all : List ErrorKind :=
  [notFound, alreadyExists, tainted, invalidInput, cryptoFailure, storageFailure, unsupported]

def text : ErrorKind → String
  | notFound => "not found"
  | alreadyExists => "already exists"
  | tainted => "tainted"
  | invalidInput => "invalid input"
  | cryptoFailure => "crypto failure"
  | storageFailure => "storage failure"
  | unsupported => "unsupported"

def word : ErrorKind → String
  | notFound => "not_found"
  | alreadyExists => "already_exists"
  | tainted => "tainted"
  | invalidInput => "invalid_input"
  | cryptoFailure => "crypto_failure"
  | storageFailure => "storage_failure"
  | unsupported => "unsupported"

end ErrorKind

inductive Capability where
  | untainting
  | masterKeys
  deriving DecidableEq, Repr

def Capability.text : Capability → String
  | .untainting => "untainting keys"
  | .masterKeys => "master keys"

inductive NodeFault where
  | missing
  | notBase64
  | badLength (fault : CryptoFault)
  deriving DecidableEq, Repr

def NodeFault.message : NodeFault → String
  | .missing => "missing node"
  | .notBase64 => "node is not base64"
  | .badLength fault => fault.message

inductive KeyRecordFault where
  | mismatch (publicKey : String)
  | missingIndex (publicKey : String)
  | notDerived (publicKey : String) (index : UInt32)
  deriving DecidableEq, Repr

def KeyRecordFault.message : KeyRecordFault → String
  | .mismatch publicKey => "public key " ++ publicKey ++ " does not match its private key"
  | .missingIndex publicKey => "HD key " ++ publicKey ++ " has no index"
  | .notDerived publicKey index =>
    "key " ++ publicKey ++ " is not derived from the wallet node at index " ++ toString index

inductive WalletFault where
  | noSuchKey
  | keyTainted
  | alreadyTainted
  | notTainted
  | unsupported (capability : Capability) (version : UInt32)
  | invalidMnemonic (fault : Mnemonic.Fault)
  | unsupportedVersion (version : UInt32)
  | invalidNode (fault : NodeFault)
  | invalidKeyRecord (fault : KeyRecordFault)
  | indexOverflow (index : UInt32)
  | keyEncoding (fault : KeyFault)
  | crypto (fault : CryptoFault)
  | malformedRecord (line column : Nat)
  deriving DecidableEq, Repr

namespace WalletFault

def message : WalletFault → String
  | noSuchKey => "public key does not exist"
  | keyTainted => "public key is tainted"
  | alreadyTainted => "public key is already tainted"
  | notTainted => "public key is not tainted"
  | unsupported capability version =>
    "wallet version " ++ toString version ++ " does not support " ++ capability.text
  | invalidMnemonic fault => "invalid mnemonic: " ++ fault.message
  | unsupportedVersion version => "unsupported wallet version: " ++ toString version
  | invalidNode fault => "invalid derivation node: " ++ fault.message
  | invalidKeyRecord fault => "invalid key record: " ++ fault.message
  | indexOverflow index => "derivation index " ++ toString index ++ " overflows the hardened range"
  | keyEncoding fault => "invalid key encoding: " ++ fault.message
  | crypto fault => "crypto error: " ++ fault.message
  | malformedRecord line column => "serialization error: malformed wallet record at line " ++
      toString line ++ ", column " ++ toString column

def cause? : WalletFault → Option String
  | keyEncoding fault => some fault.message
  | crypto fault => some fault.message
  | _ => none

def kind : WalletFault → ErrorKind
  | noSuchKey => .notFound
  | alreadyTainted => .alreadyExists
  | keyTainted => .tainted
  | unsupported _ _ => .unsupported
  | crypto (.derivation _) => .cryptoFailure
  | _ => .invalidInput

end WalletFault

end WalletVault
