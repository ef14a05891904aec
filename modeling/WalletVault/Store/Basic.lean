import WalletVault.Cipher
import WalletVault.Files
import WalletVault.Form.Full
import WalletVault.Wallet.Fault

/-! Stores of sealed wallets. A sealed record is a nonce of twelve bytes and the encryption of a text under the digest
of a passphrase. It opens only if its tag is right, and a wallet only under its own name; a wrong passphrase and a
damaged record are one fault. Texts beyond the 2³⁶ bytes that the cipher takes are left out, and so is its fault for
them. Saving answers with the store it leaves, since a save that fails may still have left something behind. -/
namespace WalletVault

def isWalletName (name : String) : Bool :=
  match name.toList with
  | [] => false
  | first :: _ => first ≠ '.' ∧ name.toList.all fun c => c ≠ '/' ∧ c ≠ '\\' ∧ c ≠ '\x00'

inductive StoreFault where
  | noSuchWallet (name : String)
  | cannotDecrypt
  | invalidName (name : String)
  | nameMismatch (requested stored : String)
  | inputOutput (fault : FileFault)
  | wallet (fault : WalletFault)
  deriving DecidableEq, Repr

namespace StoreFault

def message : StoreFault → String
  | noSuchWallet name => "wallet does not exist: " ++ name
  | cannotDecrypt => "could not decrypt wallet"
  | invalidName name => "invalid wallet name: " ++ Quoted.text name
  | nameMismatch requested stored =>
    "wallet record " ++ Quoted.text requested ++ " holds wallet " ++ Quoted.text stored
  | inputOutput fault => "storage I/O error: " ++ fault.message
  | wallet fault => fault.message

def cause? : StoreFault → Option String
  | inputOutput fault => some fault.message
  | wallet fault => fault.cause?
  | _ => none

def kind : StoreFault → ErrorKind
  | noSuchWallet _ => .notFound
  | cannotDecrypt => .cryptoFailure
  | invalidName _ => .invalidInput
  | nameMismatch _ _ => .invalidInput
  | inputOutput _ => .storageFailure
  | wallet fault => fault.kind

end StoreFault

def requireName (name : String) : Except StoreFault Unit :=
  if isWalletName name then .ok () else .error (.invalidName name)

end WalletVault

namespace WalletVault.Sealed

def overhead : Nat := 28

def key (passphrase : String) : Bytes := Sha256.digest (Utf8.encode passphrase)

def encrypt (text : Bytes) (passphrase : String) (nonce : Block 12) : Bytes :=
  nonce.val ++ Gcm.encrypt (key passphrase) nonce.val text

def decrypt (record : Bytes) (passphrase : String) : Except StoreFault Bytes :=
  if record.length < overhead then .error .cannotDecrypt
  else
    match Gcm.decrypt? (key passphrase) (record.take 12) (record.drop 12) with
    | none => .error .cannotDecrypt
    | some text => .ok text

def wallet (record : Bytes) (name passphrase : String) : Except StoreFault Wallet :=
  match decrypt record passphrase with
  | .error fault => .error fault
  | .ok text =>
    match Wallet.ofFullForm text with
    | .error fault => .error (.wallet fault)
    | .ok wallet => if wallet.name = name then .ok wallet else .error (.nameMismatch name wallet.name)

def ofWallet (wallet : Wallet) (passphrase : String) (nonce : Block 12) : Bytes :=
  encrypt wallet.fullForm passphrase nonce

end WalletVault.Sealed

namespace WalletVault

class WalletStore (σ : Type) where
  save : σ → Wallet → (passphrase : String) → (nonce : Block 12) → Except StoreFault Unit × σ
  load : σ → (name passphrase : String) → Except StoreFault Wallet
  contains : σ → (name : String) → Except StoreFault Bool
  names : σ → Except StoreFault (List String)

end WalletVault
