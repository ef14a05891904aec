import WalletVault.Form.Public
import WalletVault.Session.Basic

/-! Commands: what an operator asks of a store of wallets, why a command may fail, and what it answers. Every command
but the listing of names needs a passphrase, and one that is about a stored wallet logs it in before anything else, so
that what is loaded does not matter. Every answer is one document, made of what may be shown to anyone. -/
namespace WalletVault

structure Payload where
  message : String
  isHex : Bool
  deriving DecidableEq, Repr

inductive Command where
  | create (wallet : String)
  | importPhrase (wallet phrase : String)
  | names
  | «show» (wallet : String)
  | generateKey (wallet : String) (notes : List Note)
  | listKeys (wallet : String)
  | describe (wallet key : String)
  | sign (wallet key : String) (payload : Payload) (asTx : Bool)
  | verify (wallet key : String) (payload : Payload) (signature : String)
  | taint (wallet key : String)
  | untaint (wallet key : String)
  | annotate (wallet key : String) (notes : List Note)
  deriving DecidableEq, Repr

inductive HexOption where
  | message
  | signature
  deriving DecidableEq, Repr

def HexOption.text : HexOption → String
  | .message => "--message"
  | .signature => "--signature"

inductive CommandFault where
  | passphraseMissing
  | notHex (option : HexOption) (fault : Hex.Fault)
  | session (fault : SessionFault)
  deriving DecidableEq, Repr

namespace CommandFault

def message : CommandFault → String
  | passphraseMissing => "a passphrase is required (--passphrase or WALLETD_PASSPHRASE)"
  | notHex option _ => option.text ++ " is not valid hex"
  | session fault => fault.message

def cause? : CommandFault → Option String
  | passphraseMissing => none
  | notHex _ fault => some fault.message
  | session fault => fault.cause?

end CommandFault

def Payload.bytes (payload : Payload) : Except CommandFault Bytes :=
  if payload.isHex then (Hex.decode payload.message).mapError (.notHex .message)
  else .ok (Utf8.encode payload.message)

inductive Answer where
  | created (wallet phrase : String)
  | imported (wallet : String)
  | names (list : List String)
  | shown (view : PublicWallet) (master : Option PublicKey)
  | key (view : PublicKeyView)
  | keys (views : List PublicKeyView)
  | bytes (raw : Bytes)
  | signature (tx : Signature)
  | valid (value : Bool)
  deriving DecidableEq, Repr

def Answer.json : Answer → Json
  | created wallet phrase => .object [("wallet", .text wallet), ("mnemonic", .text phrase)]
  | imported wallet => .object [("wallet", .text wallet), ("imported", .flag true)]
  | names list => .object [("wallets", .list (list.map Json.text))]
  | shown view master => .object [("wallet", view.json),
      ("master_public_key", match master with | some publicKey => publicKey.json | none => .null)]
  | key view => view.json
  | keys views => .object [("keys", .list (views.map PublicKeyView.json))]
  | bytes raw => .object [("signature", .text (Hex.encode raw))]
  | signature tx => tx.json
  | valid value => .object [("valid", .flag value)]

end WalletVault

namespace WalletVault.Command

variable {σ : Type} [WalletStore σ]

abbrev Result (σ : Type) := Except CommandFault Answer × Session σ

def reply {α : Type} (session : Session σ) (result : Except SessionFault α) (answer : α → Answer) : Result σ :=
  ((result.map answer).mapError .session, session)

def andThen {α : Type} (call : Except SessionFault α × Session σ) (next : α → Session σ → Result σ) :
    Result σ :=
  match call with
  | (.error fault, session) => (.error (.session fault), session)
  | (.ok value, session) => next value session

def withBytes (session : Session σ) (bytes : Except CommandFault Bytes) (next : Bytes → Result σ) : Result σ :=
  match bytes with
  | .error fault => (.error fault, session)
  | .ok bytes => next bytes

def describeKey (wallet key : String) (session : Session σ) : Result σ :=
  reply session (session.publicKey wallet key) .key

def showWallet (wallet : String) (session : Session σ) : Result σ :=
  reply session (session.wallet wallet) (.shown · (session.masterPublicKey wallet).toOption)

def signPayload (wallet key : String) (payload : Payload) (asTx : Bool) (session : Session σ) : Result σ :=
  withBytes session payload.bytes fun data =>
    if asTx then reply session (session.signTx wallet key data) .signature
    else reply session (session.signAny wallet key data) .bytes

def verifyPayload (wallet key : String) (payload : Payload) (signature : String) (session : Session σ) :
    Result σ :=
  withBytes session ((Hex.decode signature).mapError (.notHex .signature)) fun signature =>
    withBytes session payload.bytes fun data =>
      reply session (session.verifyAny wallet key data signature) .valid

def runWith (session : Session σ) (passphrase : String) (draw : Draw) : Command → Result σ
  | .names => reply session session.names .names
  | .create wallet =>
    andThen (session.create wallet passphrase draw) fun phrase session => (.ok (.created wallet phrase), session)
  | .importPhrase wallet phrase =>
    andThen (session.importPhrase wallet passphrase phrase draw) fun _ session =>
      (.ok (.imported wallet), session)
  | .show wallet => andThen (session.login wallet passphrase) fun _ => showWallet wallet
  | .generateKey wallet notes =>
    andThen (session.login wallet passphrase) fun _ session =>
      andThen (session.generate wallet passphrase notes draw) fun view session => (.ok (.key view), session)
  | .listKeys wallet =>
    andThen (session.login wallet passphrase) fun _ session => reply session (session.publicKeys wallet) .keys
  | .describe wallet key => andThen (session.login wallet passphrase) fun _ => describeKey wallet key
  | .sign wallet key payload asTx =>
    andThen (session.login wallet passphrase) fun _ => signPayload wallet key payload asTx
  | .verify wallet key payload signature =>
    andThen (session.login wallet passphrase) fun _ => verifyPayload wallet key payload signature
  | .taint wallet key =>
    andThen (session.login wallet passphrase) fun _ session =>
      andThen (session.taint wallet key passphrase draw) fun _ => describeKey wallet key
  | .untaint wallet key =>
    andThen (session.login wallet passphrase) fun _ session =>
      andThen (session.untaint wallet key passphrase draw) fun _ => describeKey wallet key
  | .annotate wallet key notes =>
    andThen (session.login wallet passphrase) fun _ session =>
      andThen (session.annotate wallet key passphrase notes draw) fun _ => describeKey wallet key

def execute (command : Command) (session : Session σ) (passphrase : Option String) (draw : Draw) : Result σ :=
  match command, passphrase with
  | .names, _ => runWith session "" draw .names
  | _, none => (.error .passphraseMissing, session)
  | command, some passphrase => runWith session passphrase draw command

end WalletVault.Command
