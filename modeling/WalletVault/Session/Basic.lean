import WalletVault.Store.Basic

/-! Sessions over a store of wallets. A wallet is logged in by its passphrase and then answers queries from a loaded
copy; a change goes back to the stored record, saves the changed wallet and loads that. A wallet that is not logged
in, one that is not stored and one whose passphrase is wrong are one fault, so that callers cannot tell them apart. -/
namespace WalletVault

inductive SessionFault where
  | noSuchWallet (name : String)
  | walletExists (name : String)
  | wallet (fault : WalletFault)
  | store (fault : StoreFault)
  deriving DecidableEq, Repr

namespace SessionFault

def message : SessionFault → String
  | noSuchWallet name => "wallet does not exist: " ++ name
  | walletExists name => "wallet already exists: " ++ name
  | wallet fault => fault.message
  | store fault => fault.message

def cause? : SessionFault → Option String
  | wallet fault => fault.cause?
  | store fault => fault.cause?
  | _ => none

def kind : SessionFault → ErrorKind
  | noSuchWallet _ => .notFound
  | walletExists _ => .alreadyExists
  | wallet fault => fault.kind
  | store fault => fault.kind

def ofStore : StoreFault → SessionFault
  | .noSuchWallet name => noSuchWallet name
  | .wallet fault => wallet fault
  | fault => store fault

end SessionFault

/-- What is drawn at random for one call: the entropy of a new wallet, the seed of a legacy key, and the
nonce of a sealed record. -/
structure Draw where
  entropy : Block 32
  seed : Block 32
  nonce : Block 12
  deriving DecidableEq

structure Session (σ : Type) where
  store : σ
  loaded : TextMap Wallet

namespace Session

variable {σ : Type} [WalletStore σ] {α : Type}

def start (store : σ) : Session σ := ⟨store, ∅⟩

def keep (session : Session σ) (name : String) (wallet : Wallet) (passphrase : String) (nonce : Block 12) :
    Except SessionFault Unit × Session σ :=
  match WalletStore.save session.store wallet passphrase nonce with
  | (.error fault, store) => (.error (.ofStore fault), { session with store := store })
  | (.ok (), store) => (.ok (), ⟨store, session.loaded.insert name wallet⟩)

def requireUnused (session : Session σ) (name : String) : Except SessionFault Unit :=
  match WalletStore.contains session.store name with
  | .error fault => .error (.ofStore fault)
  | .ok true => .error (.walletExists name)
  | .ok false => .ok ()

def create (session : Session σ) (name passphrase : String) (draw : Draw) :
    Except SessionFault String × Session σ :=
  match session.requireUnused name with
  | .error fault => (.error fault, session)
  | .ok () =>
    match Wallet.create name draw.entropy with
    | .error fault => (.error (.wallet fault), session)
    | .ok (wallet, phrase) =>
      let (result, session) := session.keep name wallet passphrase draw.nonce
      (result.map fun () => phrase, session)

def importPhrase (session : Session σ) (name passphrase phrase : String) (draw : Draw) :
    Except SessionFault Unit × Session σ :=
  match session.requireUnused name with
  | .error fault => (.error fault, session)
  | .ok () =>
    match Wallet.importPhrase name phrase with
    | .error fault => (.error (.wallet fault), session)
    | .ok wallet => session.keep name wallet passphrase draw.nonce

def loadStored (session : Session σ) (name passphrase : String) : Except SessionFault Wallet :=
  match WalletStore.load session.store name passphrase with
  | .ok wallet => .ok wallet
  | .error (.noSuchWallet _) => .error (.noSuchWallet name)
  | .error .cannotDecrypt => .error (.noSuchWallet name)
  | .error fault => .error (.ofStore fault)

def login (session : Session σ) (name passphrase : String) : Except SessionFault Unit × Session σ :=
  match session.loadStored name passphrase with
  | .error fault => (.error fault, session)
  | .ok wallet => (.ok (), { session with loaded := session.loaded.insert name wallet })

def logout (session : Session σ) (name : String) : Session σ :=
  { session with loaded := session.loaded.erase name }

def isLoggedIn (session : Session σ) (name : String) : Bool := session.loaded.contains name

def names (session : Session σ) : Except SessionFault (List String) :=
  (WalletStore.names session.store).mapError .ofStore

def query (session : Session σ) (name : String) (f : Wallet → Except WalletFault α) : Except SessionFault α :=
  match session.loaded[name]? with
  | none => .error (.noSuchWallet name)
  | some wallet => (f wallet).mapError .wallet

def change (session : Session σ) (name passphrase : String) (nonce : Block 12)
    (f : Wallet → Except WalletFault (Wallet × α)) : Except SessionFault α × Session σ :=
  if session.isLoggedIn name then
    match session.loadStored name passphrase with
    | .error fault => (.error fault, session)
    | .ok wallet =>
      match f wallet with
      | .error fault => (.error (.wallet fault), session)
      | .ok (wallet, answer) =>
        let (result, session) := session.keep name wallet passphrase nonce
        (result.map fun () => answer, session)
  else (.error (.noSuchWallet name), session)

def wallet (session : Session σ) (name : String) : Except SessionFault PublicWallet :=
  session.query name fun wallet => .ok wallet.view

def publicKey (session : Session σ) (name key : String) : Except SessionFault PublicKeyView :=
  session.query name fun wallet => wallet.ring.describe key

def publicKeys (session : Session σ) (name : String) : Except SessionFault (List PublicKeyView) :=
  session.query name fun wallet => .ok wallet.ring.views

def masterPublicKey (session : Session σ) (name : String) : Except SessionFault PublicKey :=
  session.query name fun wallet => wallet.masterKey.map MasterKey.publicKey

def signAny (session : Session σ) (name key : String) (data : Bytes) : Except SessionFault Bytes :=
  session.query name fun wallet => wallet.ring.signAny key data

def signTx (session : Session σ) (name key : String) (data : Bytes) : Except SessionFault Signature :=
  session.query name fun wallet => wallet.ring.signTx key data

def verifyAny (session : Session σ) (name key : String) (data signature : Bytes) : Except SessionFault Bool :=
  session.query name fun wallet => wallet.ring.verifyAny key data signature

def generate (session : Session σ) (name passphrase : String) (notes : List Note) (draw : Draw) :
    Except SessionFault PublicKeyView × Session σ :=
  session.change name passphrase draw.nonce fun wallet =>
    (wallet.generate draw.seed notes).map fun (wallet, pair) => (wallet, pair.view)

def taint (session : Session σ) (name key passphrase : String) (draw : Draw) :
    Except SessionFault Unit × Session σ :=
  session.change name passphrase draw.nonce fun wallet => (wallet.taint key).map (·, ())

def untaint (session : Session σ) (name key passphrase : String) (draw : Draw) :
    Except SessionFault Unit × Session σ :=
  session.change name passphrase draw.nonce fun wallet => (wallet.untaint key).map (·, ())

def annotate (session : Session σ) (name key passphrase : String) (notes : List Note)
    (draw : Draw) : Except SessionFault Unit × Session σ :=
  session.change name passphrase draw.nonce fun wallet => (wallet.annotate key notes).map (·, ())

end Session

end WalletVault
