import WalletVault.Session.Basic

/-! The calls on a session as values, and their replies: a run of a session is a list of calls, each with
what was drawn for it. -/
namespace WalletVault

inductive Call where
  | create (name passphrase : String)
  | importPhrase (name passphrase phrase : String)
  | login (name passphrase : String)
  | logout (name : String)
  | isLoggedIn (name : String)
  | names
  | wallet (name : String)
  | publicKey (name key : String)
  | publicKeys (name : String)
  | masterPublicKey (name : String)
  | signTx (name key : String) (data : Bytes)
  | signAny (name key : String) (data : Bytes)
  | verifyAny (name key : String) (data signature : Bytes)
  | generate (name passphrase : String) (notes : List Note)
  | taint (name key passphrase : String)
  | untaint (name key passphrase : String)
  | annotate (name key passphrase : String) (notes : List Note)
  deriving DecidableEq, Repr

inductive Reply where
  | done
  | phrase (text : String)
  | flag (value : Bool)
  | names (list : List String)
  | wallet (view : PublicWallet)
  | key (view : PublicKeyView)
  | keys (views : List PublicKeyView)
  | publicKey (key : PublicKey)
  | signature (signature : Signature)
  | bytes (raw : Bytes)
  deriving DecidableEq, Repr

def Call.name? : Call → Option String
  | create name _ | importPhrase name _ _ | login name _ | logout name | isLoggedIn name | wallet name
  | publicKey name _ | publicKeys name | masterPublicKey name | signTx name _ _ | signAny name _ _
  | verifyAny name _ _ _ | generate name _ _ | taint name _ _ | untaint name _ _ | annotate name _ _ _ =>
    some name
  | names => none

namespace Session

variable {σ : Type} [WalletStore σ]

def step (session : Session σ) (draw : Draw) : Call → Except SessionFault Reply × Session σ
  | .create name passphrase =>
    let (result, session) := session.create name passphrase draw
    (result.map .phrase, session)
  | .importPhrase name passphrase phrase =>
    let (result, session) := session.importPhrase name passphrase phrase draw
    (result.map fun () => .done, session)
  | .login name passphrase =>
    let (result, session) := session.login name passphrase
    (result.map fun () => .done, session)
  | .logout name => (.ok .done, session.logout name)
  | .isLoggedIn name => (.ok (.flag (session.isLoggedIn name)), session)
  | .names => (session.names.map .names, session)
  | .wallet name => ((session.wallet name).map .wallet, session)
  | .publicKey name key => ((session.publicKey name key).map .key, session)
  | .publicKeys name => ((session.publicKeys name).map .keys, session)
  | .masterPublicKey name => ((session.masterPublicKey name).map .publicKey, session)
  | .signTx name key data => ((session.signTx name key data).map .signature, session)
  | .signAny name key data => ((session.signAny name key data).map .bytes, session)
  | .verifyAny name key data signature => ((session.verifyAny name key data signature).map .flag, session)
  | .generate name passphrase notes =>
    let (result, session) := session.generate name passphrase notes draw
    (result.map .key, session)
  | .taint name key passphrase =>
    let (result, session) := session.taint name key passphrase draw
    (result.map fun () => .done, session)
  | .untaint name key passphrase =>
    let (result, session) := session.untaint name key passphrase draw
    (result.map fun () => .done, session)
  | .annotate name key passphrase notes =>
    let (result, session) := session.annotate name key passphrase notes draw
    (result.map fun () => .done, session)

def run (session : Session σ) : List (Draw × Call) → List (Except SessionFault Reply) × Session σ
  | [] => ([], session)
  | (draw, call) :: rest =>
    let (reply, session) := session.step draw call
    let (replies, session) := session.run rest
    (reply :: replies, session)

end Session

end WalletVault
