import Std.Data.ExtTreeSet
import WalletVault.Proofs.Wallet.History
import WalletVault.Session.Call

/-! What a session is to its caller: a ledger that keeps one passphrase and one wallet for every name, and
the set of names that are logged in. Nothing is encoded, sealed or loaded. -/
namespace WalletVault

def Call.opens? : Call → Option (String × String)
  | login name passphrase | generate name passphrase _ | taint name _ passphrase | untaint name _ passphrase
  | annotate name _ passphrase _ => some (name, passphrase)
  | _ => none

def Call.passphrase? : Call → Option String
  | create _ passphrase | importPhrase _ passphrase _ => some passphrase
  | call => call.opens?.map Prod.snd

theorem Call.opensPassphrase {call : Call} {name passphrase : String}
    (opens : call.opens? = some (name, passphrase)) : call.passphrase? = some passphrase := by
  cases call <;> simp_all [opens?, passphrase?]

structure Account where
  passphrase : String
  wallet : Wallet

structure Ledger where
  accounts : TextMap Account
  loggedIn : Std.ExtTreeSet String

namespace Ledger
variable {α : Type}

def empty : Ledger := ⟨∅, ∅⟩

def enroll (ledger : Ledger) (name passphrase : String) (wallet : Wallet) : Ledger :=
  ⟨ledger.accounts.insert name ⟨passphrase, wallet⟩, ledger.loggedIn.insert name⟩

def requireUnused (ledger : Ledger) (name : String) : Except SessionFault Unit :=
  if isWalletName name then
    if name ∈ ledger.accounts then .error (.walletExists name) else .ok ()
  else .error (.store (.invalidName name))

def create (ledger : Ledger) (name passphrase : String) (entropy : Block 32) :
    Except SessionFault String × Ledger :=
  match ledger.requireUnused name with
  | .error fault => (.error fault, ledger)
  | .ok () =>
    match Wallet.create name entropy with
    | .error fault => (.error (.wallet fault), ledger)
    | .ok (wallet, phrase) => (.ok phrase, ledger.enroll name passphrase wallet)

def importPhrase (ledger : Ledger) (name passphrase phrase : String) : Except SessionFault Unit × Ledger :=
  match ledger.requireUnused name with
  | .error fault => (.error fault, ledger)
  | .ok () =>
    match Wallet.importPhrase name phrase with
    | .error fault => (.error (.wallet fault), ledger)
    | .ok wallet => (.ok (), ledger.enroll name passphrase wallet)

def unlock (ledger : Ledger) (name passphrase : String) : Except SessionFault Wallet :=
  if isWalletName name then
    match ledger.accounts[name]? with
    | none => .error (.noSuchWallet name)
    | some account =>
      if account.passphrase = passphrase then .ok account.wallet else .error (.noSuchWallet name)
  else .error (.store (.invalidName name))

def login (ledger : Ledger) (name passphrase : String) : Except SessionFault Unit × Ledger :=
  match ledger.unlock name passphrase with
  | .error fault => (.error fault, ledger)
  | .ok _ => (.ok (), { ledger with loggedIn := ledger.loggedIn.insert name })

def logout (ledger : Ledger) (name : String) : Ledger :=
  { ledger with loggedIn := ledger.loggedIn.erase name }

def wallet? (ledger : Ledger) (name : String) : Option Wallet :=
  if name ∈ ledger.loggedIn then ledger.accounts[name]?.map Account.wallet else none

def query (ledger : Ledger) (name : String) (f : Wallet → Except WalletFault α) : Except SessionFault α :=
  match ledger.wallet? name with
  | none => .error (.noSuchWallet name)
  | some wallet => (f wallet).mapError .wallet

def change (ledger : Ledger) (name passphrase : String) (f : Wallet → Except WalletFault (Wallet × α)) :
    Except SessionFault α × Ledger :=
  if name ∈ ledger.loggedIn then
    match ledger.unlock name passphrase with
    | .error fault => (.error fault, ledger)
    | .ok wallet =>
      match f wallet with
      | .error fault => (.error (.wallet fault), ledger)
      | .ok (wallet, answer) => (.ok answer, ledger.enroll name passphrase wallet)
  else (.error (.noSuchWallet name), ledger)

/-- One call. Of what was drawn for it the nonce is not used. -/
def step (ledger : Ledger) (draw : Draw) : Call → Except SessionFault Reply × Ledger
  | .create name passphrase =>
    let (result, ledger) := ledger.create name passphrase draw.entropy
    (result.map .phrase, ledger)
  | .importPhrase name passphrase phrase =>
    let (result, ledger) := ledger.importPhrase name passphrase phrase
    (result.map fun () => .done, ledger)
  | .login name passphrase =>
    let (result, ledger) := ledger.login name passphrase
    (result.map fun () => .done, ledger)
  | .logout name => (.ok .done, ledger.logout name)
  | .isLoggedIn name => (.ok (.flag (ledger.loggedIn.contains name)), ledger)
  | .names => (.ok (.names ledger.accounts.keys), ledger)
  | .wallet name => ((ledger.query name fun wallet => .ok wallet.view).map .wallet, ledger)
  | .publicKey name key => ((ledger.query name fun wallet => wallet.ring.describe key).map .key, ledger)
  | .publicKeys name => ((ledger.query name fun wallet => .ok wallet.ring.views).map .keys, ledger)
  | .masterPublicKey name =>
    ((ledger.query name fun wallet => wallet.masterKey.map MasterKey.publicKey).map .publicKey, ledger)
  | .signTx name key data =>
    ((ledger.query name fun wallet => wallet.ring.signTx key data).map .signature, ledger)
  | .signAny name key data => ((ledger.query name fun wallet => wallet.ring.signAny key data).map .bytes, ledger)
  | .verifyAny name key data signature =>
    ((ledger.query name fun wallet => wallet.ring.verifyAny key data signature).map .flag, ledger)
  | .generate name passphrase notes =>
    let (result, ledger) := ledger.change name passphrase fun wallet =>
      (wallet.generate draw.seed notes).map fun (wallet, pair) => (wallet, pair.view)
    (result.map .key, ledger)
  | .taint name key passphrase =>
    let (result, ledger) := ledger.change name passphrase fun wallet => (wallet.taint key).map (·, ())
    (result.map fun () => .done, ledger)
  | .untaint name key passphrase =>
    let (result, ledger) := ledger.change name passphrase fun wallet => (wallet.untaint key).map (·, ())
    (result.map fun () => .done, ledger)
  | .annotate name key passphrase notes =>
    let (result, ledger) := ledger.change name passphrase fun wallet => (wallet.annotate key notes).map (·, ())
    (result.map fun () => .done, ledger)

def run (ledger : Ledger) : List (Draw × Call) → List (Except SessionFault Reply) × Ledger
  | [] => ([], ledger)
  | (draw, call) :: rest =>
    let (reply, ledger) := ledger.step draw call
    let (replies, ledger) := ledger.run rest
    (reply :: replies, ledger)

theorem unusedValid {ledger : Ledger} {name : String} (free : ledger.requireUnused name = .ok ()) :
    isWalletName name = true := by
  unfold requireUnused at free
  split at free
  · rename_i valid
    exact valid
  · cases free

theorem unlockSource {ledger : Ledger} {name passphrase : String} {wallet : Wallet}
    (opened : ledger.unlock name passphrase = .ok wallet) :
    ∃ account, ledger.accounts[name]? = some account ∧ account.wallet = wallet := by
  unfold unlock at opened
  split at opened
  · split at opened
    · cases opened
    · rename_i account found
      split at opened <;> cases opened
      exact ⟨account, found, rfl⟩
  · cases opened

theorem enrolledAccount (ledger : Ledger) (name passphrase : String) (wallet : Wallet) (other : String) :
    (ledger.enroll name passphrase wallet).accounts[other]? =
      if name = other then some ⟨passphrase, wallet⟩ else ledger.accounts[other]? :=
  TextMap.lookupInsert ledger.accounts name other ⟨passphrase, wallet⟩

theorem enrolledWallet (ledger : Ledger) (name passphrase : String) (wallet : Wallet) (other : String) :
    (ledger.enroll name passphrase wallet).wallet? other =
      if name = other then some wallet else ledger.wallet? other := by
  simp only [wallet?, enrolledAccount]
  by_cases same : name = other
  · simp [enroll, same]
  · simp [enroll, same]

theorem loggedInWallet {ledger : Ledger} {name : String} {account : Account}
    (found : ledger.accounts[name]? = some account) (other : String) :
    wallet? ⟨ledger.accounts, ledger.loggedIn.insert name⟩ other =
      if name = other then some account.wallet else ledger.wallet? other := by
  by_cases same : name = other
  · subst same
    simp [wallet?, found]
  · simp [wallet?, same]

theorem loggedOutWallet (ledger : Ledger) (name other : String) :
    (ledger.logout name).wallet? other = if name = other then none else ledger.wallet? other := by
  by_cases same : name = other
  · simp [wallet?, logout, same]
  · simp [wallet?, logout, same]

/-! Ledgers in which every account has the one passphrase stay so, if every call gives it. -/

def OnePassphrase (ledger : Ledger) (passphrase : String) : Prop :=
  ∀ (name : String) (account : Account), ledger.accounts[name]? = some account → account.passphrase = passphrase

theorem enrollOne {ledger : Ledger} {passphrase : String} (one : ledger.OnePassphrase passphrase) (name : String)
    (wallet : Wallet) : (ledger.enroll name passphrase wallet).OnePassphrase passphrase := by
  intro other account found
  rw [enrolledAccount] at found
  split at found
  · cases found
    rfl
  · exact one other account found

theorem changeOne {ledger : Ledger} {passphrase : String} (one : ledger.OnePassphrase passphrase) (name : String)
    (f : Wallet → Except WalletFault (Wallet × α)) :
    (ledger.change name passphrase f).2.OnePassphrase passphrase := by
  unfold change
  split
  · split
    · exact one
    · split
      · exact one
      · exact enrollOne one name _
  · exact one

theorem createOne {ledger : Ledger} {passphrase : String} (one : ledger.OnePassphrase passphrase) (name : String)
    (entropy : Block 32) : (ledger.create name passphrase entropy).2.OnePassphrase passphrase := by
  unfold create
  split
  · exact one
  · split
    · exact one
    · exact enrollOne one name _

theorem importOne {ledger : Ledger} {passphrase : String} (one : ledger.OnePassphrase passphrase)
    (name phrase : String) : (ledger.importPhrase name passphrase phrase).2.OnePassphrase passphrase := by
  unfold importPhrase
  split
  · exact one
  · split
    · exact one
    · exact enrollOne one name _

theorem loginOne {ledger : Ledger} {passphrase : String} (one : ledger.OnePassphrase passphrase)
    (name given : String) : (ledger.login name given).2.OnePassphrase passphrase := by
  unfold login
  split
  · exact one
  · exact one

theorem stepOne {ledger : Ledger} {passphrase : String} (one : ledger.OnePassphrase passphrase) (draw : Draw)
    {call : Call} (given : ∀ other, call.passphrase? = some other → other = passphrase) :
    (ledger.step draw call).2.OnePassphrase passphrase := by
  cases call with
  | create name other => cases given other rfl; exact createOne one name _
  | importPhrase name other phrase => cases given other rfl; exact importOne one name phrase
  | login name other => exact loginOne one name other
  | generate name other notes => cases given other rfl; exact changeOne one name _
  | taint name key other => cases given other rfl; exact changeOne one name _
  | untaint name key other => cases given other rfl; exact changeOne one name _
  | annotate name key other notes => cases given other rfl; exact changeOne one name _
  | _ => exact one

end Ledger

end WalletVault
