import WalletVault.Proofs.Fallible
import WalletVault.Session.Call

/-! The six ways in which the calls on a session work. What is shown of each of them holds of every call. -/
namespace WalletVault

/- What a call does: it enrolls a new wallet under a free name, enters or leaves a name, asks the loaded copy
of a wallet if there is one, lists the names, or edits a stored wallet. -/
inductive Shape where
  | enroll (name passphrase : String) (made : Except WalletFault (Wallet × Reply))
  | enter (name passphrase : String)
  | leave (name : String)
  | ask (name : String) (answer : Option Wallet → Except SessionFault Reply)
  | list
  | edit (name passphrase : String) (change : Wallet → Except WalletFault (Wallet × Reply))

namespace Shape

def name? : Shape → Option String
  | enroll name _ _ | enter name _ | leave name | ask name _ | edit name _ _ => some name
  | list => none

def saves : Shape → Bool
  | enroll _ _ _ | edit _ _ _ => true
  | _ => false

def query (name : String) (f : Wallet → Except WalletFault Reply) : Shape :=
  ask name fun
    | none => .error (.noSuchWallet name)
    | some wallet => (f wallet).mapError .wallet

def ofCall (draw : Draw) : Call → Shape
  | .create name passphrase => enroll name passphrase
      ((Wallet.create name draw.entropy).map fun (wallet, phrase) => (wallet, .phrase phrase))
  | .importPhrase name passphrase phrase => enroll name passphrase
      ((Wallet.importPhrase name phrase).map fun wallet => (wallet, .done))
  | .login name passphrase => enter name passphrase
  | .logout name => leave name
  | .isLoggedIn name => ask name fun copy => .ok (.flag copy.isSome)
  | .names => list
  | .wallet name => query name fun wallet => .ok (.wallet wallet.view)
  | .publicKey name key => query name fun wallet => (wallet.ring.describe key).map .key
  | .publicKeys name => query name fun wallet => .ok (.keys wallet.ring.views)
  | .masterPublicKey name => query name fun wallet => (wallet.masterKey.map MasterKey.publicKey).map .publicKey
  | .signTx name key data => query name fun wallet => (wallet.ring.signTx key data).map .signature
  | .signAny name key data => query name fun wallet => (wallet.ring.signAny key data).map .bytes
  | .verifyAny name key data signature => query name fun wallet => (wallet.ring.verifyAny key data signature).map .flag
  | .generate name passphrase notes => edit name passphrase fun wallet =>
      (wallet.generate draw.seed notes).map fun (wallet, pair) => (wallet, .key pair.view)
  | .taint name key passphrase => edit name passphrase fun wallet => (wallet.taint key).map (·, .done)
  | .untaint name key passphrase => edit name passphrase fun wallet => (wallet.untaint key).map (·, .done)
  | .annotate name key passphrase notes =>
      edit name passphrase fun wallet => (wallet.annotate key notes).map (·, .done)

theorem ofCallName (draw : Draw) (call : Call) : (ofCall draw call).name? = call.name? := by
  cases call <;> rfl

end Shape

namespace Session
variable {σ : Type} [WalletStore σ] {α β : Type}

theorem loadStoredOk {session : Session σ} {name passphrase : String} {wallet : Wallet} :
    session.loadStored name passphrase = .ok wallet ↔
      WalletStore.load session.store name passphrase = .ok wallet := by
  unfold loadStored
  cases WalletStore.load session.store name passphrase with
  | ok loaded => simp
  | error fault => cases fault <;> simp

theorem requireUnusedOk {session : Session σ} {name : String} :
    session.requireUnused name = .ok () ↔ WalletStore.contains session.store name = .ok false := by
  unfold requireUnused
  cases WalletStore.contains session.store name with
  | error fault => simp
  | ok found => cases found <;> simp

def enroll (session : Session σ) (name passphrase : String) (nonce : Block 12)
    (made : Except WalletFault (Wallet × α)) : Except SessionFault α × Session σ :=
  match session.requireUnused name with
  | .error fault => (.error fault, session)
  | .ok () =>
    match made with
    | .error fault => (.error (.wallet fault), session)
    | .ok (wallet, answer) =>
      let (result, session) := session.keep name wallet passphrase nonce
      (result.map fun () => answer, session)

def perform (session : Session σ) (nonce : Block 12) : Shape → Except SessionFault Reply × Session σ
  | .enroll name passphrase made => session.enroll name passphrase nonce made
  | .enter name passphrase =>
    let (result, session) := session.login name passphrase
    (result.map fun () => .done, session)
  | .leave name => (.ok .done, session.logout name)
  | .ask name answer => (answer session.loaded[name]?, session)
  | .list => (session.names.map .names, session)
  | .edit name passphrase change => session.change name passphrase nonce change

theorem createEnrolls (session : Session σ) (name passphrase : String) (draw : Draw) :
    session.create name passphrase draw =
      session.enroll name passphrase draw.nonce (Wallet.create name draw.entropy) := by
  unfold create enroll
  cases session.requireUnused name with
  | error fault => rfl
  | ok => cases Wallet.create name draw.entropy <;> rfl

theorem importEnrolls (session : Session σ) (name passphrase phrase : String) (draw : Draw) :
    session.importPhrase name passphrase phrase draw =
      session.enroll name passphrase draw.nonce ((Wallet.importPhrase name phrase).map (·, ())) := by
  unfold importPhrase enroll
  cases session.requireUnused name with
  | error fault => rfl
  | ok =>
    cases Wallet.importPhrase name phrase with
    | error fault => rfl
    | ok wallet =>
      simp only [Except.map]
      cases session.keep name wallet passphrase draw.nonce with
      | mk result next => cases result <;> rfl

theorem enrollMap (session : Session σ) (name passphrase : String) (nonce : Block 12)
    (made : Except WalletFault (Wallet × α)) (f : α → β) :
    ((session.enroll name passphrase nonce made).1.map f, (session.enroll name passphrase nonce made).2) =
      session.enroll name passphrase nonce (made.map fun (wallet, answer) => (wallet, f answer)) := by
  unfold enroll
  cases session.requireUnused name with
  | error fault => rfl
  | ok =>
    cases made with
    | error fault => rfl
    | ok both =>
      obtain ⟨wallet, answer⟩ := both
      simp only [Except.map]
      cases (session.keep name wallet passphrase nonce).1 <;> rfl

theorem changeMap (session : Session σ) (name passphrase : String) (nonce : Block 12)
    (change : Wallet → Except WalletFault (Wallet × α)) (f : α → β) :
    ((session.change name passphrase nonce change).1.map f, (session.change name passphrase nonce change).2) =
      session.change name passphrase nonce fun wallet =>
        (change wallet).map fun (next, answer) => (next, f answer) := by
  unfold Session.change
  split
  · cases session.loadStored name passphrase with
    | error fault => rfl
    | ok wallet =>
      cases done : change wallet with
      | error fault => simp only [done]; rfl
      | ok both =>
        obtain ⟨next, answer⟩ := both
        simp only [done, Except.map]
        cases (session.keep name next passphrase nonce).1 <;> rfl
  · rfl

theorem queryMap (session : Session σ) (nonce : Block 12) (name : String) (f : Wallet → Except WalletFault α)
    (g : α → Reply) : ((session.query name f).map g, session) =
      session.perform nonce (.query name fun wallet => (f wallet).map g) := by
  refine Prod.ext ?_ rfl
  simp only [Session.query, perform, Shape.query]
  cases session.loaded[name]? with
  | none => rfl
  | some wallet =>
    simp only
    cases f wallet <;> rfl

theorem stepShape (session : Session σ) (draw : Draw) (call : Call) :
    session.step draw call = session.perform draw.nonce (.ofCall draw call) := by
  cases call with
  | create name passphrase =>
    rw [step, createEnrolls]
    exact session.enrollMap name passphrase _ _ Reply.phrase
  | importPhrase name passphrase phrase =>
    rw [step, importEnrolls]
    refine (session.enrollMap name passphrase _ _ fun () => Reply.done).trans ?_
    rw [Fallible.mapMap]
    rfl
  | login name passphrase => rfl
  | logout name => rfl
  | isLoggedIn name =>
    rw [step, isLoggedIn, Std.ExtTreeMap.contains_eq_isSome_getElem?]
    rfl
  | names => rfl
  | wallet name => exact session.queryMap _ name _ _
  | publicKey name key => exact session.queryMap _ name _ _
  | publicKeys name => exact session.queryMap _ name _ _
  | masterPublicKey name => exact session.queryMap _ name _ _
  | signTx name key data => exact session.queryMap _ name _ _
  | signAny name key data => exact session.queryMap _ name _ _
  | verifyAny name key data signature => exact session.queryMap _ name _ _
  | generate name passphrase notes =>
    refine (session.changeMap name passphrase _ _ Reply.key).trans ?_
    simp only [Fallible.mapMap]
    rfl
  | taint name key passphrase =>
    refine (session.changeMap name passphrase _ _ fun () => Reply.done).trans ?_
    simp only [Fallible.mapMap]
    rfl
  | untaint name key passphrase =>
    refine (session.changeMap name passphrase _ _ fun () => Reply.done).trans ?_
    simp only [Fallible.mapMap]
    rfl
  | annotate name key passphrase notes =>
    refine (session.changeMap name passphrase _ _ fun () => Reply.done).trans ?_
    simp only [Fallible.mapMap]
    rfl

/- What a call does, with its reply and the session after it. A call that is refused changes nothing; a save
that fails may leave another store behind. -/
inductive Effect (session : Session σ) (nonce : Block 12) :
    Shape → Except SessionFault Reply × Session σ → Prop where
  | refused {shape : Shape} (fault : SessionFault) : Effect session nonce shape (.error fault, session)
  | unsaved {shape : Shape} {wallet : Wallet} {passphrase : String} {fault : StoreFault} {store : σ}
      (saving : shape.saves = true)
      (failed : WalletStore.save session.store wallet passphrase nonce = (.error fault, store)) :
      Effect session nonce shape (.error (.ofStore fault), ⟨store, session.loaded⟩)
  | enrolled {name passphrase : String} {made : Except WalletFault (Wallet × Reply)} {wallet : Wallet}
      {answer : Reply} {store : σ} (free : session.requireUnused name = .ok ()) (done : made = .ok (wallet, answer))
      (saved : WalletStore.save session.store wallet passphrase nonce = (.ok (), store)) :
      Effect session nonce (.enroll name passphrase made)
        (.ok answer, ⟨store, session.loaded.insert name wallet⟩)
  | edited {name passphrase : String} {change : Wallet → Except WalletFault (Wallet × Reply)}
      {wallet next : Wallet} {answer : Reply} {store : σ}
      (opened : session.loadStored name passphrase = .ok wallet) (done : change wallet = .ok (next, answer))
      (saved : WalletStore.save session.store next passphrase nonce = (.ok (), store)) :
      Effect session nonce (.edit name passphrase change)
        (.ok answer, ⟨store, session.loaded.insert name next⟩)
  | entered {name passphrase : String} {wallet : Wallet}
      (opened : session.loadStored name passphrase = .ok wallet) :
      Effect session nonce (.enter name passphrase) (.ok .done, ⟨session.store, session.loaded.insert name wallet⟩)
  | left (name : String) : Effect session nonce (.leave name) (.ok .done, session.logout name)
  | asked {name : String} {answer : Option Wallet → Except SessionFault Reply} {reply : Reply}
      (answered : answer session.loaded[name]? = .ok reply) :
      Effect session nonce (.ask name answer) (.ok reply, session)
  | listed (list : List String) : Effect session nonce .list (.ok (.names list), session)

theorem performEffect (session : Session σ) (nonce : Block 12) (shape : Shape) :
    Effect session nonce shape (session.perform nonce shape) := by
  cases shape with
  | enroll name passphrase made =>
    simp only [perform, enroll]
    cases free : session.requireUnused name with
    | error fault => exact .refused fault
    | ok =>
      cases made with
      | error fault => exact .refused (.wallet fault)
      | ok both =>
        obtain ⟨wallet, answer⟩ := both
        simp only [keep]
        cases saved : WalletStore.save session.store wallet passphrase nonce with
        | mk result store =>
          cases result with
          | error fault => exact .unsaved rfl saved
          | ok => exact .enrolled free rfl saved
  | enter name passphrase =>
    simp only [perform, login]
    cases opened : session.loadStored name passphrase with
    | error fault => exact .refused fault
    | ok wallet => exact .entered opened
  | leave name => exact .left name
  | ask name answer =>
    simp only [perform]
    cases answered : answer session.loaded[name]? with
    | error fault => exact .refused fault
    | ok reply => exact .asked answered
  | list =>
    simp only [perform]
    cases session.names with
    | error fault => exact .refused fault
    | ok list => exact .listed list
  | edit name passphrase change =>
    simp only [perform, Session.change]
    split
    · cases opened : session.loadStored name passphrase with
      | error fault => exact .refused fault
      | ok wallet =>
        cases done : change wallet with
        | error fault => simp only [done]; exact .refused (.wallet fault)
        | ok both =>
          obtain ⟨next, answer⟩ := both
          simp only [done, keep]
          cases saved : WalletStore.save session.store next passphrase nonce with
          | mk result store =>
            cases result with
            | error fault => exact .unsaved rfl saved
            | ok => exact .edited opened done saved
    · exact .refused _

theorem stepEffect (session : Session σ) (draw : Draw) (call : Call) :
    Effect session draw.nonce (.ofCall draw call) (session.step draw call) :=
  session.stepShape draw call ▸ session.performEffect draw.nonce (.ofCall draw call)

end Session

end WalletVault
