import WalletVault.Command
import WalletVault.Proofs.Session.Shape

/-! Commands in sessions of their own and commands in one long session. A command logs in before it looks at a
loaded copy, so it meets the copy that the store gives, whatever was loaded before and however old it is. -/
namespace WalletVault

namespace Session
variable {σ : Type} {α : Type} {session twin : Session σ} {name : String}

structure Agree (name : String) (session twin : Session σ) : Prop where
  store : session.store = twin.store
  loaded : session.loaded[name]? = twin.loaded[name]?

structure AgreeAfter (name : String) (first second : Except SessionFault α × Session σ) : Prop where
  answer : first.1 = second.1
  store : first.2.store = second.2.store
  loaded : ∀ value, first.1 = .ok value → first.2.loaded[name]? = second.2.loaded[name]?

theorem AgreeAfter.failed (fault : SessionFault) {after again : Session σ} (store : after.store = again.store) :
    AgreeAfter name ((.error fault : Except SessionFault α), after) (.error fault, again) := by
  refine ⟨rfl, store, fun value done => ?_⟩
  cases done

theorem AgreeAfter.map {β : Type} {first second : Except SessionFault α × Session σ}
    (agree : AgreeAfter name first second) (f : α → β) :
    AgreeAfter name (first.1.map f, first.2) (second.1.map f, second.2) := by
  refine ⟨congrArg (Except.map f) agree.answer, agree.store, fun value done => ?_⟩
  obtain ⟨before, answered, _⟩ := Fallible.mapOk.mp done
  exact agree.loaded before answered

section Store
variable [WalletStore σ] (store : session.store = twin.store)
include store

theorem keepAgrees (wallet : Wallet) (passphrase : String) (nonce : Block 12) :
    AgreeAfter name (session.keep name wallet passphrase nonce) (twin.keep name wallet passphrase nonce) := by
  simp only [keep, store]
  cases WalletStore.save twin.store wallet passphrase nonce with
  | mk result left =>
    cases result with
    | error fault => exact .failed (.ofStore fault) rfl
    | ok => exact ⟨rfl, rfl, fun _ _ => by simp only [Std.ExtTreeMap.getElem?_insert_self]⟩

theorem enrollAgrees (passphrase : String) (nonce : Block 12) (made : Except WalletFault (Wallet × α)) :
    AgreeAfter name (session.enroll name passphrase nonce made) (twin.enroll name passphrase nonce made) := by
  have unused : session.requireUnused name = twin.requireUnused name := by simp only [requireUnused, store]
  simp only [enroll, unused]
  cases twin.requireUnused name with
  | error fault => exact .failed fault store
  | ok =>
    cases made with
    | error fault => exact .failed (.wallet fault) store
    | ok both => exact (keepAgrees store both.1 passphrase nonce).map fun _ => both.2

theorem loginAgrees (passphrase : String) :
    AgreeAfter name (session.login name passphrase) (twin.login name passphrase) := by
  have stored : session.loadStored name passphrase = twin.loadStored name passphrase := by
    simp only [loadStored, store]
  simp only [login, stored]
  cases twin.loadStored name passphrase with
  | error fault => exact .failed fault store
  | ok wallet => exact ⟨rfl, store, fun _ _ => by simp only [Std.ExtTreeMap.getElem?_insert_self]⟩

end Store

section Loaded
variable (agree : Agree name session twin)
include agree

theorem queryAgrees (f : Wallet → Except WalletFault α) : session.query name f = twin.query name f := by
  simp only [Session.query, agree.loaded]

theorem changeAgrees [WalletStore σ] (passphrase : String) (nonce : Block 12)
    (f : Wallet → Except WalletFault (Wallet × α)) :
    AgreeAfter name (session.change name passphrase nonce f) (twin.change name passphrase nonce f) := by
  have active : session.isLoggedIn name = twin.isLoggedIn name := by
    simp only [isLoggedIn, Std.ExtTreeMap.contains_eq_isSome_getElem?, agree.loaded]
  have stored : session.loadStored name passphrase = twin.loadStored name passphrase := by
    simp only [loadStored, agree.store]
  simp only [Session.change, active, stored]
  split
  · cases twin.loadStored name passphrase with
    | error fault => exact .failed fault agree.store
    | ok wallet =>
      cases done : f wallet with
      | error fault => simp only [done]; exact .failed (.wallet fault) agree.store
      | ok both =>
        simp only [done]
        exact (keepAgrees agree.store both.1 passphrase nonce).map fun _ => both.2
  · exact .failed _ agree.store

end Loaded

end Session

namespace Command
open Session
variable {σ : Type} {α : Type} {session twin : Session σ} {name : String}

structure Alike (first second : Result σ) : Prop where
  result : first.1 = second.1
  store : first.2.store = second.2.store

theorem andThenAlike {first second : Except SessionFault α × Session σ} {next : α → Session σ → Result σ}
    (agree : AgreeAfter name first second)
    (later : ∀ value after again, Agree name after again → Alike (next value after) (next value again)) :
    Alike (andThen first next) (andThen second next) := by
  obtain ⟨result, after⟩ := first
  obtain ⟨same, again⟩ := second
  cases agree.answer
  cases result with
  | error fault => exact ⟨rfl, agree.store⟩
  | ok value => exact later value after again ⟨agree.store, agree.loaded value rfl⟩

theorem withBytesAlike (agree : Agree name session twin) (bytes : Except CommandFault Bytes)
    {next again : Bytes → Result σ} (later : ∀ data, Alike (next data) (again data)) :
    Alike (withBytes session bytes next) (withBytes twin bytes again) := by
  cases bytes with
  | error fault => exact ⟨rfl, agree.store⟩
  | ok data => exact later data

section Loaded
variable (agree : Agree name session twin)
include agree

theorem queryAlike (f : Wallet → Except WalletFault α) (answer : α → Answer) :
    Alike (reply session (session.query name f) answer) (reply twin (twin.query name f) answer) := by
  rw [queryAgrees agree]
  exact ⟨rfl, agree.store⟩

theorem describeAlike (key : String) : Alike (describeKey name key session) (describeKey name key twin) :=
  queryAlike agree _ _

theorem showAlike : Alike (showWallet name session) (showWallet name twin) := by
  have master : session.masterPublicKey name = twin.masterPublicKey name := queryAgrees agree _
  simp only [showWallet, master]
  exact queryAlike agree _ _

theorem signAlike (key : String) (payload : Payload) (asTx : Bool) :
    Alike (signPayload name key payload asTx session) (signPayload name key payload asTx twin) := by
  refine withBytesAlike agree _ fun data => ?_
  cases asTx with
  | true => exact queryAlike agree _ _
  | false => exact queryAlike agree _ _

theorem verifyAlike (key : String) (payload : Payload) (signature : String) :
    Alike (verifyPayload name key payload signature session) (verifyPayload name key payload signature twin) :=
  withBytesAlike agree _ fun _ => withBytesAlike agree _ fun _ => queryAlike agree _ _

theorem changeAlike [WalletStore σ] (passphrase key : String) (nonce : Block 12)
    (f : Wallet → Except WalletFault (Wallet × Unit)) :
    Alike (andThen (session.change name passphrase nonce f) fun _ => describeKey name key)
      (andThen (twin.change name passphrase nonce f) fun _ => describeKey name key) :=
  andThenAlike (changeAgrees agree passphrase nonce f) fun _ _ _ after => describeAlike after key

end Loaded

variable [WalletStore σ]

theorem runAlike (store : session.store = twin.store) (passphrase : String) (draw : Draw) (command : Command) :
    Alike (runWith session passphrase draw command) (runWith twin passphrase draw command) := by
  have login (name : String) : AgreeAfter name (session.login name passphrase) (twin.login name passphrase) :=
    loginAgrees store passphrase
  cases command with
  | names =>
    have names : session.names = twin.names := by simp only [Session.names, store]
    simp only [runWith, names]
    exact ⟨rfl, store⟩
  | create wallet =>
    simp only [runWith, createEnrolls]
    exact andThenAlike (enrollAgrees store passphrase _ _) fun _ _ _ after => ⟨rfl, after.store⟩
  | importPhrase wallet phrase =>
    simp only [runWith, importEnrolls]
    exact andThenAlike (enrollAgrees store passphrase _ _) fun _ _ _ after => ⟨rfl, after.store⟩
  | «show» wallet => exact andThenAlike (login wallet) fun _ _ _ => showAlike
  | generateKey wallet notes =>
    refine andThenAlike (login wallet) fun _ _ _ entered => ?_
    exact andThenAlike (changeAgrees entered passphrase _ _) fun _ _ _ after => ⟨rfl, after.store⟩
  | listKeys wallet => exact andThenAlike (login wallet) fun _ _ _ entered => queryAlike entered _ _
  | describe wallet key => exact andThenAlike (login wallet) fun _ _ _ entered => describeAlike entered key
  | sign wallet key payload asTx =>
    exact andThenAlike (login wallet) fun _ _ _ entered => signAlike entered key payload asTx
  | verify wallet key payload signature =>
    exact andThenAlike (login wallet) fun _ _ _ entered => verifyAlike entered key payload signature
  | taint wallet key =>
    exact andThenAlike (login wallet) fun _ _ _ entered => changeAlike entered passphrase key _ _
  | untaint wallet key =>
    exact andThenAlike (login wallet) fun _ _ _ entered => changeAlike entered passphrase key _ _
  | annotate wallet key notes =>
    exact andThenAlike (login wallet) fun _ _ _ entered => changeAlike entered passphrase key _ _

theorem executeAlike (store : session.store = twin.store) (command : Command) (passphrase : Option String)
    (draw : Draw) : Alike (execute command session passphrase draw) (execute command twin passphrase draw) := by
  cases passphrase with
  | some given =>
    have ran (session : Session σ) :
        execute command session (some given) draw = runWith session given draw command := by
      cases command <;> rfl
    rw [ran, ran]
    exact runAlike store given draw command
  | none =>
    cases command with
    | names => exact runAlike store "" draw .names
    | _ => exact ⟨rfl, store⟩

structure Order where
  command : Command
  passphrase : Option String
  draw : Draw

def runApart (store : σ) : List Order → List (Except CommandFault Answer) × σ
  | [] => ([], store)
  | order :: rest =>
    let (result, session) := execute order.command (Session.start store) order.passphrase order.draw
    let (results, store) := runApart session.store rest
    (result :: results, store)

def runTogether (session : Session σ) : List Order → List (Except CommandFault Answer) × Session σ
  | [] => ([], session)
  | order :: rest =>
    let (result, session) := execute order.command session order.passphrase order.draw
    let (results, session) := runTogether session rest
    (result :: results, session)

theorem runsAlike (session : Session σ) (orders : List Order) :
    (runTogether session orders).1 = (runApart session.store orders).1 ∧
      (runTogether session orders).2.store = (runApart session.store orders).2 := by
  induction orders generalizing session with
  | nil => exact ⟨rfl, rfl⟩
  | cons order rest ih =>
    have store : session.store = (Session.start session.store).store := rfl
    have first := executeAlike store order.command order.passphrase order.draw
    obtain ⟨results, left⟩ := ih (execute order.command session order.passphrase order.draw).2
    simp only [runTogether, runApart, ← first.result, ← first.store, results, left, and_self]

end Command

/-- What a command answers and the store it leaves depend on the store it finds, whatever copies the session
has loaded. So any sequence of commands ends alike, whether each of them runs in a session of its own or all run
in one session, and wherever that session starts from. -/
theorem commandsIgnoreCopies {σ : Type} [WalletStore σ] :
    (∀ (store : σ) (loaded other : TextMap Wallet) (command : Command) (passphrase : Option String) (draw : Draw),
      (command.execute ⟨store, loaded⟩ passphrase draw).1 = (command.execute ⟨store, other⟩ passphrase draw).1 ∧
      (command.execute ⟨store, loaded⟩ passphrase draw).2.store =
        (command.execute ⟨store, other⟩ passphrase draw).2.store) ∧
    ∀ (session : Session σ) (orders : List Command.Order),
      (Command.runTogether session orders).1 = (Command.runApart session.store orders).1 ∧
      (Command.runTogether session orders).2.store = (Command.runApart session.store orders).2 := by
  constructor
  · intro store loaded other command passphrase draw
    have same : (Session.mk store loaded).store = (Session.mk store other).store := rfl
    have alike := Command.executeAlike same command passphrase draw
    exact ⟨alike.result, alike.store⟩
  · exact Command.runsAlike

end WalletVault
