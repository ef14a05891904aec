import WalletVault.Proofs.Command.Failure
import WalletVault.Proofs.Session.Isolation
import WalletVault.Proofs.Store.Beside

/-! What a caller without the passphrase can find out about a wallet: nothing, not even whether there is one.
A missing record, a record that does not open and a wallet that is not logged in are refused with one fault, and
the arguments of a call are looked at only after that. -/
namespace WalletVault

inductive Call.Changes (name passphrase : String) : Call → Prop where
  | generate (notes : List Note) : Changes name passphrase (.generate name passphrase notes)
  | taint (key : String) : Changes name passphrase (.taint name key passphrase)
  | untaint (key : String) : Changes name passphrase (.untaint name key passphrase)
  | annotate (key : String) (notes : List Note) : Changes name passphrase (.annotate name key passphrase notes)

def Command.subject? : Command → Option String
  | names | create _ | importPhrase _ _ => none
  | «show» wallet | generateKey wallet _ | listKeys wallet | describe wallet _ | sign wallet _ _ _
  | verify wallet _ _ _ | taint wallet _ | untaint wallet _ | annotate wallet _ _ => some wallet

section Withheld
variable {σ : Type} [WalletStore σ] [RecordStore σ] [BesideStore σ]

/- There is a record of the name, of any bytes, that the passphrase does not open. -/
def Locked (store : σ) (name passphrase : String) : Prop :=
  ∃ record, RecordStore.record? store name = some record ∧ ¬ Sealed.Opens record passphrase

def Withheld (store : σ) (name passphrase : String) : Prop :=
  BesideStore.lacks store name ∨ Locked store name passphrase

variable {session : Session σ} {name passphrase : String} (valid : isWalletName name = true)
include valid

namespace Session

theorem storedWithheld (withheld : Withheld session.store name passphrase) :
    session.loadStored name passphrase = .error (.noSuchWallet name) := by
  rcases withheld with lacking | ⟨record, stored, closed⟩
  · simp only [loadStored, BesideStore.loadLacking passphrase lacking valid]
  · simp only [loadStored, RecordStore.loadRecord passphrase stored valid, Sealed.walletRefused name closed]

theorem loginWithheld (withheld : Withheld session.store name passphrase) :
    session.login name passphrase = (.error (.noSuchWallet name), session) := by
  simp only [login, storedWithheld valid withheld]

theorem changeWithheld {α : Type} (away : session.loaded[name]? = none ∨ Withheld session.store name passphrase)
    (nonce : Block 12) (f : Wallet → Except WalletFault (Wallet × α)) :
    session.change name passphrase nonce f = (.error (.noSuchWallet name), session) := by
  unfold Session.change
  split
  · rename_i active
    rw [isLoggedIn, Std.ExtTreeMap.contains_eq_isSome_getElem?] at active
    rcases away with absent | withheld
    · rw [absent] at active
      cases active
    · rw [storedWithheld valid withheld]
  · rfl

theorem stepWithheld (away : session.loaded[name]? = none ∨ Withheld session.store name passphrase) (draw : Draw)
    {call : Call} (changes : call.Changes name passphrase) :
    session.step draw call = (.error (.noSuchWallet name), session) := by
  cases changes <;>
    simp only [step, generate, taint, untaint, annotate, changeWithheld valid away] <;> rfl

end Session

theorem Command.executeWithheld (withheld : Withheld session.store name passphrase) {command : Command}
    (subject : command.subject? = some name) (draw : Draw) :
    command.execute session (some passphrase) draw = (.error (.session (.noSuchWallet name)), session) := by
  have refused := Session.loginWithheld valid withheld
  cases command <;> cases subject <;> simp only [Command.execute, Command.runWith, Command.andThen, refused]

end Withheld

/-! Commands on other wallets. They log in to a copy that is the same in both stores, and save that. -/

namespace Session
variable {σ : Type} {α : Type} {first second : Session σ} {name other : String}

structure Level (other : String) (first second : Except SessionFault α × Session σ) : Prop where
  answer : first.1 = second.1
  loaded : ∀ value, first.1 = .ok value → first.2.loaded[other]? = second.2.loaded[other]?

theorem Level.failed (fault : SessionFault) (first second : Session σ) :
    Level other ((.error fault : Except SessionFault α), first) (.error fault, second) :=
  ⟨rfl, fun _ done => nomatch done⟩

theorem Level.map {β : Type} {first second : Except SessionFault α × Session σ} (level : Level other first second)
    (f : α → β) : Level other (first.1.map f, first.2) (second.1.map f, second.2) := by
  refine ⟨congrArg (Except.map f) level.answer, fun value done => ?_⟩
  obtain ⟨before, answered, _⟩ := Fallible.mapOk.mp done
  exact level.loaded before answered

theorem queryLoaded (loaded : first.loaded[other]? = second.loaded[other]?) (f : Wallet → Except WalletFault α) :
    first.query other f = second.query other f := by
  simp only [Session.query, loaded]

section Stored
variable [WalletStore σ] [BesideStore σ] (same : BesideStore.beside name first.store second.store)
  (differs : other ≠ name)
include same differs

theorem storedBeside (passphrase : String) :
    first.loadStored other passphrase = second.loadStored other passphrase := by
  simp only [loadStored, BesideStore.loadBeside passphrase same differs]

theorem loginBeside (passphrase : String) :
    Level other (first.login other passphrase) (second.login other passphrase) := by
  simp only [login, storedBeside same differs]
  cases second.loadStored other passphrase with
  | error fault => exact .failed fault first second
  | ok wallet => exact ⟨rfl, fun _ _ => by simp only [Std.ExtTreeMap.getElem?_insert_self]⟩

variable (valid : isWalletName name = true)
include valid

theorem keepBeside {wallet : Wallet} (named : wallet.name = other) (passphrase : String) (nonce : Block 12) :
    Level other (first.keep other wallet passphrase nonce) (second.keep other wallet passphrase nonce) := by
  have saved := BesideStore.saveBeside passphrase nonce same valid (named ▸ differs)
  unfold keep
  cases left : WalletStore.save first.store wallet passphrase nonce with
  | mk result store =>
    cases right : WalletStore.save second.store wallet passphrase nonce with
    | mk answer again =>
      rw [left, right] at saved
      cases saved
      cases result with
      | error fault => exact .failed (.ofStore fault) _ _
      | ok => exact ⟨rfl, fun _ _ => by simp only [Std.ExtTreeMap.getElem?_insert_self]⟩

theorem changeBeside [RecordStore σ] (loaded : first.loaded[other]? = second.loaded[other]?) (passphrase : String)
    (nonce : Block 12) {f : Wallet → Except WalletFault (Wallet × α)}
    (faithful : ∀ wallet next answer, f wallet = .ok (next, answer) → next.name = wallet.name) :
    Level other (first.change other passphrase nonce f) (second.change other passphrase nonce f) := by
  have active : first.isLoggedIn other = second.isLoggedIn other := by
    simp only [isLoggedIn, Std.ExtTreeMap.contains_eq_isSome_getElem?, loaded]
  simp only [Session.change, active, storedBeside same differs]
  split
  · cases opened : second.loadStored other passphrase with
    | error fault => exact .failed fault first second
    | ok wallet =>
      cases done : f wallet with
      | error fault => simp only [done]; exact .failed (.wallet fault) first second
      | ok both =>
        simp only [done]
        have named := (faithful wallet both.1 both.2 done).trans (loadStoredName opened)
        exact (keepBeside same differs valid named passphrase nonce).map fun _ => both.2
  · exact .failed _ first second

end Stored

end Session

namespace Command
open Session
variable {σ : Type} {α : Type} {first second : Session σ} {name other : String}

theorem andThenLevel {left right : Except SessionFault α × Session σ} {next : α → Session σ → Result σ}
    (level : Level other left right)
    (later : ∀ value, left.1 = .ok value → (next value left.2).1 = (next value right.2).1) :
    (andThen left next).1 = (andThen right next).1 := by
  obtain ⟨result, after⟩ := left
  obtain ⟨answer, again⟩ := right
  cases level.answer
  cases result with
  | error fault => rfl
  | ok value => exact later value rfl

theorem withBytesLevel (bytes : Except CommandFault Bytes) {next again : Bytes → Result σ}
    (later : ∀ data, (next data).1 = (again data).1) :
    (withBytes first bytes next).1 = (withBytes second bytes again).1 := by
  cases bytes with
  | error fault => rfl
  | ok data => exact later data

section Loaded
variable (loaded : first.loaded[other]? = second.loaded[other]?)
include loaded

theorem replyLevel (f : Wallet → Except WalletFault α) (answer : α → Answer) :
    (reply first (first.query other f) answer).1 = (reply second (second.query other f) answer).1 := by
  rw [queryLoaded loaded]
  rfl

theorem showLevel : (showWallet other first).1 = (showWallet other second).1 := by
  have master : first.masterPublicKey other = second.masterPublicKey other := queryLoaded loaded _
  simp only [showWallet, master]
  exact replyLevel loaded _ _

theorem signLevel (key : String) (payload : Payload) (asTx : Bool) :
    (signPayload other key payload asTx first).1 = (signPayload other key payload asTx second).1 := by
  refine withBytesLevel _ fun data => ?_
  cases asTx with
  | true => exact replyLevel loaded _ _
  | false => exact replyLevel loaded _ _

theorem verifyLevel (key : String) (payload : Payload) (signature : String) :
    (verifyPayload other key payload signature first).1 = (verifyPayload other key payload signature second).1 :=
  withBytesLevel _ fun _ => withBytesLevel _ fun _ => replyLevel loaded _ _

end Loaded

section Run
variable [WalletStore σ] [BesideStore σ] [RecordStore σ]
  (same : BesideStore.beside name first.store second.store) (valid : isWalletName name = true) (differs : other ≠ name)
include same valid differs

theorem changeLevel (passphrase key : String) (nonce : Block 12) {f : Wallet → Except WalletFault Wallet}
    (faithful : ∀ wallet next, f wallet = .ok next → next.name = wallet.name)
    (loaded : first.loaded[other]? = second.loaded[other]?) :
    (andThen (first.change other passphrase nonce fun wallet => (f wallet).map (·, ())) fun _ =>
      describeKey other key).1 =
    (andThen (second.change other passphrase nonce fun wallet => (f wallet).map (·, ())) fun _ =>
      describeKey other key).1 := by
  have level := changeBeside same differs valid loaded passphrase nonce
    (f := fun wallet => (f wallet).map (·, ())) fun wallet next answer done => by
      obtain ⟨_, changed, same⟩ := Fallible.mapOk.mp done
      cases same
      exact faithful wallet _ changed
  exact andThenLevel level fun value done => replyLevel (level.loaded value done) _ _

theorem runLevel {command : Command} (subject : command.subject? = some other) (passphrase : String) (draw : Draw) :
    (runWith first passphrase draw command).1 = (runWith second passphrase draw command).1 := by
  have login := loginBeside same differs passphrase
  have stores : BesideStore.beside name (first.login other passphrase).2.store
      (second.login other passphrase).2.store := by
    rwa [loginStore, loginStore]
  cases command with
  | names | create | importPhrase => cases subject
  | «show» wallet => cases subject; exact andThenLevel login fun _ done => showLevel (login.loaded _ done)
  | listKeys wallet => cases subject; exact andThenLevel login fun _ done => replyLevel (login.loaded _ done) _ _
  | describe wallet key => cases subject; exact andThenLevel login fun _ done => replyLevel (login.loaded _ done) _ _
  | sign wallet key payload asTx =>
    cases subject
    exact andThenLevel login fun _ done => signLevel (login.loaded _ done) key payload asTx
  | verify wallet key payload signature =>
    cases subject
    exact andThenLevel login fun _ done => verifyLevel (login.loaded _ done) key payload signature
  | generateKey wallet notes =>
    cases subject
    refine andThenLevel login fun _ done => ?_
    have level := changeBeside stores differs valid (login.loaded _ done) passphrase draw.nonce
      (f := fun wallet => (wallet.generate draw.seed notes).map fun made => (made.1, made.2.view))
      fun wallet next answer done => by
        obtain ⟨⟨_, pair⟩, generated, same⟩ := Fallible.mapOk.mp done
        cases same
        obtain ⟨_, _, _, rfl⟩ := Wallet.generateSource generated
        rfl
    exact andThenLevel level fun _ _ => rfl
  | taint wallet key =>
    cases subject
    exact andThenLevel login fun _ done =>
      changeLevel stores valid differs passphrase key _ (fun _ _ => Wallet.withRingName) (login.loaded _ done)
  | untaint wallet key =>
    cases subject
    exact andThenLevel login fun _ done =>
      changeLevel stores valid differs passphrase key _ (fun _ _ => Wallet.untaintName) (login.loaded _ done)
  | annotate wallet key notes =>
    cases subject
    exact andThenLevel login fun _ done =>
      changeLevel stores valid differs passphrase key _ (fun _ _ => Wallet.withRingName) (login.loaded _ done)

theorem executeLevel {command : Command} (subject : command.subject? = some other) (passphrase : Option String)
    (draw : Draw) : (command.execute first passphrase draw).1 = (command.execute second passphrase draw).1 := by
  have ran (session : Session σ) (given : String) :
      command.execute session (some given) draw = runWith session given draw command := by
    cases command <;> rfl
  cases passphrase with
  | none => cases command <;> cases subject <;> rfl
  | some given =>
    rw [ran, ran]
    exact runLevel same valid differs subject given draw

end Run

end Command

/-- A caller without the passphrase cannot tell a missing wallet from a locked one. A login is refused with one
fault, whether the record is missing or does not open, and so is every change of the wallet, whether or not a copy
is loaded and whatever its other arguments are; nothing is changed by it. A command on the wallet answers the
same over a store without the record and over one where it is locked, and if the stores differ in nothing else,
so does every command on another wallet. -/
theorem missingLikeLocked {σ : Type} [WalletStore σ] [RecordStore σ] [BesideStore σ] {name : String}
    (valid : isWalletName name = true) (passphrase : String) :
    (∀ session : Session σ, Withheld session.store name passphrase →
      session.login name passphrase = (.error (.noSuchWallet name), session)) ∧
    (∀ (session : Session σ) (draw : Draw) (call : Call), call.Changes name passphrase →
      session.loaded[name]? = none ∨ Withheld session.store name passphrase →
        session.step draw call = (.error (.noSuchWallet name), session)) ∧
    ∀ first second : Session σ, BesideStore.lacks first.store name → Locked second.store name passphrase →
      (first.login name passphrase).1 = (second.login name passphrase).1 ∧
      (∀ (command : Command) (given : Option String) (draw : Draw), command.subject? = some name →
        given = none ∨ given = some passphrase →
          (command.execute first given draw).1 = (command.execute second given draw).1 ∧
          (command.execute first given draw).2 = first ∧ (command.execute second given draw).2 = second) ∧
      (BesideStore.beside name first.store second.store → ∀ (command : Command) (other : String),
        command.subject? = some other → other ≠ name → ∀ (given : Option String) (draw : Draw),
          (command.execute first given draw).1 = (command.execute second given draw).1) := by
  refine ⟨fun _ => Session.loginWithheld valid, fun _ draw _ changes away =>
    Session.stepWithheld valid away draw changes, fun first second lacking locked => ⟨?_, ?_, ?_⟩⟩
  · rw [Session.loginWithheld valid (Or.inl lacking), Session.loginWithheld valid (Or.inr locked)]
  · rintro command given draw subject (rfl | rfl)
    · cases command <;> cases subject <;> exact ⟨rfl, rfl, rfl⟩
    · rw [Command.executeWithheld valid (Or.inl lacking) subject, Command.executeWithheld valid (Or.inr locked) subject]
      exact ⟨rfl, rfl, rfl⟩
  · exact fun same command other subject differs given draw =>
      Command.executeLevel same valid differs subject given draw

/- The record of a wallet with a tag that is not its own, and a session with a copy of the wallet from before. -/
def lockedRecord : Bytes :=
  Sealed.altered (Wallet.newLegacy "savings").fullForm "open sesame" ⟨List.replicate 12 8, rfl⟩

def staleSession : Session MemoryStore :=
  ⟨MemoryStore.empty.put "savings" lockedRecord, (∅ : TextMap Wallet).insert "savings" (.newLegacy "savings")⟩

theorem damagedLikeMissing : isWalletName "savings" = true ∧ staleSession.isLoggedIn "savings" = true ∧
    lockedRecord.length = (Wallet.newLegacy "savings").fullForm.length + 28 ∧
    staleSession.login "savings" "open sesame" = (.error (.noSuchWallet "savings"), staleSession) ∧
    (∀ key, staleSession.step sampleDraw (.taint "savings" key "open sesame") =
      (.error (.noSuchWallet "savings"), staleSession)) ∧
    ((Command.show "savings").execute unharmed (some "open sesame") sampleDraw).1 =
      ((Command.show "savings").execute staleSession (some "open sesame") sampleDraw).1 ∧
    ((Command.show "travel").execute unharmed (some "open sesame") sampleDraw).1 =
      ((Command.show "travel").execute staleSession (some "open sesame") sampleDraw).1 := by
  have valid : isWalletName "savings" = true := by decide
  have length : lockedRecord.length = (Wallet.newLegacy "savings").fullForm.length + 28 :=
    (Sealed.alteredLength _ _ _).trans (Sealed.encryptLength _ _ _)
  have stored : staleSession.store.record? "savings" = some lockedRecord := Std.ExtTreeMap.getElem?_insert_self
  have locked : Locked staleSession.store "savings" "open sesame" :=
    ⟨lockedRecord, stored, Sealed.alteredCloses _ _ _⟩
  have lacking : BesideStore.lacks unharmed.store "savings" := Std.ExtTreeMap.getElem?_empty
  have beside : BesideStore.beside "savings" unharmed.store staleSession.store := fun other differs =>
    ((TextMap.lookupInsert _ _ other _).trans (if_neg differs.symm)).symm
  have active : staleSession.isLoggedIn "savings" = true := by
    simp [staleSession, Session.isLoggedIn]
  obtain ⟨login, changes, commands⟩ := @missingLikeLocked MemoryStore _ _ _ "savings" valid "open sesame"
  obtain ⟨_, same, others⟩ := commands unharmed staleSession lacking locked
  exact ⟨valid, active, length, login _ (Or.inr locked),
    fun key => changes _ _ _ (.taint key) (Or.inr (Or.inr locked)),
    (same (.show "savings") _ sampleDraw rfl (Or.inr rfl)).1, others beside (.show "travel") _ rfl (by decide) _ _⟩

end WalletVault
