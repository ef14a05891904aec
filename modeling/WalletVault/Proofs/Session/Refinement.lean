import WalletVault.Proofs.Session.Ledger
import WalletVault.Proofs.Store.Sealed

/-! A session over a store in memory answers every run of calls as its ledger does. The relation between
the two is that every record is the sealed wallet of its account, that every loaded copy is the wallet of
its account, and that these wallets come back from their full forms. -/
namespace WalletVault

structure Account.Belongs (account : Account) (name : String) : Prop where
  valid : isWalletName name = true
  named : account.wallet.name = name
  settled : account.wallet.Settled

theorem Account.Belongs.moved {account : Account} {name passphrase : String} {next : Wallet}
    (belongs : account.Belongs name) (moved : account.wallet.Moved next) :
    Account.Belongs ⟨passphrase, next⟩ name :=
  ⟨belongs.valid, (Wallet.movedName belongs.settled moved).trans belongs.named,
    Wallet.movedSettled _ next belongs.settled moved⟩

structure Mirrors (ledger : Ledger) (session : Session MemoryStore) : Prop where
  belongs : ∀ (name : String) (account : Account), ledger.accounts[name]? = some account → account.Belongs name
  stored : ∀ (name : String) (account : Account), ledger.accounts[name]? = some account →
    ∃ nonce, session.store.record? name = some (Sealed.ofWallet account.wallet account.passphrase nonce)
  absent : ∀ name : String, ledger.accounts[name]? = none → session.store.record? name = none
  loaded : ∀ name : String, session.loaded[name]? = ledger.wallet? name
  known : ∀ name ∈ ledger.loggedIn, name ∈ ledger.accounts

structure Agrees {α : Type} (expected : Except SessionFault α × Ledger)
    (actual : Except SessionFault α × Session MemoryStore) : Prop where
  answer : actual.1 = expected.1
  mirrors : Mirrors expected.2 actual.2

theorem Agrees.map {α β : Type} {expected : Except SessionFault α × Ledger}
    {actual : Except SessionFault α × Session MemoryStore} (agrees : Agrees expected actual) (f : α → β) :
    Agrees (expected.1.map f, expected.2) (actual.1.map f, actual.2) :=
  ⟨congrArg (Except.map f) agrees.answer, agrees.mirrors⟩

def Guarded (ledger : Ledger) (session : Session MemoryStore) (name passphrase : String) : Prop :=
  ∀ account record, ledger.accounts[name]? = some account → session.store.record? name = some record →
    account.passphrase ≠ passphrase → ¬ Sealed.Opens record passphrase

/-- The one assumption on a run: in no call a record opens under a passphrase that it was not sealed with.
It is about the records and the passphrases of this run only. -/
def GuardedRun : Ledger → Session MemoryStore → List (Draw × Call) → Prop
  | _, _, [] => True
  | ledger, session, (draw, call) :: rest =>
    (∀ name passphrase, call.opens? = some (name, passphrase) → Guarded ledger session name passphrase) ∧
      GuardedRun (ledger.step draw call).2 (session.step draw call).2 rest

theorem startMirrors : Mirrors .empty (.start .empty) := by
  constructor
  · simp [Ledger.empty]
  · simp [Ledger.empty]
  · simp [Session.start, MemoryStore.empty, MemoryStore.record?]
  · simp [Session.start, Ledger.wallet?, Ledger.empty]
  · simp [Ledger.empty]

namespace Mirrors
variable {ledger : Ledger} {session : Session MemoryStore} (mirrors : Mirrors ledger session)
include mirrors

theorem knownStored (name : String) : (session.store.record? name).isSome = decide (name ∈ ledger.accounts) := by
  cases account : ledger.accounts[name]? with
  | none => simp [mirrors.absent name account, Std.ExtTreeMap.mem_iff_isSome_getElem?, account]
  | some found =>
    obtain ⟨nonce, stored⟩ := mirrors.stored name found account
    simp [stored, Std.ExtTreeMap.mem_iff_isSome_getElem?, account]

theorem unused (name : String) : session.requireUnused name = ledger.requireUnused name := by
  have known := mirrors.knownStored name
  unfold Session.requireUnused Ledger.requireUnused
  by_cases valid : isWalletName name = true
  · have contains : WalletStore.contains session.store name = .ok (decide (name ∈ ledger.accounts)) :=
      known ▸ MemoryStore.containsValid valid
    rw [contains, if_pos valid]
    by_cases taken : name ∈ ledger.accounts
    · simp [taken]
    · simp [taken]
  · have contains : WalletStore.contains session.store name = .error (.invalidName name) :=
      MemoryStore.containsInvalid valid
    rw [contains, if_neg valid]
    rfl

theorem unlocked {name passphrase : String} (guarded : Guarded ledger session name passphrase) :
    session.loadStored name passphrase = ledger.unlock name passphrase := by
  unfold Session.loadStored Ledger.unlock
  by_cases valid : isWalletName name = true
  · rw [if_pos valid]
    cases found : ledger.accounts[name]? with
    | none =>
      have load : WalletStore.load session.store name passphrase = .error (.noSuchWallet name) :=
        MemoryStore.loadAbsent valid (mirrors.absent name found)
      simp only [load]
    | some account =>
      obtain ⟨nonce, stored⟩ := mirrors.stored name account found
      have belongs := mirrors.belongs name account found
      have load : WalletStore.load session.store name passphrase = Sealed.wallet _ name passphrase :=
        MemoryStore.loadStored valid stored
      by_cases right : account.passphrase = passphrase
      · -- The record opens, and its text decodes to the wallet of the account.
        have opened := Sealed.walletOpened belongs.settled passphrase nonce
        rw [belongs.named] at opened
        rw [right, opened] at load
        simp only [load, right, if_pos]
      · -- This is the only place where the assumption on the run is used.
        have refused := Sealed.walletRefused name (guarded account _ found stored right)
        rw [refused] at load
        simp only [load, if_neg right]
  · have load : WalletStore.load session.store name passphrase = .error (.invalidName name) :=
      MemoryStore.loadInvalid valid
    simp only [load, if_neg valid]
    rfl

theorem kept {name passphrase : String} {wallet : Wallet} (belongs : Account.Belongs ⟨passphrase, wallet⟩ name)
    (nonce : Block 12) : Agrees (.ok (), ledger.enroll name passphrase wallet)
      (session.keep name wallet passphrase nonce) := by
  have saved : session.keep name wallet passphrase nonce = (.ok (),
      ⟨⟨session.store.records.insert name (Sealed.ofWallet wallet passphrase nonce), session.store.saves + 1⟩,
        session.loaded.insert name wallet⟩) := by
    have named : wallet.name = name := belongs.named
    have save : WalletStore.save session.store wallet passphrase nonce = _ :=
      MemoryStore.saveValid (named ▸ belongs.valid) passphrase nonce
    rw [Session.keep, save, named]
  rw [saved]
  refine ⟨rfl, ?_, ?_, ?_, ?_, ?_⟩
  · intro other account found
    rw [Ledger.enrolledAccount] at found
    split at found
    · rename_i same
      cases found
      exact same ▸ belongs
    · exact mirrors.belongs other account found
  · intro other account found
    rw [Ledger.enrolledAccount] at found
    rw [MemoryStore.record?, TextMap.lookupInsert]
    split at found
    · rename_i same
      cases found
      exact ⟨nonce, if_pos same⟩
    · rename_i different
      rw [if_neg different]
      exact mirrors.stored other account found
  · intro other missing
    rw [Ledger.enrolledAccount] at missing
    rw [MemoryStore.record?, TextMap.lookupInsert]
    split at missing
    · cases missing
    · rename_i different
      rw [if_neg different]
      exact mirrors.absent other missing
  · intro other
    rw [TextMap.lookupInsert, Ledger.enrolledWallet, mirrors.loaded other]
  · intro other member
    rw [Ledger.enroll, Std.ExtTreeMap.mem_insert]
    rcases Std.ExtTreeSet.mem_insert.mp member with same | old
    · exact Or.inl same
    · exact Or.inr (mirrors.known other old)

theorem created (name passphrase : String) (draw : Draw) :
    Agrees (ledger.create name passphrase draw.entropy) (session.create name passphrase draw) := by
  unfold Session.create Ledger.create
  rw [mirrors.unused name]
  cases free : ledger.requireUnused name with
  | error fault => exact ⟨rfl, mirrors⟩
  | ok =>
    cases made : Wallet.create name draw.entropy with
    | error fault => exact ⟨rfl, mirrors⟩
    | ok both =>
      obtain ⟨wallet, phrase⟩ := both
      have imported := Wallet.createSource made
      have belongs : Account.Belongs ⟨passphrase, wallet⟩ name := ⟨Ledger.unusedValid free,
        Wallet.importPhraseName imported, Wallet.freshSettled (.imported imported)⟩
      exact (mirrors.kept belongs draw.nonce).map fun () => phrase

theorem imported (name passphrase phrase : String) (draw : Draw) :
    Agrees (ledger.importPhrase name passphrase phrase) (session.importPhrase name passphrase phrase draw) := by
  unfold Session.importPhrase Ledger.importPhrase
  rw [mirrors.unused name]
  cases free : ledger.requireUnused name with
  | error fault => exact ⟨rfl, mirrors⟩
  | ok =>
    cases made : Wallet.importPhrase name phrase with
    | error fault => exact ⟨rfl, mirrors⟩
    | ok wallet =>
      have belongs : Account.Belongs ⟨passphrase, wallet⟩ name := ⟨Ledger.unusedValid free,
        Wallet.importPhraseName made, Wallet.freshSettled (.imported made)⟩
      exact mirrors.kept belongs draw.nonce

theorem entered {name passphrase : String} (guarded : Guarded ledger session name passphrase) :
    Agrees (ledger.login name passphrase) (session.login name passphrase) := by
  unfold Session.login Ledger.login
  rw [mirrors.unlocked guarded]
  cases opened : ledger.unlock name passphrase with
  | error fault => exact ⟨rfl, mirrors⟩
  | ok wallet =>
    obtain ⟨account, found, rfl⟩ := Ledger.unlockSource opened
    refine ⟨rfl, mirrors.belongs, mirrors.stored, mirrors.absent, ?_, ?_⟩
    · intro other
      rw [TextMap.lookupInsert, Ledger.loggedInWallet found, mirrors.loaded other]
    · intro other member
      rcases Std.ExtTreeSet.mem_insert.mp member with same | old
      · cases Std.LawfulEqCmp.eq_of_compare same
        exact Std.ExtTreeMap.mem_iff_isSome_getElem?.mpr (by rw [found]; rfl)
      · exact mirrors.known other old

theorem left (name : String) : Mirrors (ledger.logout name) (session.logout name) := by
  refine ⟨mirrors.belongs, mirrors.stored, mirrors.absent, ?_, ?_⟩
  · intro other
    rw [Ledger.loggedOutWallet, Session.logout, Std.ExtTreeMap.getElem?_erase, mirrors.loaded other]
    simp
  · exact fun other member => mirrors.known other (Std.ExtTreeSet.mem_erase.mp member).2

theorem active (name : String) : session.isLoggedIn name = ledger.loggedIn.contains name := by
  have loaded := mirrors.loaded name
  have known := mirrors.known name
  rw [Session.isLoggedIn, Std.ExtTreeMap.contains_eq_isSome_getElem?, loaded, Ledger.wallet?]
  by_cases inside : name ∈ ledger.loggedIn
  · have account := Std.ExtTreeMap.mem_iff_isSome_getElem?.mp (known inside)
    simp [inside, account]
  · have missing : ledger.loggedIn.contains name = false := Bool.eq_false_iff.mpr inside
    simp [inside, missing]

theorem queried {α : Type} (name : String) (f : Wallet → Except WalletFault α) :
    session.query name f = ledger.query name f := by
  have loaded := mirrors.loaded name
  unfold Session.query Ledger.query
  cases opened : ledger.wallet? name with
  | none => simp only [loaded, opened]
  | some wallet => simp only [loaded, opened]

theorem listed : session.names = .ok ledger.accounts.keys := by
  have same : ∀ name : String, name ∈ session.store.records ↔ name ∈ ledger.accounts := by
    intro name
    rw [Std.ExtTreeMap.mem_iff_isSome_getElem?]
    exact (Bool.coe_iff_coe.mpr (mirrors.knownStored name)).trans (by simp)
  have keys := TextMap.keysSame same
  simp only [Session.names, WalletStore.names, MemoryStore.names, keys]
  rfl

theorem changed {α : Type} {name passphrase : String} {f : Wallet → Except WalletFault (Wallet × α)}
    (moves : ∀ wallet next answer, f wallet = .ok (next, answer) → wallet.Moved next)
    (guarded : Guarded ledger session name passphrase) (nonce : Block 12) :
    Agrees (ledger.change name passphrase f) (session.change name passphrase nonce f) := by
  unfold Session.change Ledger.change
  rw [mirrors.active name, mirrors.unlocked guarded]
  by_cases inside : name ∈ ledger.loggedIn
  · have contained : ledger.loggedIn.contains name = true := inside
    rw [if_pos contained, if_pos inside]
    cases opened : ledger.unlock name passphrase with
    | error fault => exact ⟨rfl, mirrors⟩
    | ok wallet =>
      cases done : f wallet with
      | error fault =>
        simp only [done]
        exact ⟨rfl, mirrors⟩
      | ok both =>
        obtain ⟨next, answer⟩ := both
        obtain ⟨account, found, rfl⟩ := Ledger.unlockSource opened
        have moved := moves _ next answer done
        have belongs : Account.Belongs ⟨passphrase, next⟩ name :=
          (mirrors.belongs name account found).moved moved
        simp only [done]
        exact (mirrors.kept belongs nonce).map fun () => answer
  · have missing : ¬ ledger.loggedIn.contains name = true := inside
    rw [if_neg missing, if_neg inside]
    exact ⟨rfl, mirrors⟩

theorem asked {α : Type} (name : String) (f : Wallet → Except WalletFault α) (reply : α → Reply) :
    Agrees ((ledger.query name f).map reply, ledger) ((session.query name f).map reply, session) :=
  ⟨congrArg (Except.map reply) (mirrors.queried name f), mirrors⟩

theorem step (draw : Draw) (call : Call)
    (guarded : ∀ name passphrase, call.opens? = some (name, passphrase) →
      Guarded ledger session name passphrase) : Agrees (ledger.step draw call) (session.step draw call) := by
  cases call with
  | create name passphrase => exact (mirrors.created name passphrase draw).map Reply.phrase
  | importPhrase name passphrase phrase =>
    exact (mirrors.imported name passphrase phrase draw).map fun () => Reply.done
  | login name passphrase => exact (mirrors.entered (guarded name passphrase rfl)).map fun () => Reply.done
  | logout name => exact ⟨rfl, mirrors.left name⟩
  | isLoggedIn name => exact ⟨congrArg (fun flag => Except.ok (Reply.flag flag)) (mirrors.active name), mirrors⟩
  | names => exact ⟨congrArg (Except.map Reply.names) mirrors.listed, mirrors⟩
  | wallet name => exact mirrors.asked name _ Reply.wallet
  | publicKey name key => exact mirrors.asked name _ Reply.key
  | publicKeys name => exact mirrors.asked name _ Reply.keys
  | masterPublicKey name => exact mirrors.asked name _ Reply.publicKey
  | signTx name key data => exact mirrors.asked name _ Reply.signature
  | signAny name key data => exact mirrors.asked name _ Reply.bytes
  | verifyAny name key data signature => exact mirrors.asked name _ Reply.flag
  | generate name passphrase notes =>
    refine (mirrors.changed ?_ (guarded name passphrase rfl) draw.nonce).map Reply.key
    intro wallet next answer done
    obtain ⟨⟨_, pair⟩, generated, same⟩ := Fallible.mapOk.mp done
    cases same
    exact Wallet.generateMoved generated
  | taint name key passphrase =>
    refine (mirrors.changed ?_ (guarded name passphrase rfl) draw.nonce).map fun () => Reply.done
    exact Wallet.movedAlone fun _ _ => Wallet.taintMoved
  | untaint name key passphrase =>
    refine (mirrors.changed ?_ (guarded name passphrase rfl) draw.nonce).map fun () => Reply.done
    exact Wallet.movedAlone fun _ _ => Wallet.untaintMoved
  | annotate name key passphrase notes =>
    refine (mirrors.changed ?_ (guarded name passphrase rfl) draw.nonce).map fun () => Reply.done
    exact Wallet.movedAlone fun _ _ => Wallet.annotateMoved

omit mirrors in
theorem run (calls : List (Draw × Call)) {ledger : Ledger} {session : Session MemoryStore}
    (mirrors : Mirrors ledger session) (guarded : GuardedRun ledger session calls) :
    (session.run calls).1 = (ledger.run calls).1 := by
  induction calls generalizing ledger session with
  | nil => rfl
  | cons first rest ih =>
    obtain ⟨draw, call⟩ := first
    have agrees := mirrors.step draw call guarded.1
    have later := ih agrees.mirrors guarded.2
    simp only [Session.run, Ledger.run, agrees.answer, later]

end Mirrors

theorem onePassphraseGuarded (passphrase : String) (calls : List (Draw × Call)) {ledger : Ledger}
    (session : Session MemoryStore) (one : ledger.OnePassphrase passphrase)
    (given : ∀ entry ∈ calls, ∀ other, entry.2.passphrase? = some other → other = passphrase) :
    GuardedRun ledger session calls := by
  induction calls generalizing ledger session with
  | nil => trivial
  | cons first rest ih =>
    obtain ⟨draw, call⟩ := first
    have givenFirst := given (draw, call) (by simp)
    refine ⟨?_, ih _ (Ledger.stepOne one draw givenFirst) fun entry member =>
      given entry (List.mem_cons_of_mem _ member)⟩
    intro name other opens account record found _ different
    have same := givenFirst other (Call.opensPassphrase opens)
    exact absurd ((one name account found).trans same.symm) different

/-- A session that starts over an empty store answers every run of calls, failing calls included, as the
ledger does. -/
theorem sessionRefinesLedger (calls : List (Draw × Call))
    (guarded : GuardedRun .empty (.start .empty) calls) :
    ((Session.start MemoryStore.empty).run calls).1 = (Ledger.empty.run calls).1 :=
  startMirrors.run calls guarded

def sampleDraw : Draw := ⟨Wallet.sampleSeed, Wallet.sampleSeed, ⟨List.replicate 12 0, rfl⟩⟩

def sampleCalls : List (Draw × Call) := [
  (sampleDraw, .importPhrase "savings" "open sesame" Wallet.samplePhrase),
  (sampleDraw, .generate "savings" "open sesame" [⟨"use", "rent"⟩]),
  (sampleDraw, .logout "savings"),
  (sampleDraw, .login "savings" "open sesame"),
  (sampleDraw, .untaint "savings" "unknown" "open sesame"),
  (sampleDraw, .publicKeys "savings"),
  (sampleDraw, .login ".hidden" "open sesame")]

theorem sampleCallsAnswered :
    ((Session.start MemoryStore.empty).run sampleCalls).1 = (Ledger.empty.run sampleCalls).1 := by
  refine sessionRefinesLedger sampleCalls (onePassphraseGuarded "open sesame" _ _ ?_ ?_)
  · simp [Ledger.OnePassphrase, Ledger.empty]
  · simp [sampleCalls, Call.passphrase?, Call.opens?]

end WalletVault
