import WalletVault.Command
import WalletVault.Proofs.Session.Failure
import WalletVault.Proofs.Session.Refinement

/-! Commands that fail leave every record as it was, and so do commands that only read. A command is a chain of
calls, of which at most one saves; after that one nothing fails. -/
namespace WalletVault
open Fallible

def Command.reads : Command → Bool
  | names | «show» _ | listKeys _ | describe _ _ | sign _ _ _ _ | verify _ _ _ _ => true
  | _ => false

namespace Command
variable {σ : Type} [WalletStore σ] {α : Type}

def Harmless [RecordStore σ] (session : Session σ) (result : Result σ) : Prop :=
  ∀ fault, result.1 = .error fault → ∀ name,
    RecordStore.record? result.2.store name = RecordStore.record? session.store name

theorem replyHarmless [RecordStore σ] (session : Session σ) (result : Except SessionFault α) (answer : α → Answer) :
    Harmless session (reply session result answer) := fun _ _ _ => rfl

theorem okHarmless [RecordStore σ] (session next : Session σ) (answer : Answer) :
    Harmless session (.ok answer, next) := nofun

theorem andThenHarmless [RecordStore σ] {session : Session σ} {call : Except SessionFault α × Session σ}
    {next : α → Session σ → Result σ}
    (failed : ∀ fault after, call = (.error fault, after) → ∀ name,
      RecordStore.record? after.store name = RecordStore.record? session.store name)
    (later : ∀ value after, call = (.ok value, after) → Harmless session (next value after)) :
    Harmless session (andThen call next) := by
  obtain ⟨result, after⟩ := call
  cases result with
  | error fault => exact fun _ _ => failed fault after rfl
  | ok value => exact later value after rfl

theorem loginStore (session : Session σ) (wallet passphrase : String) :
    (session.login wallet passphrase).2.store = session.store := by
  unfold Session.login
  split <;> rfl

theorem loginHarmless [RecordStore σ] {session : Session σ} {wallet passphrase : String}
    {next : Unit → Session σ → Result σ} (later : ∀ after, Harmless after (next () after)) :
    Harmless session (andThen (session.login wallet passphrase) next) := by
  have store := loginStore session wallet passphrase
  apply andThenHarmless
  · intro fault after failed name
    rw [failed] at store
    rw [store]
  · intro _ after done fault failed name
    rw [done] at store
    rw [later after fault failed name, store]

theorem lastHarmless [RecordStore σ] (session : Session σ) (draw : Draw) (call : Call)
    {result : Except SessionFault α × Session σ} {f : α → Reply}
    (step : session.step draw call = (result.1.map f, result.2)) (answer : α → Answer) :
    Harmless session (andThen result fun value after => (.ok (answer value), after)) := by
  apply andThenHarmless
  · rintro fault after rfl
    exact Session.stepFailedRecords step
  · exact fun _ _ _ => okHarmless _ _ _

omit [WalletStore σ] in
theorem withBytesStays {session : Session σ} {bytes : Except CommandFault Bytes} {next : Bytes → Result σ}
    (stays : ∀ data, (next data).2 = session) : (withBytes session bytes next).2 = session := by
  cases bytes with
  | error fault => rfl
  | ok data => exact stays data

theorem loginStays {session : Session σ} {wallet passphrase : String} {next : Unit → Session σ → Result σ}
    (stays : ∀ after, (next () after).2 = after) :
    (andThen (session.login wallet passphrase) next).2.store = session.store := by
  rw [← loginStore session wallet passphrase]
  obtain ⟨result, after⟩ := session.login wallet passphrase
  cases result with
  | error fault => rfl
  | ok => rw [andThen, stays]

omit [WalletStore σ] in
theorem signStays (wallet key : String) (payload : Payload) (asTx : Bool) (session : Session σ) :
    (signPayload wallet key payload asTx session).2 = session :=
  withBytesStays fun data => by split <;> rfl

omit [WalletStore σ] in
theorem verifyStays (wallet key : String) (payload : Payload) (signature : String) (session : Session σ) :
    (verifyPayload wallet key payload signature session).2 = session :=
  withBytesStays fun _ => withBytesStays fun _ => rfl

theorem describeEdited {session next : Session σ} {nonce : Block 12} {name passphrase key : String} {answer : Reply}
    {change : Wallet → Except WalletFault (Wallet × Reply)}
    (finds : ∀ wallet changed answer, change wallet = .ok (changed, answer) →
      ∃ pair, changed.ring.find? key = some pair)
    (effect : session.Effect nonce (.edit name passphrase change) (.ok answer, next)) :
    ∃ view, describeKey name key next = (.ok (.key view), next) := by
  cases effect with
  | edited opened done saved =>
    obtain ⟨pair, found⟩ := finds _ _ _ done
    refine ⟨pair.view, ?_⟩
    simp only [describeKey, Session.publicKey, Session.query, Std.ExtTreeMap.getElem?_insert_self,
      KeyRing.describeOk found]
    rfl

theorem changeHarmless [RecordStore σ] (session : Session σ) (draw : Draw) (call : Call) {name passphrase key : String}
    {result : Except SessionFault Unit × Session σ} {change : Wallet → Except WalletFault Wallet}
    (finds : ∀ wallet changed, change wallet = .ok changed → ∃ pair, changed.ring.find? key = some pair)
    (shape : Shape.ofCall draw call = .edit name passphrase fun wallet => (change wallet).map (·, .done))
    (step : session.step draw call = (result.1.map fun () => .done, result.2)) :
    Harmless session (andThen result fun _ => describeKey name key) := by
  apply andThenHarmless
  · rintro fault after rfl
    exact Session.stepFailedRecords step
  · rintro value after rfl
    have effect := session.stepEffect draw call
    rw [shape, step] at effect
    have found : ∀ wallet changed answer, (change wallet).map (·, Reply.done) = .ok (changed, answer) →
        ∃ pair, changed.ring.find? key = some pair := by
      intro wallet changed answer done
      obtain ⟨_, edited, same⟩ := mapOk.mp done
      cases same
      exact finds wallet changed edited
    -- Once the change is saved, the view of the key cannot fail.
    obtain ⟨view, described⟩ := describeEdited found effect
    rw [described]
    exact okHarmless _ _ _

theorem runHarmless [RecordStore σ] (session : Session σ) (passphrase : String) (draw : Draw) (command : Command) :
    Harmless session (runWith session passphrase draw command) := by
  cases command with
  | names => exact replyHarmless _ _ _
  | create wallet => exact lastHarmless session draw (.create wallet passphrase) rfl _
  | importPhrase wallet phrase => exact lastHarmless session draw (.importPhrase wallet passphrase phrase) rfl _
  | «show» wallet => exact loginHarmless fun _ => replyHarmless _ _ _
  | generateKey wallet notes =>
    exact loginHarmless fun active => lastHarmless active draw (.generate wallet passphrase notes) rfl _
  | listKeys wallet => exact loginHarmless fun _ => replyHarmless _ _ _
  | describe wallet key => exact loginHarmless fun _ => replyHarmless _ _ _
  | sign wallet key payload asTx =>
    refine loginHarmless fun active fault failed name => ?_
    rw [signStays]
  | verify wallet key payload signature =>
    refine loginHarmless fun active fault failed name => ?_
    rw [verifyStays]
  | taint wallet key =>
    refine loginHarmless fun active => changeHarmless active draw (.taint wallet key passphrase) ?_ rfl rfl
    exact fun _ _ => Wallet.changeFinds
  | untaint wallet key =>
    refine loginHarmless fun active => changeHarmless active draw (.untaint wallet key passphrase) ?_ rfl rfl
    exact fun _ _ => Wallet.untaintFinds
  | annotate wallet key notes =>
    refine loginHarmless fun active => changeHarmless active draw (.annotate wallet key passphrase notes) ?_ rfl rfl
    exact fun _ _ => Wallet.changeFinds

theorem runStays (session : Session σ) (passphrase : String) (draw : Draw) {command : Command}
    (reads : command.reads = true) : (runWith session passphrase draw command).2.store = session.store := by
  cases command with
  | names => rfl
  | «show» wallet => exact loginStays fun _ => rfl
  | listKeys wallet => exact loginStays fun _ => rfl
  | describe wallet key => exact loginStays fun _ => rfl
  | sign wallet key payload asTx => exact loginStays (signStays wallet key payload asTx)
  | verify wallet key payload signature => exact loginStays (verifyStays wallet key payload signature)
  | _ => cases reads

theorem executeCases (command : Command) (session : Session σ) (passphrase : Option String) (draw : Draw) :
    execute command session passphrase draw = (.error .passphraseMissing, session) ∨
      ∃ given, execute command session passphrase draw = runWith session given draw command := by
  cases passphrase with
  | none =>
    cases command with
    | names => exact Or.inr ⟨"", rfl⟩
    | _ => exact Or.inl rfl
  | some given => cases command <;> exact Or.inr ⟨given, rfl⟩

end Command

/-- A call that fails leaves a session over a store in memory altogether as it was, and a call that saves does
so exactly once. A command that fails leaves every record as it was, whatever the store and wherever in its
chain of calls it fails, and a command that reads leaves the whole store, even if it succeeds. -/
theorem failureLeavesNoTrace {σ : Type} [WalletStore σ] [RecordStore σ] :
    (∀ (session next : Session MemoryStore) (draw : Draw) (call : Call),
      (∀ fault, session.step draw call = (.error fault, next) → next = session) ∧
      (∀ reply, session.step draw call = (.ok reply, next) →
        next.store.saves = session.store.saves + if call.saves then 1 else 0)) ∧
    ∀ (session next : Session σ) (command : Command) (passphrase : Option String) (draw : Draw),
      (∀ fault, command.execute session passphrase draw = (.error fault, next) →
        ∀ name, RecordStore.record? next.store name = RecordStore.record? session.store name) ∧
      (∀ result, command.execute session passphrase draw = (result, next) → command.reads = true →
        next.store = session.store) := by
  refine ⟨fun session next draw call => ⟨fun _ => Session.stepFailed, fun _ => Session.stepSaved⟩, ?_⟩
  intro session next command passphrase draw
  rcases Command.executeCases command session passphrase draw with missing | ⟨given, ran⟩
  · rw [missing]
    refine ⟨?_, ?_⟩
    · rintro fault same name
      cases same
      rfl
    · rintro result same _
      cases same
      rfl
  · rw [ran]
    refine ⟨fun fault failed name => ?_, fun result done reads => ?_⟩
    · have harmless := Command.runHarmless session given draw command
      rw [failed] at harmless
      exact harmless fault rfl name
    · have stays := Command.runStays session given draw reads
      rwa [done] at stays

theorem damagedUntouched : ∃ refused shown kept : Session MemoryStore,
    damaged.step sampleDraw (.login "savings" "open sesame") = (.error (.noSuchWallet "savings"), refused) ∧
    refused = damaged ∧
    damaged.step sampleDraw (.importPhrase "travel" "open sesame" Wallet.samplePhrase) = (.ok .done, kept) ∧
    kept.store.saves = damaged.store.saves + 1 ∧
    (Command.show "savings").execute damaged (some "open sesame") sampleDraw =
      (.error (.session (.noSuchWallet "savings")), shown) ∧
    (∀ name, shown.store.record? name = damaged.store.record? name) ∧ shown.store = damaged.store := by
  have refuses : damaged.step sampleDraw (.login "savings" "open sesame") =
      (.error (.noSuchWallet "savings"), damaged) := by
    simp only [Session.step, Session.login, damagedRefuses]
    rfl
  have fails : (Command.show "savings").execute damaged (some "open sesame") sampleDraw =
      (.error (.session (.noSuchWallet "savings")), damaged) := by
    simp only [Command.execute, Command.runWith, Session.login, damagedRefuses]
    rfl
  obtain ⟨node, made⟩ := Wallet.samplePhraseOk "travel"
  have imports := Session.importsFree (by decide) damagedElsewhere made "open sesame" sampleDraw
  obtain ⟨calls, commands⟩ := @failureLeavesNoTrace MemoryStore _ _
  have unchanged := (calls damaged damaged sampleDraw (.login "savings" "open sesame")).1 _ refuses
  have saved := (calls damaged _ sampleDraw _).2 _ imports
  obtain ⟨records, store⟩ := commands damaged damaged (.show "savings") (some "open sesame") sampleDraw
  exact ⟨damaged, damaged, _, refuses, unchanged, imports, saved, fails, records _ fails, store _ fails rfl⟩

end WalletVault
