import WalletVault.Proofs.Session.Isolation
import WalletVault.Proofs.Session.Register
import WalletVault.Proofs.Wallet.Listing

/-! Many sessions over one store, each with loaded copies of its own, take turns in any order. A copy may be out
of date, but no change is made from it: every change goes back to the stored record. So the keys of a wallet get
their numbers in order, whichever session issues them, and no change of any session is lost. -/
namespace WalletVault
open Fallible

structure Shared (σ : Type) where
  store : σ
  loaded : Nat → TextMap Wallet
  log : List Taken

namespace Shared
variable {σ : Type} [WalletStore σ]

def opened (store : σ) : Shared σ := ⟨store, fun _ => ∅, []⟩

def session (shared : Shared σ) (number : Nat) : Session σ := ⟨shared.store, shared.loaded number⟩

def take (shared : Shared σ) (turn : Turn) : Shared σ :=
  let (reply, next) := (shared.session turn.session).step turn.draw turn.call
  ⟨next.store, fun number => if number = turn.session then next.loaded else shared.loaded number,
    shared.log ++ [⟨turn, reply⟩]⟩

theorem takeLog (shared : Shared σ) (turn : Turn) : (shared.take turn).log =
    shared.log ++ [⟨turn, ((shared.session turn.session).step turn.draw turn.call).1⟩] := rfl

theorem takeStore (shared : Shared σ) (turn : Turn) : (shared.take turn).store =
    ((shared.session turn.session).step turn.draw turn.call).2.store := rfl

theorem takeSession (shared : Shared σ) (turn : Turn) : (shared.take turn).session turn.session =
    ((shared.session turn.session).step turn.draw turn.call).2 := by
  simp only [session, take, if_true]

def run (store : σ) (turns : List Turn) : Shared σ := turns.foldl take (opened store)

end Shared

inductive Turn.Founds : Turn → String → Node → Prop where
  | created {session : Nat} {draw : Draw} {name passphrase phrase : String} {node : Node}
      (made : Wallet.create name draw.entropy = .ok (⟨name, .derived node, .empty⟩, phrase)) :
      Founds ⟨session, draw, .create name passphrase⟩ name node
  | imported {session : Nat} {draw : Draw} {name passphrase phrase : String} {node : Node}
      (made : Wallet.importPhrase name phrase = .ok ⟨name, .derived node, .empty⟩) :
      Founds ⟨session, draw, .importPhrase name passphrase phrase⟩ name node

theorem Turn.createFounds {session : Nat} {draw : Draw} {name passphrase : String} {wallet : Wallet} {answer : Reply}
    (made : (Wallet.create name draw.entropy).map (fun (wallet, phrase) => (wallet, Reply.phrase phrase)) =
      .ok (wallet, answer)) :
    ∃ node phrase, Wallet.importPhrase name phrase = .ok wallet ∧ wallet = ⟨name, .derived node, .empty⟩ ∧
      Founds ⟨session, draw, .create name passphrase⟩ name node := by
  obtain ⟨⟨_, phrase⟩, created, same⟩ := mapOk.mp made
  cases same
  obtain ⟨node, _, again⟩ := Wallet.createOk name draw.entropy
  cases created.symm.trans again
  exact ⟨node, phrase, Wallet.createSource created, rfl, .created created⟩

theorem Turn.importFounds {session : Nat} {draw : Draw} {name passphrase phrase : String} {wallet : Wallet}
    {answer : Reply} (made : (Wallet.importPhrase name phrase).map (fun wallet => (wallet, Reply.done)) =
      .ok (wallet, answer)) :
    ∃ node, Wallet.importPhrase name phrase = .ok wallet ∧ wallet = ⟨name, .derived node, .empty⟩ ∧
      Founds ⟨session, draw, .importPhrase name passphrase phrase⟩ name node := by
  obtain ⟨_, imported, same⟩ := mapOk.mp made
  cases same
  obtain ⟨node, shape⟩ := Wallet.importPhraseSource imported
  rw [shape] at imported ⊢
  exact ⟨node, imported, rfl, .imported imported⟩

/- The call opens its record only if the passphrase is the one it was sealed with. -/
def Shared.Guards {σ : Type} [WalletStore σ] [RecordStore σ] (shared : Shared σ) (call : Call) : Prop :=
  ∀ name passphrase, call.opens? = some (name, passphrase) →
    Register.Guards (registered name shared.log) (RecordStore.record? shared.store name) passphrase

structure Holds (log : List Taken) (name : String) (register : Register) (views : List PublicKeyView)
    (wallet : Wallet) (node : Node) : Prop where
  founded : ∃ taken ∈ log, taken.turn.Founds name node
  valid : isWalletName name = true
  named : wallet.name = name
  numbered : wallet.Numbered node views.length
  listed : wallet.ring.views = register.keys
  numbers : views.map (·.index.map UInt32.toNat) = (List.range' 1 views.length).map some

inductive Tracks (log : List Taken) (name : String) :
    Option Register → List PublicKeyView → Option Bytes → Prop where
  | unknown : Tracks log name none [] none
  | known {register : Register} {views : List PublicKeyView} {wallet : Wallet} {node : Node}
      (holds : Holds log name register views wallet node) (nonce : Block 12) :
      Tracks log name (some register) views (some (Sealed.ofWallet wallet register.passphrase nonce))

section Log
variable {log : List Taken} {name : String}

theorem Holds.later {register : Register} {views : List PublicKeyView} {wallet : Wallet} {node : Node}
    (holds : Holds log name register views wallet node) (taken : Taken) :
    Holds (log ++ [taken]) name register views wallet node := by
  obtain ⟨first, member, founds⟩ := holds.founded
  exact ⟨⟨first, List.mem_append_left _ member, founds⟩, holds.valid, holds.named, holds.numbered, holds.listed,
    holds.numbers⟩

theorem Tracks.later {register : Option Register} {views : List PublicKeyView} {record : Option Bytes}
    (tracks : Tracks log name register views record) (taken : Taken) :
    Tracks (log ++ [taken]) name register views record := by
  cases tracks with
  | unknown => exact .unknown
  | known holds nonce => exact .known (holds.later taken) nonce

end Log

namespace Session
variable {σ : Type} [WalletStore σ] [RecordStore σ] {session next : Session σ} {nonce : Block 12} {shape : Shape}
  {name passphrase : String} {log : List Taken} {views : List PublicKeyView}

omit [RecordStore σ] in
theorem Effect.storeKept {reply : Reply} (effect : Effect session nonce shape (.ok reply, next))
    (quiet : shape.saves = false) : next.store = session.store := by
  cases effect with
  | enrolled | edited => cases quiet
  | entered | left | asked | listed => rfl

theorem unusedAbsent (free : session.requireUnused name = .ok ()) :
    isWalletName name = true ∧ RecordStore.record? session.store name = none := by
  obtain ⟨valid, found⟩ := RecordStore.containsSource (requireUnusedOk.mp free)
  exact ⟨valid, Option.isNone_iff_eq_none.mp (Option.isSome_eq_false_iff.mp found.symm)⟩

theorem enrollTracks {register : Option Register} {made : Except WalletFault (Wallet × Reply)} {reply : Reply}
    (tracks : Tracks log name register views (RecordStore.record? session.store name)) (taken : Taken)
    (founds : ∀ wallet, made = .ok (wallet, reply) →
      ∃ node phrase, Wallet.importPhrase name phrase = .ok wallet ∧ wallet.origin = .derived node ∧
        taken.turn.Founds name node)
    (effect : Effect session nonce (.enroll name passphrase made) (.ok reply, next)) :
    Tracks (log ++ [taken]) name (some ⟨passphrase, []⟩) views (RecordStore.record? next.store name) := by
  cases effect with
  | @enrolled _ _ _ wallet _ store free done saved =>
    obtain ⟨valid, absent⟩ := unusedAbsent free
    obtain ⟨node, phrase, imported, origin, founded⟩ := founds wallet done
    have named := Wallet.importPhraseName imported
    have record := (RecordStore.saved saved).2 name
    rw [if_pos named] at record
    -- Without a record there is no register, so no key has been issued under the name.
    rw [absent] at tracks
    cases tracks
    have empty : wallet.ring.views = [] := by
      rw [Wallet.freshEmpty (.imported imported), KeyRing.views, KeyRing.emptyList, List.map_nil]
    have holds : Holds (log ++ [taken]) name ⟨passphrase, []⟩ [] wallet node :=
      ⟨⟨taken, by simp, founded⟩, valid, named, Wallet.freshNumbered imported origin, empty, rfl⟩
    rw [record]
    exact .known holds nonce

theorem openedTracks {register : Option Register} {wallet : Wallet}
    (tracks : Tracks log name register views (RecordStore.record? session.store name))
    (guarded : Register.Guards register (RecordStore.record? session.store name) passphrase)
    (opened : session.loadStored name passphrase = .ok wallet) :
    ∃ known node, register = some known ∧ known.passphrase = passphrase ∧ Holds log name known views wallet node := by
  obtain ⟨record, stored, opened⟩ := loadStoredSource opened
  rw [stored] at tracks
  cases tracks with
  | @known known _ kept node holds nonce =>
    obtain ⟨right, rfl⟩ := Sealed.reopened holds.numbered.settled
      (fun differs => guarded known _ rfl stored differs.symm) opened
    exact ⟨known, node, rfl, right.symm, holds⟩

end Session

namespace Holds
variable {log : List Taken} {name : String} {register : Register} {views : List PublicKeyView} {wallet next : Wallet}
  {node : Node}

theorem issues (holds : Holds log name register views wallet node) {seed : Block 32} {notes : List Note}
    {pair : KeyPair} (generated : wallet.generate seed notes = .ok (next, pair))
    (separates : node.Separates (firstNumbers (views.length + 1))) (taken : Taken) :
    Holds (log ++ [taken]) name (register.issue { pair.view with notes := notes, tainted := false })
      (views ++ [pair.view]) next node := by
  obtain ⟨numbered, listed, number, noted, untainted⟩ := Wallet.generateNumbered holds.numbered separates generated
  have later := holds.later taken
  have named := Wallet.movedName holds.numbered.settled (Wallet.generateMoved generated)
  have written : ({ pair.view with notes := notes, tainted := false } : PublicKeyView) = pair.view := by
    simp only [KeyPair.view, noted, untainted]
  have count : (views ++ [pair.view]).length = views.length + 1 := List.length_append
  refine ⟨later.founded, holds.valid, named.trans holds.named, count ▸ numbered, ?_, ?_⟩
  · rw [listed, holds.listed, Register.issue, written]
  · rw [count, List.map_append, holds.numbers, List.range'_concat, List.map_append, Nat.one_mul, Nat.add_comm 1]
    exact congrArg _ (congrArg (fun index => [index]) number)

theorem rewrites (holds : Holds log name register views wallet node) {key : String}
    {f : KeyPair → Except WalletFault KeyPair} {g : PublicKeyView → PublicKeyView}
    (replaces : ∀ old new, f old = .ok new → new.Replaces old)
    (rewritten : ∀ old new, f old = .ok new → new.view = g old.view)
    (changed : wallet.withRing (wallet.ring.change key f) = .ok next) (taken : Taken) :
    Holds (log ++ [taken]) name (register.rewrite key g) views next node := by
  have later := holds.later taken
  have numbered := Wallet.changeNumbered holds.numbered replaces changed
  have named := Wallet.movedName holds.numbered.settled (Wallet.changeMoved replaces changed)
  refine ⟨later.founded, holds.valid, named.trans holds.named, numbered, ?_, holds.numbers⟩
  obtain ⟨ring, refiled, rfl⟩ := mapOk.mp changed
  rw [KeyRing.changeViews holds.numbered.settled.sound.filed replaces rewritten refiled, holds.listed]
  rfl

end Holds

namespace Session
variable {σ : Type} [WalletStore σ] [RecordStore σ] {session next : Session σ} {nonce : Block 12}
  {name passphrase : String} {log : List Taken} {views : List PublicKeyView} {register : Option Register}

theorem editTracks {changed : Option Register} {changedViews : List PublicKeyView} {reply : Reply}
    {taken : Taken} {change : Wallet → Except WalletFault (Wallet × Reply)}
    (tracks : Tracks log name register views (RecordStore.record? session.store name))
    (guarded : Register.Guards register (RecordStore.record? session.store name) passphrase)
    (keeps : ∀ known node wallet next, Holds log name known views wallet node →
      change wallet = .ok (next, reply) → register = some known →
        ∃ later, changed = some later ∧ later.passphrase = known.passphrase ∧
          Holds (log ++ [taken]) name later changedViews next node)
    (effect : Effect session nonce (.edit name passphrase change) (.ok reply, next)) :
    Tracks (log ++ [taken]) name changed changedViews (RecordStore.record? next.store name) := by
  cases effect with
  | @edited _ _ _ wallet edited _ store opened done saved =>
    obtain ⟨known, node, found, right, holds⟩ := openedTracks tracks guarded opened
    obtain ⟨later, same, passphraseKept, held⟩ := keeps known node wallet edited holds done found
    have record := (RecordStore.saved saved).2 name
    rw [if_pos held.named, ← right, ← passphraseKept] at record
    rw [record, same]
    exact .known held nonce

theorem rewriteTracks {key : String} {reply : Reply} {change : Wallet → Except WalletFault Wallet}
    {f : KeyPair → Except WalletFault KeyPair} {g : PublicKeyView → PublicKeyView}
    (tracks : Tracks log name register views (RecordStore.record? session.store name)) (taken : Taken)
    (guarded : Register.Guards register (RecordStore.record? session.store name) passphrase)
    (replaces : ∀ old new, f old = .ok new → new.Replaces old)
    (rewritten : ∀ old new, f old = .ok new → new.view = g old.view)
    (changes : ∀ node wallet next, wallet.origin = .derived node → change wallet = .ok next →
      wallet.withRing (wallet.ring.change key f) = .ok next)
    (effect : Effect session nonce (.edit name passphrase fun wallet => (change wallet).map (·, .done))
      (.ok reply, next)) :
    Tracks (log ++ [taken]) name (register.map (·.rewrite key g)) views (RecordStore.record? next.store name) := by
  refine editTracks tracks guarded ?_ effect
  intro known node wallet edited holds done found
  obtain ⟨changed, made, same⟩ := mapOk.mp done
  cases same
  rw [found]
  exact ⟨_, rfl, rfl, holds.rewrites replaces rewritten (changes node wallet _ holds.numbered.origin made) taken⟩

theorem succeededTracks {turn : Turn} {reply : Reply} (here : turn.call.name? = some name)
    (tracks : Tracks log name (registered name log) (issued name log) (RecordStore.record? session.store name))
    (guarded : ∀ passphrase, turn.call.opens? = some (name, passphrase) →
      Register.Guards (registered name log) (RecordStore.record? session.store name) passphrase)
    (separated : ∀ taken ∈ log, ∀ node, taken.turn.Founds name node →
      node.Separates (firstNumbers (issued name (log ++ [⟨turn, .ok reply⟩])).length))
    (effect : session.Effect turn.draw.nonce (.ofCall turn.draw turn.call) (.ok reply, next)) :
    Tracks (log ++ [⟨turn, .ok reply⟩]) name (Register.write (registered name log) turn.call reply)
      (issued name (log ++ [⟨turn, .ok reply⟩])) (RecordStore.record? next.store name) := by
  rw [issuedNext] at separated ⊢
  obtain ⟨number, draw, call⟩ := turn
  cases call with
  | create owner passphrase =>
    cases here
    refine enrollTracks tracks _ ?_ effect
    intro wallet made
    obtain ⟨node, phrase, imported, shape, founded⟩ := Turn.createFounds made
    exact ⟨node, phrase, imported, by rw [shape], founded⟩
  | importPhrase owner passphrase phrase =>
    cases here
    refine enrollTracks tracks _ ?_ effect
    intro wallet made
    obtain ⟨node, imported, shape, founded⟩ := Turn.importFounds made
    exact ⟨node, phrase, imported, by rw [shape], founded⟩
  | generate owner passphrase notes =>
    cases here
    refine editTracks tracks (guarded passphrase rfl) ?_ effect
    intro known node wallet edited holds done found
    obtain ⟨⟨_, pair⟩, generated, same⟩ := mapOk.mp done
    cases same
    rw [Taken.issuedKey] at separated ⊢
    obtain ⟨first, member, founds⟩ := holds.founded
    have separates := separated first member node founds
    rw [List.length_append, List.length_singleton] at separates
    rw [found]
    exact ⟨_, rfl, rfl, holds.issues generated separates _⟩
  | taint owner key passphrase =>
    cases here
    exact rewriteTracks tracks _ (guarded passphrase rfl)
      (fun _ _ => KeyPair.taintReplaces) (fun _ _ => KeyPair.taintView) (fun _ _ _ _ tainted => tainted) effect
  | untaint owner key passphrase =>
    cases here
    refine rewriteTracks tracks _ (guarded passphrase rfl)
      (fun _ _ => KeyPair.untaintReplaces) (fun _ _ => KeyPair.untaintView) ?_ effect
    intro node wallet next origin cleared
    rw [Wallet.untaint, origin] at cleared
    exact cleared
  | annotate owner key passphrase notes =>
    cases here
    refine rewriteTracks tracks _ (guarded passphrase rfl)
      (fun _ _ => KeyPair.annotateReplaces) ?_ (fun _ _ _ _ annotated => annotated) effect
    intro old new annotated
    cases annotated
    rfl
  | _ =>
    -- No other call saves.
    have store := effect.storeKept rfl
    rw [store]
    exact tracks.later _

end Session

namespace Shared
variable {σ : Type} [WalletStore σ] [RecordStore σ]

def TracksAll (shared : Shared σ) : Prop := ∀ name,
  Tracks shared.log name (registered name shared.log) (issued name shared.log)
    (RecordStore.record? shared.store name)

/- The nodes of the wallets give different keys for as many numbers as there are keys. -/
def Separated (shared : Shared σ) : Prop := ∀ taken ∈ shared.log, ∀ name node, taken.turn.Founds name node →
  node.Separates (firstNumbers (issued name shared.log).length)

theorem takeElsewhere (shared : Shared σ) {turn : Turn} {name : String} (elsewhere : turn.call.name? ≠ some name) :
    RecordStore.record? (shared.take turn).store name = RecordStore.record? shared.store name ∧
      issued name (shared.take turn).log = issued name shared.log := by
  have effect := (shared.session turn.session).stepEffect turn.draw turn.call
  constructor
  · rw [takeStore]
    exact effect.recordFrame (Shape.ofCallFaithful _ _) (Shape.ofCallName turn.draw turn.call ▸ elsewhere)
  · rw [takeLog, issuedNext, Taken.issuedElsewhere elsewhere]

theorem takeTracks {shared : Shared σ} (tracks : shared.TracksAll) {turn : Turn} (guards : shared.Guards turn.call)
    (separated : (shared.take turn).Separated) : (shared.take turn).TracksAll := by
  intro name
  have effect := (shared.session turn.session).stepEffect turn.draw turn.call
  cases stepped : (shared.session turn.session).step turn.draw turn.call with
  | mk reply next =>
    rw [stepped] at effect
    have log : (shared.take turn).log = shared.log ++ [⟨turn, reply⟩] := by rw [takeLog, stepped]
    have store : (shared.take turn).store = next.store := by rw [take, stepped]
    have before := tracks name
    rw [log, store, registeredNext]
    cases reply with
    | error fault =>
      rw [issuedNext, Taken.issuedFailed, effect.failedRecords name]
      exact before.later _
    | ok reply =>
      by_cases here : turn.call.name? = some name
      · rw [Register.afterHere here]
        refine Session.succeededTracks here before (fun passphrase => guards name passphrase) ?_ effect
        intro taken member node founds
        have later : taken ∈ (shared.take turn).log := log ▸ List.mem_append_left _ member
        exact log ▸ separated taken later name node founds
      · obtain ⟨record, issues⟩ := shared.takeElsewhere here
        rw [store] at record
        rw [log] at issues
        rw [Register.afterElsewhere here, record, issues]
        exact before.later _

theorem runElsewhere (shared : Shared σ) {turns : List Turn} {name : String}
    (elsewhere : ∀ turn ∈ turns, turn.call.name? ≠ some name) :
    RecordStore.record? (turns.foldl take shared).store name = RecordStore.record? shared.store name ∧
      issued name (turns.foldl take shared).log = issued name shared.log := by
  induction turns generalizing shared with
  | nil => exact ⟨rfl, rfl⟩
  | cons turn turns ih =>
    obtain ⟨here, later⟩ := List.forall_mem_cons.mp elsewhere
    obtain ⟨record, issues⟩ := shared.takeElsewhere here
    obtain ⟨records, rest⟩ := ih (shared.take turn) later
    exact ⟨records.trans record, rest.trans issues⟩

omit [RecordStore σ] in
theorem separatedBefore {shared : Shared σ} {turn : Turn} (separated : (shared.take turn).Separated) :
    shared.Separated := by
  intro taken member name node founds first inside second other
  have later : taken ∈ (shared.take turn).log := List.mem_append_left _ member
  have grown : (issued name shared.log).length ≤ (issued name (shared.take turn).log).length :=
    issuedGrow name shared.log _
  exact separated taken later name node founds first (firstNumbersGrow grown inside) second
    (firstNumbersGrow grown other)

omit [RecordStore σ] in
theorem runNext (store : σ) (turns : List Turn) (turn : Turn) :
    run store (turns ++ [turn]) = (run store turns).take turn := by
  rw [run, List.foldl_append]
  rfl

theorem runTracks {store : σ} (empty : ∀ name, RecordStore.record? store name = none) (turns : List Turn)
    (guarded : ∀ before turn after, turns = before ++ turn :: after → (run store before).Guards turn.call)
    (separated : (run store turns).Separated) : (run store turns).TracksAll := by
  induction turns using List.reverseRecOn with
  | nil =>
    intro name
    have record : RecordStore.record? (run store []).store name = none := empty name
    rw [record]
    exact .unknown
  | append_singleton turns turn ih =>
    rw [runNext] at separated ⊢
    have guardedBefore : ∀ before first after, turns = before ++ first :: after →
        (run store before).Guards first.call :=
      fun before first after split => guarded before first (after ++ [turn]) (by simp [split])
    have earlier := ih guardedBefore (separatedBefore separated)
    exact takeTracks earlier (guarded turns turn [] rfl) separated

end Shared

/-- Any number of sessions over one store take turns in any order, from when it has no records. The key that is
issued as the k-th of a wallet has the number k, whichever session issues it. The stored wallet opens under the
passphrase of its register and lists exactly these numbers in this order, with every key written as the last
turn that wrote it has left it. -/
theorem indicesIssuedInOrder {σ : Type} [WalletStore σ] [RecordStore σ] {store : σ}
    (empty : ∀ name, RecordStore.record? store name = none) (turns : List Turn)
    (guarded : ∀ before turn after, turns = before ++ turn :: after → (Shared.run store before).Guards turn.call)
    (separated : (Shared.run store turns).Separated) (name : String) :
    (issued name (Shared.run store turns).log).map (·.index.map UInt32.toNat) =
      (List.range' 1 (issued name (Shared.run store turns).log).length).map some ∧
    (registered name (Shared.run store turns).log = none →
      RecordStore.record? (Shared.run store turns).store name = none ∧
      issued name (Shared.run store turns).log = []) ∧
    ∀ register, registered name (Shared.run store turns).log = some register → ∃ wallet,
      WalletStore.load (Shared.run store turns).store name register.passphrase = .ok wallet ∧
      wallet.ring.views = register.keys ∧
      wallet.ring.views.map (·.index.map UInt32.toNat) =
        (List.range' 1 (issued name (Shared.run store turns).log).length).map some := by
  have tracks := Shared.runTracks empty turns guarded separated name
  generalize Shared.run store turns = shared at tracks
  generalize stored : RecordStore.record? shared.store name = record at tracks
  generalize registered name shared.log = register, issued name shared.log = views at tracks
  cases tracks with
  | unknown => exact ⟨rfl, fun _ => ⟨rfl, rfl⟩, nofun⟩
  | @known register _ wallet node holds nonce =>
    refine ⟨holds.numbers, nofun, ?_⟩
    rintro _ ⟨rfl⟩
    have opened := Sealed.walletOpened holds.numbered.settled register.passphrase nonce
    rw [holds.named] at opened
    refine ⟨wallet, (RecordStore.loadRecord _ stored holds.valid).trans opened, holds.listed, ?_⟩
    rw [KeyRing.views, List.map_map]
    exact holds.numbered.numbers

/-! Where every call gives the same passphrase, no record meets another, and one key cannot be two. -/

theorem Shared.runTurns {σ : Type} [WalletStore σ] (store : σ) (turns : List Turn) :
    (run store turns).log.map Taken.turn = turns := by
  induction turns using List.reverseRecOn with
  | nil => rfl
  | append_singleton turns turn ih =>
    rw [runNext, takeLog, List.map_append, ih]
    rfl

theorem Shared.onePassphraseGuards {σ : Type} [WalletStore σ] [RecordStore σ] (store : σ) {passphrase : String}
    {turns : List Turn}
    (given : ∀ turn ∈ turns, ∀ other, turn.call.passphrase? = some other → other = passphrase)
    (before : List Turn) (turn : Turn) (after : List Turn) (split : turns = before ++ turn :: after) :
    (run store before).Guards turn.call := by
  intro name other opens register record found _ differs
  have own : other = passphrase := given turn (by simp [split]) other (Call.opensPassphrase opens)
  have sealing : register.passphrase = passphrase := by
    refine registeredPassphrase (fun taken member => ?_) found
    have inside : taken.turn ∈ before := runTurns store before ▸ List.mem_map_of_mem member
    exact given taken.turn (by simp [split, inside])
  exact absurd (sealing.trans own.symm) differs

theorem oneSeparated (node : Node) {count : Nat} (few : count ≤ 1) : node.Separates (firstNumbers count) := by
  intro first inside second other _ _ _ _ _
  rw [firstNumbersOne (firstNumbersGrow few inside), firstNumbersOne (firstNumbersGrow few other)]

/-! Turns that succeed, over a store in memory. -/

namespace Shared
variable {shared : Shared MemoryStore} {name passphrase phrase : String} {wallet : Wallet} {nonce : Block 12}
  (valid : isWalletName name = true)
include valid

theorem importTaken (passphrase : String) (absent : shared.store.record? name = none)
    (made : Wallet.importPhrase name phrase = .ok wallet) (number : Nat) (draw : Draw) :
    (shared.take ⟨number, draw, .importPhrase name passphrase phrase⟩).store.record? name =
      some (Sealed.ofWallet wallet passphrase draw.nonce) := by
  have absentHere : (shared.session number).store.record? name = none := absent
  rw [takeStore, Session.importsFree valid absentHere made]
  exact Std.ExtTreeMap.getElem?_insert_self

variable (settled : wallet.Settled) (named : wallet.name = name)
  (stored : shared.store.record? name = some (Sealed.ofWallet wallet passphrase nonce))
include settled named stored

theorem storedOpens (number : Nat) : (shared.session number).loadStored name passphrase = .ok wallet := by
  have opened := Sealed.walletOpened settled passphrase nonce
  rw [named] at opened
  have loaded : WalletStore.load (shared.session number).store name passphrase = .ok wallet :=
    (MemoryStore.loadStored valid stored).trans opened
  simp only [Session.loadStored, loaded]

theorem loginTaken (number : Nat) (draw : Draw) :
    (shared.take ⟨number, draw, .login name passphrase⟩).session number =
      ⟨shared.store, (shared.loaded number).insert name wallet⟩ := by
  have opened := storedOpens valid settled named stored number
  rw [takeSession]
  simp only [Session.step, Session.login, opened]
  rfl

theorem generateTaken {next : Wallet} {pair : KeyPair} {draw : Draw} {notes : List Note} (number : Nat)
    (active : (shared.session number).isLoggedIn name = true)
    (generated : wallet.generate draw.seed notes = .ok (next, pair)) :
    issued name (shared.take ⟨number, draw, .generate name passphrase notes⟩).log =
      issued name shared.log ++ [pair.view] := by
  have opened := storedOpens valid settled named stored number
  obtain ⟨_, _, _, rfl⟩ := Wallet.generateSource generated
  have same : (wallet.file pair).name = name := named
  have kept := (shared.session number).keepsValid valid same passphrase draw.nonce
  have answered : ((shared.session number).step draw (.generate name passphrase notes)).1 = .ok (.key pair.view) := by
    simp only [Session.step, Session.generate, Session.change, active, opened, generated, Except.map, kept]
    rfl
  rw [takeLog, issuedNext, answered, Taken.issuedKey]

theorem loginIssues {next : Wallet} {pair : KeyPair} {draw : Draw} {notes : List Note} (number : Nat)
    (generated : wallet.generate draw.seed notes = .ok (next, pair)) :
    issued name ((shared.take ⟨number, draw, .login name passphrase⟩).take
      ⟨number, draw, .generate name passphrase notes⟩).log = issued name shared.log ++ [pair.view] := by
  have entered := loginTaken valid settled named stored number draw
  have active : ((shared.take ⟨number, draw, .login name passphrase⟩).session number).isLoggedIn name = true := by
    rw [entered]
    exact Std.ExtTreeMap.contains_insert_self
  have kept : (shared.take ⟨number, draw, .login name passphrase⟩).store = shared.store :=
    congrArg Session.store entered
  rw [generateTaken valid settled named (kept ▸ stored) number active generated, takeLog, issuedNext]
  rfl

end Shared

theorem firstKey {name phrase : String} {wallet : Wallet} (made : Wallet.importPhrase name phrase = .ok wallet)
    (seed : Block 32) (notes : List Note) : ∃ next pair, wallet.generate seed notes = .ok (next, pair) := by
  obtain ⟨node, rfl⟩ := Wallet.importPhraseSource made
  have small : KeyRing.empty.nextIndex ≤ Wallet.lastIndex := by decide
  obtain ⟨pair, derived⟩ := Wallet.derivePairOk node small
  exact ⟨_, _, bindOk.mpr ⟨pair, derived, rfl⟩⟩

theorem emptyRecords (name : String) : RecordStore.record? MemoryStore.empty name = none := by
  change (∅ : TextMap Bytes)[name]? = none
  exact Std.ExtTreeMap.getElem?_empty

def stock (name : String) (maker user : Nat) : List Turn :=
  [⟨maker, sampleDraw, .importPhrase name "open sesame" Wallet.samplePhrase⟩,
    ⟨user, sampleDraw, .login name "open sesame"⟩,
    ⟨user, sampleDraw, .generate name "open sesame" [⟨"use", "rent"⟩]⟩]

theorem stockIssues (shared : Shared MemoryStore) {name : String} (valid : isWalletName name = true)
    (absent : shared.store.record? name = none) (fresh : issued name shared.log = []) (maker user : Nat) :
    ∃ view, issued name ((stock name maker user).foldl Shared.take shared).log = [view] := by
  obtain ⟨node, made⟩ := Wallet.samplePhraseOk name
  have settled := Wallet.freshSettled (.imported made)
  have stored := Shared.importTaken valid "open sesame" absent made maker sampleDraw
  obtain ⟨next, pair, generated⟩ := firstKey made sampleDraw.seed [⟨"use", "rent"⟩]
  have before : issued name (shared.take ⟨maker, sampleDraw,
      .importPhrase name "open sesame" Wallet.samplePhrase⟩).log = [] := by
    rw [Shared.takeLog, issuedNext, fresh]
    rfl
  have issues := Shared.loginIssues valid settled rfl stored user generated
  exact ⟨pair.view, issues.trans (congrArg (· ++ [pair.view]) before)⟩

theorem stockElsewhere {name other : String} (apart : name ≠ other) (maker user : Nat) :
    ∀ turn ∈ stock name maker user, turn.call.name? ≠ some other := by
  simp [stock, Call.name?, apart]

def sampleTurns : List Turn := stock "savings" 0 1 ++ stock "travel" 1 0

theorem sampleIssued :
    (∃ view, issued "savings" (Shared.run MemoryStore.empty sampleTurns).log = [view]) ∧
    (∃ view, issued "travel" (Shared.run MemoryStore.empty sampleTurns).log = [view]) ∧
    ∀ name, name ≠ "savings" → name ≠ "travel" →
      issued name (Shared.run MemoryStore.empty sampleTurns).log = [] := by
  rw [Shared.run, sampleTurns, List.foldl_append]
  generalize opened : Shared.opened MemoryStore.empty = start
  have absent (name : String) : RecordStore.record? start.store name = none := opened ▸ emptyRecords name
  have fresh (name : String) : issued name start.log = [] := opened ▸ rfl
  have first {name : String} (apart : "savings" ≠ name) := start.runElsewhere (stockElsewhere apart 0 1)
  have second {name : String} (apart : "travel" ≠ name) :=
    ((stock "savings" 0 1).foldl Shared.take start).runElsewhere (stockElsewhere apart 1 0)
  refine ⟨?_, ?_, fun name savings travel => ?_⟩
  · obtain ⟨view, issues⟩ := stockIssues start (by decide) (absent "savings") (fresh "savings") 0 1
    exact ⟨view, (second (by decide)).2.trans issues⟩
  · obtain ⟨record, issues⟩ := first (show "savings" ≠ "travel" by decide)
    exact stockIssues _ (by decide) (record.trans (absent "travel")) (issues.trans (fresh "travel")) 1 0
  · rw [(second travel.symm).2, (first savings.symm).2, fresh]

theorem sampleFew (name : String) : (issued name (Shared.run MemoryStore.empty sampleTurns).log).length ≤ 1 := by
  obtain ⟨⟨_, savings⟩, ⟨_, travel⟩, others⟩ := sampleIssued
  by_cases first : name = "savings"
  · rw [first, savings]
    rfl
  · by_cases second : name = "travel"
    · rw [second, travel]
      rfl
    · rw [others name first second]
      exact Nat.zero_le 1

def HasFirstKey (shared : Shared MemoryStore) (name : String) : Prop :=
  ∃ view register wallet, issued name shared.log = [view] ∧ view.index.map UInt32.toNat = some 1 ∧
    registered name shared.log = some register ∧
    WalletStore.load shared.store name register.passphrase = .ok wallet ∧ wallet.ring.views = register.keys

/- Both wallets count by themselves. Neither has a second key, since two keys of one phrase would have to be told
apart, and that takes thousands of rounds of stretching. -/
theorem sampleNumbered : HasFirstKey (Shared.run MemoryStore.empty sampleTurns) "savings" ∧
    HasFirstKey (Shared.run MemoryStore.empty sampleTurns) "travel" := by
  have given : ∀ turn ∈ sampleTurns, ∀ other, turn.call.passphrase? = some other → other = "open sesame" := by
    simp [sampleTurns, stock, Call.passphrase?, Call.opens?]
  have separated : (Shared.run MemoryStore.empty sampleTurns).Separated :=
    fun taken _ name node _ => oneSeparated node (sampleFew name)
  have guarded := Shared.onePassphraseGuards MemoryStore.empty given
  have first {name : String} {view : PublicKeyView}
      (issues : issued name (Shared.run MemoryStore.empty sampleTurns).log = [view]) :
      HasFirstKey (Shared.run MemoryStore.empty sampleTurns) name := by
    obtain ⟨numbers, unknown, known⟩ := indicesIssuedInOrder emptyRecords sampleTurns guarded separated name
    cases found : registered name (Shared.run MemoryStore.empty sampleTurns).log with
    | none =>
      have nothing := (unknown found).2
      rw [issues] at nothing
      cases nothing
    | some register =>
      obtain ⟨wallet, loaded, listed, _⟩ := known register found
      rw [issues] at numbers
      exact ⟨view, register, wallet, issues, (List.cons.inj numbers).1, found, loaded, listed⟩
  obtain ⟨⟨_, savings⟩, ⟨_, travel⟩, _⟩ := sampleIssued
  exact ⟨first savings, first travel⟩

end WalletVault
