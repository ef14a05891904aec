import WalletVault.Form.Full
import WalletVault.Proofs.Mnemonic.Phrase
import WalletVault.Proofs.Wallet.Issue
import WalletVault.Proofs.Wallet.KeyRing

/-! Histories of a wallet: where it begins, the calls that may change it, and what a call that succeeds
does to its ring. A call that fails leaves the wallet as it is. -/
namespace WalletVault
open Fallible

structure KeyPair.Replaces (new old : KeyPair) : Prop where
  index : new.index = old.index
  publicKey : new.publicKey = old.publicKey
  privateKey : new.privateKey = old.privateKey
  algorithm : new.algorithm = old.algorithm

theorem KeyPair.Replaces.keyed {new old : KeyPair} (replaces : new.Replaces old) (keyed : old.Keyed) :
    new.Keyed := by
  constructor
  · rw [replaces.privateKey, keyed.length]
  · rw [replaces.privateKey, replaces.publicKey, replaces.algorithm, keyed.gives]

theorem KeyPair.taintSource {old new : KeyPair} (tainted : old.taint = .ok new) :
    new = { old with tainted := true } := by
  unfold taint at tainted
  split at tainted <;> cases tainted
  rfl

theorem KeyPair.untaintSource {old new : KeyPair} (cleared : old.untaint = .ok new) :
    new = { old with tainted := false } := by
  unfold untaint at cleared
  split at cleared <;> cases cleared
  rfl

theorem KeyPair.taintReplaces {old new : KeyPair} (tainted : old.taint = .ok new) : new.Replaces old := by
  cases taintSource tainted
  exact ⟨rfl, rfl, rfl, rfl⟩

theorem KeyPair.untaintReplaces {old new : KeyPair} (cleared : old.untaint = .ok new) : new.Replaces old := by
  cases untaintSource cleared
  exact ⟨rfl, rfl, rfl, rfl⟩

theorem KeyPair.annotateReplaces {old new : KeyPair} {notes : List Note}
    (annotated : (.ok (old.annotate notes) : Except WalletFault KeyPair) = .ok new) : new.Replaces old := by
  cases annotated
  exact ⟨rfl, rfl, rfl, rfl⟩

namespace Wallet

/-- A call that may change a wallet. A reload decodes the wallet's own full form. -/
inductive Move where
  | generate (seed : Block 32) (notes : List Note)
  | taint (key : String)
  | untaint (key : String)
  | annotate (key : String) (notes : List Note)
  | reload

def attempt (wallet : Wallet) : Move → Except WalletFault Wallet
  | .generate seed notes => (wallet.generate seed notes).map Prod.fst
  | .taint key => wallet.taint key
  | .untaint key => wallet.untaint key
  | .annotate key notes => wallet.annotate key notes
  | .reload => ofFullForm wallet.fullForm

def after (wallet : Wallet) (move : Move) : Wallet :=
  match wallet.attempt move with
  | .ok next => next
  | .error _ => wallet

def run (wallet : Wallet) (moves : List Move) : Wallet := moves.foldl after wallet

inductive Fresh : Wallet → Prop where
  | imported {name phrase : String} {wallet : Wallet} (made : importPhrase name phrase = .ok wallet) :
      Fresh wallet
  | legacy (name : String) : Fresh (newLegacy name)

inductive Begun : Wallet → Prop where
  | fresh {wallet : Wallet} (made : wallet.Fresh) : Begun wallet
  | decoded {document : Bytes} {wallet : Wallet} (read : ofFullForm document = .ok wallet) : Begun wallet

theorem importPhraseSource {name phrase : String} {wallet : Wallet}
    (made : importPhrase name phrase = .ok wallet) : ∃ node, wallet = ⟨name, .derived node, .empty⟩ := by
  unfold importPhrase at made
  split at made
  · cases made
  · split at made <;> cases made
    exact ⟨_, rfl⟩

theorem freshEmpty {wallet : Wallet} (fresh : wallet.Fresh) : wallet.ring = .empty := by
  cases fresh with
  | legacy name => rfl
  | imported made =>
    obtain ⟨_, rfl⟩ := importPhraseSource made
    rfl

theorem importNode (words : List String) :
    ∃ node, (Node.ofSeed (Mnemonic.seed words)).derive originIndex = .ok node ∧
      ∀ name text, Mnemonic.read text = .ok words → importPhrase name text = .ok ⟨name, .derived node, .empty⟩ := by
  have hardened : ¬ originIndex < Node.firstHardened := by decide
  obtain ⟨node, derived⟩ := (Node.ofSeed (Mnemonic.seed words)).deriveOk hardened
  exact ⟨node, derived, fun name text read => by simp only [importPhrase, read, derived]⟩

theorem importPhraseOk (name : String) {phrase : String} {words : List String}
    (read : Mnemonic.read phrase = .ok words) :
    ∃ node, importPhrase name phrase = .ok ⟨name, .derived node, .empty⟩ := by
  obtain ⟨node, _, made⟩ := importNode words
  exact ⟨node, made name phrase read⟩

structure Recovers (entropy : Block 32) (phrase : String) (node : Node) : Prop where
  written : Mnemonic.phrase entropy.val = .ok phrase
  spells : Mnemonic.Spells entropy.val phrase
  created : ∀ name, create name entropy = .ok (⟨name, .derived node, .empty⟩, phrase)
  imported : ∀ name text, Mnemonic.Spells entropy.val text →
    importPhrase name text = .ok ⟨name, .derived node, .empty⟩

theorem recoversOk (entropy : Block 32) : ∃ phrase node, Recovers entropy phrase node := by
  obtain ⟨words, written⟩ := Mnemonic.ofEntropyOk entropy
  obtain ⟨node, _, made⟩ := importNode words
  have phrase : Mnemonic.phrase entropy.val = .ok (Mnemonic.text words) := by rw [Mnemonic.phrase, written]
  have spells : Mnemonic.Spells entropy.val (Mnemonic.text words) := ⟨words, written, Mnemonic.textSpread words⟩
  have imported (name text : String) (spelled : Mnemonic.Spells entropy.val text) :
      importPhrase name text = .ok ⟨name, .derived node, .empty⟩ := by
    obtain ⟨others, again, spread⟩ := spelled
    cases written.symm.trans again
    exact made name text (Mnemonic.readSpread written spread)
  refine ⟨_, node, phrase, spells, fun name => ?_, imported⟩
  exact bindOk.mpr ⟨_, mapErrorOk.mpr phrase, bindOk.mpr ⟨_, imported name _ spells, rfl⟩⟩

theorem createOk (name : String) (entropy : Block 32) :
    ∃ node phrase, create name entropy = .ok (⟨name, .derived node, .empty⟩, phrase) := by
  obtain ⟨phrase, node, recovers⟩ := recoversOk entropy
  exact ⟨node, phrase, recovers.created name⟩

theorem importPhraseName {name phrase : String} {wallet : Wallet}
    (made : importPhrase name phrase = .ok wallet) : wallet.name = name := by
  obtain ⟨_, rfl⟩ := importPhraseSource made
  rfl

theorem createSource {name phrase : String} {entropy : Block 32} {wallet : Wallet}
    (made : create name entropy = .ok (wallet, phrase)) : importPhrase name phrase = .ok wallet := by
  obtain ⟨written, _, made⟩ := bindOk.mp made
  obtain ⟨imported, read, made⟩ := bindOk.mp made
  cases pureOk.mp made
  exact read

def file (wallet : Wallet) (pair : KeyPair) : Wallet := { wallet with ring := wallet.ring.upsert pair }

theorem issueCounts {wallet : Wallet} {node : Node} {pair : KeyPair}
    (given : derivePair node wallet.ring.nextIndex = .ok pair) (notes : List Note) :
    (wallet.file (pair.annotate notes)).ring.nextIndex.toNat = wallet.ring.nextIndex.toNat + 1 := by
  obtain ⟨small, number, _⟩ := derivePairSource given
  have annotated : (pair.annotate notes).index = some wallet.ring.nextIndex := number
  rw [file, KeyRing.issueNextIndex wallet.ring annotated, afterSmall small]

inductive Moved (wallet : Wallet) : Wallet → Prop where
  | issued {seed : Block 32} {pair : KeyPair} (notes : List Note) (next : wallet.nextPair seed = .ok pair) :
      Moved wallet (wallet.file (pair.annotate notes))
  | refiled {old new : KeyPair} (member : old ∈ wallet.ring.list) (replaces : new.Replaces old) :
      Moved wallet (wallet.file new)
  | reloaded {next : Wallet} (read : ofFullForm wallet.fullForm = .ok next) : Moved wallet next

theorem generateSource {wallet next : Wallet} {seed : Block 32} {notes : List Note} {pair : KeyPair}
    (generated : wallet.generate seed notes = .ok (next, pair)) :
    ∃ issued, wallet.nextPair seed = .ok issued ∧ pair = issued.annotate notes ∧ next = wallet.file pair := by
  obtain ⟨issued, made, generated⟩ := bindOk.mp generated
  cases pureOk.mp generated
  exact ⟨issued, made, rfl, rfl⟩

theorem generateMoved {wallet next : Wallet} {seed : Block 32} {notes : List Note} {pair : KeyPair}
    (generated : wallet.generate seed notes = .ok (next, pair)) : wallet.Moved next := by
  obtain ⟨issued, made, rfl, rfl⟩ := generateSource generated
  exact .issued notes made

theorem generateMember {wallet next : Wallet} {seed : Block 32} {notes : List Note} {pair : KeyPair}
    (filed : wallet.ring.Filed) (generated : wallet.generate seed notes = .ok (next, pair)) :
    pair ∈ next.ring.list := by
  obtain ⟨issued, _, rfl, rfl⟩ := generateSource generated
  exact (KeyRing.memberUpsert filed).mpr (Or.inl rfl)

theorem changeMoved {wallet next : Wallet} {key : String} {f : KeyPair → Except WalletFault KeyPair}
    (replaces : ∀ old new, f old = .ok new → new.Replaces old)
    (changed : wallet.withRing (wallet.ring.change key f) = .ok next) : wallet.Moved next := by
  obtain ⟨ring, refiled, rfl⟩ := mapOk.mp changed
  obtain ⟨old, new, found, result, rfl⟩ := KeyRing.changeSource refiled
  exact .refiled (KeyRing.findMember found) (replaces old new result)

theorem taintMoved {wallet next : Wallet} {key : String} (tainted : wallet.taint key = .ok next) :
    wallet.Moved next :=
  changeMoved (fun _ _ => KeyPair.taintReplaces) tainted

theorem untaintMoved {wallet next : Wallet} {key : String} (cleared : wallet.untaint key = .ok next) :
    wallet.Moved next := by
  unfold untaint at cleared
  split at cleared
  · exact changeMoved (fun _ _ => KeyPair.untaintReplaces) cleared
  · cases cleared

theorem annotateMoved {wallet next : Wallet} {key : String} {notes : List Note}
    (annotated : wallet.annotate key notes = .ok next) : wallet.Moved next :=
  changeMoved (fun _ _ => KeyPair.annotateReplaces) annotated

theorem changeFinds {wallet next : Wallet} {key : String} {f : KeyPair → Except WalletFault KeyPair}
    (changed : wallet.withRing (wallet.ring.change key f) = .ok next) :
    ∃ pair, next.ring.find? key = some pair := by
  obtain ⟨ring, refiled, rfl⟩ := mapOk.mp changed
  obtain ⟨old, new, found, _, rfl⟩ := KeyRing.changeSource refiled
  exact KeyRing.findUpsert found new

theorem untaintFinds {wallet next : Wallet} {key : String} (cleared : wallet.untaint key = .ok next) :
    ∃ pair, next.ring.find? key = some pair := by
  unfold untaint at cleared
  split at cleared
  · exact changeFinds cleared
  · cases cleared

theorem movedAlone {α : Type} {value : α} {f : Wallet → Except WalletFault Wallet}
    (moves : ∀ wallet next, f wallet = .ok next → wallet.Moved next) (wallet next : Wallet) (answer : α)
    (done : (f wallet).map (·, value) = .ok (next, answer)) : wallet.Moved next := by
  obtain ⟨_, changed, same⟩ := mapOk.mp done
  cases same
  exact moves wallet _ changed

theorem attemptMoved {wallet next : Wallet} {move : Move} (done : wallet.attempt move = .ok next) :
    wallet.Moved next := by
  cases move with
  | generate seed notes =>
    obtain ⟨⟨_, pair⟩, generated, rfl⟩ := mapOk.mp done
    exact generateMoved generated
  | taint key => exact taintMoved done
  | untaint key => exact untaintMoved done
  | annotate key notes => exact annotateMoved done
  | reload => exact .reloaded done

theorem runKeeps {holds : Wallet → Prop}
    (kept : ∀ wallet next : Wallet, holds wallet → wallet.Moved next → holds next)
    {start : Wallet} (begun : holds start) (moves : List Move) : holds (start.run moves) := by
  induction moves generalizing start with
  | nil => exact begun
  | cons move moves ih =>
    have kept : holds (start.after move) := by
      unfold after
      cases done : start.attempt move with
      | error fault => exact begun
      | ok next => exact kept start next begun (attemptMoved done)
    exact ih kept

end Wallet

end WalletVault
