import WalletVault.Proofs.Form.RoundTrip
import WalletVault.Proofs.Wallet.Signing

/-! What stands of a key after a run of calls. Its taint and its notes are what the last call addressed to the key has
set, of those that succeeded, and nothing else of the pair changes; the taint at the end decides whether the key
signs. -/
namespace WalletVault
open Fallible

namespace KeyPair

def rewritten (pair : KeyPair) (taint : Option Bool) (notes : Option (List Note)) : KeyPair :=
  { pair with tainted := taint.getD pair.tainted, notes := notes.getD pair.notes }

theorem rewrittenTwice (pair : KeyPair) (taint later : Option Bool) (notes others : Option (List Note)) :
    (pair.rewritten taint notes).rewritten later others = pair.rewritten (later.or taint) (others.or notes) := by
  cases later <;> cases others <;> rfl

theorem taintRewrites {old new : KeyPair} (tainted : old.taint = .ok new) : new = old.rewritten (some true) none :=
  taintSource tainted

theorem untaintRewrites {old new : KeyPair} (cleared : old.untaint = .ok new) :
    new = old.rewritten (some false) none := untaintSource cleared

theorem annotateRewrites {old new : KeyPair} {notes : List Note}
    (annotated : (.ok (old.annotate notes) : Except WalletFault KeyPair) = .ok new) :
    new = old.rewritten none (some notes) := (Except.ok.inj annotated).symm

end KeyPair

namespace Wallet

namespace Move

def taint? (key : String) : Move → Option Bool
  | .taint called => if called.toLower = key.toLower then some true else none
  | .untaint called => if called.toLower = key.toLower then some false else none
  | _ => none

def notes? (key : String) : Move → Option (List Note)
  | .annotate called notes => if called.toLower = key.toLower then some notes else none
  | _ => none

def lastSet {α : Type} (sets : Move → Option α) (moves : List Move) : Option α := moves.reverse.findSome? sets

theorem lastSetCons {α : Type} (sets : Move → Option α) (move : Move) (moves : List Move) :
    lastSet sets (move :: moves) = (lastSet sets moves).or (sets move) := by
  cases set : sets move <;> simp [lastSet, List.findSome?_append, set]

end Move

def succeeded (wallet : Wallet) : List Move → List Move
  | [] => []
  | move :: rest =>
    match wallet.attempt move with
    | .ok next => move :: next.succeeded rest
    | .error _ => wallet.succeeded rest

/- A call that issues no key that the ring has already. -/
def IssuesNew (wallet : Wallet) (move : Move) : Prop :=
  ∀ seed notes next pair, move = .generate seed notes → wallet.generate seed notes = .ok (next, pair) →
    wallet.ring.find? pair.publicKey.hex = none

def RunIssuesNew (wallet : Wallet) : List Move → Prop
  | [] => True
  | move :: rest => wallet.IssuesNew move ∧ (wallet.after move).RunIssuesNew rest

section
variable {wallet next : Wallet} {key : String} {pair : KeyPair}

theorem changeSets (sound : wallet.Sound) (found : wallet.ring.find? key = some pair) {called : String}
    {f : KeyPair → Except WalletFault KeyPair} {taint : Option Bool} {notes : Option (List Note)}
    (rewrites : ∀ old new, f old = .ok new → new = old.rewritten taint notes)
    (changed : wallet.withRing (wallet.ring.change called f) = .ok next) :
    next.ring.find? key =
      some (if called.toLower = key.toLower then pair.rewritten taint notes else pair) := by
  obtain ⟨ring, refiled, rfl⟩ := mapOk.mp changed
  obtain ⟨old, new, foundOld, result, rfl⟩ := KeyRing.changeSource refiled
  cases rewrites old new result
  have place : old.publicKey.hex = called.toLower := KeyRing.findHex sound.filed foundOld
  rw [KeyRing.findFiling sound.filed, KeyPair.rewritten, place]
  split
  · rename_i same
    rw [KeyRing.findFiled sound.filed, same, ← KeyRing.findFiled sound.filed, found] at foundOld
    cases foundOld
    rfl
  · exact found

theorem issueKeeps (sound : wallet.Sound) (found : wallet.ring.find? key = some pair) {issued : KeyPair}
    (new : wallet.ring.find? issued.publicKey.hex = none) : (wallet.file issued).ring.find? key = some pair := by
  rw [file, KeyRing.findFiling sound.filed, if_neg]
  · exact found
  · intro same
    have lower : issued.publicKey.hex.toLower = key.toLower := (Hex.encodeLower _).trans same
    rw [KeyRing.findFiled sound.filed, lower, ← KeyRing.findFiled sound.filed, found] at new
    cases new

theorem reloadFinds (sound : wallet.Sound) (read : ofFullForm wallet.fullForm = .ok next) :
    next.ring.find? key = wallet.ring.find? key := by
  obtain ⟨counter, _, reloaded⟩ := reloadKeepsKeys sound
  rw [reloaded] at read
  cases read
  rfl

theorem attemptSets (sound : wallet.Sound) {move : Move} (new : wallet.IssuesNew move)
    (done : wallet.attempt move = .ok next) (found : wallet.ring.find? key = some pair) :
    next.ring.find? key = some (pair.rewritten (move.taint? key) (move.notes? key)) := by
  cases move with
  | generate seed notes =>
    obtain ⟨⟨_, issued⟩, generated, rfl⟩ := mapOk.mp done
    have absent := new seed notes _ issued rfl generated
    obtain ⟨_, _, _, rfl⟩ := generateSource generated
    exact issueKeeps sound found absent
  | taint called =>
    rw [changeSets sound found (fun _ _ => KeyPair.taintRewrites) done, Move.taint?]
    split <;> rfl
  | untaint called =>
    rw [attempt, untaint] at done
    split at done
    · rw [changeSets sound found (fun _ _ => KeyPair.untaintRewrites) done, Move.taint?]
      split <;> rfl
    · cases done
  | annotate called notes =>
    rw [changeSets sound found (fun _ _ => KeyPair.annotateRewrites) done, Move.notes?]
    split <;> rfl
  | reload => exact (reloadFinds sound done).trans found

theorem runSets (sound : wallet.Sound) {moves : List Move} (new : wallet.RunIssuesNew moves)
    (found : wallet.ring.find? key = some pair) : (wallet.run moves).ring.find? key =
      some (pair.rewritten (Move.lastSet (Move.taint? key) (wallet.succeeded moves))
        (Move.lastSet (Move.notes? key) (wallet.succeeded moves))) := by
  induction moves generalizing wallet pair with
  | nil => exact found
  | cons move moves ih =>
    obtain ⟨newHere, newLater⟩ := new
    rw [run, List.foldl_cons, ← run, succeeded]
    cases done : wallet.attempt move with
    | error fault =>
      rw [after, done] at newLater ⊢
      exact ih sound newLater found
    | ok next =>
      rw [after, done] at newLater ⊢
      have sets := attemptSets sound newHere done found
      rw [ih (movedSound wallet next sound (attemptMoved done)) newLater sets, KeyPair.rewrittenTwice,
        Move.lastSetCons, Move.lastSetCons]

theorem legacyClearsNone (sound : wallet.Sound) (legacy : wallet.origin = .legacy) {moves : List Move} :
    ∀ move ∈ wallet.succeeded moves, ∀ called, move ≠ .untaint called := by
  induction moves generalizing wallet with
  | nil => nofun
  | cons move moves ih =>
    rw [succeeded]
    cases done : wallet.attempt move with
    | error fault => exact ih sound legacy
    | ok next =>
      have moved := attemptMoved done
      intro later member
      rcases List.mem_cons.mp member with rfl | member
      · rintro called rfl
        rw [attempt, untaint, legacy] at done
        cases done
      · exact ih (movedSound wallet next sound moved) ((movedOrigin sound moved).trans legacy) later member

theorem legacyStaysTainted (sound : wallet.Sound) (legacy : wallet.origin = .legacy) {moves : List Move}
    (tainted : pair.tainted = true) :
    (Move.lastSet (Move.taint? key) (wallet.succeeded moves)).getD pair.tainted = true := by
  cases set : Move.lastSet (Move.taint? key) (wallet.succeeded moves) with
  | none => exact tainted
  | some flag =>
    obtain ⟨move, member, sets⟩ := List.exists_of_findSome?_eq_some set
    have notClearing := legacyClearsNone sound legacy move (List.mem_reverse.mp member)
    cases move <;> simp [Move.taint?] at sets
    · exact sets.2
    · exact absurd rfl (notClearing _)

/- What the taint decides in a wallet. A key that is absent is refused as such, and where the taint is in the way the
call is refused for it; every other call is done, and both forms of signing give one signature of 64 bytes. -/
structure TaintDecides (wallet : Wallet) : Prop where
  taints : ∀ key, TaintGuarded true .alreadyTainted (wallet.ring.find? key) (wallet.taint key)
  clears : ∀ node, wallet.origin = .derived node →
    ∀ key, TaintGuarded false .notTainted (wallet.ring.find? key) (wallet.untaint key)
  signs : ∀ key data, TaintGuarded true .keyTainted (wallet.ring.find? key) (wallet.ring.signAny key data)
  signsTx : ∀ key data, TaintGuarded true .keyTainted (wallet.ring.find? key) (wallet.ring.signTx key data)
  alike : ∀ key data raw, wallet.ring.signAny key data = .ok raw →
    raw.length = 64 ∧ ∃ signature, wallet.ring.signTx key data = .ok signature ∧ signature.bytes = .ok raw

theorem soundDecides (sound : wallet.Sound) : wallet.TaintDecides where
  taints := taintGuarded wallet
  clears _ derived := untaintGuarded derived
  signs _ data := KeyRing.signAnyGuarded sound.keyed data
  signsTx _ data := KeyRing.signTxGuarded sound.keyed data
  alike _ _ _ := KeyRing.signedAlike sound.keyed

theorem TaintDecides.neverSigns (decides : wallet.TaintDecides) (found : wallet.ring.find? key = some pair)
    (tainted : pair.tainted = true) (data : Bytes) : wallet.ring.signAny key data = .error .keyTainted ∧
      wallet.ring.signTx key data = .error .keyTainted := by
  have signs := decides.signs key data
  have signsTx := decides.signsTx key data
  rw [found] at signs signsTx
  exact ⟨signs.isRefused tainted, signsTx.isRefused tainted⟩

end

/-- The taint decides who signs, after every run in which no call issues a key that the ring has already. A key that
was there before the run is there after it, with the taint and the notes of the last call that succeeded in setting
them on it, and otherwise as it was. In a legacy wallet a key that was tainted signs nothing any more. -/
theorem taintDecidesSigning {start wallet : Wallet} (begun : start.Begun) {earlier : List Move}
    (reached : start.run earlier = wallet) {moves : List Move} (new : wallet.RunIssuesNew moves) :
    (wallet.run moves).TaintDecides ∧
    ∀ key pair, wallet.ring.find? key = some pair →
      (wallet.run moves).ring.find? key =
        some (pair.rewritten (Move.lastSet (Move.taint? key) (wallet.succeeded moves))
          (Move.lastSet (Move.notes? key) (wallet.succeeded moves))) ∧
      (wallet.origin = .legacy → pair.tainted = true → ∀ data,
        (wallet.run moves).ring.signAny key data = .error .keyTainted ∧
        (wallet.run moves).ring.signTx key data = .error .keyTainted) := by
  have sound : wallet.Sound := reached ▸ runKeeps movedSound (begunSound begun) earlier
  have decides := soundDecides (runKeeps movedSound sound moves)
  refine ⟨decides, fun key pair found => ?_⟩
  have kept := runSets sound new found
  refine ⟨kept, fun legacy tainted => decides.neverSigns kept ?_⟩
  exact legacyStaysTainted sound legacy tainted

def sampleTainted : KeyPair := { numberedPair 7 with index := none, tainted := true }

def sampleRecord : WalletRecord := ⟨legacyVersion, "savings", none, [sampleTainted].map .ofPair⟩

def sampleWallet : Wallet := ⟨"savings", .legacy, .ofList [sampleTainted]⟩

def sampleKey : String := "3B6A27BCCEB6A42D62A3A8D02A6F0D73653215771DE243A63AC048A18B59DA29"

def otherSeed : Block 32 := ⟨List.replicate 32 1, rfl⟩

theorem sampleNamed : sampleTainted.publicKey.hex = sampleKey.toLower := by decide +kernel

theorem sampleFound : sampleWallet.ring.find? sampleKey = some sampleTainted :=
  (KeyRing.findFiling KeyRing.emptyFiled _ _).trans (if_pos sampleNamed)

theorem sampleIssuesNew : sampleWallet.IssuesNew (.generate otherSeed []) := by
  rintro _ _ next pair ⟨⟩ generated
  obtain ⟨issued, made, rfl, _⟩ := generateSource generated
  obtain ⟨keys, drawn, made⟩ := bindOk.mp made
  cases pureOk.mp made
  have gives := (Algorithm.publicKeyOk.mp (Algorithm.keyPairOk.mp (mapErrorOk.mp drawn)).1).2
  have other : sampleKey.toLower ≠ (PublicKey.mk (Ed25519.publicKey otherSeed.val)).hex.toLower := by decide +kernel
  rw [← gives, ← sampleNamed] at other
  exact (KeyRing.findFiling KeyRing.emptyFiled _ _).trans (if_neg other)

theorem sampleTaintedForGood : ofFullForm sampleRecord.json.compact = .ok sampleWallet ∧
    sampleWallet.RunIssuesNew [.generate otherSeed [], .untaint sampleKey, .reload] ∧
    ∀ data, (sampleWallet.run [.generate otherSeed [], .untaint sampleKey, .reload]).ring.signAny sampleKey data =
      .error .keyTainted := by
  have keyed : ∀ pair ∈ [sampleTainted], pair.Keyed :=
    List.forall_mem_singleton.mpr ⟨(numberedKeyed 7).length, (numberedKeyed 7).gives⟩
  have read : ofFullForm sampleRecord.json.compact = .ok sampleWallet := legacyRead keyed "savings"
  have new : sampleWallet.RunIssuesNew [.generate otherSeed [], .untaint sampleKey, .reload] :=
    ⟨sampleIssuesNew, nofun, nofun, trivial⟩
  have kept := (taintDecidesSigning (.decoded read) (Eq.refl (sampleWallet.run [])) new).2 _ _ sampleFound
  exact ⟨read, new, fun data => (kept.2 rfl rfl data).1⟩

end Wallet

end WalletVault
