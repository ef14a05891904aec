import WalletVault.Proofs.Session.Course
import WalletVault.Proofs.Wallet.Lineage

/-! What a recovery phrase recovers. A wallet may be changed, written and read, kept in a store and loaded by any
number of sessions: its keys stay those of the node that its phrase makes, and every other wallet of the phrase
has the same ones. -/
namespace WalletVault
open Fallible

inductive Turn.Plants (entropy : Block 32) (name : String) : Turn → Prop where
  | created {session : Nat} {draw : Draw} {passphrase : String} (drawn : draw.entropy = entropy) :
      Plants entropy name ⟨session, draw, .create name passphrase⟩
  | imported {session : Nat} {draw : Draw} {passphrase text : String} (spells : Mnemonic.Spells entropy.val text) :
      Plants entropy name ⟨session, draw, .importPhrase name passphrase text⟩

theorem Turn.Plants.node {entropy : Block 32} {phrase name : String} {node other : Node} {turn : Turn}
    (plants : turn.Plants entropy name) (recovers : Wallet.Recovers entropy phrase node)
    (founds : turn.Founds name other) : other = node := by
  cases plants with
  | created drawn =>
    cases founds with
    | created made =>
      rw [drawn, recovers.created name] at made
      cases made
      rfl
  | imported spells =>
    cases founds with
    | imported made =>
      rw [recovers.imported name _ spells] at made
      cases made
      rfl

theorem Turn.Founds.grown {name : String} {node : Node} {turn : Turn} (founds : turn.Founds name node) :
    Wallet.Grown node ⟨name, .derived node, .empty⟩ := by
  cases founds with
  | created made => exact Wallet.importedGrown (Wallet.createSource made) rfl
  | imported made => exact Wallet.importedGrown made rfl

theorem Turn.Plants.sealed {entropy : Block 32} {name : String} {turn : Turn} (plants : turn.Plants entropy name)
    (reply : Reply) : Taken.sealing? name ⟨turn, .ok reply⟩ ≠ none := by
  cases plants <;> simp [Taken.sealing?]

namespace Shared
variable {σ : Type} [WalletStore σ] [RecordStore σ]

structure Rooted (shared : Shared σ) (name : String) (node : Node) : Prop where
  recorded : ∃ passphrase wallet nonce, sealing name shared.log = some passphrase ∧
    RecordStore.record? shared.store name = some (Sealed.ofWallet wallet passphrase nonce) ∧
    wallet.name = name ∧ wallet.Grown node
  copies : ∀ number copy, shared.copy? name number = some copy → copy.Grown node

structure Traced (shared : Shared σ) (entropy : Block 32) (name : String) (node : Node) : Prop where
  backed : ∀ number copy, shared.copy? name number = some copy → RecordStore.record? shared.store name ≠ none
  rooted : ∀ turn reply, ⟨turn, .ok reply⟩ ∈ shared.log → turn.Plants entropy name → shared.Rooted name node

theorem Rooted.opens {shared : Shared σ} {name given : String} {node : Node} {bytes : Bytes} {wallet : Wallet}
    (rooted : shared.Rooted name node)
    (guards : Register.Guards (registered name shared.log) (RecordStore.record? shared.store name) given)
    (stored : RecordStore.record? shared.store name = some bytes)
    (opened : Sealed.wallet bytes name given = .ok wallet) :
    sealing name shared.log = some given ∧ wallet.Grown node := by
  obtain ⟨passphrase, kept, nonce, sealed, record, named, grown⟩ := rooted.recorded
  obtain ⟨register, found, same⟩ := Option.map_eq_some_iff.mp sealed
  cases stored.symm.trans record
  obtain ⟨right, rfl⟩ := Sealed.reopened grown.settled
    (fun differs => guards register _ found stored (same.trans_ne differs.symm)) opened
  exact ⟨right ▸ sealed, grown⟩

variable {shared next : Shared σ} {entropy : Block 32} {phrase name : String} {node : Node} {taken : Taken}

omit [WalletStore σ] [RecordStore σ] in
theorem copiesGrown {changed : Wallet} (grown : changed.Grown node)
    (before : ∀ number copy, shared.copy? name number = some copy → copy.Grown node)
    (copies : ∀ number copy, next.copy? name number = some copy →
      shared.copy? name number = some copy ∨ copy = changed)
    (number : Nat) (copy : Wallet) (found : next.copy? name number = some copy) : copy.Grown node := by
  rcases copies number copy found with old | rfl
  · exact before number copy old
  · exact grown

theorem courseBacked (traced : shared.Traced entropy name node) (course : Course name shared taken next)
    (number : Nat) (copy : Wallet) (found : next.copy? name number = some copy) :
    RecordStore.record? next.store name ≠ none := by
  cases course with
  | kept _ record copies =>
    rw [record]
    exact traced.backed number copy (copies number copy found)
  | entered _ _ stored _ record _ =>
    rw [record, stored]
    nofun
  | founded _ _ _ record _ | edited _ _ _ _ _ _ record _ =>
    rw [record]
    nofun

theorem courseTraced (recovers : Wallet.Recovers entropy phrase node) (traced : shared.Traced entropy name node)
    (course : Course name shared taken next) (log : next.log = shared.log ++ [taken])
    (guards : shared.Guards taken.turn.call) : next.Traced entropy name node := by
  refine ⟨courseBacked traced course, fun turn reply member plants => ?_⟩
  have sealed := sealingNext name shared.log taken
  rw [← log] at sealed
  rw [log, List.mem_append, List.mem_singleton] at member
  -- A turn that sets no passphrase has not planted the wallet, so an earlier one has.
  have earlier (quiet : taken.sealing? name = none) : shared.Rooted name node := by
    rcases member with before | rfl
    · exact traced.rooted turn reply before plants
    · exact absurd quiet (plants.sealed reply)
  cases course with
  | kept quiet record copies =>
    have rooted := earlier quiet
    rw [quiet, Option.none_or] at sealed
    constructor
    · rw [sealed, record]
      exact rooted.recorded
    · exact fun number copy found => rooted.copies number copy (copies number copy found)
  | entered quiet opens stored opened record copies =>
    have rooted := earlier quiet
    have grown := (rooted.opens (guards name _ opens) stored opened).2
    rw [quiet, Option.none_or] at sealed
    constructor
    · rw [sealed, record]
      exact rooted.recorded
    · exact copiesGrown grown rooted.copies copies
  | @founded passphrase other nonce sets absent founds record copies =>
    rw [sets, Option.some_or] at sealed
    rcases member with before | rfl
    · -- Where the wallet was planted before, there is a record.
      obtain ⟨_, _, _, _, present, _⟩ := (traced.rooted turn reply before plants).recorded
      rw [absent] at present
      cases present
    · have grown := founds.grown
      cases plants.node recovers founds
      constructor
      · exact ⟨passphrase, _, nonce, sealed, record, rfl, grown⟩
      · exact copiesGrown grown (fun number copy old => absurd absent (traced.backed number copy old)) copies
  | @edited passphrase bytes wallet changed nonce quiet opens stored opened moved same record copies =>
    have rooted := earlier quiet
    obtain ⟨right, grown⟩ := rooted.opens (guards name _ opens) stored opened
    have after := Wallet.movedGrown grown moved
    rw [quiet, Option.none_or] at sealed
    constructor
    · exact ⟨passphrase, changed, nonce, sealed.trans right, record, same, after⟩
    · exact copiesGrown after rooted.copies copies

theorem runTraced (recovers : Wallet.Recovers entropy phrase node) {store : σ} {turns : List Turn}
    (guarded : ∀ before turn after, turns = before ++ turn :: after → (run store before).Guards turn.call) :
    (run store turns).Traced entropy name node := by
  induction turns using List.reverseRecOn with
  | nil =>
    constructor
    · intro number copy found
      exact absurd (found.symm.trans Std.ExtTreeMap.getElem?_empty) nofun
    · nofun
  | append_singleton turns turn ih =>
    have before := ih fun before first after split => guarded before first (after ++ [turn]) (by simp [split])
    rw [runNext]
    exact courseTraced recovers before (takeCourse name _ turn) (takeLog _ turn) (guarded turns turn [] rfl)

end Shared

/- A wallet that stems from entropy: it was created of it or imported from its phrase, and has then been changed,
written and read, sealed and opened again. A copy that a session has loaded is one, if a turn has planted the
wallet in the store. -/
inductive Wallet.Stems (entropy : Block 32) : Wallet → Prop where
  | created {name phrase : String} {wallet : Wallet} (made : create name entropy = .ok (wallet, phrase)) :
      Stems entropy wallet
  | imported {name text : String} {wallet : Wallet} (spells : Mnemonic.Spells entropy.val text)
      (made : importPhrase name text = .ok wallet) : Stems entropy wallet
  | moved {wallet next : Wallet} {move : Move} (earlier : Stems entropy wallet)
      (done : wallet.attempt move = .ok next) : Stems entropy next
  | reopened {wallet next : Wallet} {name sealing given : String} {nonce : Block 12} (earlier : Stems entropy wallet)
      (guarded : given ≠ sealing → ¬ Sealed.Opens (Sealed.ofWallet wallet sealing nonce) given)
      (opened : Sealed.wallet (Sealed.ofWallet wallet sealing nonce) name given = .ok next) : Stems entropy next
  | held {σ : Type} [WalletStore σ] [RecordStore σ] {store : σ} {turns : List Turn} {turn : Turn} {reply : Reply}
      {name : String} {number : Nat} {wallet : Wallet}
      (guarded : ∀ before turn after, turns = before ++ turn :: after →
        (Shared.run store before).Guards turn.call)
      (done : ⟨turn, .ok reply⟩ ∈ (Shared.run store turns).log) (plants : turn.Plants entropy name)
      (loaded : (Shared.run store turns).copy? name number = some wallet) : Stems entropy wallet

theorem Wallet.stemsGrown {entropy : Block 32} {phrase : String} {node : Node} {wallet : Wallet}
    (recovers : Recovers entropy phrase node) (stems : wallet.Stems entropy) : wallet.Grown node := by
  induction stems with
  | created made =>
    rw [recovers.created _] at made
    cases made
    exact importedGrown (recovers.imported _ _ recovers.spells) rfl
  | imported spells made =>
    rw [recovers.imported _ _ spells] at made
    cases made
    exact importedGrown (recovers.imported _ _ spells) rfl
  | moved earlier done ih => exact movedGrown ih (attemptMoved done)
  | reopened earlier guarded opened ih =>
    obtain ⟨_, rfl⟩ := Sealed.reopened ih.settled guarded opened
    exact ih
  | held guarded done plants loaded =>
    exact ((Shared.runTraced recovers guarded).rooted _ _ done plants).copies _ _ loaded

/-- The phrase of any entropy can be read back, under any name and in any white space, and recovers what has
become of every wallet of the phrase: they all have one master key, and a key with the number i has the public and
the private key that the i-th call for a new key returns in a wallet that is imported afresh. -/
theorem phraseRecovers (entropy : Block 32) : ∃ phrase master,
    Mnemonic.phrase entropy.val = .ok phrase ∧ Mnemonic.Spells entropy.val phrase ∧
    (∀ name, ∃ wallet, Wallet.create name entropy = .ok (wallet, phrase)) ∧
    (∀ name text, Mnemonic.Spells entropy.val text → ∃ wallet, Wallet.importPhrase name text = .ok wallet) ∧
    ∀ wallet : Wallet, wallet.Stems entropy → wallet.masterKey = .ok master ∧
      ∀ pair ∈ wallet.ring.list, ∃ index, pair.index = some index ∧ 1 ≤ index.toNat ∧
        ∀ name text fresh calls, Mnemonic.Spells entropy.val text → Wallet.importPhrase name text = .ok fresh →
          index.toNat ≤ calls.length → ∃ issued, (fresh.replies calls)[index.toNat - 1]? = some (.ok issued) ∧
            issued.index = some index ∧ issued.publicKey = pair.publicKey ∧
            issued.privateKey = pair.privateKey := by
  obtain ⟨phrase, node, recovers⟩ := Wallet.recoversOk entropy
  have first := Wallet.importedGrown (recovers.imported "" phrase recovers.spells) rfl
  obtain ⟨master, made⟩ := Wallet.masterKeyOk first.origin
  refine ⟨phrase, master, recovers.written, recovers.spells, fun name => ⟨_, recovers.created name⟩,
    fun name text spells => ⟨_, recovers.imported name text spells⟩, fun wallet stems => ?_⟩
  have grown := Wallet.stemsGrown recovers stems
  constructor
  · exact (Wallet.grownMaster first grown).trans made
  · intro pair member
    obtain ⟨index, number, least, reissued⟩ := Wallet.grownReissued (grown.pairs pair member)
    refine ⟨index, number, least, fun name text fresh calls spells imported enough => ?_⟩
    rw [recovers.imported name text spells] at imported
    cases imported
    obtain ⟨issued, replied, same⟩ := reissued name calls enough
    exact ⟨issued, replied, same.index.trans number, same.publicKey, same.privateKey⟩

def spacedPhrase (entropy : Block 32) : String :=
  "\t\u3000".intercalate ((Mnemonic.indices entropy.val).map Mnemonic.word)

theorem spacedSpells (entropy : Block 32) : Mnemonic.Spells entropy.val (spacedPhrase entropy) := by
  have fits : Mnemonic.isLength entropy.val.length = true := by rw [entropy.property]; decide
  have characters : ("\t\u3000" : String).toList = ['\t', '\u3000'] := rfl
  exact ⟨_, if_pos fits, Space.intercalateSpread characters rfl _⟩

def planting : Turn := ⟨0, sampleDraw, .importPhrase "savings" "open sesame" (spacedPhrase sampleDraw.entropy)⟩

def entering : Turn := ⟨1, sampleDraw, .login "savings" "open sesame"⟩

theorem sampleHeld {wallet : Wallet}
    (made : Wallet.importPhrase "savings" (spacedPhrase sampleDraw.entropy) = .ok wallet) :
    (Shared.run MemoryStore.empty [planting, entering]).copy? "savings" 1 = some wallet ∧
      wallet.Stems sampleDraw.entropy := by
  have valid : isWalletName "savings" = true := by decide
  have settled := Wallet.freshSettled (.imported made)
  have absent : (Shared.opened MemoryStore.empty).store.record? "savings" = none := emptyRecords "savings"
  have stored := Shared.importTaken valid "open sesame" absent made 0 sampleDraw
  have entered : (((Shared.opened MemoryStore.empty).take planting).take entering).session 1 = ⟨_, _⟩ :=
    Shared.loginTaken valid settled (Wallet.importPhraseName made) stored 1 sampleDraw
  have turns : Shared.run MemoryStore.empty [planting, entering] =
      ((Shared.opened MemoryStore.empty).take planting).take entering := by
    rw [Shared.run, List.foldl_cons, List.foldl_cons, List.foldl_nil]
  have loaded : (Shared.run MemoryStore.empty [planting, entering]).copy? "savings" 1 = some wallet := by
    rw [turns, Shared.copySession, entered]
    exact Std.ExtTreeMap.getElem?_insert_self
  have absentHere : ((Shared.opened MemoryStore.empty).session 0).store.record? "savings" = none := absent
  have done : ⟨planting, .ok .done⟩ ∈ (Shared.run MemoryStore.empty [planting, entering]).log := by
    have answered := congrArg Prod.fst (Session.importsFree valid absentHere made "open sesame" sampleDraw)
    rw [turns, Shared.takeLog, Shared.takeLog]
    refine List.mem_append_left _ (List.mem_append_right _ (List.mem_singleton.mpr ?_))
    exact congrArg (Taken.mk planting) answered.symm
  have given : ∀ turn ∈ [planting, entering], ∀ other,
      turn.call.passphrase? = some other → other = "open sesame" := by
    simp [planting, entering, Call.passphrase?, Call.opens?]
  exact ⟨loaded, .held (Shared.onePassphraseGuards _ given) done (.imported (spacedSpells _)) loaded⟩

theorem sampleRecovered : ∃ wallet next pair fresh issued,
    (Shared.run MemoryStore.empty [planting, entering]).copy? "savings" 1 = some wallet ∧
    wallet.generate sampleDraw.seed [⟨"use", "rent"⟩] = .ok (next, pair) ∧ pair ∈ next.ring.list ∧
    Wallet.importPhrase "spare" (spacedPhrase sampleDraw.entropy) = .ok fresh ∧
    fresh.masterKey = next.masterKey ∧ (fresh.replies [(sampleDraw.seed, [])])[0]? = some (.ok issued) ∧
    issued.publicKey = pair.publicKey ∧ issued.privateKey = pair.privateKey := by
  have spells := spacedSpells sampleDraw.entropy
  obtain ⟨phrase, master, _, _, _, imports, recovered⟩ := phraseRecovers sampleDraw.entropy
  obtain ⟨wallet, made⟩ := imports "savings" _ spells
  obtain ⟨fresh, spare⟩ := imports "spare" _ spells
  obtain ⟨loaded, stems⟩ := sampleHeld made
  obtain ⟨next, pair, generated⟩ := firstKey made sampleDraw.seed [⟨"use", "rent"⟩]
  have done : wallet.attempt (.generate sampleDraw.seed [⟨"use", "rent"⟩]) = .ok next :=
    mapOk.mpr ⟨_, generated, rfl⟩
  obtain ⟨masterKey, keys⟩ := recovered next (.moved stems done)
  have freshMaster := (recovered fresh (.imported spells spare)).1
  obtain ⟨node, rfl⟩ := Wallet.importPhraseSource made
  have member := Wallet.generateMember KeyRing.emptyFiled generated
  obtain ⟨derived, given, rfl, rfl⟩ := Wallet.generateSource generated
  obtain ⟨index, number, _, recover⟩ := keys _ member
  have below : Wallet.derivePair node 1 = .ok derived := given
  have first : index = 1 := Option.some.inj (number.symm.trans (Wallet.derivePairSource below).2.1)
  subst first
  obtain ⟨issued, replied, _, samePublic, samePrivate⟩ :=
    recover "spare" _ fresh [(sampleDraw.seed, [])] spells spare Nat.le.refl
  exact ⟨_, _, _, fresh, issued, loaded, generated, member, spare, freshMaster.trans masterKey.symm, replied,
    samePublic, samePrivate⟩

end WalletVault
