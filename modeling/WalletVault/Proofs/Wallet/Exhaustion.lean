import WalletVault.Proofs.Wallet.WellFormed
import WalletVault.Proofs.Wallet.Lineage
import WalletVault.Proofs.Wallet.Listing

/-! The end of the numbers of a derived wallet. Keys are issued one number after another up to the last that has a
hardened place below the node; after that no key is issued, whatever else is done to the wallet. -/
namespace WalletVault.Wallet
open Fallible
variable {node : Node} {wallet next start : Wallet} {index : UInt32}

/-! The counter of a derived wallet. -/

structure Ranged (node : Node) (wallet : Wallet) : Prop where
  sound : wallet.Sound
  origin : wallet.origin = .derived node
  bound : wallet.ring.nextIndex.toNat ≤ lastIndex.toNat + 1

def Spent (wallet : Wallet) : Prop := lastIndex < wallet.ring.nextIndex

def LastUsed (wallet : Wallet) : Prop := some lastIndex ∈ wallet.ring.list.map KeyPair.index

theorem lastUsedSpent (sound : wallet.Sound) (used : wallet.LastUsed) : wallet.Spent := by
  obtain ⟨pair, member, number⟩ := List.mem_map.mp used
  have past := sound.ahead.past pair member
  simp only [KeyRing.following, number] at past
  refine UInt32.lt_of_lt_of_le ?_ past
  rw [UInt32.lt_iff_toNat_lt, afterSmall UInt32.le_rfl]
  exact Nat.lt_succ_self _

theorem followingDerived {pair : KeyPair} (derived : pair.DerivedFrom node) :
    (KeyRing.following pair).toNat ≤ lastIndex.toNat + 1 ∧
      (lastIndex < KeyRing.following pair → pair.index = some lastIndex) := by
  obtain ⟨index, number, small, _⟩ := derived
  have after := afterSmall small
  rw [UInt32.le_iff_toNat_le] at small
  simp only [KeyRing.following, number]
  refine ⟨by omega, fun past => ?_⟩
  rw [UInt32.lt_iff_toNat_lt] at past
  have same : index = lastIndex := UInt32.toNat_inj.mp (by omega)
  rw [same]

theorem begunRanged (begun : start.Begun) (origin : start.origin = .derived node) : start.Ranged node := by
  refine ⟨begunSound begun, origin, ?_⟩
  cases begun with
  | fresh made =>
    rw [freshEmpty made]
    decide
  | decoded read =>
    obtain ⟨record, _, made⟩ := decodedSource read
    obtain ⟨pairs, _, ring, issued, _⟩ := WalletRecord.walletSource made
    rw [ring]
    rw [origin] at issued
    rcases KeyRing.nextIndexReached .empty pairs with same | ⟨pair, member, same⟩
    · rw [KeyRing.ofList, same]
      decide
    · rw [KeyRing.ofList, same]
      exact (followingDerived (issued pair member)).1

theorem movedRanged (ranged : wallet.Ranged node) (moved : wallet.Moved next) : next.Ranged node := by
  refine ⟨movedSound wallet next ranged.sound moved, (movedOrigin ranged.sound moved).trans ranged.origin, ?_⟩
  have bound := ranged.bound
  cases moved with
  | @issued seed pair notes made =>
    rw [nextPair, ranged.origin] at made
    have small := (derivePairSource made).1
    rw [UInt32.le_iff_toNat_le] at small
    rw [issueCounts made notes]
    omega
  | refiled member replaces =>
    rwa [file, KeyRing.refileNextIndex ranged.sound.ahead member replaces.index]
  | reloaded read =>
    obtain ⟨counter, below, again⟩ := reloadKeepsKeys ranged.sound
    cases again.symm.trans read
    rw [UInt32.le_iff_toNat_le] at below
    exact Nat.le_trans below bound

/-! Numbers that are spent stay spent. -/

theorem changeFiles {key : String} {f : KeyPair → Except WalletFault KeyPair}
    (changed : wallet.withRing (wallet.ring.change key f) = .ok next) : ∃ pair, next = wallet.file pair := by
  obtain ⟨ring, refiled, rfl⟩ := mapOk.mp changed
  obtain ⟨_, new, _, _, rfl⟩ := KeyRing.changeSource refiled
  exact ⟨new, rfl⟩

theorem attemptFiles {move : Move} (change : move ≠ .reload) (done : wallet.attempt move = .ok next) :
    ∃ pair, next = wallet.file pair := by
  cases move with
  | generate seed notes =>
    obtain ⟨⟨_, pair⟩, generated, rfl⟩ := mapOk.mp done
    obtain ⟨_, _, _, same⟩ := generateSource generated
    exact ⟨pair, same⟩
  | taint key => exact changeFiles done
  | untaint key =>
    simp only [attempt, untaint] at done
    split at done
    · exact changeFiles done
    · cases done
  | annotate key notes => exact changeFiles done
  | reload => exact absurd rfl change

theorem counterGrows {moves : List Move} (changes : .reload ∉ moves) :
    wallet.ring.nextIndex ≤ (wallet.run moves).ring.nextIndex := by
  induction moves generalizing wallet with
  | nil => exact UInt32.le_rfl
  | cons move moves ih =>
    rw [List.mem_cons, not_or] at changes
    obtain ⟨first, later⟩ := changes
    refine UInt32.le_trans ?_ (ih later)
    unfold after
    cases done : wallet.attempt move with
    | error fault => exact UInt32.le_rfl
    | ok next =>
      obtain ⟨pair, rfl⟩ := attemptFiles (Ne.symm first) done
      exact KeyRing.filingKeeps wallet.ring [pair]

theorem refiledLast {old new : KeyPair} (sound : wallet.Sound) (member : old ∈ wallet.ring.list)
    (replaces : new.Replaces old) : (wallet.file new).LastUsed ↔ wallet.LastUsed := by
  rw [LastUsed, file, KeyRing.listNumbers sound.filed member replaces, LastUsed]

theorem reloadedLast (sound : wallet.Sound) (read : ofFullForm wallet.fullForm = .ok next) :
    next.LastUsed ↔ wallet.LastUsed := by
  obtain ⟨counter, _, again⟩ := reloadKeepsKeys sound
  cases again.symm.trans read
  exact Iff.rfl

theorem movedLastUsed (ranged : wallet.Ranged node) (used : wallet.LastUsed) (moved : wallet.Moved next) :
    next.LastUsed := by
  cases moved with
  | issued notes made =>
    rw [nextPair, ranged.origin] at made
    exact absurd (lastUsedSpent ranged.sound used) (UInt32.not_lt.mpr (derivePairSource made).1)
  | refiled member replaces => exact (refiledLast ranged.sound member replaces).mpr used
  | reloaded read => exact (reloadedLast ranged.sound read).mpr used

structure Traced (node : Node) (wallet : Wallet) : Prop where
  ranged : wallet.Ranged node
  used : wallet.Spent → wallet.LastUsed

theorem movedTraced (traced : wallet.Traced node) (moved : wallet.Moved next) : next.Traced node := by
  have ranged := traced.ranged
  refine ⟨movedRanged ranged moved, fun spent => ?_⟩
  cases moved with
  | @issued seed pair notes made =>
    rw [nextPair, ranged.origin] at made
    obtain ⟨small, number, _⟩ := derivePairSource made
    rw [Spent, UInt32.lt_iff_toNat_lt, issueCounts made notes] at spent
    rw [UInt32.le_iff_toNat_le] at small
    have last : wallet.ring.nextIndex = lastIndex := UInt32.toNat_inj.mp (by omega)
    exact List.mem_map.mpr ⟨_, (KeyRing.memberUpsert ranged.sound.filed).mpr (.inl rfl), last ▸ number⟩
  | refiled member replaces =>
    rw [Spent, file, KeyRing.refileNextIndex ranged.sound.ahead member replaces.index] at spent
    exact (refiledLast ranged.sound member replaces).mpr (traced.used spent)
  | reloaded read =>
    obtain ⟨counter, below, again⟩ := reloadKeepsKeys ranged.sound
    have lower : next.ring.nextIndex ≤ wallet.ring.nextIndex := by
      cases again.symm.trans read
      exact below
    exact (reloadedLast ranged.sound read).mpr (traced.used (UInt32.lt_of_lt_of_le spent lower))

/- A wallet that was made anew has issued nothing. In one that was read, the key of the last number may have been
listed again under another number, unless the node gives different keys for different numbers. -/
theorem begunTraced (begun : start.Begun) (origin : start.origin = .derived node)
    (separates : start.Fresh ∨ ∀ numbers, node.Separates numbers) : start.Traced node := by
  refine ⟨begunRanged begun origin, fun spent => ?_⟩
  have fresh (made : start.Fresh) : start.LastUsed := by
    rw [Spent, freshEmpty made] at spent
    exact absurd spent (by decide)
  cases begun with
  | fresh made => exact fresh made
  | decoded read =>
    rcases separates with made | separates
    · exact fresh made
    obtain ⟨record, _, made⟩ := decodedSource read
    obtain ⟨pairs, _, ring, issued, _⟩ := WalletRecord.walletSource made
    rw [origin] at issued
    rw [Spent, ring] at spent
    rw [LastUsed, ring]
    rcases KeyRing.nextIndexReached .empty pairs with same | ⟨pair, member, same⟩
    · rw [KeyRing.ofList, same] at spent
      exact absurd spent (by decide)
    · rw [KeyRing.ofList, same] at spent
      have number := (followingDerived (issued pair member)).2 spent
      obtain ⟨kept, inside, samePublic⟩ := KeyRing.keptOfList member
      obtain ⟨index, found, _, derived, given, gives⟩ := issued kept (KeyRing.memberOfList inside)
      obtain ⟨last, again, _, twin, derivation, twice⟩ := issued pair member
      have alone := separates [index, last] index (by simp) last (by simp) derived twin given derivation
        (by rw [gives, samePublic, twice])
      exact List.mem_map.mpr ⟨kept, inside, by rw [found, alone, ← again, number]⟩

theorem spentStays (traced : wallet.Traced node) (spent : wallet.Spent) (moves : List Move) :
    (wallet.run moves).Spent := by
  have moved (wallet next : Wallet) (holds : wallet.Ranged node ∧ wallet.LastUsed) (moved : wallet.Moved next) :
      next.Ranged node ∧ next.LastUsed :=
    ⟨movedRanged holds.1 moved, movedLastUsed holds.1 holds.2 moved⟩
  obtain ⟨ranged, used⟩ := runKeeps moved ⟨traced.ranged, traced.used spent⟩ moves
  exact lastUsedSpent ranged.sound used

/-! What a call for a new key does. -/

/-- The pair is the one that the node gives for the counter, with the notes and no taint. It is found under its public
key, every other key is found as before, and the counter is one further. -/
structure Issues (node : Node) (wallet next : Wallet) (notes : List Note) (pair : KeyPair) : Prop where
  derived : ∃ given, derivePair node wallet.ring.nextIndex = .ok given ∧ pair = { given with notes := notes }
  untainted : pair.tainted = false
  counter : next.ring.nextIndex.toNat = wallet.ring.nextIndex.toNat + 1
  found : next.ring.find? pair.publicKey.hex = some pair
  others : ∀ key : String, key.toLower ≠ pair.publicKey.hex → next.ring.find? key = wallet.ring.find? key

theorem generateIssues (ranged : wallet.Ranged node) (small : wallet.ring.nextIndex ≤ lastIndex) (seed : Block 32)
    (notes : List Note) :
    ∃ next pair, wallet.generate seed notes = .ok (next, pair) ∧ Issues node wallet next notes pair := by
  obtain ⟨derived, given, generated⟩ := generateOk ranged.origin small seed notes
  have finds := KeyRing.findFiling ranged.sound.filed (derived.annotate notes)
  refine ⟨_, _, generated, ⟨derived, given, rfl⟩, ?_, issueCounts given notes, ?_, fun key differs => ?_⟩
  · exact (derivePairUntainted given : derived.tainted = false)
  · have lower : (derived.annotate notes).publicKey.hex.toLower = (derived.annotate notes).publicKey.hex :=
      Hex.encodeLower _
    rw [file, finds, if_pos lower.symm]
  · rw [file, finds, if_neg differs.symm]

theorem generateRefused (origin : wallet.origin = .derived node) (spent : wallet.Spent) (seed : Block 32)
    (notes : List Note) : wallet.generate seed notes = .error (.indexOverflow wallet.ring.nextIndex) := by
  have refused : wallet.nextPair seed = .error (.indexOverflow wallet.ring.nextIndex) := by
    rw [nextPair, origin]
    exact derivePairFault.mpr ⟨spent, rfl⟩
  exact bindFault.mpr (.inl refused)

/-- A derived wallet issues the pair of its counter and moves on by one, up to the last number and no further: then it
refuses, and stays as it is. A node gives a pair for a number exactly up to the last, each from a hardened place of
its own. Once the numbers are spent they stay so after all further calls; after reloads too, in a wallet that was made
of a phrase, and in every wallet whose node gives different keys for different numbers. -/
theorem numbersIssuedToTheLast (begun : start.Begun) (origin : start.origin = .derived node) (moves : List Move) :
    (start.run moves).origin = .derived node ∧ (start.run moves).ring.nextIndex.toNat ≤ lastIndex.toNat + 1 ∧
    (∀ seed notes, (start.run moves).Spent →
      (start.run moves).generate seed notes = .error (.indexOverflow (start.run moves).ring.nextIndex) ∧
      (start.run moves).after (.generate seed notes) = start.run moves) ∧
    (∀ seed notes, ¬ (start.run moves).Spent → ∃ next pair,
      (start.run moves).generate seed notes = .ok (next, pair) ∧ Issues node (start.run moves) next notes pair) ∧
    (∀ index pair, derivePair node index = .ok pair ↔ index ≤ lastIndex ∧ MadeAt node index pair) ∧
    (∀ index fault, derivePair node index = .error fault ↔ lastIndex < index ∧ fault = .indexOverflow index) ∧
    (∀ first second : UInt32, first ≠ second → originIndex + first ≠ originIndex + second) ∧
    ((start.run moves).Spent →
      (∀ later, .reload ∉ later → ((start.run moves).run later).Spent) ∧
      (start.Fresh ∨ (∀ numbers, node.Separates numbers) → ∀ later, ((start.run moves).run later).Spent)) := by
  have ranged : (start.run moves).Ranged node :=
    runKeeps (fun _ _ => movedRanged) (begunRanged begun origin) moves
  refine ⟨ranged.origin, ranged.bound, fun seed notes spent => ?_, fun seed notes left => ?_,
    fun _ _ => derivePairMade, fun _ _ => derivePairFault, ?_, fun spent => ⟨fun later changes => ?_, ?_⟩⟩
  · have refused := generateRefused ranged.origin spent seed notes
    exact ⟨refused, by simp only [after, attempt, refused, Except.map]⟩
  · exact generateIssues ranged (UInt32.not_lt.mp left) seed notes
  · exact fun first second differs same => differs ((UInt32.add_right_inj originIndex).mp same)
  · exact UInt32.lt_of_lt_of_le spent (counterGrows changes)
  · intro separates
    exact spentStays (runKeeps (fun _ _ => movedTraced) (begunTraced begun origin separates) moves) spent

def sampleNode : Node := ⟨sampleSeed, sampleSeed⟩

theorem sampleLastLeft : ∃ start : Wallet, start.Begun ∧ start.origin = .derived sampleNode ∧
    start.ring.nextIndex = lastIndex := by
  have small : (2147481857 : UInt32) ≤ lastIndex := by decide
  obtain ⟨first, given⟩ := derivePairOk sampleNode small
  obtain ⟨_, number, keyed⟩ := derivePairSource given
  have derived := derivedFrom given
  have counter : (KeyRing.ofList [first]).nextIndex = lastIndex := by
    simp only [KeyRing.ofList, List.foldl_cons, List.foldl_nil, KeyRing.upsert, number]
    decide
  have anchored : (KeyRing.ofList [first]).Anchored := by
    apply KeyRing.ofListAnchored
    simp
  have sound : Sound ⟨"savings", .derived sampleNode, .ofList [first]⟩ :=
    ofListSound (List.forall_mem_singleton.mpr keyed) (List.forall_mem_singleton.mpr derived)
  exact ⟨_, .decoded ((reloadsExactly sound).mpr anchored), rfl, counter⟩

theorem sampleLastIssued : ∃ start : Wallet, start.Begun ∧ start.origin = .derived sampleNode ∧
    ∃ next pair, start.generate sampleSeed [⟨"use", "rent"⟩] = .ok (next, pair) ∧ pair.index = some lastIndex ∧
      next.generate sampleSeed [] = .error (.indexOverflow 2147481859) ∧
      (next.run [.taint "unknown", .generate sampleSeed [], .annotate "unknown" []]).Spent := by
  obtain ⟨start, begun, origin, counter⟩ := sampleLastLeft
  obtain ⟨_, _, _, issues, _⟩ := numbersIssuedToTheLast begun origin []
  have left : ¬ (start.run []).Spent := by
    rw [run, List.foldl_nil, Spent, counter]
    decide
  obtain ⟨next, pair, generated, issued⟩ := issues sampleSeed [⟨"use", "rent"⟩] left
  rw [run, List.foldl_nil] at generated issued
  have after : start.run [.generate sampleSeed [⟨"use", "rent"⟩]] = next := by
    simp only [run, List.foldl_cons, List.foldl_nil, Wallet.after, attempt, generated, Except.map]
  obtain ⟨_, _, refuses, _, _, _, _, stays⟩ :=
    numbersIssuedToTheLast begun origin [.generate sampleSeed [⟨"use", "rent"⟩]]
  rw [after] at refuses stays
  have past : next.ring.nextIndex = 2147481859 := by
    apply UInt32.toNat_inj.mp
    rw [issued.counter, counter]
    decide
  have spent : next.Spent := by
    rw [Spent, past]
    decide
  have refused := (refuses sampleSeed [] spent).1
  rw [past] at refused
  obtain ⟨given, derived, rfl⟩ := issued.derived
  have number : given.index = some lastIndex := counter ▸ (derivePairSource derived).2.1
  exact ⟨start, begun, origin, next, _, generated, number, refused, (stays spent).1 _ (by simp)⟩

end WalletVault.Wallet
