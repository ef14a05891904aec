import WalletVault.Proofs.Form.RoundTrip

/-! What a user of a wallet relies on, entry by entry, after any history. The counter of a ring never goes back and
stands after the largest number that was ever filed, so it is past every number in the ring but the last that there
is, which no number is past. -/
namespace WalletVault.KeyRing

theorem aboveAfter {index : UInt32} : index < after index ↔ index ≠ 0xFFFFFFFF := by
  constructor
  · rintro above rfl
    exact absurd above (by decide)
  · intro notLast
    refine UInt32.lt_of_le_of_ne (belowAfter index) fun same => ?_
    rw [after, if_neg notLast] at same
    have number := congrArg UInt32.toNat same
    have one : (1 : UInt32).toNat = 1 := rfl
    rw [UInt32.toNat_add] at number
    omega

theorem followingBelow {pair : KeyPair} {bound : UInt32} :
    following pair ≤ bound ↔ ∀ index, pair.index = some index → after index ≤ bound := by
  cases number : pair.index with
  | none => simp [following, number]
  | some index => simp [following, number]

theorem filingKeeps (ring : KeyRing) (pairs : List KeyPair) : ring.nextIndex ≤ (pairs.foldl upsert ring).nextIndex :=
  ((nextIndexBelow ring pairs _).mp UInt32.le_rfl).1

theorem ofListAppend (earlier later : List KeyPair) : ofList (earlier ++ later) = later.foldl upsert (ofList earlier) :=
  List.foldl_append

/-- Whatever pairs are filed, the counter never goes back; it is the least number from 1 on that is after all the
numbers filed; and it is past the number of a pair in the ring unless that number is the last there is. -/
theorem counterPassesNumbers (pairs : List KeyPair) :
    (∀ later, (ofList pairs).nextIndex ≤ (ofList (pairs ++ later)).nextIndex) ∧
    (∀ bound, (ofList pairs).nextIndex ≤ bound ↔
      1 ≤ bound ∧ ∀ pair ∈ pairs, ∀ index, pair.index = some index → after index ≤ bound) ∧
    (∀ pair ∈ (ofList pairs).list, ∀ index, pair.index = some index →
      (index < (ofList pairs).nextIndex ↔ index ≠ 0xFFFFFFFF)) := by
  refine ⟨fun later => ?_, fun bound => ?_, fun pair member index number => ?_⟩
  · rw [ofListAppend]
    exact filingKeeps _ later
  · have start : empty.nextIndex = 1 := rfl
    simp only [ofList, nextIndexBelow, followingBelow, start]
  · constructor
    · rintro past rfl
      exact UInt32.not_le.mpr past (UInt32.le_iff_toNat_le.mpr (Nat.le_of_lt_succ (UInt32.toNat_lt _)))
    · intro notLast
      exact UInt32.lt_of_lt_of_le (aboveAfter.mpr notLast)
        (followingBelow.mp ((ofListAhead pairs).past pair member) index number)

def lastNumbered : List KeyPair := [Wallet.numberedPair 0xFFFFFFFF]

def lastNumberedRecord : WalletRecord := ⟨Wallet.legacyVersion, "savings", none, lastNumbered.map .ofPair⟩

theorem lastNumberNotPassed : ∃ wallet, Wallet.ofFullForm lastNumberedRecord.json.compact = .ok wallet ∧
    ∃ pair ∈ wallet.ring.list, pair.index = some 0xFFFFFFFF ∧ ¬ (0xFFFFFFFF : UInt32) < wallet.ring.nextIndex := by
  have member : Wallet.numberedPair 0xFFFFFFFF ∈ (ofList lastNumbered).list :=
    (memberUpsert emptyFiled).mpr (Or.inl rfl)
  have keyed : ∀ pair ∈ lastNumbered, pair.Keyed := by simp [lastNumbered, Wallet.numberedKeyed]
  refine ⟨_, Wallet.legacyRead keyed "savings", _, member, rfl, fun past => ?_⟩
  exact ((counterPassesNumbers lastNumbered).2.2 _ member _ rfl).mp past rfl

end WalletVault.KeyRing

namespace WalletVault.Wallet

/-- What holds of every wallet, whatever was done to it. Of derived wallets it says more: each key belongs
to its number, no two keys share one, and the next number is past them all. -/
structure WellFormed (wallet : Wallet) : Prop where
  filed : ∀ (key : String) (pair : KeyPair), wallet.ring.keys[key]? = some pair →
    key = Hex.encode pair.publicKey.bytes ∧ key.toLower = key
  keyed : ∀ (key : String) (pair : KeyPair), wallet.ring.keys[key]? = some pair →
    pair.privateKey.bytes.length = 32 ∧
      pair.algorithm.publicKey pair.privateKey.bytes = .ok pair.publicKey
  derived : ∀ node, wallet.origin = .derived node →
    ∀ (key : String) (pair : KeyPair), wallet.ring.keys[key]? = some pair →
      ∃ index, pair.index = some index ∧ index ≤ lastIndex ∧
        ∃ derived, derivePair node index = .ok derived ∧ derived.publicKey = pair.publicKey
  distinct : ∀ node, wallet.origin = .derived node →
    ∀ (key other : String) (first second : KeyPair), wallet.ring.keys[key]? = some first →
      wallet.ring.keys[other]? = some second → first.index = second.index → key = other
  counted : ∀ node, wallet.origin = .derived node → 1 ≤ wallet.ring.nextIndex ∧
    ∀ (key : String) (pair : KeyPair), wallet.ring.keys[key]? = some pair →
      ∀ index, pair.index = some index → index < wallet.ring.nextIndex

theorem soundWellFormed {wallet : Wallet} (sound : wallet.Sound) : wallet.WellFormed where
  filed key pair found := by
    have place := sound.filed key pair found
    rw [place]
    exact ⟨rfl, Hex.encodeLower _⟩
  keyed key pair found := by
    have keyed := sound.keyed pair (KeyRing.memberList.mpr ⟨key, found⟩)
    exact ⟨keyed.length, keyed.gives⟩
  derived node origin key pair found := by
    have issued := sound.issued pair (KeyRing.memberList.mpr ⟨key, found⟩)
    rwa [origin] at issued
  distinct node origin key other first second found foundOther same := by
    have left := sound.issued first (KeyRing.memberList.mpr ⟨key, found⟩)
    have right := sound.issued second (KeyRing.memberList.mpr ⟨other, foundOther⟩)
    rw [origin] at left right
    rw [sound.filed key first found, sound.filed other second foundOther, left.samePublic right same]
  counted node origin := by
    refine ⟨sound.ahead.positive, fun key pair found index number => ?_⟩
    have member := KeyRing.memberList.mpr ⟨key, found⟩
    have issued := sound.issued pair member
    rw [origin] at issued
    obtain ⟨small, sameNumber, bound, _⟩ := issued
    cases number.symm.trans sameNumber
    -- The counter saturates only at the largest number, and derived keys end before it.
    have past := sound.ahead.past pair member
    simp only [KeyRing.following, number] at past
    have later : index < KeyRing.after index := by
      rw [UInt32.lt_iff_toNat_lt, afterSmall bound]
      exact Nat.lt_succ_self _
    exact UInt32.lt_of_lt_of_le later past

/-- Well-formedness holds after every history, wherever the wallet came from. -/
theorem runWellFormed {start : Wallet} (begun : start.Begun) (moves : List Move) :
    (start.run moves).WellFormed :=
  soundWellFormed (runKeeps movedSound (begunSound begun) moves)

theorem samplePhraseWellFormed : ∃ start, importPhrase "savings" samplePhrase = .ok start ∧
    (start.run [.generate sampleSeed [⟨"use", "rent"⟩], .reload, .taint "unknown"]).WellFormed := by
  obtain ⟨node, made⟩ := samplePhraseOk "savings"
  exact ⟨_, made, runWellFormed (.fresh (.imported made)) _⟩

end WalletVault.Wallet
