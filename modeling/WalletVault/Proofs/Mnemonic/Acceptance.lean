import WalletVault.Algorithm
import WalletVault.Proofs.Mnemonic.Phrase

/-! Which texts are recovery phrases: those with the words of the phrase of some entropy, and no others. The entropy
is settled by the words. -/
namespace WalletVault.Mnemonic
open Fallible
variable {entropy other : Bytes} {numbers others : List Nat} {words : List String} {text : String}

/-- The numbers write the bits of the entropy and, behind them, its checksum: eleven bits each, nothing left over. -/
structure Packs (entropy : Bytes) (numbers : List Nat) : Prop where
  fits : entropy.length ∈ [16, 20, 24, 28, 32]
  small : ∀ number ∈ numbers, number < 2048
  stream : numbers.flatMap (bits 11) = byteBits entropy ++ checksum entropy

theorem lengthOk {bytes : Nat} : isLength bytes = true ↔ bytes ∈ [16, 20, 24, 28, 32] := by
  simp only [isLength, decide_eq_true_eq, List.mem_cons, List.not_mem_nil, or_false]
  omega

theorem indicesPack (fits : isLength entropy.length = true) : Packs entropy (indices entropy) :=
  ⟨lengthOk.mp fits, indicesSmall fits, groupsNumbers (streamLength fits)⟩

theorem Packs.ofEntropy (packs : Packs entropy numbers) : numbers = indices entropy := by
  have fits := lengthOk.mpr packs.fits
  have length : numbers.length = entropy.length / 4 * 3 := by
    have bits := bitsCount 11 numbers
    rw [packs.stream, streamLength fits] at bits
    omega
  have grouped := @groupsWritten 11 numbers packs.small []
  rw [List.append_nil, packs.stream, length] at grouped
  exact grouped.symm

theorem Packs.toEntropy (packs : Packs entropy numbers) : entropyOf numbers = entropy := by
  rw [packs.ofEntropy, entropyIndices (lengthOk.mpr packs.fits)]

theorem writtenOk : Mnemonic.ofEntropy entropy = .ok words ↔
    ∃ numbers, Packs entropy numbers ∧ words = numbers.map word := by
  rw [Mnemonic.ofEntropy]
  constructor
  · intro written
    split at written
    · rename_i fits
      cases written
      exact ⟨_, indicesPack fits, rfl⟩
    · cases written
  · rintro ⟨numbers, packs, rfl⟩
    rw [if_pos (lengthOk.mpr packs.fits), packs.ofEntropy]

theorem packedOnce (packs : Packs entropy numbers) (again : Packs other others)
    (same : numbers.map word = others.map word) : entropy = other := by
  have numbersSame : numbers = others := by
    have left := indicesOfWords packs.small 0
    rw [same, indicesOfWords again.small 0] at left
    exact (Except.ok.inj left).symm
  rw [← packs.toEntropy, ← again.toEntropy, numbersSame]

theorem numberWord {index : Nat} (found : index? text = some index) : index < 2048 ∧ word index = text := by
  rw [index?, wordArray, List.idxOf?_toArray, List.idxOf?_eq_some_iff] at found
  obtain ⟨inside, same, _⟩ := found
  exact ⟨listLength ▸ inside, (wordListed inside).trans same⟩

theorem indicesSource {position : Nat} (found : indicesFrom position words = .ok numbers) :
    numbers.map word = words ∧ ∀ number ∈ numbers, number < 2048 := by
  induction words generalizing position numbers with
  | nil =>
    cases found
    exact ⟨rfl, nofun⟩
  | cons text words ih =>
    rw [indicesFrom] at found
    split at found
    · cases found
    · rename_i index known
      obtain ⟨later, rest, rfl⟩ := mapOk.mp found
      obtain ⟨small, same⟩ := numberWord known
      obtain ⟨written, bounded⟩ := ih rest
      exact ⟨by rw [List.map_cons, same, written], List.forall_mem_cons.mpr ⟨small, bounded⟩⟩

theorem readSource (accepted : read text = .ok words) : words = Space.words text ∧
    ∃ numbers, indicesFrom 0 words = .ok numbers ∧ isCount words.length = true ∧
      indices (entropyOf numbers) = numbers := by
  unfold read at accepted
  cases separate : Space.words text with
  | nil =>
    rw [separate] at accepted
    cases accepted
  | cons first rest =>
    simp only [separate] at accepted
    split at accepted
    · cases accepted
    · split at accepted
      · cases accepted
      · rename_i fitting
        obtain ⟨numbers, found, accepted⟩ := bindOk.mp accepted
        split at accepted
        · rename_i checked
          cases pureOk.mp accepted
          exact ⟨rfl, numbers, found, by simpa using fitting, checked⟩
        · cases accepted

theorem entropyOfLength (numbers : List Nat) : (entropyOf numbers).length = numbers.length / 3 * 4 := by
  rw [entropyOf, List.length_map, groupsLength]

theorem readOk : read text = .ok words ↔
    words = Space.words text ∧ ∃ entropy, Mnemonic.ofEntropy entropy = .ok words := by
  constructor
  · intro accepted
    obtain ⟨separate, numbers, found, fitting, checked⟩ := readSource accepted
    obtain ⟨written, _⟩ := indicesSource found
    have count : numbers.length = words.length := by rw [← written, List.length_map]
    have fits : isLength (entropyOf numbers).length = true := by
      rw [entropyOfLength, count]
      simp only [isCount, isLength, decide_eq_true_eq] at fitting ⊢
      omega
    refine ⟨separate, entropyOf numbers, ?_⟩
    rw [Mnemonic.ofEntropy, if_pos fits, checked, written]
  · rintro ⟨rfl, entropy, written⟩
    exact readWords written rfl

theorem phraseOk {phrase : String} : Mnemonic.phrase entropy = .ok phrase ↔
    ∃ words, Mnemonic.ofEntropy entropy = .ok words ∧ phrase = Mnemonic.text words := by
  rw [Mnemonic.phrase]
  cases Mnemonic.ofEntropy entropy with
  | ok words => simp [eq_comm]
  | error fault => simp

theorem phraseWords (written : Mnemonic.ofEntropy entropy = .ok words) : Space.words (Mnemonic.text words) = words :=
  Space.splitSpread (textSpread words) (ofEntropySolid written) []

/-- The text has the words of the phrase of the entropy. -/
def Carries (entropy : Bytes) (text : String) : Prop :=
  entropy.length ∈ [16, 20, 24, 28, 32] ∧
    ∃ phrase, Mnemonic.phrase entropy = .ok phrase ∧ Space.words text = Space.words phrase

theorem carriesOk : Carries entropy text ↔ Mnemonic.ofEntropy entropy = .ok (Space.words text) := by
  constructor
  · rintro ⟨_, phrase, made, same⟩
    obtain ⟨words, written, rfl⟩ := phraseOk.mp made
    rw [same, phraseWords written, written]
  · intro written
    obtain ⟨numbers, packs, _⟩ := writtenOk.mp written
    exact ⟨packs.fits, _, phraseOk.mpr ⟨_, written, rfl⟩, (phraseWords written).symm⟩

theorem readCarried : (read text).isOk = true ↔ ∃ entropy, Carries entropy text := by
  simp only [carriesOk]
  constructor
  · intro accepted
    cases result : read text with
    | error fault =>
      rw [result] at accepted
      cases accepted
    | ok words =>
      obtain ⟨rfl, written⟩ := readOk.mp result
      exact written
  · rintro ⟨entropy, written⟩
    rw [readOk.mpr ⟨rfl, entropy, written⟩]
    rfl

theorem carriedOnce (left : Carries entropy text) (right : Carries other text) : entropy = other := by
  obtain ⟨numbers, packs, written⟩ := writtenOk.mp (carriesOk.mp left)
  obtain ⟨others, again, twice⟩ := writtenOk.mp (carriesOk.mp right)
  exact packedOnce packs again (written.symm.trans twice)

theorem phraseWritten (fits : entropy.length ∈ [16, 20, 24, 28, 32]) :
    ∃ phrase numbers, Mnemonic.phrase entropy = .ok phrase ∧ Packs entropy numbers ∧
      Space.words phrase = numbers.map word := by
  have packs := indicesPack (lengthOk.mpr fits)
  have written := writtenOk.mpr ⟨_, packs, rfl⟩
  exact ⟨_, _, phraseOk.mpr ⟨_, written, rfl⟩, packs, phraseWords written⟩

theorem phraseRefused (unfit : entropy.length ∉ [16, 20, 24, 28, 32]) :
    Mnemonic.phrase entropy = .error (.derivation (.entropyLength (8 * entropy.length))) := by
  have refused : Mnemonic.ofEntropy entropy = .error (.entropyLength (8 * entropy.length)) :=
    if_neg (unfit ∘ lengthOk.mp)
  simp only [Mnemonic.phrase, refused]

end WalletVault.Mnemonic
