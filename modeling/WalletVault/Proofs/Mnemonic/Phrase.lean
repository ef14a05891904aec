import WalletVault.Proofs.Fallible
import WalletVault.Proofs.Mnemonic.WordList

/-! A phrase is read back: the words of entropy of any fitting length are words of the list, their numbers
write the entropy again, and the checksum is right. Between the words may stand white space of any kind. -/
namespace WalletVault

namespace Space

theorem splitSolid {solid : List Char} (all : ∀ c ∈ solid, isSpace c = false) (word : List Char)
    (done : List String) (rest : List Char) :
    split word done (solid ++ rest) = split (solid.reverse ++ word) done rest := by
  induction solid generalizing word with
  | nil => rfl
  | cons c solid ih =>
    have letter := all c (by simp)
    rw [List.cons_append, split, if_neg (by simp [letter]), ih fun d member => all d (List.mem_cons_of_mem _ member),
      List.reverse_cons, List.append_assoc, List.singleton_append]

theorem closeSolid {text : String} (solid : Mnemonic.Solid text) (done : List String) :
    close (text.toList.reverse ++ []) done = text :: done := by
  rw [List.append_nil, close, if_neg (by simpa using solid.nonempty), List.reverse_reverse, String.ofList_toList]

/- Characters in which words stand in this order, with white space of any kind and length before them, between
them and after them. -/
inductive Spread : List String → List Char → Prop where
  | none : Spread [] []
  | space {c : Char} {words : List String} {rest : List Char} (white : isSpace c = true)
      (later : Spread words rest) : Spread words (c :: rest)
  | last (word : String) : Spread [word] word.toList
  | word {c : Char} {words : List String} {rest : List Char} (word : String) (white : isSpace c = true)
      (later : Spread words rest) : Spread (word :: words) (word.toList ++ c :: rest)

theorem splitSpread {words : List String} {text : List Char} (spread : Spread words text)
    (solid : ∀ word ∈ words, Mnemonic.Solid word) (done : List String) :
    split [] done text = done.reverse ++ words := by
  induction spread generalizing done with
  | none => simp [split, close]
  | space white later ih =>
    rw [split, if_pos white]
    exact ih solid done
  | last word =>
    have whole := splitSolid (solid word (by simp)).solid [] done []
    rw [List.append_nil] at whole
    rw [whole, split, closeSolid (solid word (by simp)), List.reverse_cons]
  | word word white later ih =>
    have rest := ih fun other member => solid other (List.mem_cons_of_mem _ member)
    rw [splitSolid (solid word (by simp)).solid, split, if_pos white, closeSolid (solid word (by simp)), rest,
      List.reverse_cons, List.append_assoc, List.singleton_append]

theorem whiteSpread {gap : List Char} (white : ∀ c ∈ gap, isSpace c = true) {words : List String}
    {rest : List Char} (later : Spread words rest) : Spread words (gap ++ rest) := by
  induction gap with
  | nil => exact later
  | cons c gap ih =>
    exact .space (white c List.mem_cons_self) (ih fun d member => white d (List.mem_cons_of_mem _ member))

theorem intercalateSpread {gap : String} {c : Char} {more : List Char} (characters : gap.toList = c :: more)
    (white : (c :: more).all isSpace = true) (words : List String) :
    Spread words (gap.intercalate words).toList := by
  obtain ⟨first, others⟩ := List.forall_mem_cons.mp (List.all_eq_true.mp white)
  rw [String.toList_intercalate, characters]
  induction words with
  | nil => exact .none
  | cons word rest ih =>
    cases rest with
    | nil =>
      rw [List.map_cons, List.map_nil, List.intercalate_singleton]
      exact .last word
    | cons next rest =>
      rw [List.map_cons, List.map_cons, List.intercalate_cons_cons, List.append_assoc, ← List.map_cons]
      exact .word word first (whiteSpread others ih)

end Space

namespace Mnemonic

theorem textSpread (words : List String) : Space.Spread words (text words).toList := by
  have characters : (" " : String).toList = [' '] := rfl
  exact Space.intercalateSpread characters rfl words

/-! Bits and the numbers that they write. -/

theorem numberAppend (bits : List Bool) (bit : Bool) : number (bits ++ [bit]) = 2 * number bits + bit.toNat := by
  simp [number]

theorem bitsSucc (width n : Nat) : bits (width + 1) n = bits width (n / 2) ++ [n.testBit 0] := by
  simp only [bits, List.range_succ, List.map_append, List.map_cons, List.map_nil, Nat.add_sub_cancel,
    Nat.sub_self]
  congr 1
  refine List.map_congr_left fun i member => ?_
  have below := List.mem_range.mp member
  have shifted : width - i = (width - 1 - i) + 1 := by omega
  rw [shifted, Nat.testBit_add_one]

theorem bitsNumber (group : List Bool) : bits group.length (number group) = group := by
  induction group using List.reverseRecOn with
  | nil => rfl
  | append_singleton group bit ih =>
    have half : (2 * number group + bit.toNat) / 2 = number group := by
      have small := bit.toNat_lt
      omega
    have last : (2 * number group + bit.toNat).testBit 0 = bit := by
      cases bit <;> simp [Nat.testBit_zero]
    rw [List.length_append, List.length_singleton, bitsSucc, numberAppend, half, last, ih]

theorem numberBits {width n : Nat} (small : n < Nat.pow 2 width) : number (bits width n) = n := by
  induction width generalizing n with
  | zero =>
    have zero : n = 0 := Nat.lt_one_iff.mp small
    subst zero
    rfl
  | succ width ih =>
    have half : n / 2 < Nat.pow 2 width := Nat.div_lt_of_lt_mul (Nat.mul_comm 2 _ ▸ small)
    rw [bitsSucc, numberAppend, ih half, Nat.testBit_zero]
    rcases Nat.mod_two_eq_zero_or_one n with even | odd
    · simp [even]; omega
    · simp [odd]; omega

theorem bitsLength (width n : Nat) : (bits width n).length = width := by simp [bits]

theorem bitsCount (width : Nat) (numbers : List Nat) :
    (numbers.flatMap (bits width)).length = width * numbers.length := by
  induction numbers with
  | nil => rfl
  | cons n numbers ih =>
    rw [List.flatMap_cons, List.length_append, bitsLength, ih, List.length_cons, Nat.mul_succ, Nat.add_comm]

theorem numberBound (group : List Bool) : number group < Nat.pow 2 group.length := by
  induction group using List.reverseRecOn with
  | nil => decide
  | append_singleton group bit ih =>
    have small := bit.toNat_lt
    have double : Nat.pow 2 (group.length + 1) = Nat.pow 2 group.length * 2 := rfl
    rw [numberAppend, List.length_append, List.length_singleton, double]
    omega

theorem groupsLength (width count : Nat) (bits : List Bool) : (groups width count bits).length = count := by
  induction count generalizing bits with
  | zero => rfl
  | succ count ih => rw [groups, List.length_cons, ih]

theorem groupsWidth {width count : Nat} {bits : List Bool} (length : bits.length = width * count) :
    ∀ group ∈ groups width count bits, group.length = width := by
  induction count generalizing bits with
  | zero => nofun
  | succ count ih =>
    rw [Nat.mul_succ] at length
    have rest : (bits.drop width).length = width * count := by rw [List.length_drop]; omega
    refine List.forall_mem_cons.mpr ⟨?_, ih rest⟩
    rw [List.length_take]
    omega

theorem groupsFlatten {width count : Nat} {bits : List Bool} (length : bits.length = width * count) :
    (groups width count bits).flatten = bits := by
  induction count generalizing bits with
  | zero =>
    have empty : bits = [] := List.eq_nil_of_length_eq_zero (by simpa using length)
    rw [empty]
    rfl
  | succ count ih =>
    rw [Nat.mul_succ] at length
    have rest : (bits.drop width).length = width * count := by rw [List.length_drop]; omega
    rw [groups, List.flatten_cons, ih rest, List.take_append_drop]

theorem groupsNumbers {width count : Nat} {stream : List Bool} (length : stream.length = width * count) :
    ((groups width count stream).map number).flatMap (bits width) = stream := by
  have same : ∀ group ∈ groups width count stream, bits width (number group) = group := by
    intro group member
    have width := groupsWidth length group member
    rw [← width, bitsNumber]
  rw [List.flatMap_map, List.flatMap_def, List.map_congr_left same, List.map_id', groupsFlatten length]

theorem groupsWritten {width : Nat} {numbers : List Nat} (small : ∀ n ∈ numbers, n < Nat.pow 2 width)
    (rest : List Bool) : (groups width numbers.length (numbers.flatMap (bits width) ++ rest)).map number = numbers := by
  induction numbers with
  | nil => rfl
  | cons n numbers ih =>
    obtain ⟨first, later⟩ := List.forall_mem_cons.mp small
    have size : (bits width n).length = width := bitsLength width n
    rw [List.length_cons, List.flatMap_cons, List.append_assoc, groups, List.take_left' size, List.drop_left' size,
      List.map_cons, numberBits first, ih later]

theorem byteBitsLength (bytes : Bytes) : (byteBits bytes).length = 8 * bytes.length := by
  have count := bitsCount 8 (bytes.map UInt8.toNat)
  rwa [List.flatMap_map, List.length_map] at count

theorem bytesGrouped (bytes : Bytes) (rest : List Bool) :
    (groups 8 bytes.length (byteBits bytes ++ rest)).map (fun group => UInt8.ofNat (number group)) = bytes := by
  have small : ∀ n ∈ bytes.map UInt8.toNat, n < Nat.pow 2 8 := by
    intro n member
    obtain ⟨b, _, rfl⟩ := List.mem_map.mp member
    exact b.toNat_lt
  have grouped := groupsWritten small rest
  rw [List.length_map, List.flatMap_map] at grouped
  have again := congrArg (List.map UInt8.ofNat) grouped
  rw [List.map_map, List.map_map] at again
  simpa [Function.comp_def, byteBits] using again

theorem lengthSource {bytes : Nat} (fits : isLength bytes = true) :
    ∃ count, bytes = 4 * count ∧ 4 ≤ count ∧ count ≤ 8 := by
  simp only [isLength, decide_eq_true_eq] at fits
  exact ⟨bytes / 4, by omega⟩

theorem streamLength {entropy : Bytes} (fits : isLength entropy.length = true) :
    (byteBits entropy ++ checksum entropy).length = 11 * (entropy.length / 4 * 3) := by
  obtain ⟨count, length, _, most⟩ := lengthSource fits
  rw [List.length_append, byteBitsLength, checksum, List.length_take, byteBitsLength, Sha256.lengthDigest, length]
  omega

theorem entropyIndices {entropy : Bytes} (fits : isLength entropy.length = true) :
    entropyOf (indices entropy) = entropy := by
  obtain ⟨count, length, _, _⟩ := lengthSource fits
  have numbers : (indices entropy).length / 3 * 4 = entropy.length := by
    rw [indices, List.length_map, groupsLength, length]
    omega
  rw [entropyOf, numbers, indices, groupsNumbers (streamLength fits), bytesGrouped]

theorem indicesSmall {entropy : Bytes} (fits : isLength entropy.length = true) :
    ∀ index ∈ indices entropy, index < 2048 := by
  intro index member
  obtain ⟨group, inside, rfl⟩ := List.mem_map.mp member
  have bound := numberBound group
  rwa [groupsWidth (streamLength fits) group inside] at bound

theorem indicesOfWords {numbers : List Nat} (small : ∀ index ∈ numbers, index < 2048) (position : Nat) :
    indicesFrom position (numbers.map word) = .ok numbers := by
  induction numbers generalizing position with
  | nil => rfl
  | cons index rest ih =>
    have later := ih (fun other member => small other (List.mem_cons_of_mem _ member)) (position + 1)
    rw [List.map_cons, indicesFrom, wordNumber (small index (by simp)), later]
    rfl

theorem readWords {entropy : Bytes} {words : List String} {text : String} (written : ofEntropy entropy = .ok words)
    (separate : Space.words text = words) : read text = .ok words := by
  unfold ofEntropy at written
  split at written
  · rename_i fits
    cases written
    have small := indicesSmall fits
    obtain ⟨count, length, least, most⟩ := lengthSource fits
    have total : (indices entropy).length = 3 * count := by
      rw [indices, List.length_map, groupsLength, length]
      omega
    cases numbers : indices entropy with
    | nil =>
      rw [numbers, List.length_nil] at total
      omega
    | cons first rest =>
      have fitting : isCount ((indices entropy).map word).length = true := by
        simp only [isCount, List.length_map, total, decide_eq_true_eq]
        omega
      have checked : indices (entropyOf (indices entropy)) = indices entropy := by rw [entropyIndices fits]
      have found := indicesOfWords small 0
      have known := wordNumber (small first (by rw [numbers]; simp))
      rw [numbers] at separate fitting checked found
      rw [List.map_cons] at separate fitting found ⊢
      simp only [read, separate, known, fitting, found]
      simp [bind, Except.bind, pure, Except.pure, checked]
  · cases written

theorem ofEntropySolid {entropy : Bytes} {words : List String} (written : ofEntropy entropy = .ok words) :
    ∀ word ∈ words, Solid word := by
  unfold ofEntropy at written
  split at written
  · rename_i fits
    cases written
    intro text member
    obtain ⟨index, inside, rfl⟩ := List.mem_map.mp member
    exact wordSolid (indicesSmall fits index inside)
  · cases written

theorem readSpread {entropy : Bytes} {words : List String} {text : String} (written : ofEntropy entropy = .ok words)
    (spread : Space.Spread words text.toList) : read text = .ok words :=
  readWords written (Space.splitSpread spread (ofEntropySolid written) [])

def Spells (entropy : Bytes) (text : String) : Prop :=
  ∃ words, ofEntropy entropy = .ok words ∧ Space.Spread words text.toList

theorem ofEntropyOk (entropy : Block 32) : ∃ words, ofEntropy entropy.val = .ok words := by
  have fits : isLength entropy.val.length = true := by rw [entropy.property]; decide
  exact ⟨_, if_pos fits⟩

end Mnemonic

end WalletVault
