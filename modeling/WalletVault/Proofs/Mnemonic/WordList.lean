import Mathlib.Data.List.Chain
import Mathlib.Data.List.Nodup
import WalletVault.Mnemonic.Phrase
import WalletVault.Proofs.Text.Utf8

/-! The list of words: its words are in lower case and all different, so a number below 2048 has a word
that gives the number back and that no white space cuts. -/
namespace WalletVault.Mnemonic

/- What is said of the whole list is computed over bytes: letters only, and in ascending order. -/
def isLower (bytes : Bytes) : Bool :=
  !bytes.isEmpty && bytes.all fun b => Nat.ble 97 b.toNat && Nat.ble b.toNat 122

def rank (word : Bytes) : Nat := Bytes.bigEndian ((word ++ List.replicate 8 0).take 8)

def ascends : List Nat → Bool
  | first :: second :: rest => Nat.blt first second && ascends (second :: rest)
  | _ => true

theorem listChecked : (fun words : List Bytes => words.all isLower && ascends (words.map rank))
    (wordList.map Utf8.encode) = true := by
  decide +kernel

theorem listLength : wordList.length = 2048 := by decide +kernel

theorem ascendsChain {numbers : List Nat} (ascending : ascends numbers = true) :
    numbers.IsChain (· < ·) := by
  fun_induction ascends numbers with
  | case1 first second rest ih =>
    obtain ⟨below, later⟩ := Bool.and_eq_true_iff.mp ascending
    exact .cons_cons (Nat.blt_eq.mp below) (ih later)
  | case2 numbers few =>
    rcases numbers with _ | ⟨first, _ | ⟨second, rest⟩⟩
    · exact .nil
    · exact .singleton first
    · exact (few first second rest rfl).elim

theorem listDistinct : wordList.Nodup := by
  have ordered := (ascendsChain (Bool.and_eq_true_iff.mp listChecked).2).pairwise
  rw [List.pairwise_map, List.pairwise_map] at ordered
  refine ordered.imp fun below same => ?_
  rw [same] at below
  exact Nat.lt_irrefl _ below

theorem wordListed {index : Nat} (small : index < wordList.length) : word index = wordList[index] := by
  simp [word, wordArray, Array.getD, small]

theorem wordNumber {index : Nat} (small : index < 2048) : index? (word index) = some index := by
  rw [← listLength] at small
  rw [wordListed small, index?, wordArray, List.idxOf?_toArray, List.idxOf?_eq_some_iff]
  refine ⟨small, rfl, fun other before same => ?_⟩
  have equal := (List.Nodup.getElem_inj_iff listDistinct).mp same
  omega

theorem letterOfBytes {c : Char}
    (lower : ∀ b ∈ String.utf8EncodeChar c, 97 ≤ b.toNat ∧ b.toNat ≤ 122) : 97 ≤ c.toNat ∧ c.toNat ≤ 122 := by
  have value : c.val.toNat = c.toNat := rfl
  unfold String.utf8EncodeChar at lower
  simp only [value] at lower
  split at lower
  · rename_i ascii
    have byte := lower _ List.mem_cons_self
    rw [UInt8.toNat_ofNat'] at byte
    omega
  · have outside : ∀ n, 192 ≤ n → n < 256 → ¬ (97 ≤ (UInt8.ofNat n).toNat ∧ (UInt8.ofNat n).toNat ≤ 122) := by
      intro n low high
      rw [UInt8.toNat_ofNat']
      omega
    split at lower
    · exact absurd (lower _ List.mem_cons_self) (outside _ (by omega) (by omega))
    · split at lower
      · exact absurd (lower _ List.mem_cons_self) (outside _ (by omega) (by omega))
      · exact absurd (lower _ List.mem_cons_self) (outside _ (by omega) (by omega))

theorem letterSolid {c : Char} (letter : 97 ≤ c.toNat ∧ c.toNat ≤ 122) : Space.isSpace c = false := by
  simp [Space.isSpace]
  omega

structure Solid (text : String) : Prop where
  nonempty : text.toList ≠ []
  solid : ∀ c ∈ text.toList, Space.isSpace c = false

theorem wordSolid {index : Nat} (small : index < 2048) : Solid (word index) := by
  rw [← listLength] at small
  have all := (Bool.and_eq_true_iff.mp listChecked).1
  have lower := List.all_eq_true.mp all _ (List.mem_map_of_mem (List.getElem_mem small))
  rw [← wordListed small] at lower
  obtain ⟨nonempty, letters⟩ := Bool.and_eq_true_iff.mp lower
  have bytes : Utf8.encode (word index) = (word index).toList.flatMap String.utf8EncodeChar := by
    rw [← Utf8.encodeOfList, String.ofList_toList]
  rw [bytes] at nonempty letters
  constructor
  · intro empty
    rw [empty] at nonempty
    cases nonempty
  · intro c member
    refine letterSolid (letterOfBytes fun b inside => ?_)
    have bounds := List.all_eq_true.mp letters b (List.mem_flatMap.mpr ⟨c, member, inside⟩)
    obtain ⟨low, high⟩ := Bool.and_eq_true_iff.mp bounds
    exact ⟨Nat.le_of_ble_eq_true low, Nat.le_of_ble_eq_true high⟩

end WalletVault.Mnemonic
