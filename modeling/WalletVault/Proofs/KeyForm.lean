import WalletVault.Algorithm
import WalletVault.Proofs.Text.Hex

/-! The forms of keys. A text is the form of a key if and only if it is digits of either case in pairs, and at least
one pair; in lower case it is the text that the key is written as. Public and private keys have the same forms. -/
namespace WalletVault

namespace Hex
variable {text : String} {position : Nat} {done raw : Bytes}

def alphabet : List Char := "0123456789abcdefABCDEF".toList

structure IsForm (text : String) : Prop where
  nonempty : text ≠ ""
  paired : text.length % 2 = 0
  digits : ∀ c ∈ text.toList, c ∈ alphabet

theorem alphabetAscii {c : Char} (digit : c ∈ alphabet) : c.toNat < 128 := by
  have all : alphabet.all (·.toNat < 128) = true := rfl
  simpa using List.all_eq_true.mp all c digit

theorem alphabetTable : ∀ n : Fin 128,
    Char.ofNat n ∈ alphabet ↔ (value? (Char.ofNat n).toUInt8).isSome := by
  decide +kernel

theorem alphabetValue {c : Char} (ascii : c.toNat < 128) : c ∈ alphabet ↔ (value? c.toUInt8).isSome := by
  simpa using alphabetTable ⟨c.toNat, ascii⟩

theorem pairsSucceed (digits : ∀ b ∈ raw, (value? b).isSome) :
    ∃ bytes, readPairs position done raw = .ok bytes := by
  fun_induction readPairs position done raw with
  | case1 position done high low rest bad => simp [bad] at digits
  | case2 position done high low rest h _ bad => simp [bad] at digits
  | case3 position done high low rest h _ l _ ih =>
    exact ih fun b member => digits b (List.mem_cons_of_mem _ (List.mem_cons_of_mem _ member))
  | case4 raw position done => exact ⟨done.reverse, rfl⟩

theorem decodeSucceeds :
    (∃ bytes, decode text = .ok bytes) ↔ text.length % 2 = 0 ∧ ∀ c ∈ text.toList, c ∈ alphabet := by
  constructor
  · rintro ⟨bytes, read⟩
    have length := (decodeLength read).1
    refine ⟨by omega, fun c member => ?_⟩
    obtain ⟨ascii, values⟩ := digitsWritten (lowerDigits.mp (decodeMeans.mp read))
    have inside := List.mem_map_of_mem (f := value?) (List.mem_map_of_mem (f := Char.toUInt8) member)
    rw [values] at inside
    obtain ⟨v, _, value⟩ := List.mem_map.mp inside
    rw [alphabetValue (ascii c member), ← value]
    rfl
  · rintro ⟨even, digits⟩
    have ascii : ∀ c ∈ text.toList, c.toNat < 128 := fun c member => alphabetAscii (digits c member)
    have written := Utf8.encodeAscii ascii
    rw [String.ofList_toList] at written
    have paired : (Utf8.encode text).length % 2 ≠ 1 := by
      rw [written, List.length_map, String.length_toList]
      omega
    rw [decode, if_neg paired, written]
    refine pairsSucceed fun b member => ?_
    obtain ⟨c, inside, rfl⟩ := List.mem_map.mp member
    exact (alphabetValue (ascii c inside)).mp (digits c inside)

theorem isFormWritten : IsForm text ↔ ∃ bytes, text.toLower = encode bytes ∧ bytes ≠ [] := by
  constructor
  · intro form
    obtain ⟨bytes, read⟩ := decodeSucceeds.mpr ⟨form.paired, form.digits⟩
    refine ⟨bytes, decodeMeans.mp read, ?_⟩
    rintro rfl
    exact form.nonempty (String.length_eq_zero_iff.mp (decodeLength read).1)
  · rintro ⟨bytes, written, nonempty⟩
    have read := decodeMeans.mpr written
    obtain ⟨paired, digits⟩ := decodeSucceeds.mp ⟨bytes, read⟩
    refine ⟨?_, paired, digits⟩
    rintro rfl
    cases read
    exact nonempty rfl

end Hex

theorem PublicKey.formRead {text : String} : (∃ key, ofHex text = .ok key) ↔ Hex.IsForm text := by
  rw [Hex.isFormWritten]
  constructor
  · rintro ⟨key, read⟩
    exact ⟨key.bytes, ofHexOk.mp read⟩
  · rintro ⟨bytes, written⟩
    exact ⟨⟨bytes⟩, ofHexOk.mpr written⟩

theorem PrivateKey.formRead {text : String} : (∃ key, ofHex text = .ok key) ↔ Hex.IsForm text := by
  rw [← PublicKey.formRead]
  constructor
  · rintro ⟨key, read⟩
    exact ⟨⟨key.bytes⟩, readLikePublic.mp read⟩
  · rintro ⟨key, read⟩
    exact ⟨⟨key.bytes⟩, readLikePublic.mpr read⟩

theorem PublicKey.settledByHex {left right : PublicKey} : left.hex = right.hex ↔ left.bytes = right.bytes := by
  constructor
  · intro same
    rw [hexInjective same]
  · intro same
    rw [hex, hex, same]

/-- A text is read as a key, public or private, if and only if it is digits of either case in pairs and not empty. The
key is written as this text in lower case, and read from there again. Every key of at least one byte comes back from
its own form. Two public keys are one when their bytes are; their forms tell the same, beside the bytes or in their
place. The bytes of a signature come back, also where there are none. -/
theorem keyFormsExact :
    (∀ text, ((∃ key, PublicKey.ofHex text = .ok key) ↔ Hex.IsForm text) ∧
      ((∃ key, PrivateKey.ofHex text = .ok key) ↔ Hex.IsForm text)) ∧
    (∀ text key, PublicKey.ofHex text = .ok key →
      key.hex = text.toLower ∧ PublicKey.ofHex text.toLower = .ok key) ∧
    (∀ text key, PrivateKey.ofHex text = .ok key →
      key.hex = text.toLower ∧ PrivateKey.ofHex text.toLower = .ok key) ∧
    (∀ bytes, bytes ≠ [] → PublicKey.ofHex (PublicKey.mk bytes).hex = .ok ⟨bytes⟩ ∧
      PrivateKey.ofHex (PrivateKey.mk bytes).hex = .ok ⟨bytes⟩) ∧
    (∀ left right : PublicKey, (left = right ↔ left.bytes = right.bytes) ∧
      (left.bytes = right.bytes ∧ left.hex = right.hex ↔ left.bytes = right.bytes) ∧
      (left.hex = right.hex ↔ left.bytes = right.bytes)) ∧
    ∀ raw descriptor, (Signature.ofBytes raw descriptor).bytes = .ok raw := by
  refine ⟨fun text => ⟨PublicKey.formRead, PrivateKey.formRead⟩, ?_, ?_, ?_, ?_, fun raw _ => Hex.decodeEncoded raw⟩
  · intro text key read
    obtain ⟨written, nonempty⟩ := PublicKey.ofHexOk.mp read
    rw [written]
    exact ⟨rfl, PublicKey.readHex nonempty⟩
  · intro text key read
    obtain ⟨written, nonempty⟩ := PrivateKey.ofHexOk.mp read
    rw [written]
    exact ⟨rfl, PrivateKey.readHex nonempty⟩
  · intro bytes nonempty
    exact ⟨PublicKey.readHex nonempty, PrivateKey.readHex nonempty⟩
  · intro left right
    have byForm (same : left.bytes = right.bytes) : left.hex = right.hex := PublicKey.settledByHex.mpr same
    refine ⟨⟨congrArg PublicKey.bytes, fun same => PublicKey.hexInjective (byForm same)⟩, ?_, PublicKey.settledByHex⟩
    exact and_iff_left_of_imp byForm

theorem mixedFormRead :
    PublicKey.ofHex "aB01fF" = .ok ⟨[0xAB, 0x01, 0xFF]⟩ ∧ "aB01fF".toLower = "ab01ff" ∧
    PublicKey.ofHex "ab01ff" = .ok ⟨[0xAB, 0x01, 0xFF]⟩ ∧ PrivateKey.ofHex "ab01ff" = .ok ⟨[0xAB, 0x01, 0xFF]⟩ ∧
    PublicKey.ofHex (PublicKey.mk [0xAB, 0x01, 0xFF]).hex = .ok ⟨[0xAB, 0x01, 0xFF]⟩ := by
  obtain ⟨_, publicly, privately, back, _⟩ := keyFormsExact
  have mixed : PublicKey.ofHex "aB01fF" = .ok ⟨[0xAB, 0x01, 0xFF]⟩ := rfl
  have secret : PrivateKey.ofHex "aB01fF" = .ok ⟨[0xAB, 0x01, 0xFF]⟩ := rfl
  have form : (PublicKey.mk [0xAB, 0x01, 0xFF]).hex = "ab01ff" := by decide +kernel
  have lower : "aB01fF".toLower = "ab01ff" := (publicly _ _ mixed).1.symm.trans form
  refine ⟨mixed, lower, ?_, ?_, (back _ (by decide)).1⟩
  · exact lower ▸ (publicly _ _ mixed).2
  · exact lower ▸ (privately _ _ secret).2

/- A letter that is two bytes is no pair of digits. -/
example : PublicKey.ofHex "é" = .error (.notHex (.badDigit 0xC3 0)) := rfl

end WalletVault
