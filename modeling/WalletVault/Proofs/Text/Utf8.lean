import WalletVault.Bytes

/-! UTF-8 bytes of a text: they give the text back, whether they were written or read, and in ASCII each
character is its own byte. -/
namespace WalletVault.Utf8

theorem decodeEncoded (text : String) : decode? (encode text) = some text := by
  have valid : text.toByteArray.IsValidUTF8 := text.isValidUTF8
  simp [decode?, encode, String.fromUTF8?, valid, String.fromUTF8]

theorem encodeInjective {left right : String} (same : encode left = encode right) : left = right := by
  have read := congrArg decode? same
  rw [decodeEncoded, decodeEncoded] at read
  exact Option.some.inj read

theorem encodeDecoded {bytes : Bytes} {text : String} (read : decode? bytes = some text) :
    encode text = bytes := by
  unfold decode? String.fromUTF8? at read
  split at read
  · cases read
    simp [encode, String.fromUTF8]
  · cases read

theorem encodeAppend (left right : String) : encode (left ++ right) = encode left ++ encode right := by
  simp [encode, String.toByteArray_append]

theorem encodeOfList (characters : List Char) :
    encode (String.ofList characters) = characters.flatMap String.utf8EncodeChar := by
  simp [encode, String.toByteArray_ofList, List.utf8Encode, List.data_toByteArray]

theorem encodeAscii {characters : List Char} (ascii : ∀ c ∈ characters, c.toNat < 128) :
    encode (String.ofList characters) = characters.map Char.toUInt8 := by
  rw [encodeOfList]
  induction characters with
  | nil => rfl
  | cons c rest ih =>
    have size : c.utf8Size = 1 := by
      rw [Char.utf8Size_eq_one_iff, UInt32.le_iff_toNat_le]
      exact Nat.le_of_lt_succ (ascii c (by simp))
    have tail := ih fun d member => ascii d (List.mem_cons_of_mem _ member)
    rw [List.flatMap_cons, String.utf8EncodeChar_eq_singleton size, tail]
    rfl

theorem asciiByte {c : Char} {b : UInt8} (member : b ∈ String.utf8EncodeChar c) (ascii : b.toNat < 128) :
    c.toNat = b.toNat := by
  unfold String.utf8EncodeChar at member
  dsimp only at member
  split at member
  · rw [List.mem_singleton.mp member, UInt8.toNat_ofNat_of_lt' (show c.val.toNat < 256 by omega)]
    rfl
  split at member
  · simp only [List.mem_cons, List.not_mem_nil, or_false] at member
    rcases member with rfl | rfl <;> simp at ascii <;> omega
  split at member
  · simp only [List.mem_cons, List.not_mem_nil, or_false] at member
    rcases member with rfl | rfl | rfl <;> simp at ascii <;> omega
  · simp only [List.mem_cons, List.not_mem_nil, or_false] at member
    rcases member with rfl | rfl | rfl | rfl <;> simp at ascii <;> omega

theorem asciiCharacter {text : String} {b : UInt8} (member : b ∈ encode text) (ascii : b.toNat < 128) :
    Char.ofNat b.toNat ∈ text.toList := by
  rw [← String.ofList_toList (s := text), encodeOfList] at member
  obtain ⟨c, inside, byte⟩ := List.mem_flatMap.mp member
  rw [← asciiByte byte ascii, Char.ofNat_toNat]
  exact inside

end WalletVault.Utf8
