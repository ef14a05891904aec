import WalletVault.Key
import WalletVault.Proofs.Text.Utf8

/-! Hexadecimal digits give back the bytes that they were written from, and the forms of keys the keys. -/
namespace WalletVault.Hex

theorem digitRead : ∀ n : Fin 16,
    value? (digit (UInt8.ofNat n)).toUInt8 = some (UInt8.ofNat n) ∧
      (digit (UInt8.ofNat n)).toNat < 128 := by
  decide

theorem halfBound (b : UInt8) : (b >>> 4).toNat < 16 ∧ (b &&& 15).toNat < 16 := by
  have range := b.toNat_lt
  have low : (b &&& 15).toNat = b.toNat % 16 := by
    simpa using Nat.and_two_pow_sub_one_eq_mod b.toNat 4
  have high : (b >>> 4).toNat = b.toNat / 16 := by
    simp [Nat.shiftRight_eq_div_pow]
  omega

theorem halvesJoined : ∀ n : Fin 256,
    UInt8.ofNat n >>> 4 <<< 4 ||| UInt8.ofNat n &&& 15 = UInt8.ofNat n := by
  decide +kernel

theorem byteJoined (b : UInt8) : b >>> 4 <<< 4 ||| b &&& 15 = b := by
  simpa using halvesJoined ⟨b.toNat, b.toNat_lt⟩

theorem smallRead {n : UInt8} (small : n.toNat < 16) :
    value? (digit n).toUInt8 = some n ∧ (digit n).toNat < 128 := by
  simpa using digitRead ⟨n.toNat, small⟩

theorem pairsRead (position : Nat) (done bytes : Bytes) :
    readPairs position done ((bytes.flatMap digits).map Char.toUInt8) = .ok (done.reverse ++ bytes) := by
  induction bytes generalizing position done with
  | nil => simp [readPairs]
  | cons b rest ih =>
    have high := smallRead (halfBound b).1
    have low := smallRead (halfBound b).2
    simp [digits, readPairs, high.1, low.1, byteJoined, ih]

theorem encodedAscii (bytes : Bytes) : ∀ c ∈ bytes.flatMap digits, c.toNat < 128 := by
  intro c member
  obtain ⟨b, _, digit⟩ := List.mem_flatMap.mp member
  rcases List.mem_cons.mp digit with rfl | digit
  · exact (smallRead (halfBound b).1).2
  · rw [List.mem_singleton.mp digit]
    exact (smallRead (halfBound b).2).2

theorem decodeEncoded (bytes : Bytes) : decode (encode bytes) = .ok bytes := by
  have even : ((bytes.flatMap digits).map Char.toUInt8).length % 2 ≠ 1 := by
    induction bytes with
    | nil => simp
    | cons b rest ih => simp only [List.flatMap_cons, List.map_append, List.length_append, digits,
        List.map_cons, List.map_nil, List.length_cons, List.length_nil]; omega
  simp only [decode, encode, Utf8.encodeAscii (encodedAscii bytes), if_neg even, pairsRead,
    List.reverse_nil, List.nil_append]

theorem digitLower : ∀ n : Fin 16, (digit (UInt8.ofNat n)).toLower = digit (UInt8.ofNat n) := by decide

theorem smallLower {n : UInt8} (small : n.toNat < 16) : (digit n).toLower = digit n := by
  simpa using digitLower ⟨n.toNat, small⟩

theorem encodeLower (bytes : Bytes) : (encode bytes).toLower = encode bytes := by
  have lower : (bytes.flatMap digits).map Char.toLower = bytes.flatMap digits := by
    rw [List.map_flatMap]
    congr 1
    funext b
    simp only [digits, List.map_cons, List.map_nil, smallLower (halfBound b).1, smallLower (halfBound b).2]
  change (encode bytes).map Char.toLower = encode bytes
  rw [← String.toList_inj, String.toList_map]
  simp only [encode, String.toList_ofList, lower]

theorem encodeInjective {left right : Bytes} (equal : encode left = encode right) : left = right := by
  have read := congrArg decode equal
  rw [decodeEncoded, decodeEncoded] at read
  exact Except.ok.inj read

def halves (b : UInt8) : List UInt8 := [b >>> 4, b &&& 15]

theorem halvesOfJoined : ∀ high low : Fin 16,
    halves (UInt8.ofNat high <<< 4 ||| UInt8.ofNat low) = [UInt8.ofNat high, UInt8.ofNat low] := by
  decide +kernel

theorem valueTable : ∀ n : Fin 256, (value? (UInt8.ofNat n)).all fun v => v.toNat < 16 ∧
    (Char.ofNat n).toUInt8 = UInt8.ofNat n ∧ (Char.ofNat n).toNat < 128 ∧ (Char.ofNat n).toLower = digit v := by
  decide +kernel

theorem valueDigit {b v : UInt8} (read : value? b = some v) : v.toNat < 16 ∧
    (Char.ofNat b.toNat).toUInt8 = b ∧ (Char.ofNat b.toNat).toNat < 128 ∧ (Char.ofNat b.toNat).toLower = digit v := by
  simpa [read] using valueTable ⟨b.toNat, b.toNat_lt⟩

theorem joinedHalves {high low h l : UInt8} (first : value? high = some h) (second : value? low = some l) :
    halves (h <<< 4 ||| l) = [h, l] := by
  simpa using halvesOfJoined ⟨h.toNat, (valueDigit first).1⟩ ⟨l.toNat, (valueDigit second).1⟩

theorem pairsOk {position : Nat} {done raw result : Bytes} (even : raw.length % 2 ≠ 1) :
    readPairs position done raw = .ok result ↔
      ∃ bytes, result = done.reverse ++ bytes ∧ raw.map value? = (bytes.flatMap halves).map some := by
  fun_induction readPairs position done raw with
  | case1 position done high low rest bad =>
    refine ⟨nofun, fun ⟨bytes, _, values⟩ => ?_⟩
    cases bytes <;> simp [halves, bad] at values
  | case2 position done high low rest h _ bad =>
    refine ⟨nofun, fun ⟨bytes, _, values⟩ => ?_⟩
    cases bytes <;> simp [halves, bad] at values
  | case3 position done high low rest h first l second ih =>
    have shorter : rest.length % 2 ≠ 1 := by
      simp only [List.length_cons] at even
      omega
    rw [ih shorter]
    have joined := joinedHalves first second
    constructor
    · rintro ⟨bytes, rfl, values⟩
      refine ⟨(h <<< 4 ||| l) :: bytes, by simp, ?_⟩
      simp [joined, first, second, values]
    · rintro ⟨bytes, rfl, values⟩
      cases bytes with
      | nil => simp at values
      | cons b bytes =>
        simp only [List.map_cons, first, second, List.flatMap_cons, halves, List.cons_append, List.nil_append,
          List.cons.injEq, Option.some.injEq] at values
        obtain ⟨rfl, rfl, values⟩ := values
        exact ⟨bytes, by simp [byteJoined], values⟩
  | case4 raw position done short =>
    have empty : raw = [] := by
      match raw, even, short with
      | [], _, _ => rfl
      | [_], even, _ => exact absurd rfl even
      | high :: low :: rest, _, short => exact (short high low rest rfl).elim
    subst empty
    constructor
    · rintro ⟨⟩
      exact ⟨[], by simp, rfl⟩
    · rintro ⟨bytes, rfl, values⟩
      cases bytes with
      | nil => simp
      | cons b bytes => simp [halves] at values

theorem lengthHalves (bytes : Bytes) : (bytes.flatMap halves).length = 2 * bytes.length := by
  induction bytes with
  | nil => rfl
  | cons b bytes ih =>
    rw [List.flatMap_cons, List.length_append]
    simp only [halves, List.length_cons, List.length_nil]
    omega

theorem decodeOk {text : String} {bytes : Bytes} :
    decode text = .ok bytes ↔ (Utf8.encode text).map value? = (bytes.flatMap halves).map some := by
  simp only [decode]
  split
  · rename_i odd
    refine ⟨nofun, fun values => ?_⟩
    have lengths := congrArg List.length values
    have even := lengthHalves bytes
    simp only [List.length_map] at lengths
    omega
  · rename_i even
    rw [pairsOk even]
    simp

theorem valueLower : ∀ n : Fin 128, value? (Char.ofNat n).toLower.toUInt8 = value? (Char.ofNat n).toUInt8 := by
  decide +kernel

theorem lowerBound (c : Char) : c.toNat ≤ c.toLower.toNat := by
  unfold Char.toLower
  split
  · rename_i upper
    have high := UInt32.le_iff_toNat_le.mp upper.2
    change c.val.toNat ≤ (c.val + _).toNat
    rw [UInt32.toNat_add]
    simp at high ⊢
    omega
  · exact Nat.le_refl _

theorem digitsOfHalves (bytes : Bytes) : bytes.flatMap digits = (bytes.flatMap halves).map digit := by
  rw [List.map_flatMap]
  rfl

theorem digitsRead {raw : Bytes} {values : List UInt8} (read : raw.map value? = values.map some) :
    ∃ characters : List Char, (∀ c ∈ characters, c.toNat < 128) ∧ characters.map Char.toUInt8 = raw ∧
      characters.map Char.toLower = values.map digit := by
  induction raw generalizing values with
  | nil =>
    cases values with
    | nil => exact ⟨[], by simp⟩
    | cons => cases read
  | cons b raw ih =>
    cases values with
    | nil => cases read
    | cons v values =>
      obtain ⟨first, later⟩ := List.cons.inj read
      obtain ⟨characters, ascii, written, lower⟩ := ih later
      obtain ⟨_, byte, small, digit⟩ := valueDigit first
      exact ⟨Char.ofNat b.toNat :: characters, List.forall_mem_cons.mpr ⟨small, ascii⟩,
        by rw [List.map_cons, byte, written], by rw [List.map_cons, digit, lower, List.map_cons]⟩

theorem digitsWritten {characters : List Char} {bytes : Bytes}
    (lower : characters.map Char.toLower = bytes.flatMap digits) :
    (∀ c ∈ characters, c.toNat < 128) ∧
      (characters.map Char.toUInt8).map value? = (bytes.flatMap halves).map some := by
  have ascii : ∀ c ∈ characters, c.toNat < 128 := fun c member =>
    Nat.lt_of_le_of_lt (lowerBound c) (encodedAscii bytes _ (lower ▸ List.mem_map_of_mem member))
  refine ⟨ascii, ?_⟩
  have lowered : (characters.map Char.toUInt8).map value? =
      (characters.map Char.toLower).map fun c => value? c.toUInt8 := by
    rw [List.map_map, List.map_map]
    refine List.map_congr_left fun c member => ?_
    have table := valueLower ⟨c.toNat, ascii c member⟩
    simpa using table.symm
  rw [lowered, lower, List.map_flatMap, List.map_flatMap]
  congr 1
  funext b
  simp [digits, halves, smallRead (halfBound b).1, smallRead (halfBound b).2]

theorem lowerDigits {text : String} {bytes : Bytes} :
    text.toLower = encode bytes ↔ text.toList.map Char.toLower = bytes.flatMap digits := by
  change text.map Char.toLower = _ ↔ _
  rw [← String.toList_inj, String.toList_map, encode, String.toList_ofList]

theorem decodeMeans {text : String} {bytes : Bytes} : decode text = .ok bytes ↔ text.toLower = encode bytes := by
  rw [decodeOk, lowerDigits]
  constructor
  · intro values
    obtain ⟨characters, ascii, written, lower⟩ := digitsRead values
    have same : text = String.ofList characters :=
      Utf8.encodeInjective (written.symm.trans (Utf8.encodeAscii ascii).symm)
    rw [same, String.toList_ofList, lower, digitsOfHalves]
  · intro lower
    obtain ⟨ascii, values⟩ := digitsWritten lower
    rw [← Utf8.encodeAscii ascii, String.ofList_toList] at values
    exact values

theorem decodeLength {text : String} {bytes : Bytes} (read : decode text = .ok bytes) :
    text.length = 2 * bytes.length ∧ (Utf8.encode text).length = 2 * bytes.length := by
  constructor
  · have lengths := congrArg List.length (lowerDigits.mp (decodeMeans.mp read))
    rwa [digitsOfHalves, List.length_map, List.length_map, lengthHalves, String.length_toList] at lengths
  · have lengths := congrArg List.length (decodeOk.mp read)
    rwa [List.length_map, List.length_map, lengthHalves] at lengths

end WalletVault.Hex

namespace WalletVault

theorem PublicKey.readHex {key : PublicKey} (nonempty : key.bytes ≠ []) :
    PublicKey.ofHex key.hex = .ok key := by
  simp [PublicKey.ofHex, PublicKey.hex, Hex.decodeEncoded, nonempty]

theorem PrivateKey.readHex {key : PrivateKey} (nonempty : key.bytes ≠ []) :
    PrivateKey.ofHex key.hex = .ok key := by
  simp [PrivateKey.ofHex, PrivateKey.hex, Hex.decodeEncoded, nonempty]

theorem PublicKey.ofHexOk {text : String} {key : PublicKey} :
    ofHex text = .ok key ↔ text.toLower = key.hex ∧ key.bytes ≠ [] := by
  obtain ⟨bytes⟩ := key
  rw [hex, ← Hex.decodeMeans, ofHex]
  cases Hex.decode text with
  | error fault => simp
  | ok raw =>
    by_cases empty : raw = []
    · simp [empty, eq_comm]
    · simp only [if_neg empty, Except.ok.injEq, PublicKey.mk.injEq]
      exact ⟨fun same => ⟨same, same ▸ empty⟩, And.left⟩

theorem PrivateKey.readLikePublic {text : String} {bytes : Bytes} :
    ofHex text = .ok ⟨bytes⟩ ↔ PublicKey.ofHex text = .ok ⟨bytes⟩ := by
  rw [ofHex, PublicKey.ofHex]
  cases Hex.decode text with
  | error fault => simp
  | ok raw =>
    by_cases empty : raw = []
    · simp [empty]
    · simp [empty]

theorem PrivateKey.ofHexOk {text : String} {key : PrivateKey} :
    ofHex text = .ok key ↔ text.toLower = key.hex ∧ key.bytes ≠ [] :=
  readLikePublic.trans PublicKey.ofHexOk

theorem PrivateKey.ofHexFault {text : String} {fault : KeyFault} (refused : ofHex text = .error fault) :
    fault = .empty ∧ text = "" ∨ fault = .secretNotHex ∧ text ≠ "" := by
  unfold ofHex at refused
  split at refused
  · rename_i foreign
    cases refused
    refine Or.inr ⟨rfl, ?_⟩
    rintro rfl
    cases foreign
  · rename_i bytes read
    split at refused <;> cases refused
    rename_i empty
    rw [empty] at read
    exact Or.inl ⟨rfl, String.length_eq_zero_iff.mp (Hex.decodeLength read).1⟩

theorem PublicKey.hexInjective {left right : PublicKey} (equal : left.hex = right.hex) : left = right := by
  cases left; cases right
  simp [PublicKey.hex] at equal
  exact congrArg PublicKey.mk (Hex.encodeInjective equal)

end WalletVault
