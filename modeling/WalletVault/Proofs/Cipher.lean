import WalletVault.Cipher

/-! Opening what was encrypted under the same key and nonce. Under a key of 32 bytes the image of every block has
sixteen bytes. The mask is an exclusive or with a stream of such images that is as long as the text at least, so
masking twice gives back the text. -/
namespace WalletVault

theorem Bytes.lengthXor (left right : Bytes) : (xor left right).length = min left.length right.length := by
  simp [xor]

namespace Aes

structure Schedule (words : List Bytes) : Prop where
  count : words.length = 8
  width : ∀ word ∈ words, word.length = 4

theorem fewerThanFour {bytes : Bytes}
    (short : ∀ a b c d rest, bytes = a :: b :: c :: d :: rest → False) : bytes.length < 4 := by
  rcases bytes with _ | ⟨a, _ | ⟨b, _ | ⟨c, _ | ⟨d, rest⟩⟩⟩⟩
  · simp
  · simp
  · simp
  · simp
  · exact (short a b c d rest rfl).elim

theorem keyWordsLength (key : Bytes) : (keyWords key).length = key.length / 4 := by
  fun_induction keyWords key with
  | case1 a b c d rest ih => simp only [List.length_cons, ih]; omega
  | case2 key short =>
    have few := fewerThanFour short
    rw [List.length_nil]
    omega

theorem keyWordsWidth (key : Bytes) : ∀ word ∈ keyWords key, word.length = 4 := by
  fun_induction keyWords key with
  | case1 a b c d rest ih => exact List.forall_mem_cons.mpr ⟨rfl, ih⟩
  | case2 => nofun

theorem nextWordsSchedule (constant : UInt8) {words : List Bytes} (schedule : Schedule words) :
    Schedule (nextWords constant words) := by
  obtain ⟨count, width⟩ := schedule
  unfold nextWords
  split
  · simp only [List.forall_mem_cons] at width
    obtain ⟨w0, w1, w2, w3, w4, w5, w6, w7, _⟩ := width
    split
    · constructor
      · rfl
      · simp [Bytes.lengthXor, w0, w1, w2, w3, w4, w5, w6, w7]
    · constructor
      · rfl
      · simp [Bytes.lengthXor, w0, w1, w2, w3, w4, w5, w6, w7]
  · exact ⟨count, width⟩

theorem pairLength {words : List Bytes} (schedule : Schedule words) : ∀ key ∈ pair words, key.length = 16 := by
  obtain ⟨count, width⟩ := schedule
  rcases words with _ | ⟨a, _ | ⟨b, _ | ⟨c, _ | ⟨d, _ | ⟨e, _ | ⟨f, _ | ⟨g, _ | ⟨h, _ | ⟨i, rest⟩⟩⟩⟩⟩⟩⟩⟩⟩ <;>
    simp at count
  simp only [List.forall_mem_cons] at width
  simp [pair, width]

theorem extendLength (constants : List UInt8) {words : List Bytes} (schedule : Schedule words) :
    ∀ key ∈ extend constants words, key.length = 16 := by
  induction constants generalizing words with
  | nil => nofun
  | cons constant rest ih =>
    have next := nextWordsSchedule constant schedule
    intro key member
    rcases List.mem_append.mp member with first | later
    · exact pairLength next key first
    · exact ih next key later

theorem roundKeysLength {key : Bytes} (length : key.length = 32) : ∀ round ∈ roundKeys key, round.length = 16 := by
  have schedule : Schedule (keyWords key) :=
    ⟨by rw [keyWordsLength, length], keyWordsWidth key⟩
  intro round member
  rcases List.mem_append.mp (List.mem_of_mem_take member) with first | later
  · exact pairLength schedule round first
  · exact extendLength _ schedule round later

theorem shiftRowsLength (block : Bytes) : (shiftRows block).length = block.length := by
  unfold shiftRows
  split <;> rfl

theorem mixColumnsLength (block : Bytes) : (mixColumns block).length = block.length / 4 * 4 := by
  fun_induction mixColumns block with
  | case1 a b c d rest all ih => simp only [List.length_cons, ih]; omega
  | case2 block short =>
    have few := fewerThanFour short
    rw [List.length_nil]
    omega

theorem roundsLength {keys : List Bytes} (widths : ∀ key ∈ keys, key.length = 16) {block : Bytes}
    (length : block.length = 16) : (rounds keys block).length = 16 := by
  fun_induction rounds keys block with
  | case1 block => exact length
  | case2 key block =>
    rw [Bytes.lengthXor, shiftRowsLength, List.length_map, length, widths key (by simp)]
    rfl
  | case3 key rest block more ih =>
    refine ih (fun other member => widths other (List.mem_cons_of_mem _ member)) ?_
    rw [Bytes.lengthXor, mixColumnsLength, shiftRowsLength, List.length_map, length, widths key (by simp)]
    rfl

theorem encryptLength {keys : List Bytes} (widths : ∀ key ∈ keys, key.length = 16) {block : Bytes}
    (length : block.length = 16) : (encrypt keys block).length = 16 := by
  cases keys with
  | nil => exact length
  | cons first rest =>
    refine roundsLength (fun key member => widths key (List.mem_cons_of_mem _ member)) ?_
    rw [Bytes.lengthXor, length, widths first (by simp)]
    rfl

end Aes

namespace Bytes

theorem xorSplit (left first rest : Bytes) :
    xor left (first ++ rest) = xor (left.take first.length) first ++ xor (left.drop first.length) rest := by
  induction first generalizing left with
  | nil => simp [xor]
  | cons b first ih =>
    cases left with
    | nil => simp [xor]
    | cons a left =>
      have split := ih left
      simp only [xor] at split
      simp [xor, split]

theorem xorTwice {left right : Bytes} (fits : left.length ≤ right.length) : xor (xor left right) right = left := by
  induction left generalizing right with
  | nil => simp [xor]
  | cons a left ih =>
    cases right with
    | nil => simp at fits
    | cons b right =>
      have fitsRest : left.length ≤ right.length := by simpa using fits
      have twice := ih fitsRest
      have cancel : a ^^^ b ^^^ b = a := by rw [UInt8.xor_assoc, UInt8.xor_self, UInt8.xor_zero]
      simp only [xor] at twice
      simp only [xor, List.zipWith_cons_cons, twice, cancel]

end Bytes

namespace Gcm

def stream (keys : List Bytes) (nonce : Bytes) : (blocks n : Nat) → Bytes
  | 0, _ => []
  | blocks + 1, n => Aes.encrypt keys (counter nonce n) ++ stream keys nonce blocks (n + 1)

section
variable {keys : List Bytes} (widths : ∀ key ∈ keys, key.length = 16) {nonce : Bytes} (length : nonce.length = 12)
include widths length

theorem counterImage (n : Nat) : (Aes.encrypt keys (counter nonce n)).length = 16 :=
  Aes.encryptLength widths (by rw [counter, List.length_append, length, Bytes.lengthBig])

theorem streamLength (blocks n : Nat) : (stream keys nonce blocks n).length = 16 * blocks := by
  induction blocks generalizing n with
  | zero => rfl
  | succ blocks ih =>
    rw [stream, List.length_append, counterImage widths length, ih]
    omega

theorem maskFromStream (blocks n : Nat) (done bytes : Bytes) :
    maskFrom keys nonce blocks n done bytes = done.reverse ++ Bytes.xor bytes (stream keys nonce blocks n) := by
  induction blocks generalizing n done bytes with
  | zero => simp [maskFrom, stream, Bytes.xor]
  | succ blocks ih =>
    rw [maskFrom, ih, stream, Bytes.xorSplit, counterImage widths length]
    simp only [List.reverse_append, List.reverse_reverse, List.append_assoc]

theorem maskStream (text : Bytes) :
    mask keys nonce text = Bytes.xor text (stream keys nonce ((text.length + 15) / 16) 2) :=
  maskFromStream widths length _ _ [] text

theorem maskLength (text : Bytes) : (mask keys nonce text).length = text.length := by
  rw [maskStream widths length, Bytes.lengthXor, streamLength widths length]
  omega

theorem maskTwice (text : Bytes) : mask keys nonce (mask keys nonce text) = text := by
  -- Both masks go through as many counter blocks, so they are one and the same stream.
  have same := maskLength widths length text
  rw [maskStream widths length (mask keys nonce text), same, maskStream widths length text]
  apply Bytes.xorTwice
  rw [streamLength widths length]
  omega

end

theorem tagLength (keys : List Bytes) (nonce ciphertext : Bytes) : (tag keys nonce ciphertext).length = 16 :=
  Bytes.lengthBig _ _

theorem decryptEncrypted {key nonce : Bytes} (keyLength : key.length = 32) (nonceLength : nonce.length = 12)
    (text : Bytes) : decrypt? key nonce (encrypt key nonce text) = some text := by
  have widths := Aes.roundKeysLength keyLength
  have total : (encrypt key nonce text).length = (mask (Aes.roundKeys key) nonce text).length + 16 := by
    rw [encrypt, List.length_append, tagLength]
  have notShort : ¬ (encrypt key nonce text).length < 16 := by omega
  have ciphertext : (encrypt key nonce text).take ((encrypt key nonce text).length - 16) =
      mask (Aes.roundKeys key) nonce text := by
    rw [total, Nat.add_sub_cancel, encrypt, List.take_left']
    rfl
  have rest : (encrypt key nonce text).drop ((encrypt key nonce text).length - 16) =
      tag (Aes.roundKeys key) nonce (mask (Aes.roundKeys key) nonce text) := by
    rw [total, Nat.add_sub_cancel, encrypt, List.drop_left']
    rfl
  simp only [decrypt?, if_neg notShort, ciphertext, rest, if_pos, maskTwice widths nonceLength]

section
variable {key nonce : Bytes} (keyLength : key.length = 32) (nonceLength : nonce.length = 12)
include keyLength nonceLength

theorem encryptLength (text : Bytes) : (encrypt key nonce text).length = text.length + 16 := by
  rw [encrypt, List.length_append, maskLength (Aes.roundKeysLength keyLength) nonceLength, tagLength]

theorem decryptSource {body text : Bytes} (opened : decrypt? key nonce body = some text) :
    body = encrypt key nonce text := by
  simp only [decrypt?] at opened
  split at opened
  · cases opened
  · split at opened
    · rename_i tagged
      cases opened
      rw [encrypt, maskTwice (Aes.roundKeysLength keyLength) nonceLength, ← tagged, List.take_append_drop]
    · cases opened

theorem ciphertextSettles {text other : Bytes}
    (same : (encrypt key nonce other).take text.length = (encrypt key nonce text).take text.length)
    (length : other.length = text.length) : other = text := by
  have widths := Aes.roundKeysLength keyLength
  have masked (plain : Bytes) : (encrypt key nonce plain).take plain.length =
      mask (Aes.roundKeys key) nonce plain := by
    rw [encrypt, List.take_left' (maskLength widths nonceLength plain)]
  have masks := masked other
  rw [length, same, masked text] at masks
  rw [← maskTwice widths nonceLength other, ← masks, maskTwice widths nonceLength text]

end

end Gcm

end WalletVault
