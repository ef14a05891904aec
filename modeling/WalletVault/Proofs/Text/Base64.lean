import WalletVault.Text.Encoding
import WalletVault.Proofs.Text.Utf8

/-! Base64 text gives back the bytes that it was written from, whatever the length of its last group, and no other
text is read. -/
namespace WalletVault.Base64

def sign (n : Nat) : UInt8 := (symbol n).toUInt8

theorem signTable : ∀ n : Fin 64, value? (sign n) = some n.val ∧ sign n ≠ pad := by
  decide

theorem signRead {n : Nat} (small : n < 64) : value? (sign n) = some n := (signTable ⟨n, small⟩).1

theorem signNotPad {n : Nat} (small : n < 64) : sign n ≠ pad := (signTable ⟨n, small⟩).2

theorem lastTriple {p q r s : Nat} (hp : p < 64) (hq : q < 64) (hr : r < 64) (hs : s < 64) :
    readLast? (sign p) (sign q) (sign r) (sign s) = some [UInt8.ofNat (p * 4 + q / 16),
      UInt8.ofNat (q % 16 * 16 + r / 4), UInt8.ofNat (r % 4 * 64 + s)] := by
  simp only [readLast?, signRead hp, signRead hq, signRead hr, signRead hs, if_neg (signNotPad hr),
    if_neg (signNotPad hs), bind, Option.bind]

theorem lastPair {p q r : Nat} (hp : p < 64) (hq : q < 64) (hr : r < 64) (unused : r % 4 = 0) :
    readLast? (sign p) (sign q) (sign r) pad =
      some [UInt8.ofNat (p * 4 + q / 16), UInt8.ofNat (q % 16 * 16 + r / 4)] := by
  simp only [readLast?, signRead hp, signRead hq, signRead hr, if_neg (signNotPad hr), if_pos, unused,
    bind, Option.bind]

theorem lastSingle {p q : Nat} (hp : p < 64) (hq : q < 64) (unused : q % 16 = 0) :
    readLast? (sign p) (sign q) pad pad = some [UInt8.ofNat (p * 4 + q / 16)] := by
  simp only [readLast?, signRead hp, signRead hq, unused, and_self, if_true, bind, Option.bind]

def written (bytes : Bytes) : Bytes := (writeGroups [] bytes).map Char.toUInt8

theorem writeGroupsPrefix (done : List Char) : (bytes : Bytes) →
    writeGroups done bytes = done.reverse ++ writeGroups [] bytes
  | [] | [_] | [_, _] => by simp [writeGroups]
  | a :: b :: c :: rest => by
    rw [writeGroups, writeGroupsPrefix _ rest, writeGroups, writeGroupsPrefix [_, _, _, _] rest]
    simp

theorem byteOfNat {n : Nat} (small : n < 256) : (UInt8.ofNat n).toNat = n := UInt8.toNat_ofNat_of_lt' small

theorem tripleWritten {p q r s : Nat} (hp : p < 64) (hq : q < 64) (hr : r < 64) (hs : s < 64) (rest : Bytes) :
    written (UInt8.ofNat (p * 4 + q / 16) :: UInt8.ofNat (q % 16 * 16 + r / 4) ::
      UInt8.ofNat (r % 4 * 64 + s) :: rest) = sign p :: sign q :: sign r :: sign s :: written rest := by
  rw [written, writeGroups, writeGroupsPrefix, byteOfNat (by omega), byteOfNat (by omega), byteOfNat (by omega)]
  generalize joined : (p * 4 + q / 16) * 65536 + (q % 16 * 16 + r / 4) * 256 + (r % 4 * 64 + s) = n
  rw [show n / 262144 = p by omega, show n / 4096 % 64 = q by omega, show n / 64 % 64 = r by omega,
    show n % 64 = s by omega]
  rfl

theorem pairWritten {p q r : Nat} (hp : p < 64) (hq : q < 64) (hr : r < 64) (unused : r % 4 = 0) :
    written [UInt8.ofNat (p * 4 + q / 16), UInt8.ofNat (q % 16 * 16 + r / 4)] = [sign p, sign q, sign r, pad] := by
  rw [written, writeGroups, byteOfNat (by omega), byteOfNat (by omega)]
  generalize joined : (p * 4 + q / 16) * 256 + (q % 16 * 16 + r / 4) = n
  rw [show n / 1024 = p by omega, show n / 16 % 64 = q by omega, show n % 16 * 4 = r by omega]
  rfl

theorem singleWritten {p q : Nat} (hp : p < 64) (hq : q < 64) (unused : q % 16 = 0) :
    written [UInt8.ofNat (p * 4 + q / 16)] = [sign p, sign q, pad, pad] := by
  rw [written, writeGroups, byteOfNat (by omega), show (p * 4 + q / 16) / 4 = p by omega,
    show (p * 4 + q / 16) % 4 * 16 = q by omega]
  rfl

/-! Every one, two or three bytes are made of numbers below 64, with zeros where no byte reaches. -/

theorem tripleSixes (a b c : UInt8) : ∃ p q r s : Nat, p < 64 ∧ q < 64 ∧ r < 64 ∧ s < 64 ∧
    UInt8.ofNat (p * 4 + q / 16) = a ∧ UInt8.ofNat (q % 16 * 16 + r / 4) = b ∧ UInt8.ofNat (r % 4 * 64 + s) = c := by
  have ha := a.toNat_lt
  have hb := b.toNat_lt
  have hc := c.toNat_lt
  have same {n : Nat} {byte : UInt8} (value : n = byte.toNat) : UInt8.ofNat n = byte := by
    rw [value, UInt8.ofNat_toNat]
  refine ⟨a.toNat / 4, a.toNat % 4 * 16 + b.toNat / 16, b.toNat % 16 * 4 + c.toNat / 64, c.toNat % 64,
    by omega, by omega, by omega, by omega, same ?_, same ?_, same ?_⟩ <;> omega

theorem pairSixes (a b : UInt8) : ∃ p q r : Nat, p < 64 ∧ q < 64 ∧ r < 64 ∧ r % 4 = 0 ∧
    UInt8.ofNat (p * 4 + q / 16) = a ∧ UInt8.ofNat (q % 16 * 16 + r / 4) = b := by
  obtain ⟨p, q, r, s, hp, hq, hr, hs, first, second, third⟩ := tripleSixes a b 0
  have zero := byteOfNat (show r % 4 * 64 + s < 256 by omega)
  rw [third, UInt8.toNat_zero] at zero
  exact ⟨p, q, r, hp, hq, hr, by omega, first, second⟩

theorem singleSixes (a : UInt8) : ∃ p q : Nat, p < 64 ∧ q < 64 ∧ q % 16 = 0 ∧ UInt8.ofNat (p * 4 + q / 16) = a := by
  obtain ⟨p, q, r, hp, hq, hr, _, first, second⟩ := pairSixes a 0
  have zero := byteOfNat (show q % 16 * 16 + r / 4 < 256 by omega)
  rw [second, UInt8.toNat_zero] at zero
  exact ⟨p, q, hp, hq, by omega, first⟩

/- A triple in front of more bytes is read by the branch for inner groups and the last one by another, so
the step for triples asks which of the two it is. -/
theorem groupsRead (done : Bytes) : (bytes : Bytes) →
    readGroups? done (written bytes) = some (done.reverse ++ bytes)
  | [] => by simp [written, writeGroups, readGroups?]
  | [a] => by
    obtain ⟨p, q, hp, hq, unused, rfl⟩ := singleSixes a
    rw [singleWritten hp hq unused, readGroups?, lastSingle hp hq unused]
    rfl
  | [a, b] => by
    obtain ⟨p, q, r, hp, hq, hr, unused, rfl, rfl⟩ := pairSixes a b
    rw [pairWritten hp hq hr unused, readGroups?, lastPair hp hq hr unused]
    rfl
  | a :: b :: c :: rest => by
    have tail := groupsRead ([c, b, a] ++ done) rest
    obtain ⟨p, q, r, s, hp, hq, hr, hs, rfl, rfl, rfl⟩ := tripleSixes a b c
    have group := lastTriple hp hq hr hs
    have inner : ¬(sign p = pad ∨ sign q = pad ∨ sign r = pad ∨ sign s = pad) := by
      simp [signNotPad hp, signNotPad hq, signNotPad hr, signNotPad hs]
    rw [tripleWritten hp hq hr hs]
    cases more : written rest with
    | nil =>
      rw [more] at tail
      rw [readGroups?, group]
      simp [readGroups?] at tail
      simp [tail]
    | cons x xs =>
      rw [more] at tail
      rw [readGroups?, if_neg inner, group]
      · simpa using tail
      · simp

theorem codeAscii : ∀ n : Fin 128, (Char.ofNat n).toNat < 128 := by
  decide

theorem symbolAscii (n : Nat) : (symbol n).toNat < 128 := by
  have small : (if n < 26 then 65 + n else if n < 52 then 71 + n else if n < 62 then n - 4
      else if n = 62 then 43 else 47) < 128 := by
    grind
  exact codeAscii ⟨_, small⟩

theorem writtenAscii (done : List Char) (bytes : Bytes) (ascii : ∀ c ∈ done, c.toNat < 128) :
    ∀ c ∈ writeGroups done bytes, c.toNat < 128 := by
  induction done, bytes using writeGroups.induct with
  | case1 done a b c rest n ih =>
    rw [writeGroups]
    apply ih
    simpa [symbolAscii] using ascii
  | case2 done a b => simpa [writeGroups, symbolAscii, or_imp, forall_and] using ascii
  | case3 done a => simpa [writeGroups, symbolAscii, or_imp, forall_and] using ascii
  | case4 done => simpa [writeGroups] using ascii

theorem decodeEncoded (bytes : Bytes) : decode? (encode bytes) = some bytes := by
  rw [decode?, encode, Utf8.encodeAscii (writtenAscii [] bytes (by simp))]
  exact groupsRead [] bytes

/-! Reading accepts only what writing produces. -/

theorem valueTable : ∀ n : Fin 256, ∀ v ∈ value? (UInt8.ofNat n), v < 64 ∧ UInt8.ofNat n = sign v := by
  decide +kernel

theorem valueSign {b : UInt8} {n : Nat} (read : value? b = some n) : n < 64 ∧ b = sign n := by
  have table := valueTable ⟨b.toNat, b.toNat_lt⟩
  simp only [UInt8.ofNat_toNat] at table
  exact table n read

theorem lastWritten {a b c d : UInt8} {group rest : Bytes} (read : readLast? a b c d = some group)
    (last : c = pad ∨ d = pad → rest = []) : written (group ++ rest) = a :: b :: c :: d :: written rest := by
  simp only [readLast?, bind, Option.bind_eq_some_iff] at read
  obtain ⟨p, first, q, second, read⟩ := read
  obtain ⟨hp, rfl⟩ := valueSign first
  obtain ⟨hq, rfl⟩ := valueSign second
  split at read
  · rename_i third
    cases last (.inl third)
    split at read <;> cases read
    rename_i padded
    rw [third, padded.1]
    exact singleWritten hp hq padded.2
  · simp only [Option.bind_eq_some_iff] at read
    obtain ⟨r, third, read⟩ := read
    obtain ⟨hr, rfl⟩ := valueSign third
    split at read
    · rename_i fourth
      cases last (.inr fourth)
      split at read <;> cases read
      rename_i unused
      rw [fourth]
      exact pairWritten hp hq hr unused
    · simp only [Option.bind_eq_some_iff] at read
      obtain ⟨s, fourth, read⟩ := read
      obtain ⟨hs, rfl⟩ := valueSign fourth
      cases read
      exact tripleWritten hp hq hr hs rest

theorem groupsWritten {done raw bytes : Bytes} (read : readGroups? done raw = some bytes) :
    ∃ rest, bytes = done.reverse ++ rest ∧ raw = written rest := by
  induction done, raw using readGroups?.induct with
  | case1 done =>
    rw [readGroups?] at read
    cases read
    exact ⟨[], by simp, rfl⟩
  | case2 done a b c d =>
    rw [readGroups?] at read
    obtain ⟨group, last, rfl⟩ := Option.map_eq_some_iff.mp read
    refine ⟨group, rfl, ?_⟩
    have whole : written (group ++ []) = [a, b, c, d] := lastWritten last fun _ => rfl
    rw [← whole, List.append_nil]
  | case3 done a b c d rest more padded =>
    rw [readGroups?, if_pos padded] at read
    · cases read
    · exact more
  | case4 done a b c d rest more inner group first ih =>
    rw [readGroups?, if_neg inner, first] at read
    · obtain ⟨tail, rfl, same⟩ := ih read
      refine ⟨group ++ tail, by simp, ?_⟩
      rw [lastWritten first fun padded => absurd (Or.inr (Or.inr padded)) inner, same]
    · exact more
  | case5 done a b c d rest more inner refused =>
    rw [readGroups?, if_neg inner, refused] at read
    · cases read
    · exact more
  | case6 raw done empty group longer =>
    rw [readGroups?] at read
    · cases read
    · exact empty
    · exact group
    · exact longer

theorem decodeOk {text : String} {bytes : Bytes} : decode? text = some bytes ↔ text = encode bytes := by
  constructor
  · intro read
    obtain ⟨rest, whole, same⟩ := groupsWritten read
    cases whole
    have ascii := Utf8.encodeAscii (writtenAscii [] rest (by simp))
    exact Utf8.encodeInjective (same.trans ascii.symm)
  · rintro rfl
    exact decodeEncoded bytes

end WalletVault.Base64
