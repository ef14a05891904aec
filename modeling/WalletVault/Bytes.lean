/-! Byte strings, numbers written into bytes, and texts as UTF-8 bytes. -/
namespace WalletVault

abbrev Bytes := List UInt8

abbrev Block (n : Nat) := { bytes : Bytes // bytes.length = n }

namespace Bytes

def littleEndian : Bytes → Nat
  | [] => 0
  | b :: rest => b.toNat + 256 * littleEndian rest

def bigEndian (bytes : Bytes) : Nat :=
  bytes.foldl (fun n b => 256 * n + b.toNat) 0

def ofNatLittle : (count n : Nat) → Bytes
  | 0, _ => []
  | count + 1, n => UInt8.ofNat n :: ofNatLittle count (n / 256)

def ofNatBig (count n : Nat) : Bytes := (ofNatLittle count n).reverse

theorem lengthLittle (count n : Nat) : (ofNatLittle count n).length = count := by
  induction count generalizing n with
  | zero => rfl
  | succ count ih => simp [ofNatLittle, ih]

theorem lengthBig (count n : Nat) : (ofNatBig count n).length = count := by
  simp [ofNatBig, lengthLittle]

def xor (left right : Bytes) : Bytes := List.zipWith (· ^^^ ·) left right

end Bytes

end WalletVault

namespace WalletVault.Utf8

def encode (text : String) : Bytes := text.toByteArray.data.toList

def decode? (bytes : Bytes) : Option String := String.fromUTF8? ⟨bytes.toArray⟩

def codePoint (n : Nat) : Bytes :=
  if n < 0x80 then [UInt8.ofNat n]
  else if n < 0x800 then [UInt8.ofNat (0xC0 + n / 64), UInt8.ofNat (0x80 + n % 64)]
  else if n < 0x10000 then
    [UInt8.ofNat (0xE0 + n / 4096), UInt8.ofNat (0x80 + n / 64 % 64), UInt8.ofNat (0x80 + n % 64)]
  else
    [UInt8.ofNat (0xF0 + n / 262144), UInt8.ofNat (0x80 + n / 4096 % 64),
      UInt8.ofNat (0x80 + n / 64 % 64), UInt8.ofNat (0x80 + n % 64)]

def isTail (b : UInt8) : Bool := 0x80 ≤ b ∧ b ≤ 0xBF

def sequenceLength? : Bytes → Option Nat
  | [] => none
  | a :: rest =>
    if a < 0x80 then some 1
    else if 0xC2 ≤ a ∧ a ≤ 0xDF then
      match rest with
      | b :: _ => if isTail b then some 2 else none
      | _ => none
    else if 0xE0 ≤ a ∧ a ≤ 0xEF then
      match rest with
      | b :: c :: _ =>
        let low : UInt8 := if a = 0xE0 then 0xA0 else 0x80
        let high : UInt8 := if a = 0xED then 0x9F else 0xBF
        if low ≤ b ∧ b ≤ high ∧ isTail c then some 3 else none
      | _ => none
    else if 0xF0 ≤ a ∧ a ≤ 0xF4 then
      match rest with
      | b :: c :: d :: _ =>
        let low : UInt8 := if a = 0xF0 then 0x90 else 0x80
        let high : UInt8 := if a = 0xF4 then 0x8F else 0xBF
        if low ≤ b ∧ b ≤ high ∧ isTail c ∧ isTail d then some 4 else none
      | _ => none
    else none

def validFrom : Nat → Nat → Bytes → Nat
  | 0, count, _ => count
  | fuel + 1, count, bytes =>
    match sequenceLength? bytes with
    | none => count
    | some n => validFrom fuel (count + n) (bytes.drop n)

def validLength (bytes : Bytes) : Nat := validFrom bytes.length 0 bytes

def isBeginning (n : Nat) (bytes : Bytes) : Bool :=
  bytes.length = n ∧ (sequenceLength? (bytes ++ [0x80, 0x80])).any (n < ·)

/-- How many bytes make one mistake where no well-formed sequence stands: the longest beginning of one, or
a single byte. -/
def brokenLength (bytes : Bytes) : Nat :=
  if isBeginning 3 (bytes.take 3) then 3
  else if isBeginning 2 (bytes.take 2) then 2
  else 1

def repairedFrom : Nat → Bytes → Bytes
  | 0, _ => []
  | _, [] => []
  | fuel + 1, bytes =>
    match sequenceLength? bytes with
    | some n => bytes.take n ++ repairedFrom fuel (bytes.drop n)
    | none => codePoint 0xFFFD ++ repairedFrom fuel (bytes.drop (brokenLength bytes))

def repaired (bytes : Bytes) : String := (decode? (repairedFrom bytes.length bytes)).getD ""

end WalletVault.Utf8
