import WalletVault.Bytes
import WalletVault.Text.Quoted

/-! Bytes as texts. Hexadecimal digits are written in lower case and read in either; an odd number of bytes is refused
before a digit is looked at. Base64 in the standard alphabet is read only in its canonical form: groups of four,
padded at the end, with the bits that no byte uses set to zero. -/
namespace WalletVault.Hex

inductive Fault where
  | oddLength
  | badDigit (byte : UInt8) (position : Nat)
  deriving DecidableEq, Repr

def Fault.message : Fault → String
  | .oddLength => "Odd number of digits"
  | .badDigit byte position => "Invalid character " ++ Quoted.character (Char.ofNat byte.toNat) ++
      " at position " ++ toString position

def digit (n : UInt8) : Char :=
  Char.ofNat (if n < 10 then 48 + n.toNat else 87 + n.toNat)

def digits (b : UInt8) : List Char := [digit (b >>> 4), digit (b &&& 15)]

def encode (bytes : Bytes) : String := String.ofList (bytes.flatMap digits)

def value? (b : UInt8) : Option UInt8 :=
  if 48 ≤ b ∧ b ≤ 57 then some (b - 48)
  else if 97 ≤ b ∧ b ≤ 102 then some (b - 87)
  else if 65 ≤ b ∧ b ≤ 70 then some (b - 55)
  else none

def readPairs (position : Nat) (done : Bytes) : Bytes → Except Fault Bytes
  | high :: low :: rest =>
    match value? high with
    | none => .error (.badDigit high position)
    | some h =>
      match value? low with
      | none => .error (.badDigit low (position + 1))
      | some l => readPairs (position + 2) ((h <<< 4 ||| l) :: done) rest
  | _ => .ok done.reverse

def decode (text : String) : Except Fault Bytes :=
  let raw := Utf8.encode text
  if raw.length % 2 = 1 then .error .oddLength else readPairs 0 [] raw

end WalletVault.Hex

namespace WalletVault.Base64

def symbol (n : Nat) : Char :=
  Char.ofNat (if n < 26 then 65 + n
    else if n < 52 then 71 + n
    else if n < 62 then n - 4
    else if n = 62 then 43 else 47)

def value? (b : UInt8) : Option Nat :=
  let n := b.toNat
  if 65 ≤ n ∧ n ≤ 90 then some (n - 65)
  else if 97 ≤ n ∧ n ≤ 122 then some (n - 71)
  else if 48 ≤ n ∧ n ≤ 57 then some (n + 4)
  else if n = 43 then some 62
  else if n = 47 then some 63
  else none

def writeGroups (done : List Char) : Bytes → List Char
  | a :: b :: c :: rest =>
    let n := a.toNat * 65536 + b.toNat * 256 + c.toNat
    writeGroups (symbol (n % 64) :: symbol (n / 64 % 64) :: symbol (n / 4096 % 64) ::
      symbol (n / 262144) :: done) rest
  | [a, b] =>
    let n := a.toNat * 256 + b.toNat
    ('=' :: symbol (n % 16 * 4) :: symbol (n / 16 % 64) :: symbol (n / 1024) :: done).reverse
  | [a] => ('=' :: '=' :: symbol (a.toNat % 4 * 16) :: symbol (a.toNat / 4) :: done).reverse
  | [] => done.reverse

def encode (bytes : Bytes) : String := String.ofList (writeGroups [] bytes)

def pad : UInt8 := 61

def readLast? (a b c d : UInt8) : Option Bytes := do
  let p ← value? a
  let q ← value? b
  if c = pad then
    if d = pad ∧ q % 16 = 0 then some [UInt8.ofNat (p * 4 + q / 16)] else none
  else
    let r ← value? c
    if d = pad then
      if r % 4 = 0 then some [UInt8.ofNat (p * 4 + q / 16), UInt8.ofNat (q % 16 * 16 + r / 4)]
      else none
    else
      let s ← value? d
      some [UInt8.ofNat (p * 4 + q / 16), UInt8.ofNat (q % 16 * 16 + r / 4),
        UInt8.ofNat (r % 4 * 64 + s)]

def readGroups? (done : Bytes) : Bytes → Option Bytes
  | [] => some done.reverse
  | [a, b, c, d] => (readLast? a b c d).map (done.reverse ++ ·)
  | a :: b :: c :: d :: rest =>
    if a = pad ∨ b = pad ∨ c = pad ∨ d = pad then none
    else
      match readLast? a b c d with
      | some group => readGroups? (group.reverse ++ done) rest
      | none => none
  | _ => none

def decode? (text : String) : Option Bytes := readGroups? [] (Utf8.encode text)

end WalletVault.Base64
