import WalletVault.Bytes

/-! AES-256 in Galois/counter mode, with a nonce of twelve bytes, no associated data and a tag of sixteen bytes.
Blocks are sixteen bytes, four to a column. Opening checks the tag before it undoes the mask. -/
namespace WalletVault.Aes

/-- Twice an element of the field of 256 elements, whose modulus is x⁸ + x⁴ + x³ + x + 1. -/
def double (b : UInt8) : UInt8 :=
  if b &&& 0x80 = 0 then b <<< 1 else b <<< 1 ^^^ 0x1B

def product (a b : UInt8) : UInt8 :=
  (List.range 8).foldl (fun sum i =>
    let twice := double sum
    if b.toNat.testBit (7 - i) then twice ^^^ a else twice) 0

def inverse (a : UInt8) : UInt8 :=
  let power := (List.range 6).foldl (fun power _ => product (product power power) a) a
  product power power

def rotate (b : UInt8) (n : UInt8) : UInt8 := b <<< n ||| b >>> (8 - n)

def substitute (b : UInt8) : UInt8 :=
  let i := inverse b
  i ^^^ rotate i 1 ^^^ rotate i 2 ^^^ rotate i 3 ^^^ rotate i 4 ^^^ 0x63

def substitutions : Array UInt8 := ((List.range 256).map fun n => substitute (UInt8.ofNat n)).toArray

def substituted (b : UInt8) : UInt8 := substitutions.getD b.toNat 0

def shiftRows : Bytes → Bytes
  | [a0, a1, a2, a3, b0, b1, b2, b3, c0, c1, c2, c3, d0, d1, d2, d3] =>
    [a0, b1, c2, d3, b0, c1, d2, a3, c0, d1, a2, b3, d0, a1, b2, c3]
  | block => block

def mixColumns : Bytes → Bytes
  | a :: b :: c :: d :: rest =>
    let all := a ^^^ b ^^^ c ^^^ d
    (a ^^^ all ^^^ double (a ^^^ b)) :: (b ^^^ all ^^^ double (b ^^^ c)) ::
      (c ^^^ all ^^^ double (c ^^^ d)) :: (d ^^^ all ^^^ double (d ^^^ a)) :: mixColumns rest
  | _ => []

def nextWords (constant : UInt8) : List Bytes → List Bytes
  | [k0, k1, k2, k3, k4, k5, k6, k7] =>
    let turned := match k7 with
      | [a, b, c, d] => [substituted b ^^^ constant, substituted c, substituted d, substituted a]
      | word => word
    let k0 := Bytes.xor k0 turned
    let k1 := Bytes.xor k1 k0
    let k2 := Bytes.xor k2 k1
    let k3 := Bytes.xor k3 k2
    let k4 := Bytes.xor k4 (k3.map substituted)
    let k5 := Bytes.xor k5 k4
    let k6 := Bytes.xor k6 k5
    let k7 := Bytes.xor k7 k6
    [k0, k1, k2, k3, k4, k5, k6, k7]
  | words => words

def keyWords : Bytes → List Bytes
  | a :: b :: c :: d :: rest => [a, b, c, d] :: keyWords rest
  | _ => []

def pair (words : List Bytes) : List Bytes := [(words.take 4).flatten, (words.drop 4).flatten]

def extend : List UInt8 → List Bytes → List Bytes
  | [], _ => []
  | constant :: rest, words =>
    let next := nextWords constant words
    pair next ++ extend rest next

def roundKeys (key : Bytes) : List Bytes :=
  let words := keyWords key
  (pair words ++ extend [0x01, 0x02, 0x04, 0x08, 0x10, 0x20, 0x40] words).take 15

def rounds : List Bytes → Bytes → Bytes
  | [], block => block
  | [key], block => Bytes.xor (shiftRows (block.map substituted)) key
  | key :: rest, block => rounds rest (Bytes.xor (mixColumns (shiftRows (block.map substituted))) key)

def encrypt (keys : List Bytes) (block : Bytes) : Bytes :=
  match keys with
  | [] => block
  | first :: rest => rounds rest (Bytes.xor block first)

end WalletVault.Aes

namespace WalletVault.Gcm

/-- The polynomial that products are reduced by, its coefficients from the lowest at the top bit. -/
def modulus : Nat := 0xE1 * Nat.pow 2 120

def product (x y : Nat) : Nat :=
  ((List.range 128).foldl (fun (sum, v) i =>
    (if x.testBit (127 - i) then sum ^^^ v else sum, if v % 2 = 1 then v / 2 ^^^ modulus else v / 2))
    (0, y)).1

def absorb (h : Nat) : (blocks : Nat) → (sum : Nat) → Bytes → Nat
  | 0, sum, _ => sum
  | blocks + 1, sum, bytes =>
    let block := bytes.take 16
    let filled := block ++ List.replicate (16 - block.length) 0
    absorb h blocks (product (sum ^^^ Bytes.bigEndian filled) h) (bytes.drop 16)

def hash (h : Nat) (ciphertext : Bytes) : Nat :=
  product (absorb h ((ciphertext.length + 15) / 16) 0 ciphertext ^^^ 8 * ciphertext.length) h

def counter (nonce : Bytes) (n : Nat) : Bytes := nonce ++ Bytes.ofNatBig 4 n

def maskFrom (keys : List Bytes) (nonce : Bytes) : (blocks n : Nat) → (done : Bytes) → Bytes → Bytes
  | 0, _, done, _ => done.reverse
  | blocks + 1, n, done, bytes =>
    let masked := Bytes.xor (bytes.take 16) (Aes.encrypt keys (counter nonce n))
    maskFrom keys nonce blocks (n + 1) (masked.reverse ++ done) (bytes.drop 16)

def mask (keys : List Bytes) (nonce text : Bytes) : Bytes :=
  maskFrom keys nonce ((text.length + 15) / 16) 2 [] text

def tag (keys : List Bytes) (nonce ciphertext : Bytes) : Bytes :=
  let h := Bytes.bigEndian (Aes.encrypt keys (List.replicate 16 0))
  Bytes.ofNatBig 16 (hash h ciphertext ^^^ Bytes.bigEndian (Aes.encrypt keys (counter nonce 1)))

def encrypt (key nonce text : Bytes) : Bytes :=
  let keys := Aes.roundKeys key
  let ciphertext := mask keys nonce text
  ciphertext ++ tag keys nonce ciphertext

def decrypt? (key nonce body : Bytes) : Option Bytes :=
  let keys := Aes.roundKeys key
  let ciphertext := body.take (body.length - 16)
  if body.length < 16 then none
  else if body.drop (body.length - 16) = tag keys nonce ciphertext then some (mask keys nonce ciphertext)
  else none

end WalletVault.Gcm
