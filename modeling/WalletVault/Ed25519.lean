import WalletVault.Bytes
import WalletVault.Hash

/-! Ed25519 signatures over the SHA-256 digest of the signed data, on the twisted Edwards curve −x² + y² = 1 + d·x²·y²
over the field of 2²⁵⁵ − 19 elements. A private key is the 32-byte seed, a public key the 32 bytes of a point, a
signature 64 bytes. -/
namespace WalletVault.Field

def prime : Nat := Nat.pow 2 255 - 19

def add (x y : Nat) : Nat := (x + y) % prime

def sub (x y : Nat) : Nat := (x + prime - y) % prime

def mul (x y : Nat) : Nat := (x * y) % prime

def bits (count n : Nat) : List Bool := ((List.range count).map n.testBit).reverse

def pow (x exponent : Nat) : Nat :=
  (bits 255 exponent).foldl (fun y bit => let square := mul y y; if bit then mul square x else square) 1

def inverse (x : Nat) : Nat := pow x (prime - 2)

def rootOfMinusOne : Nat := pow 2 ((prime - 1) / 4)

def evenRoot? (u v : Nat) : Option Nat :=
  let v3 := mul (mul v v) v
  let candidate := mul (mul u v3) (pow (mul (mul u v3) (mul (mul v v) (mul v v))) ((prime - 5) / 8))
  let check := mul v (mul candidate candidate)
  let root? :=
    if check = u then some candidate
    else if check = sub 0 u then some (mul candidate rootOfMinusOne)
    else none
  root?.map fun root => if root % 2 = 0 then root else prime - root

end WalletVault.Field

namespace WalletVault

structure Point where
  x : Nat
  y : Nat
  z : Nat
  t : Nat
  deriving DecidableEq, Repr

namespace Point
open WalletVault.Field

def d : Nat := mul (prime - 121665) (inverse 121666)

def neutral : Point := ⟨0, 1, 1, 0⟩

/-- One law for all pairs of points, equal ones and the neutral element included. -/
def add (p q : Point) : Point :=
  let a := mul (sub p.y p.x) (sub q.y q.x)
  let b := mul (Field.add p.y p.x) (Field.add q.y q.x)
  let c := mul (mul p.t (mul 2 d)) q.t
  let e := mul (mul p.z 2) q.z
  let f := sub b a
  let g := sub e c
  let h := Field.add e c
  let i := Field.add b a
  ⟨mul f g, mul h i, mul g h, mul f i⟩

def negate (p : Point) : Point := ⟨sub 0 p.x, p.y, p.z, sub 0 p.t⟩

def multiple (n : Nat) (p : Point) : Point :=
  (bits 256 n).foldl (fun q bit => let double := q.add q; if bit then double.add p else double) neutral

def bytes (p : Point) : Bytes :=
  let zi := inverse p.z
  let x := mul p.x zi
  let y := mul p.y zi
  Bytes.ofNatLittle 32 (y + (x % 2) * Nat.pow 2 255)

/-- The point with the coordinate y and the given lowest bit of x. Where x is zero both bits stand
for the one point. -/
def ofCoordinate? (y : Nat) (odd : Bool) : Option Point :=
  let square := mul y y
  (evenRoot? (sub square 1) (Field.add (mul d square) 1)).map fun root =>
    let x := if odd then sub 0 root else root
    ⟨x, y, 1, mul x y⟩

def ofBytes? (bytes : Bytes) : Option Point :=
  let n := Bytes.littleEndian bytes
  ofCoordinate? (n % Nat.pow 2 255 % prime) (n.testBit 255)

def base : Point := (ofCoordinate? (mul 4 (inverse 5)) false).getD neutral

end Point

end WalletVault

namespace WalletVault.Ed25519

def order : Nat := Nat.pow 2 252 + 27742317777372353535851937790883648493

def clamp (half : Bytes) : Nat :=
  let n := Bytes.littleEndian half
  n % Nat.pow 2 254 / 8 * 8 + Nat.pow 2 254

def secret (seed : Bytes) : Nat := clamp ((Sha512.digest seed).take 32)

def publicKey (seed : Bytes) : Bytes := ((Point.base).multiple (secret seed)).bytes

def challenge (commitment key digest : Bytes) : Nat :=
  Bytes.littleEndian (Sha512.digest (commitment ++ key ++ digest)) % order

def sign (seed data : Bytes) : Bytes :=
  let digest := Sha256.digest data
  let nonce := Bytes.littleEndian (Sha512.digest ((Sha512.digest seed).drop 32 ++ digest)) % order
  let commitment := (Point.base.multiple nonce).bytes
  let response := (nonce + challenge commitment (publicKey seed) digest * secret seed) % order
  commitment ++ Bytes.ofNatLittle 32 response

/-- Whether a signature of data holds under the 32 bytes of a public key: it has 64 bytes, its second
half is below the order, the key is a point, and the first half is the canonical form of the
commitment that the check rebuilds. -/
def verify (key data signature : Bytes) : Bool :=
  let commitment := signature.take 32
  let response := Bytes.littleEndian (signature.drop 32)
  if signature.length = 64 ∧ response < order then
    match Point.ofBytes? key with
    | none => false
    | some point =>
      let digest := Sha256.digest data
      let rebuilt := (Point.base.multiple response).add
        (point.negate.multiple (challenge commitment key digest))
      rebuilt.bytes = commitment
  else false

theorem lengthPublicKey (seed : Bytes) : (publicKey seed).length = 32 := Bytes.lengthLittle _ _

theorem lengthSign (seed data : Bytes) : (sign seed data).length = 64 := by
  simp [sign, Point.bytes, Bytes.lengthLittle]

end WalletVault.Ed25519
