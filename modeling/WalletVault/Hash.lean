import WalletVault.Bytes

/-! SHA-256 absorbs a padded message in blocks of 64 bytes into eight words of 32 bits, SHA-512 in blocks of 128 bytes
into words of 64 bits. HMAC and PBKDF2 are those over SHA-512. -/
namespace WalletVault.Sha256

structure State where
  a : UInt32
  b : UInt32
  c : UInt32
  d : UInt32
  e : UInt32
  f : UInt32
  g : UInt32
  h : UInt32
  deriving DecidableEq, Repr

def initial : State :=
  ⟨0x6A09E667, 0xBB67AE85, 0x3C6EF372, 0xA54FF53A,
    0x510E527F, 0x9B05688C, 0x1F83D9AB, 0x5BE0CD19⟩

def constants : List UInt32 :=
  [
    0x428A2F98, 0x71374491, 0xB5C0FBCF, 0xE9B5DBA5, 0x3956C25B, 0x59F111F1, 0x923F82A4, 0xAB1C5ED5,
    0xD807AA98, 0x12835B01, 0x243185BE, 0x550C7DC3, 0x72BE5D74, 0x80DEB1FE, 0x9BDC06A7, 0xC19BF174,
    0xE49B69C1, 0xEFBE4786, 0x0FC19DC6, 0x240CA1CC, 0x2DE92C6F, 0x4A7484AA, 0x5CB0A9DC, 0x76F988DA,
    0x983E5152, 0xA831C66D, 0xB00327C8, 0xBF597FC7, 0xC6E00BF3, 0xD5A79147, 0x06CA6351, 0x14292967,
    0x27B70A85, 0x2E1B2138, 0x4D2C6DFC, 0x53380D13, 0x650A7354, 0x766A0ABB, 0x81C2C92E, 0x92722C85,
    0xA2BFE8A1, 0xA81A664B, 0xC24B8B70, 0xC76C51A3, 0xD192E819, 0xD6990624, 0xF40E3585, 0x106AA070,
    0x19A4C116, 0x1E376C08, 0x2748774C, 0x34B0BCB5, 0x391C0CB3, 0x4ED8AA4A, 0x5B9CCA4F, 0x682E6FF3,
    0x748F82EE, 0x78A5636F, 0x84C87814, 0x8CC70208, 0x90BEFFFA, 0xA4506CEB, 0xBEF9A3F7, 0xC67178F2]

def rotate (x : UInt32) (n : UInt32) : UInt32 := x >>> n ||| x <<< (32 - n)

def bigSigma0 (x : UInt32) : UInt32 := rotate x 2 ^^^ rotate x 13 ^^^ rotate x 22

def bigSigma1 (x : UInt32) : UInt32 := rotate x 6 ^^^ rotate x 11 ^^^ rotate x 25

def smallSigma0 (x : UInt32) : UInt32 := rotate x 7 ^^^ rotate x 18 ^^^ x >>> 3

def smallSigma1 (x : UInt32) : UInt32 := rotate x 17 ^^^ rotate x 19 ^^^ x >>> 10

def words : Bytes → List UInt32
  | a :: b :: c :: d :: rest =>
    (a.toUInt32 <<< 24 ||| b.toUInt32 <<< 16 ||| c.toUInt32 <<< 8 ||| d.toUInt32) ::
      words rest
  | _ => []

def nextWord (schedule : Array UInt32) : UInt32 :=
  let n := schedule.size
  smallSigma1 (schedule.getD (n - 2) 0) + schedule.getD (n - 7) 0 +
    smallSigma0 (schedule.getD (n - 15) 0) + schedule.getD (n - 16) 0

def schedule (block : Bytes) : Array UInt32 :=
  (List.range 48).foldl (fun sofar _ => sofar.push (nextWord sofar)) (words block).toArray

def round (s : State) (constant word : UInt32) : State :=
  let t := s.h + bigSigma1 s.e + (s.e &&& s.f ^^^ ~~~s.e &&& s.g) + constant + word
  let u := bigSigma0 s.a + (s.a &&& s.b ^^^ s.a &&& s.c ^^^ s.b &&& s.c)
  ⟨t + u, s.a, s.b, s.c, s.d + t, s.e, s.f, s.g⟩

def rounds (schedule : Array UInt32) : (index : Nat) → List UInt32 → State → State
  | _, [], s => s
  | index, constant :: rest, s =>
    rounds schedule (index + 1) rest (round s constant (schedule.getD index 0))

def compress (s : State) (block : Bytes) : State :=
  let t := rounds (schedule block) 0 constants s
  ⟨s.a + t.a, s.b + t.b, s.c + t.c, s.d + t.d, s.e + t.e, s.f + t.f, s.g + t.g, s.h + t.h⟩

def absorb : (blocks : Nat) → State → Bytes → State
  | 0, s, _ => s
  | blocks + 1, s, bytes => absorb blocks (compress s (bytes.take 64)) (bytes.drop 64)

def padding (total : Nat) : Bytes :=
  0x80 :: (List.replicate ((119 - total % 64) % 64) 0 ++ Bytes.ofNatBig 8 (8 * total))

def wordBytes (w : UInt32) : Bytes :=
  [(w >>> 24).toUInt8, (w >>> 16).toUInt8, (w >>> 8).toUInt8, w.toUInt8]

def State.bytes (s : State) : Bytes :=
  wordBytes s.a ++ wordBytes s.b ++ wordBytes s.c ++ wordBytes s.d ++
    wordBytes s.e ++ wordBytes s.f ++ wordBytes s.g ++ wordBytes s.h

/-- The digest of a message that goes on with `rest` after `before` bytes, a whole number of blocks,
have led to the state `s`. -/
def digestAfter (s : State) (before : Nat) (rest : Bytes) : Bytes :=
  let message := rest ++ padding (before + rest.length)
  (absorb (message.length / 64) s message).bytes

def digest (message : Bytes) : Bytes := digestAfter initial 0 message

theorem lengthBytes (s : State) : s.bytes.length = 32 := rfl

theorem lengthDigest (message : Bytes) : (digest message).length = 32 := lengthBytes _

end WalletVault.Sha256

namespace WalletVault.Sha512

structure State where
  a : UInt64
  b : UInt64
  c : UInt64
  d : UInt64
  e : UInt64
  f : UInt64
  g : UInt64
  h : UInt64
  deriving DecidableEq, Repr

def initial : State :=
  ⟨0x6A09E667F3BCC908, 0xBB67AE8584CAA73B, 0x3C6EF372FE94F82B, 0xA54FF53A5F1D36F1,
    0x510E527FADE682D1, 0x9B05688C2B3E6C1F, 0x1F83D9ABFB41BD6B, 0x5BE0CD19137E2179⟩

def constants : List UInt64 :=
  [
    0x428A2F98D728AE22, 0x7137449123EF65CD, 0xB5C0FBCFEC4D3B2F, 0xE9B5DBA58189DBBC,
    0x3956C25BF348B538, 0x59F111F1B605D019, 0x923F82A4AF194F9B, 0xAB1C5ED5DA6D8118,
    0xD807AA98A3030242, 0x12835B0145706FBE, 0x243185BE4EE4B28C, 0x550C7DC3D5FFB4E2,
    0x72BE5D74F27B896F, 0x80DEB1FE3B1696B1, 0x9BDC06A725C71235, 0xC19BF174CF692694,
    0xE49B69C19EF14AD2, 0xEFBE4786384F25E3, 0x0FC19DC68B8CD5B5, 0x240CA1CC77AC9C65,
    0x2DE92C6F592B0275, 0x4A7484AA6EA6E483, 0x5CB0A9DCBD41FBD4, 0x76F988DA831153B5,
    0x983E5152EE66DFAB, 0xA831C66D2DB43210, 0xB00327C898FB213F, 0xBF597FC7BEEF0EE4,
    0xC6E00BF33DA88FC2, 0xD5A79147930AA725, 0x06CA6351E003826F, 0x142929670A0E6E70,
    0x27B70A8546D22FFC, 0x2E1B21385C26C926, 0x4D2C6DFC5AC42AED, 0x53380D139D95B3DF,
    0x650A73548BAF63DE, 0x766A0ABB3C77B2A8, 0x81C2C92E47EDAEE6, 0x92722C851482353B,
    0xA2BFE8A14CF10364, 0xA81A664BBC423001, 0xC24B8B70D0F89791, 0xC76C51A30654BE30,
    0xD192E819D6EF5218, 0xD69906245565A910, 0xF40E35855771202A, 0x106AA07032BBD1B8,
    0x19A4C116B8D2D0C8, 0x1E376C085141AB53, 0x2748774CDF8EEB99, 0x34B0BCB5E19B48A8,
    0x391C0CB3C5C95A63, 0x4ED8AA4AE3418ACB, 0x5B9CCA4F7763E373, 0x682E6FF3D6B2B8A3,
    0x748F82EE5DEFB2FC, 0x78A5636F43172F60, 0x84C87814A1F0AB72, 0x8CC702081A6439EC,
    0x90BEFFFA23631E28, 0xA4506CEBDE82BDE9, 0xBEF9A3F7B2C67915, 0xC67178F2E372532B,
    0xCA273ECEEA26619C, 0xD186B8C721C0C207, 0xEADA7DD6CDE0EB1E, 0xF57D4F7FEE6ED178,
    0x06F067AA72176FBA, 0x0A637DC5A2C898A6, 0x113F9804BEF90DAE, 0x1B710B35131C471B,
    0x28DB77F523047D84, 0x32CAAB7B40C72493, 0x3C9EBE0A15C9BEBC, 0x431D67C49C100D4C,
    0x4CC5D4BECB3E42B6, 0x597F299CFC657E2A, 0x5FCB6FAB3AD6FAEC, 0x6C44198C4A475817]

def rotate (x : UInt64) (n : UInt64) : UInt64 := x >>> n ||| x <<< (64 - n)

def bigSigma0 (x : UInt64) : UInt64 := rotate x 28 ^^^ rotate x 34 ^^^ rotate x 39

def bigSigma1 (x : UInt64) : UInt64 := rotate x 14 ^^^ rotate x 18 ^^^ rotate x 41

def smallSigma0 (x : UInt64) : UInt64 := rotate x 1 ^^^ rotate x 8 ^^^ x >>> 7

def smallSigma1 (x : UInt64) : UInt64 := rotate x 19 ^^^ rotate x 61 ^^^ x >>> 6

def words : Bytes → List UInt64
  | a :: b :: c :: d :: e :: f :: g :: h :: rest =>
    (a.toUInt64 <<< 56 ||| b.toUInt64 <<< 48 ||| c.toUInt64 <<< 40 ||| d.toUInt64 <<< 32 |||
      e.toUInt64 <<< 24 ||| f.toUInt64 <<< 16 ||| g.toUInt64 <<< 8 ||| h.toUInt64) ::
      words rest
  | _ => []

def nextWord (schedule : Array UInt64) : UInt64 :=
  let n := schedule.size
  smallSigma1 (schedule.getD (n - 2) 0) + schedule.getD (n - 7) 0 +
    smallSigma0 (schedule.getD (n - 15) 0) + schedule.getD (n - 16) 0

def schedule (block : Bytes) : Array UInt64 :=
  (List.range 64).foldl (fun sofar _ => sofar.push (nextWord sofar)) (words block).toArray

def round (s : State) (constant word : UInt64) : State :=
  let t := s.h + bigSigma1 s.e + (s.e &&& s.f ^^^ ~~~s.e &&& s.g) + constant + word
  let u := bigSigma0 s.a + (s.a &&& s.b ^^^ s.a &&& s.c ^^^ s.b &&& s.c)
  ⟨t + u, s.a, s.b, s.c, s.d + t, s.e, s.f, s.g⟩

def rounds (schedule : Array UInt64) : (index : Nat) → List UInt64 → State → State
  | _, [], s => s
  | index, constant :: rest, s =>
    rounds schedule (index + 1) rest (round s constant (schedule.getD index 0))

def compress (s : State) (block : Bytes) : State :=
  let t := rounds (schedule block) 0 constants s
  ⟨s.a + t.a, s.b + t.b, s.c + t.c, s.d + t.d, s.e + t.e, s.f + t.f, s.g + t.g, s.h + t.h⟩

def absorb : (blocks : Nat) → State → Bytes → State
  | 0, s, _ => s
  | blocks + 1, s, bytes => absorb blocks (compress s (bytes.take 128)) (bytes.drop 128)

def padding (total : Nat) : Bytes :=
  0x80 :: (List.replicate ((239 - total % 128) % 128) 0 ++ Bytes.ofNatBig 16 (8 * total))

def wordBytes (w : UInt64) : Bytes :=
  [(w >>> 56).toUInt8, (w >>> 48).toUInt8, (w >>> 40).toUInt8, (w >>> 32).toUInt8,
    (w >>> 24).toUInt8, (w >>> 16).toUInt8, (w >>> 8).toUInt8, w.toUInt8]

def State.bytes (s : State) : Bytes :=
  wordBytes s.a ++ wordBytes s.b ++ wordBytes s.c ++ wordBytes s.d ++
    wordBytes s.e ++ wordBytes s.f ++ wordBytes s.g ++ wordBytes s.h

def digestAfter (s : State) (before : Nat) (rest : Bytes) : Bytes :=
  let message := rest ++ padding (before + rest.length)
  (absorb (message.length / 128) s message).bytes

def digest (message : Bytes) : Bytes := digestAfter initial 0 message

theorem lengthBytes (s : State) : s.bytes.length = 64 := rfl

theorem lengthAfter (s : State) (before : Nat) (rest : Bytes) :
    (digestAfter s before rest).length = 64 := lengthBytes _

end WalletVault.Sha512

namespace WalletVault.Hmac

structure Key where
  inner : Sha512.State
  outer : Sha512.State

def Key.ofBytes (key : Bytes) : Key :=
  let short := if key.length > 128 then Sha512.digest key else key
  let block := short ++ List.replicate (128 - short.length) 0
  ⟨Sha512.compress Sha512.initial (block.map (· ^^^ 0x36)),
    Sha512.compress Sha512.initial (block.map (· ^^^ 0x5C))⟩

def Key.code (key : Key) (message : Bytes) : Bytes :=
  Sha512.digestAfter key.outer 128 (Sha512.digestAfter key.inner 128 message)

def code (key message : Bytes) : Bytes := (Key.ofBytes key).code message

theorem lengthCode (key message : Bytes) : (code key message).length = 64 :=
  Sha512.lengthAfter _ _ _

def stretchRounds (key : Key) : (rounds : Nat) → (last sum : Bytes) → Bytes
  | 0, _, sum => sum
  | rounds + 1, last, sum =>
    let next := key.code last
    stretchRounds key rounds next (Bytes.xor sum next)

def stretch (password salt : Bytes) (rounds : Nat) : Bytes :=
  let key := Key.ofBytes password
  let first := key.code (salt ++ [0, 0, 0, 1])
  stretchRounds key (rounds - 1) first first

end WalletVault.Hmac
