import WalletVault.Bytes
import WalletVault.Hash
import WalletVault.Mnemonic.WordList

/-! Recovery phrases. Entropy of 16, 20, 24, 28 or 32 bytes and the checksum of its digest are cut into groups of
eleven bits, a word each; a phrase is read by undoing this and checking the checksum. The words of a text are its
longest pieces free of white space, by the Unicode property `White_Space`. -/
namespace WalletVault.Space

def isSpace (c : Char) : Bool :=
  let n := c.toNat
  (0x9 ≤ n ∧ n ≤ 0xD) || n == 0x20 || n == 0x85 || n == 0xA0 || n == 0x1680 ||
  (0x2000 ≤ n ∧ n ≤ 0x200A) || n == 0x2028 || n == 0x2029 || n == 0x202F || n == 0x205F || n == 0x3000

def close (word : List Char) (done : List String) : List String :=
  if word.isEmpty then done else String.ofList word.reverse :: done

def split (word : List Char) (done : List String) : List Char → List String
  | [] => (close word done).reverse
  | c :: rest => if isSpace c then split [] (close word done) rest else split (c :: word) done rest

def words (text : String) : List String := split [] [] text.toList

end WalletVault.Space

namespace WalletVault.Mnemonic

inductive Fault where
  | wordCount (count : Nat)
  | unknownWord (position : Nat)
  | badChecksum
  | entropyLength (bits : Nat)
  deriving DecidableEq, Repr

def Fault.message : Fault → String
  | .wordCount count => "mnemonic has an invalid word count: " ++ toString count ++
      ". Word count must be 12, 15, 18, 21, or 24"
  | .unknownWord position => "mnemonic contains an unknown word (word " ++ toString position ++ ")"
  | .badChecksum => "the mnemonic has an invalid checksum"
  | .entropyLength bits => "entropy was not between 128-256 bits or not a multiple of 32 bits: " ++
      toString bits ++ " bits"

def bits (width n : Nat) : List Bool := (List.range width).map fun i => n.testBit (width - 1 - i)

def number (bits : List Bool) : Nat := bits.foldl (fun n bit => 2 * n + bit.toNat) 0

def groups (width : Nat) : (count : Nat) → List Bool → List (List Bool)
  | 0, _ => []
  | count + 1, bits => bits.take width :: groups width count (bits.drop width)

def isCount (words : Nat) : Bool := words % 3 = 0 ∧ 12 ≤ words ∧ words ≤ 24

def isLength (bytes : Nat) : Bool := bytes % 4 = 0 ∧ 16 ≤ bytes ∧ bytes ≤ 32

def byteBits (bytes : Bytes) : List Bool := bytes.flatMap fun b => bits 8 b.toNat

def checksum (entropy : Bytes) : List Bool :=
  (byteBits (Sha256.digest entropy)).take (entropy.length / 4)

def indices (entropy : Bytes) : List Nat :=
  (groups 11 (entropy.length / 4 * 3) (byteBits entropy ++ checksum entropy)).map number

def ofEntropy (entropy : Bytes) : Except Fault (List String) :=
  if isLength entropy.length then .ok ((indices entropy).map word)
  else .error (.entropyLength (8 * entropy.length))

def entropyOf (indices : List Nat) : Bytes :=
  (groups 8 (indices.length / 3 * 4) (indices.flatMap (bits 11))).map fun group => UInt8.ofNat (number group)

def indicesFrom (position : Nat) : List String → Except Fault (List Nat)
  | [] => .ok []
  | text :: rest =>
    match index? text with
    | none => .error (.unknownWord position)
    | some index => (indicesFrom (position + 1) rest).map (index :: ·)

/-- The words of a phrase. An unknown first word is reported before a wrong count, and that before
any other unknown word. -/
def read (text : String) : Except Fault (List String) := do
  let words := Space.words text
  match words with
  | [] => throw (.wordCount 0)
  | first :: _ =>
    if index? first = none then throw (.unknownWord 0)
    if !isCount words.length then throw (.wordCount words.length)
    let found ← indicesFrom 0 words
    if indices (entropyOf found) = found then pure words else throw .badChecksum

def text (words : List String) : String := " ".intercalate words

def seed (words : List String) : Bytes :=
  Hmac.stretch (Utf8.encode (text words)) (Utf8.encode "mnemonic") 2048

end WalletVault.Mnemonic
