import WalletVault.Ed25519
import WalletVault.Key
import WalletVault.Mnemonic.Phrase

/-! Signature algorithms by their recorded name and version, the faults of key material, and the derivation of keys. A
node is a key and a chain code of 32 bytes each; its children are numbered, and only hardened numbers, from 2³¹ on,
have one. -/
namespace WalletVault

inductive CryptoFault where
  | keyLength (actual : Nat)
  | unsupportedAlgorithm (name : String) (version : UInt32)
  | invalidMnemonic (fault : Mnemonic.Fault)
  | notHardened (index : UInt32)
  | nodeLength (actual : Nat)
  | derivation (fault : Mnemonic.Fault)
  deriving DecidableEq, Repr

def CryptoFault.message : CryptoFault → String
  | .keyLength actual => "invalid key length: expected 32 bytes, got " ++ toString actual
  | .unsupportedAlgorithm name version =>
    "unsupported algorithm: " ++ name ++ " version " ++ toString version
  | .invalidMnemonic fault => "invalid mnemonic phrase: " ++ fault.message
  | .notHardened index => "index 0x" ++ Quoted.hex index.toNat ++ " is not hardened"
  | .nodeLength actual => "invalid derivation node: expected 64 bytes, got " ++ toString actual
  | .derivation fault => "key derivation failed: " ++ fault.message

inductive Algorithm where
  | ed25519
  deriving DecidableEq, Repr

structure Descriptor where
  name : String
  version : UInt32
  deriving DecidableEq, Repr

structure Signature where
  value : String
  algorithm : String
  version : UInt32
  deriving DecidableEq, Repr

namespace Signature

def ofBytes (raw : Bytes) (descriptor : Descriptor) : Signature :=
  ⟨Hex.encode raw, descriptor.name, descriptor.version⟩

def bytes (signature : Signature) : Except Hex.Fault Bytes := Hex.decode signature.value

end Signature

namespace Algorithm

def descriptor : Algorithm → Descriptor
  | ed25519 => ⟨"walletd/ed25519", 1⟩

def ofDescriptor (d : Descriptor) : Except CryptoFault Algorithm :=
  if d = ed25519.descriptor then .ok ed25519 else .error (.unsupportedAlgorithm d.name d.version)

def publicKey (_ : Algorithm) (key : Bytes) : Except CryptoFault PublicKey :=
  if key.length = 32 then .ok ⟨Ed25519.publicKey key⟩ else .error (.keyLength key.length)

def keyPair (algorithm : Algorithm) (seed : Bytes) : Except CryptoFault (PublicKey × PrivateKey) :=
  (algorithm.publicKey seed).map (·, ⟨seed⟩)

def sign (_ : Algorithm) (key data : Bytes) : Except CryptoFault Bytes :=
  if key.length = 32 then .ok (Ed25519.sign key data) else .error (.keyLength key.length)

def verify (_ : Algorithm) (key data signature : Bytes) : Except CryptoFault Bool :=
  if key.length = 32 then .ok (Ed25519.verify key data signature) else .error (.keyLength key.length)

end Algorithm

def Mnemonic.phrase (entropy : Bytes) : Except CryptoFault String :=
  match Mnemonic.ofEntropy entropy with
  | .ok words => .ok (Mnemonic.text words)
  | .error fault => .error (.derivation fault)

def Mnemonic.seedOfText (phrase : String) : Except CryptoFault Bytes :=
  match Mnemonic.read phrase with
  | .ok words => .ok (Mnemonic.seed words)
  | .error fault => .error (.invalidMnemonic fault)

structure Node where
  key : Block 32
  chainCode : Block 32
  deriving DecidableEq

namespace Node

def firstHardened : UInt32 := 0x80000000

def ofHalves (bytes : Bytes) (h : bytes.length = 64) : Node :=
  ⟨⟨bytes.take 32, by simp [h]⟩, ⟨bytes.drop 32, by simp [h]⟩⟩

def ofSeed (seed : Bytes) : Node :=
  ofHalves (Hmac.code (Utf8.encode "ed25519 seed") seed) (Hmac.lengthCode _ _)

def derive (node : Node) (index : UInt32) : Except CryptoFault Node :=
  if index < firstHardened then .error (.notHardened index)
  else .ok (ofHalves
    (Hmac.code node.chainCode.val (0 :: node.key.val ++ Bytes.ofNatBig 4 index.toNat)) (Hmac.lengthCode _ _))

def keyPair (node : Node) (algorithm : Algorithm) : Except CryptoFault (PublicKey × PrivateKey) :=
  algorithm.keyPair node.key.val

def bytes (node : Node) : Bytes := node.key.val ++ node.chainCode.val

def ofBytes (bytes : Bytes) : Except CryptoFault Node :=
  if h : bytes.length = 64 then .ok (ofHalves bytes h) else .error (.nodeLength bytes.length)

end Node

end WalletVault
