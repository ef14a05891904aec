import WalletVault.Algorithm
import WalletVault.Wallet.KeyRing

/-! Wallets of both versions. A derived wallet keeps one node, from which it makes its keys by number; a
legacy wallet holds keys that were drawn one by one, and offers neither untainting nor a master key. -/
namespace WalletVault

inductive Origin where
  | derived (node : Node)
  | legacy
  deriving DecidableEq

structure Wallet where
  name : String
  origin : Origin
  ring : KeyRing
  deriving DecidableEq

structure PublicWallet where
  version : UInt32
  name : String
  keys : List PublicKeyView
  deriving DecidableEq, Repr

structure MasterKey where
  publicKey : PublicKey
  privateKey : PrivateKey
  algorithm : Algorithm
  deriving DecidableEq

namespace MasterKey

def signAny (master : MasterKey) (data : Bytes) : Except WalletFault Bytes :=
  (master.algorithm.sign master.privateKey.bytes data).mapError .crypto

def verifyAny (master : MasterKey) (data signature : Bytes) : Except WalletFault Bool :=
  (master.algorithm.verify master.publicKey.bytes data signature).mapError .crypto

end MasterKey

namespace Wallet

def algorithm : Algorithm := .ed25519

def derivedVersion : UInt32 := 2

def legacyVersion : UInt32 := 1

/-- The number of the wallet's node below the root of the seed, and of its key number zero below the
wallet's node. -/
def originIndex : UInt32 := Node.firstHardened + 1789

def version (wallet : Wallet) : UInt32 :=
  match wallet.origin with
  | .derived _ => derivedVersion
  | .legacy => legacyVersion

def newLegacy (name : String) : Wallet := ⟨name, .legacy, .empty⟩

def importPhrase (name phrase : String) : Except WalletFault Wallet :=
  match Mnemonic.read phrase with
  | .error fault => .error (.invalidMnemonic fault)
  | .ok words =>
    match (Node.ofSeed (Mnemonic.seed words)).derive originIndex with
    | .error fault => .error (.crypto fault)
    | .ok node => .ok ⟨name, .derived node, .empty⟩

def create (name : String) (entropy : Block 32) : Except WalletFault (Wallet × String) := do
  let phrase ← (Mnemonic.phrase entropy.val).mapError .crypto
  let wallet ← importPhrase name phrase
  pure (wallet, phrase)

def checkedAdd (first second : UInt32) : Option UInt32 :=
  if first.toNat + second.toNat < UInt32.size then some (first + second) else none

def derivePair (node : Node) (index : UInt32) : Except WalletFault KeyPair :=
  match checkedAdd originIndex index with
  | none => .error (.indexOverflow index)
  | some place => do
    let child ← (node.derive place).mapError .crypto
    let keys ← (child.keyPair algorithm).mapError .crypto
    pure (KeyPair.fresh (some index) keys algorithm)

def nextPair (wallet : Wallet) (seed : Block 32) : Except WalletFault KeyPair :=
  match wallet.origin with
  | .derived node => derivePair node wallet.ring.nextIndex
  | .legacy => do
    let keys ← (algorithm.keyPair seed.val).mapError .crypto
    pure (KeyPair.fresh none keys algorithm)

def generate (wallet : Wallet) (seed : Block 32) (notes : List Note) :
    Except WalletFault (Wallet × KeyPair) := do
  let pair ← wallet.nextPair seed
  let pair := pair.annotate notes
  pure ({ wallet with ring := wallet.ring.upsert pair }, pair)

def withRing (wallet : Wallet) (ring : Except WalletFault KeyRing) : Except WalletFault Wallet :=
  ring.map fun ring => { wallet with ring := ring }

def taint (wallet : Wallet) (key : String) : Except WalletFault Wallet :=
  wallet.withRing (wallet.ring.taint key)

def untaint (wallet : Wallet) (key : String) : Except WalletFault Wallet :=
  match wallet.origin with
  | .derived _ => wallet.withRing (wallet.ring.untaint key)
  | .legacy => .error (.unsupported .untainting legacyVersion)

def annotate (wallet : Wallet) (key : String) (notes : List Note) : Except WalletFault Wallet :=
  wallet.withRing (wallet.ring.annotate key notes)

def masterKey (wallet : Wallet) : Except WalletFault MasterKey :=
  match wallet.origin with
  | .derived node =>
    ((node.keyPair algorithm).map fun keys => ⟨keys.1, keys.2, algorithm⟩).mapError .crypto
  | .legacy => .error (.unsupported .masterKeys legacyVersion)

def view (wallet : Wallet) : PublicWallet := ⟨wallet.version, wallet.name, wallet.ring.views⟩

end Wallet

end WalletVault
