import Std.Data.ExtTreeMap
import WalletVault.Key
import WalletVault.Wallet.Fault

/-! Key pairs, and the ring that files them under the lower case digits of their public keys and counts the number
that the next derived pair will have. A tainted pair can be read and still verifies, but it signs nothing. -/
namespace WalletVault

structure KeyPair where
  index : Option UInt32
  publicKey : PublicKey
  privateKey : PrivateKey
  tainted : Bool
  notes : List Note
  algorithm : Algorithm
  deriving DecidableEq

structure PublicKeyView where
  index : Option UInt32
  publicKey : PublicKey
  notes : List Note
  tainted : Bool
  algorithm : Algorithm
  deriving DecidableEq, Repr

namespace KeyPair

def fresh (index : Option UInt32) (keys : PublicKey × PrivateKey) (algorithm : Algorithm) : KeyPair :=
  ⟨index, keys.1, keys.2, false, [], algorithm⟩

def view (pair : KeyPair) : PublicKeyView :=
  ⟨pair.index, pair.publicKey, pair.notes, pair.tainted, pair.algorithm⟩

def taint (pair : KeyPair) : Except WalletFault KeyPair :=
  if pair.tainted then .error .alreadyTainted else .ok { pair with tainted := true }

def untaint (pair : KeyPair) : Except WalletFault KeyPair :=
  if pair.tainted then .ok { pair with tainted := false } else .error .notTainted

def annotate (pair : KeyPair) (notes : List Note) : KeyPair :=
  { pair with notes := notes }

def signAny (pair : KeyPair) (data : Bytes) : Except WalletFault Bytes :=
  if pair.tainted then .error .keyTainted
  else (pair.algorithm.sign pair.privateKey.bytes data).mapError .crypto

def verifyAny (pair : KeyPair) (data signature : Bytes) : Except WalletFault Bool :=
  (pair.algorithm.verify pair.publicKey.bytes data signature).mapError .crypto

def signTx (pair : KeyPair) (data : Bytes) : Except WalletFault Signature :=
  (pair.signAny data).map (Signature.ofBytes · pair.algorithm.descriptor)

end KeyPair

/-- Finite maps from texts, in which equal content means equal maps. -/
abbrev TextMap (α : Type) := Std.ExtTreeMap String α

structure KeyRing where
  keys : TextMap KeyPair
  nextIndex : UInt32
  deriving DecidableEq

namespace KeyRing

def empty : KeyRing := ⟨∅, 1⟩

/-- The number after another; the largest is followed by itself. -/
def after (index : UInt32) : UInt32 := if index = 0xFFFFFFFF then index else index + 1

def upsert (ring : KeyRing) (pair : KeyPair) : KeyRing :=
  { keys := ring.keys.insert pair.publicKey.hex pair
    nextIndex := match pair.index with
      | some index => max ring.nextIndex (after index)
      | none => ring.nextIndex }

def ofList (pairs : List KeyPair) : KeyRing := pairs.foldl upsert empty

def find? (ring : KeyRing) (key : String) : Option KeyPair :=
  match ring.keys[key]? with
  | some pair => some pair
  | none => ring.keys[key.toLower]?

def require (ring : KeyRing) (key : String) : Except WalletFault KeyPair :=
  match ring.find? key with
  | some pair => .ok pair
  | none => .error .noSuchKey

def size (ring : KeyRing) : Nat := ring.keys.size

def isEmpty (ring : KeyRing) : Bool := ring.keys.isEmpty

def listedBefore (a b : KeyPair) : Bool :=
  match a.index, b.index with
  | some i, some j => i < j || (i == j && a.publicKey.hex ≤ b.publicKey.hex)
  | some _, none => true
  | none, some _ => false
  | none, none => a.publicKey.hex ≤ b.publicKey.hex

def list (ring : KeyRing) : List KeyPair := ring.keys.values.mergeSort listedBefore

def views (ring : KeyRing) : List PublicKeyView := ring.list.map KeyPair.view

def describe (ring : KeyRing) (key : String) : Except WalletFault PublicKeyView :=
  (ring.require key).map KeyPair.view

def change (ring : KeyRing) (key : String) (f : KeyPair → Except WalletFault KeyPair) :
    Except WalletFault KeyRing := do
  let pair ← ring.require key
  let changed ← f pair
  pure (ring.upsert changed)

def taint (ring : KeyRing) (key : String) : Except WalletFault KeyRing := ring.change key KeyPair.taint

def untaint (ring : KeyRing) (key : String) : Except WalletFault KeyRing := ring.change key KeyPair.untaint

def annotate (ring : KeyRing) (key : String) (notes : List Note) : Except WalletFault KeyRing :=
  ring.change key fun pair => .ok (pair.annotate notes)

def signAny (ring : KeyRing) (key : String) (data : Bytes) : Except WalletFault Bytes := do
  (← ring.require key).signAny data

def signTx (ring : KeyRing) (key : String) (data : Bytes) : Except WalletFault Signature := do
  (← ring.require key).signTx data

def verifyAny (ring : KeyRing) (key : String) (data signature : Bytes) : Except WalletFault Bool := do
  (← ring.require key).verifyAny data signature

end KeyRing

end WalletVault
