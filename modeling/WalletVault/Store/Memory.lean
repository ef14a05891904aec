import WalletVault.Store.Basic

/-! A store in memory: sealed records by name, and the number of saves that succeeded. -/
namespace WalletVault

structure MemoryStore where
  records : TextMap Bytes
  saves : Nat
  deriving DecidableEq

namespace MemoryStore

def empty : MemoryStore := ⟨∅, 0⟩

def record? (store : MemoryStore) (name : String) : Option Bytes := store.records[name]?

/-- Puts any bytes under a name, as damage to a record would. -/
def put (store : MemoryStore) (name : String) (record : Bytes) : MemoryStore :=
  { store with records := store.records.insert name record }

def save (store : MemoryStore) (wallet : Wallet) (passphrase : String) (nonce : Block 12) :
    Except StoreFault Unit × MemoryStore :=
  match requireName wallet.name with
  | .error fault => (.error fault, store)
  | .ok () =>
    (.ok (), ⟨store.records.insert wallet.name (Sealed.ofWallet wallet passphrase nonce), store.saves + 1⟩)

def load (store : MemoryStore) (name passphrase : String) : Except StoreFault Wallet := do
  requireName name
  match store.record? name with
  | none => throw (.noSuchWallet name)
  | some record => Sealed.wallet record name passphrase

def contains (store : MemoryStore) (name : String) : Except StoreFault Bool := do
  requireName name
  pure (store.record? name).isSome

def names (store : MemoryStore) : Except StoreFault (List String) := .ok store.records.keys

instance : WalletStore MemoryStore := ⟨save, load, contains, names⟩

end MemoryStore

end WalletVault
