import WalletVault.Proofs.Command.Failure
import WalletVault.Proofs.Command.OneShot
import WalletVault.Proofs.CommandLine.Notes
import WalletVault.Proofs.Session.Shared
import WalletVault.Proofs.Store.Lasting
import WalletVault.Proofs.Wallet.Taint

/-! Notes that a key was given are shown until the key is given others, whatever commands come in between and however
many processes run them. What carries this is the stored record: it opens under its passphrase, and the key in it has
the notes. -/
namespace WalletVault
open Fallible

namespace Sealed
variable {record : Bytes} {name passphrase : String} {wallet : Wallet}

end Sealed

/-! Sessions over a store whose records last. -/

namespace Session
variable {σ : Type} [WalletStore σ] [LastingStore σ] {session next : Session σ} {name passphrase : String}
  {wallet : Wallet} {record : Bytes}

end Session

section Noted
variable {σ : Type} [WalletStore σ] [LastingStore σ]

variable {name passphrase key : String} {notes : List Note} {session next : Session σ}

end Noted

namespace Command
variable {σ : Type} [WalletStore σ] {α : Type} {session next : Session σ} {name passphrase : String} {answer : Answer}

/- An order under which the notes of a key stay: it gives the key no others, the key that it issues is not the very
same, and its passphrase opens the record only if it is the one of the record. -/
structure Order.Spares [LastingStore σ] (name passphrase key : String) (session : Session σ) (order : Order) :
    Prop where
  annotates : ∀ called notes answer next, order.command = .annotate name called notes →
    order.command.execute session order.passphrase order.draw = (.ok answer, next) → called.toLower ≠ key.toLower
  issues : ∀ notes view next, order.command = .generateKey name notes →
    order.command.execute session order.passphrase order.draw = (.ok (.key view), next) →
    view.publicKey.hex ≠ key.toLower
  opens : ∀ given record, order.passphrase = some given → given ≠ passphrase →
    LastingStore.record? session.store name = some record → ¬ Sealed.Opens record given

/- What may come next: an order is carried out, or another process takes over and finds only the store. -/
inductive Event where
  | ordered (order : Order)
  | restarted

def Event.meet (session : Session σ) : Event → Session σ
  | ordered order => (order.command.execute session order.passphrase order.draw).2
  | restarted => .start session.store

def endure (session : Session σ) (events : List Event) : Session σ := events.foldl Event.meet session

section Kept
variable [LastingStore σ] {key : String} {notes : List Note}

end Kept

end Command

end WalletVault
