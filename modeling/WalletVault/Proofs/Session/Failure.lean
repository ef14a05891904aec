import WalletVault.Proofs.Session.Shape
import WalletVault.Proofs.Store.Record
import WalletVault.Proofs.Wallet.History

/-! Calls that fail leave no trace, and calls that save do it once. In every store the records stay as they
were; a store in memory stays as it was altogether, with the count of its saves. -/
namespace WalletVault

def Call.saves : Call → Bool
  | create _ _ | importPhrase _ _ _ | generate _ _ _ | taint _ _ _ | untaint _ _ _ | annotate _ _ _ _ => true
  | _ => false

theorem Shape.ofCallSaves (draw : Draw) (call : Call) : (ofCall draw call).saves = call.saves := by
  cases call <;> rfl

namespace MemoryStore
variable {store next : MemoryStore} {wallet : Wallet} {passphrase : String} {nonce : Block 12}

theorem unsavedSame {fault : StoreFault}
    (failed : WalletStore.save store wallet passphrase nonce = (.error fault, next)) : next = store := by
  change store.save wallet passphrase nonce = _ at failed
  rcases saveCases store wallet passphrase nonce with ⟨reason, left⟩ | ⟨_, kept⟩
  · rw [left] at failed
    cases failed
    rfl
  · rw [kept] at failed
    cases failed

theorem savedOnce (done : WalletStore.save store wallet passphrase nonce = (.ok (), next)) :
    next.saves = store.saves + 1 := by
  change store.save wallet passphrase nonce = _ at done
  rcases saveCases store wallet passphrase nonce with ⟨reason, left⟩ | ⟨_, kept⟩
  · rw [left] at done
    cases done
  · rw [kept] at done
    cases done
    rfl

end MemoryStore

namespace Session
variable {σ : Type} [WalletStore σ] {nonce : Block 12} {shape : Shape} {fault : SessionFault} {reply : Reply}

theorem Effect.failedRecords [RecordStore σ] {session next : Session σ}
    (effect : Effect session nonce shape (.error fault, next)) (name : String) :
    RecordStore.record? next.store name = RecordStore.record? session.store name := by
  cases effect with
  | refused => rfl
  | unsaved saving failed => exact RecordStore.unsaved failed name

theorem Effect.failedLoaded {session next : Session σ}
    (effect : Effect session nonce shape (.error fault, next)) : next.loaded = session.loaded := by
  cases effect <;> rfl

theorem Effect.failed {session next : Session MemoryStore}
    (effect : Effect session nonce shape (.error fault, next)) : next = session := by
  cases effect with
  | refused => rfl
  | unsaved saving failed => rw [MemoryStore.unsavedSame failed]

theorem Effect.saved {session next : Session MemoryStore}
    (effect : Effect session nonce shape (.ok reply, next)) :
    next.store.saves = session.store.saves + if shape.saves then 1 else 0 := by
  cases effect with
  | enrolled free done saved => exact MemoryStore.savedOnce saved
  | edited opened done saved => exact MemoryStore.savedOnce saved
  | entered | left | asked | listed => rfl

theorem stepFailedRecords [RecordStore σ] {session next : Session σ} {draw : Draw} {call : Call}
    (failed : session.step draw call = (.error fault, next)) (name : String) :
    RecordStore.record? next.store name = RecordStore.record? session.store name :=
  (failed ▸ session.stepEffect draw call).failedRecords name

theorem stepFailed {session next : Session MemoryStore} {draw : Draw} {call : Call}
    (failed : session.step draw call = (.error fault, next)) : next = session :=
  (failed ▸ session.stepEffect draw call).failed

theorem stepSaved {session next : Session MemoryStore} {draw : Draw} {call : Call}
    (done : session.step draw call = (.ok reply, next)) :
    next.store.saves = session.store.saves + if call.saves then 1 else 0 := by
  rw [← Shape.ofCallSaves draw call]
  exact (done ▸ session.stepEffect draw call).saved

theorem keepsValid (session : Session MemoryStore) {name : String} {wallet : Wallet} (valid : isWalletName name = true)
    (named : wallet.name = name) (passphrase : String) (nonce : Block 12) :
    session.keep name wallet passphrase nonce = (.ok (),
      ⟨⟨session.store.records.insert name (Sealed.ofWallet wallet passphrase nonce), session.store.saves + 1⟩,
        session.loaded.insert name wallet⟩) := by
  have saved : WalletStore.save session.store wallet passphrase nonce = _ :=
    MemoryStore.saveValid (named ▸ valid) passphrase nonce
  rw [keep, saved, named]

theorem importsFree {session : Session MemoryStore} {name phrase : String} {wallet : Wallet}
    (valid : isWalletName name = true) (absent : session.store.record? name = none)
    (made : Wallet.importPhrase name phrase = .ok wallet) (passphrase : String) (draw : Draw) :
    session.step draw (.importPhrase name passphrase phrase) = (.ok .done,
      ⟨⟨session.store.records.insert name (Sealed.ofWallet wallet passphrase draw.nonce), session.store.saves + 1⟩,
        session.loaded.insert name wallet⟩) := by
  have unknown : WalletStore.contains session.store name = .ok false := by
    rw [← Option.isSome_none, ← absent]
    exact MemoryStore.containsValid valid
  have free := requireUnusedOk.mpr unknown
  have kept := session.keepsValid valid (Wallet.importPhraseName made) passphrase draw.nonce
  simp only [step, importPhrase, free, made, kept]
  rfl

end Session

def damaged : Session MemoryStore := .start (MemoryStore.empty.put "savings" [0])

theorem damagedRefuses (passphrase : String) :
    damaged.loadStored "savings" passphrase = .error (.noSuchWallet "savings") := by
  have valid : isWalletName "savings" = true := by decide
  have stored : damaged.store.record? "savings" = some [0] := Std.ExtTreeMap.getElem?_insert_self
  have refused : WalletStore.load damaged.store "savings" passphrase = .error .cannotDecrypt :=
    (RecordStore.loadRecord passphrase stored valid).trans rfl
  simp only [Session.loadStored, refused]

theorem damagedElsewhere : damaged.store.record? "travel" = none := by
  simp [damaged, Session.start, MemoryStore.record?, MemoryStore.put, MemoryStore.empty]

end WalletVault
