import Mathlib.Data.List.Induction
import WalletVault.Proofs.Session.Ledger
import WalletVault.Proofs.Store.Sealed

/-! Registers: what the replies of many sessions tell of one wallet, when they are read in the order in which
they were given. A register knows neither records nor loaded copies. -/
namespace WalletVault

structure Turn where
  session : Nat
  draw : Draw
  call : Call

structure Taken where
  turn : Turn
  reply : Except SessionFault Reply

/- The passphrase that a wallet was made with, and its keys in the order of issue, each as it was last written. -/
structure Register where
  passphrase : String
  keys : List PublicKeyView

namespace Register

def issue (register : Register) (view : PublicKeyView) : Register :=
  { register with keys := register.keys ++ [view] }

def rewrite (register : Register) (key : String) (f : PublicKeyView → PublicKeyView) : Register :=
  { register with keys := register.keys.map fun view => if view.publicKey.hex = key.toLower then f view else view }

def write (register : Option Register) : Call → Reply → Option Register
  | .create _ passphrase, _ | .importPhrase _ passphrase _, _ => some ⟨passphrase, []⟩
  | .generate _ _ notes, .key view => register.map (·.issue { view with notes := notes, tainted := false })
  | .taint _ key _, _ => register.map (·.rewrite key ({ · with tainted := true }))
  | .untaint _ key _, _ => register.map (·.rewrite key ({ · with tainted := false }))
  | .annotate _ key _ notes, _ => register.map (·.rewrite key ({ · with notes := notes }))
  | _, _ => register

def after (name : String) (register : Option Register) (taken : Taken) : Option Register :=
  match taken.reply with
  | .ok reply => if taken.turn.call.name? = some name then write register taken.turn.call reply else register
  | .error _ => register

def Guards (register : Option Register) (record : Option Bytes) (passphrase : String) : Prop :=
  ∀ known bytes, register = some known → record = some bytes → known.passphrase ≠ passphrase →
    ¬ Sealed.Opens bytes passphrase

end Register

def Taken.issued? (name : String) (taken : Taken) : Option PublicKeyView :=
  match taken.turn.call, taken.reply with
  | .generate here _ _, .ok (.key view) => if here = name then some view else none
  | _, _ => none

def registered (name : String) (log : List Taken) : Option Register := log.foldl (Register.after name) none

def issued (name : String) (log : List Taken) : List PublicKeyView := log.filterMap (Taken.issued? name)

section Log
variable {name : String}

theorem registeredNext (name : String) (log : List Taken) (taken : Taken) :
    registered name (log ++ [taken]) = Register.after name (registered name log) taken := by
  rw [registered, List.foldl_append]
  rfl

theorem issuedNext (name : String) (log : List Taken) (taken : Taken) : issued name (log ++ [taken]) =
    match taken.issued? name with
    | none => issued name log
    | some view => issued name log ++ [view] := by
  rw [issued, List.filterMap_append]
  cases found : taken.issued? name <;> simp [issued, found]

theorem Register.afterHere {turn : Turn} (here : turn.call.name? = some name) (register : Option Register)
    (reply : Reply) : after name register ⟨turn, .ok reply⟩ = write register turn.call reply := if_pos here

theorem Register.afterElsewhere {turn : Turn} (elsewhere : turn.call.name? ≠ some name) (register : Option Register)
    (reply : Reply) : after name register ⟨turn, .ok reply⟩ = register := if_neg elsewhere

theorem Taken.issuedKey (number : Nat) (draw : Draw) (passphrase : String) (notes : List Note)
    (view : PublicKeyView) :
    issued? name ⟨⟨number, draw, .generate name passphrase notes⟩, .ok (.key view)⟩ = some view := if_pos rfl

theorem Taken.issuedFailed (turn : Turn) (fault : SessionFault) : issued? name ⟨turn, .error fault⟩ = none := by
  obtain ⟨session, draw, call⟩ := turn
  cases call <;> rfl

theorem Taken.issuedElsewhere {turn : Turn} (elsewhere : turn.call.name? ≠ some name)
    (reply : Except SessionFault Reply) : issued? name ⟨turn, reply⟩ = none := by
  obtain ⟨session, draw, call⟩ := turn
  cases call with
  | generate here passphrase notes =>
    have apart : ¬ here = name := fun same => elsewhere (congrArg some same)
    unfold issued?
    split
    · rename_i called _
      cases called
      exact if_neg apart
    · rfl
  | _ => rfl

theorem issuedGrow (name : String) (log : List Taken) (taken : Taken) :
    (issued name log).length ≤ (issued name (log ++ [taken])).length := by
  rw [issued, issued, List.filterMap_append, List.length_append]
  exact Nat.le_add_right _ _

theorem Register.writePassphrase {register : Option Register} {call : Call} {reply : Reply} {written : Register}
    (done : write register call reply = some written) :
    call.passphrase? = some written.passphrase ∨
      ∃ old, register = some old ∧ old.passphrase = written.passphrase := by
  have mapped {f : Register → Register} (done : register.map f = some written)
      (keeps : ∀ old, (f old).passphrase = old.passphrase) :
      ∃ old, register = some old ∧ old.passphrase = written.passphrase := by
    obtain ⟨old, found, rfl⟩ := Option.map_eq_some_iff.mp done
    exact ⟨old, found, (keeps old).symm⟩
  cases call with
  | create name passphrase => cases done; exact Or.inl rfl
  | importPhrase name passphrase phrase => cases done; exact Or.inl rfl
  | generate name passphrase notes =>
    cases reply with
    | key view => exact Or.inr (mapped done fun _ => rfl)
    | _ => exact Or.inr ⟨written, done, rfl⟩
  | taint name key passphrase => exact Or.inr (mapped done fun _ => rfl)
  | untaint name key passphrase => exact Or.inr (mapped done fun _ => rfl)
  | annotate name key passphrase notes => exact Or.inr (mapped done fun _ => rfl)
  | _ => exact Or.inr ⟨written, done, rfl⟩

theorem registeredPassphrase {log : List Taken} {passphrase : String}
    (given : ∀ taken ∈ log, ∀ other, taken.turn.call.passphrase? = some other → other = passphrase)
    {register : Register} (found : registered name log = some register) : register.passphrase = passphrase := by
  -- From the last turn back: it has made the register, or has left the passphrase of the one before.
  induction log using List.reverseRecOn generalizing register with
  | nil => cases found
  | append_singleton log taken ih =>
    have earlier := @ih fun first member => given first (List.mem_append_left _ member)
    obtain ⟨turn, reply⟩ := taken
    have last := given _ (List.mem_append_right log (List.mem_singleton_self _))
    rw [registeredNext] at found
    cases reply with
    | error fault => exact earlier found
    | ok reply =>
      by_cases here : turn.call.name? = some name
      · rw [Register.afterHere here] at found
        rcases Register.writePassphrase found with own | ⟨old, before, same⟩
        · exact last _ own
        · exact same.symm.trans (earlier before)
      · rw [Register.afterElsewhere here] at found
        exact earlier found

end Log

end WalletVault
