import WalletVault.Proofs.Session.Shared

/-! What one turn of many sessions does for one name, with its record, the passphrase that came with the record and
the copies that the sessions have loaded. -/
namespace WalletVault
open Fallible

def Taken.sealing? (name : String) : Taken → Option String
  | ⟨⟨_, _, .create here passphrase⟩, .ok _⟩ | ⟨⟨_, _, .importPhrase here passphrase _⟩, .ok _⟩ =>
    if here = name then some passphrase else none
  | _ => none

def sealing (name : String) (log : List Taken) : Option String := (registered name log).map Register.passphrase

theorem sealingNext (name : String) (log : List Taken) (taken : Taken) :
    sealing name (log ++ [taken]) = (taken.sealing? name).or (sealing name log) := by
  rw [sealing, sealing, registeredNext]
  generalize registered name log = register
  obtain ⟨⟨number, draw, call⟩, reply⟩ := taken
  cases reply with
  | error fault => cases call <;> rfl
  | ok reply =>
    by_cases here : call.name? = some name
    · rw [Register.afterHere here]
      cases call with
      | create _ _ | importPhrase _ _ _ => cases here; simp [Register.write, Taken.sealing?]
      | generate _ _ _ => cases reply <;> cases register <;> rfl
      | taint _ _ _ | untaint _ _ _ | annotate _ _ _ _ => cases register <;> rfl
      | _ => rfl
    · rw [Register.afterElsewhere here]
      cases call with
      | create owner _ | importPhrase owner _ _ =>
        have apart : ¬ owner = name := fun same => here (congrArg some same)
        simp [Taken.sealing?, apart]
      | _ => rfl

theorem Taken.sealingElsewhere {name : String} {taken : Taken} (elsewhere : taken.turn.call.name? ≠ some name) :
    taken.sealing? name = none := by
  obtain ⟨⟨number, draw, call⟩, reply⟩ := taken
  cases reply with
  | error fault => cases call <;> rfl
  | ok reply =>
    cases call with
    | create owner _ | importPhrase owner _ _ => exact if_neg fun same => elsewhere (congrArg some same)
    | _ => rfl

namespace Shared
variable {σ : Type} [WalletStore σ]

def copy? (shared : Shared σ) (name : String) (number : Nat) : Option Wallet := (shared.loaded number)[name]?

omit [WalletStore σ] in
theorem copySession (shared : Shared σ) (name : String) (number : Nat) :
    shared.copy? name number = (shared.session number).loaded[name]? := rfl

def put (shared : Shared σ) (turn : Turn) (reply : Except SessionFault Reply) (next : Session σ) : Shared σ :=
  ⟨next.store, fun number => if number = turn.session then next.loaded else shared.loaded number,
    shared.log ++ [⟨turn, reply⟩]⟩

theorem takePut {shared : Shared σ} {turn : Turn} {reply : Except SessionFault Reply} {next : Session σ}
    (stepped : (shared.session turn.session).step turn.draw turn.call = (reply, next)) :
    shared.take turn = shared.put turn reply next := by
  rw [take, stepped]
  rfl

section Copies
variable {shared : Shared σ} {turn : Turn} {reply : Except SessionFault Reply} {next : Session σ} {name : String}

omit [WalletStore σ] in
theorem putKept (kept : ∀ copy, next.loaded[name]? = some copy → shared.copy? name turn.session = some copy)
    (number : Nat) (copy : Wallet) (found : (shared.put turn reply next).copy? name number = some copy) :
    shared.copy? name number = some copy := by
  unfold copy? put at found
  dsimp only at found
  split at found
  · rename_i here
    rw [here]
    exact kept copy found
  · exact found

omit [WalletStore σ] in
theorem putLoaded {wallet : Wallet} (loaded : next.loaded = (shared.loaded turn.session).insert name wallet)
    (number : Nat) (copy : Wallet) (found : (shared.put turn reply next).copy? name number = some copy) :
    shared.copy? name number = some copy ∨ copy = wallet := by
  unfold copy? put at found
  dsimp only at found
  split at found
  · rw [loaded, Std.ExtTreeMap.getElem?_insert_self] at found
    exact Or.inr (Option.some.inj found).symm
  · exact Or.inl found

end Copies

variable [RecordStore σ]

inductive Course (name : String) (shared : Shared σ) (taken : Taken) (next : Shared σ) : Prop where
  | kept (quiet : taken.sealing? name = none)
      (record : RecordStore.record? next.store name = RecordStore.record? shared.store name)
      (copies : ∀ number copy, next.copy? name number = some copy → shared.copy? name number = some copy)
  | entered {passphrase : String} {bytes : Bytes} {wallet : Wallet} (quiet : taken.sealing? name = none)
      (opens : taken.turn.call.opens? = some (name, passphrase))
      (stored : RecordStore.record? shared.store name = some bytes)
      (opened : Sealed.wallet bytes name passphrase = .ok wallet)
      (record : RecordStore.record? next.store name = RecordStore.record? shared.store name)
      (copies : ∀ number copy, next.copy? name number = some copy →
        shared.copy? name number = some copy ∨ copy = wallet)
  | founded {passphrase : String} {node : Node} {nonce : Block 12} (sealed : taken.sealing? name = some passphrase)
      (absent : RecordStore.record? shared.store name = none) (founds : taken.turn.Founds name node)
      (record : RecordStore.record? next.store name =
        some (Sealed.ofWallet ⟨name, .derived node, .empty⟩ passphrase nonce))
      (copies : ∀ number copy, next.copy? name number = some copy →
        shared.copy? name number = some copy ∨ copy = ⟨name, .derived node, .empty⟩)
  | edited {passphrase : String} {bytes : Bytes} {wallet changed : Wallet} {nonce : Block 12}
      (quiet : taken.sealing? name = none) (opens : taken.turn.call.opens? = some (name, passphrase))
      (stored : RecordStore.record? shared.store name = some bytes)
      (opened : Sealed.wallet bytes name passphrase = .ok wallet) (moved : wallet.Moved changed)
      (same : changed.name = name)
      (record : RecordStore.record? next.store name = some (Sealed.ofWallet changed passphrase nonce))
      (copies : ∀ number copy, next.copy? name number = some copy →
        shared.copy? name number = some copy ∨ copy = changed)

theorem editCourse {shared : Shared σ} {name passphrase : String} {turn : Turn} {reply : Reply} {next : Session σ}
    {change : Wallet → Except WalletFault (Wallet × Reply)} (quiet : Taken.sealing? name ⟨turn, .ok reply⟩ = none)
    (opens : turn.call.opens? = some (name, passphrase))
    (moves : ∀ wallet changed answer, change wallet = .ok (changed, answer) → wallet.Moved changed)
    (faithful : (Shape.edit name passphrase change).Faithful)
    (effect : (shared.session turn.session).Effect turn.draw.nonce (.edit name passphrase change) (.ok reply, next)) :
    Course name shared ⟨turn, .ok reply⟩ (shared.put turn (.ok reply) next) := by
  cases effect with
  | @edited _ _ _ wallet changed _ store opened done saved =>
    have same := (faithful _ _ _ done).trans (Session.loadStoredName opened)
    obtain ⟨bytes, stored, opened⟩ := Session.loadStoredSource opened
    have record := (RecordStore.saved saved).2 name
    rw [if_pos same] at record
    exact .edited quiet opens stored opened (moves _ _ _ done) same record (putLoaded rfl)

theorem enrollCourse {shared : Shared σ} {name passphrase : String} {turn : Turn} {reply : Reply} {next : Session σ}
    {made : Except WalletFault (Wallet × Reply)} (sealed : Taken.sealing? name ⟨turn, .ok reply⟩ = some passphrase)
    (founds : ∀ wallet answer, made = .ok (wallet, answer) →
      ∃ node, wallet = ⟨name, .derived node, .empty⟩ ∧ turn.Founds name node)
    (effect : (shared.session turn.session).Effect turn.draw.nonce (.enroll name passphrase made) (.ok reply, next)) :
    Course name shared ⟨turn, .ok reply⟩ (shared.put turn (.ok reply) next) := by
  cases effect with
  | enrolled free done saved =>
    obtain ⟨node, rfl, founded⟩ := founds _ _ done
    have record := (RecordStore.saved saved).2 name
    rw [if_pos rfl] at record
    exact .founded sealed (Session.unusedAbsent free).2 founded record (putLoaded rfl)

theorem askCourse {shared : Shared σ} {name : String} {taken : Taken} {next : Session σ}
    (quiet : taken.sealing? name = none)
    (record : RecordStore.record? next.store name = RecordStore.record? shared.store name)
    (loaded : next.loaded[name]? = (shared.loaded taken.turn.session)[name]?) :
    Course name shared taken (shared.put taken.turn taken.reply next) :=
  .kept quiet record (putKept fun _ found => loaded.symm.trans found)

theorem succeededCourse {shared : Shared σ} {name : String} {turn : Turn} {reply : Reply} {next : Session σ}
    (here : turn.call.name? = some name)
    (effect : (shared.session turn.session).Effect turn.draw.nonce (.ofCall turn.draw turn.call) (.ok reply, next)) :
    Course name shared ⟨turn, .ok reply⟩ (shared.put turn (.ok reply) next) := by
  have faithful := Shape.ofCallFaithful turn.draw turn.call
  obtain ⟨number, draw, call⟩ := turn
  cases call with
  | create owner passphrase =>
    cases here
    refine enrollCourse (if_pos rfl) (fun wallet answer made => ?_) effect
    obtain ⟨node, _, _, shape, founded⟩ := Turn.createFounds made
    exact ⟨node, shape, founded⟩
  | importPhrase owner passphrase phrase =>
    cases here
    refine enrollCourse (if_pos rfl) (fun wallet answer made => ?_) effect
    obtain ⟨node, _, shape, founded⟩ := Turn.importFounds made
    exact ⟨node, shape, founded⟩
  | generate owner passphrase notes =>
    cases here
    refine editCourse rfl rfl (fun wallet changed answer done => ?_) faithful effect
    obtain ⟨⟨_, pair⟩, generated, same⟩ := mapOk.mp done
    cases same
    exact Wallet.generateMoved generated
  | taint owner key passphrase =>
    cases here
    exact editCourse rfl rfl (Wallet.movedAlone fun _ _ => Wallet.taintMoved) faithful effect
  | untaint owner key passphrase =>
    cases here
    exact editCourse rfl rfl (Wallet.movedAlone fun _ _ => Wallet.untaintMoved) faithful effect
  | annotate owner key passphrase notes =>
    cases here
    exact editCourse rfl rfl (Wallet.movedAlone fun _ _ => Wallet.annotateMoved) faithful effect
  | login owner passphrase =>
    cases here
    cases effect with
    | entered opened =>
      obtain ⟨bytes, stored, opened⟩ := Session.loadStoredSource opened
      exact .entered rfl rfl stored opened rfl (putLoaded rfl)
  | logout owner =>
    cases here
    cases effect with
    | left =>
      refine .kept rfl rfl (putKept fun copy found => ?_)
      simp [Session.logout] at found
  | names => cases here
  | _ =>
    -- The other calls look at a loaded copy.
    cases effect with
    | asked => exact askCourse rfl rfl rfl

theorem takeCourse (name : String) (shared : Shared σ) (turn : Turn) :
    Course name shared ⟨turn, ((shared.session turn.session).step turn.draw turn.call).1⟩ (shared.take turn) := by
  have effect := (shared.session turn.session).stepEffect turn.draw turn.call
  cases stepped : (shared.session turn.session).step turn.draw turn.call with
  | mk reply next =>
    rw [stepped] at effect
    rw [takePut stepped]
    by_cases here : turn.call.name? = some name
    · cases reply with
      | error fault =>
        have quiet : Taken.sealing? name ⟨turn, .error fault⟩ = none := by
          obtain ⟨number, draw, call⟩ := turn
          cases call <;> rfl
        exact askCourse quiet (effect.failedRecords name) (congrArg (·[name]?) effect.failedLoaded)
      | ok reply => exact succeededCourse here effect
    · have elsewhere : (Shape.ofCall turn.draw turn.call).name? ≠ some name := by rwa [Shape.ofCallName]
      exact askCourse (Taken.sealingElsewhere here) (effect.recordFrame (Shape.ofCallFaithful _ _) elsewhere)
        (effect.loadedFrame elsewhere)

end Shared

end WalletVault
