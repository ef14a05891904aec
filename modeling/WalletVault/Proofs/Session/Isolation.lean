import WalletVault.Proofs.Session.Failure
import WalletVault.Proofs.Session.Refinement

/-! Wallets of different names do not touch one another, whatever the records are. A save files a wallet under
the name inside of it, so everything rests on that name being the one that was asked for. -/
namespace WalletVault
open Fallible

def Shape.Faithful : Shape → Prop
  | enroll name _ made => ∀ wallet answer, made = .ok (wallet, answer) → wallet.name = name
  | edit _ _ change => ∀ wallet next answer, change wallet = .ok (next, answer) → next.name = wallet.name
  | _ => True

namespace Wallet
variable {wallet next : Wallet}

theorem withRingName {ring : Except WalletFault KeyRing} (changed : wallet.withRing ring = .ok next) :
    next.name = wallet.name := by
  obtain ⟨_, _, rfl⟩ := mapOk.mp changed
  rfl

theorem untaintName {key : String} (cleared : wallet.untaint key = .ok next) : next.name = wallet.name := by
  unfold untaint at cleared
  split at cleared
  · exact withRingName cleared
  · cases cleared

end Wallet

theorem Shape.ofCallFaithful (draw : Draw) (call : Call) : (ofCall draw call).Faithful := by
  have alone {change : Wallet → Except WalletFault Wallet}
      (keeps : ∀ wallet next, change wallet = .ok next → next.name = wallet.name) (wallet next : Wallet)
      (answer : Reply) (done : (change wallet).map (·, Reply.done) = .ok (next, answer)) :
      next.name = wallet.name := by
    obtain ⟨_, changed, same⟩ := mapOk.mp done
    cases same
    exact keeps wallet _ changed
  cases call with
  | create name passphrase =>
    intro wallet answer made
    obtain ⟨⟨_, phrase⟩, created, same⟩ := mapOk.mp made
    cases same
    exact Wallet.importPhraseName (Wallet.createSource created)
  | importPhrase name passphrase phrase =>
    intro wallet answer made
    obtain ⟨_, imported, same⟩ := mapOk.mp made
    cases same
    exact Wallet.importPhraseName imported
  | generate name passphrase notes =>
    intro wallet next answer made
    obtain ⟨⟨_, pair⟩, generated, same⟩ := mapOk.mp made
    cases same
    obtain ⟨_, _, _, rfl⟩ := Wallet.generateSource generated
    rfl
  | taint name key passphrase => exact alone fun _ _ => Wallet.withRingName
  | untaint name key passphrase => exact alone fun _ _ => Wallet.untaintName
  | annotate name key passphrase notes => exact alone fun _ _ => Wallet.withRingName
  | _ => trivial

theorem Call.namesNoOther {call : Call} {name other : String} (named : call.name? = some name)
    (differs : other ≠ name) : call.name? ≠ some other :=
  fun same => differs (Option.some.inj (same.symm.trans named))

namespace Session
variable {σ : Type} [WalletStore σ] {nonce : Block 12} {shape : Shape} {name other : String}

theorem loadStoredSource [RecordStore σ] {session : Session σ} {passphrase : String} {wallet : Wallet}
    (opened : session.loadStored name passphrase = .ok wallet) :
    ∃ record, RecordStore.record? session.store name = some record ∧
      Sealed.wallet record name passphrase = .ok wallet := by
  obtain ⟨record, _, stored, opened⟩ := RecordStore.loadSource (loadStoredOk.mp opened)
  exact ⟨record, stored, opened⟩

theorem loadStoredName [RecordStore σ] {session : Session σ} {passphrase : String} {wallet : Wallet}
    (opened : session.loadStored name passphrase = .ok wallet) : wallet.name = name := by
  obtain ⟨_, _, opened⟩ := loadStoredSource opened
  exact Sealed.walletName opened

theorem Effect.recordFrame [RecordStore σ] {session next : Session σ} {reply : Except SessionFault Reply}
    (effect : Effect session nonce shape (reply, next)) (faithful : shape.Faithful)
    (differs : shape.name? ≠ some other) :
    RecordStore.record? next.store other = RecordStore.record? session.store other := by
  cases effect with
  | refused | asked | listed | entered | left => rfl
  | unsaved saving failed => exact RecordStore.unsaved failed other
  | enrolled free done saved =>
    have apart : ¬ _ = other := fun same => differs (congrArg some ((faithful _ _ done).symm.trans same))
    exact ((RecordStore.saved saved).2 other).trans (if_neg apart)
  | edited opened done saved =>
    have named := (faithful _ _ _ done).trans (loadStoredName opened)
    have apart : ¬ _ = other := fun same => differs (congrArg some (named.symm.trans same))
    exact ((RecordStore.saved saved).2 other).trans (if_neg apart)

theorem Effect.loadedFrame {session next : Session σ} {reply : Except SessionFault Reply}
    (effect : Effect session nonce shape (reply, next)) (differs : shape.name? ≠ some other) :
    next.loaded[other]? = session.loaded[other]? := by
  have apart {here : String} (named : shape.name? = some here) : ¬ here = other := fun same => differs (same ▸ named)
  cases effect with
  | refused | asked | listed | unsaved => rfl
  | enrolled => exact (TextMap.lookupInsert _ _ other _).trans (if_neg (apart rfl))
  | edited => exact (TextMap.lookupInsert _ _ other _).trans (if_neg (apart rfl))
  | entered => exact (TextMap.lookupInsert _ _ other _).trans (if_neg (apart rfl))
  | left => exact (TextMap.lookupErase _ _ other).trans (if_neg (apart rfl))

end Session

@[ext] structure Slot where
  record : Option Bytes
  loaded : Option Wallet

namespace Session
variable {session twin next : Session MemoryStore} {nonce : Block 12} {shape : Shape} {name : String}

def slot (session : Session MemoryStore) (name : String) : Slot :=
  ⟨session.store.record? name, session.loaded[name]?⟩

theorem slotsSame (slots : ∀ name, twin.slot name = session.slot name)
    (saves : twin.store.saves = session.store.saves) : twin = session := by
  obtain ⟨⟨records, count⟩, loaded⟩ := session
  obtain ⟨⟨otherRecords, otherCount⟩, otherLoaded⟩ := twin
  have sameRecords : otherRecords = records :=
    Std.ExtTreeMap.ext_getElem? fun {name} => congrArg Slot.record (slots name)
  have sameLoaded : otherLoaded = loaded :=
    Std.ExtTreeMap.ext_getElem? fun {name} => congrArg Slot.loaded (slots name)
  cases saves
  rw [sameRecords, sameLoaded]

def Named (session : Session MemoryStore) : Prop :=
  ∀ (name : String) (wallet : Wallet), session.loaded[name]? = some wallet → wallet.name = name

theorem insertNamed {store : MemoryStore} {wallet : Wallet} (named : session.Named) (same : wallet.name = name) :
    Named ⟨store, session.loaded.insert name wallet⟩ := by
  intro other found loaded
  rw [TextMap.lookupInsert] at loaded
  split at loaded
  · rename_i here
    cases loaded
    exact same.trans here
  · exact named other found loaded

theorem Effect.named {reply : Except SessionFault Reply} (effect : Effect session nonce shape (reply, next))
    (faithful : shape.Faithful) (named : session.Named) : next.Named := by
  cases effect with
  | refused | asked | listed | unsaved => exact named
  | enrolled free done saved => exact insertNamed named (faithful _ _ done)
  | edited opened done saved => exact insertNamed named ((faithful _ _ _ done).trans (loadStoredName opened))
  | entered opened => exact insertNamed named (loadStoredName opened)
  | left name =>
    intro other found loaded
    rw [logout, TextMap.lookupErase] at loaded
    split at loaded
    · cases loaded
    · exact named other found loaded

structure Twins {α : Type} (name : String) (left right : Except SessionFault α × Session MemoryStore) : Prop where
  answer : left.1 = right.1
  slot : left.2.slot name = right.2.slot name

theorem Twins.map {α β : Type} {left right : Except SessionFault α × Session MemoryStore}
    (twins : Twins name left right) (f : α → β) : Twins name (left.1.map f, left.2) (right.1.map f, right.2) :=
  ⟨congrArg (Except.map f) twins.answer, twins.slot⟩

section Twin
variable (same : twin.slot name = session.slot name)
include same

theorem twinRecord : twin.store.record? name = session.store.record? name := congrArg Slot.record same

theorem twinLoaded : twin.loaded[name]? = session.loaded[name]? := congrArg Slot.loaded same

theorem twinUnused : twin.requireUnused name = session.requireUnused name := by
  have contains : WalletStore.contains twin.store name = WalletStore.contains session.store name := by
    simp only [WalletStore.contains, MemoryStore.contains, twinRecord same]
  simp only [requireUnused, contains]

theorem twinStored (passphrase : String) : twin.loadStored name passphrase = session.loadStored name passphrase := by
  have load : WalletStore.load twin.store name passphrase = WalletStore.load session.store name passphrase := by
    simp only [WalletStore.load, MemoryStore.load, twinRecord same]
  simp only [loadStored, load]

theorem twinActive : twin.isLoggedIn name = session.isLoggedIn name := by
  simp only [isLoggedIn, Std.ExtTreeMap.contains_eq_isSome_getElem?, twinLoaded same]

theorem twinKeep (wallet : Wallet) (passphrase : String) (nonce : Block 12) :
    Twins name (twin.keep name wallet passphrase nonce) (session.keep name wallet passphrase nonce) := by
  -- The wallet may bear another name: a save that goes astray goes astray in both sessions.
  by_cases valid : isWalletName wallet.name = true
  · have saved (store : MemoryStore) : WalletStore.save store wallet passphrase nonce = _ :=
      MemoryStore.saveValid valid passphrase nonce
    simp only [keep, saved]
    refine ⟨rfl, Slot.ext ?_ ?_⟩
    · simp only [slot, MemoryStore.record?, TextMap.lookupInsert]
      exact congrArg (ite _ _) (twinRecord same)
    · simp only [slot, TextMap.lookupInsert, if_true]
  · have refused (store : MemoryStore) :
        WalletStore.save store wallet passphrase nonce = (.error (.invalidName wallet.name), store) := by
      simp only [WalletStore.save, MemoryStore.save, requireName, if_neg valid]
    simp only [keep, refused]
    exact ⟨rfl, same⟩

theorem twinEnroll {α : Type} (passphrase : String) (nonce : Block 12) (made : Except WalletFault (Wallet × α)) :
    Twins name (twin.enroll name passphrase nonce made) (session.enroll name passphrase nonce made) := by
  simp only [enroll, twinUnused same]
  split
  · exact ⟨rfl, same⟩
  · split
    · exact ⟨rfl, same⟩
    · exact (twinKeep same _ passphrase nonce).map _

theorem twinLogin (passphrase : String) : Twins name (twin.login name passphrase) (session.login name passphrase) := by
  simp only [login, twinStored same]
  split
  · exact ⟨rfl, same⟩
  · have record := twinRecord same
    refine ⟨rfl, Slot.ext record ?_⟩
    simp only [slot, TextMap.lookupInsert, if_true]

theorem twinChange {α : Type} (passphrase : String) (nonce : Block 12)
    (change : Wallet → Except WalletFault (Wallet × α)) :
    Twins name (twin.change name passphrase nonce change) (session.change name passphrase nonce change) := by
  simp only [Session.change, twinActive same, twinStored same]
  split
  · split
    · exact ⟨rfl, same⟩
    · split
      · exact ⟨rfl, same⟩
      · exact (twinKeep same _ passphrase nonce).map _
  · exact ⟨rfl, same⟩

theorem performTwins (named : shape.name? = some name) (nonce : Block 12) :
    Twins name (twin.perform nonce shape) (session.perform nonce shape) := by
  cases shape with
  | enroll here passphrase made => cases named; exact twinEnroll same passphrase nonce made
  | enter here passphrase => cases named; exact (twinLogin same passphrase).map _
  | leave here =>
    cases named
    have record := twinRecord same
    refine ⟨rfl, Slot.ext record ?_⟩
    simp only [perform, logout, slot, TextMap.lookupErase, if_true]
  | ask here answer => cases named; exact ⟨congrArg answer (twinLoaded same), same⟩
  | list => cases named
  | edit here passphrase change => cases named; exact twinChange same passphrase nonce change

end Twin

variable {draw drawn : Draw} {call first second : Call} {other : String}

theorem stepFrame (differs : call.name? ≠ some other) :
    (session.step draw call).2.slot other = session.slot other := by
  have effect := session.stepEffect draw call
  have differs := Shape.ofCallName draw call ▸ differs
  exact Slot.ext (effect.recordFrame (Shape.ofCallFaithful draw call) differs) (effect.loadedFrame differs)

theorem stepTwins (same : twin.slot name = session.slot name) (named : call.name? = some name) :
    Twins name (twin.step draw call) (session.step draw call) := by
  rw [twin.stepShape, session.stepShape]
  exact performTwins same (Shape.ofCallName draw call ▸ named) draw.nonce

theorem stepNamed (named : session.Named) (draw : Draw) (call : Call) : (session.step draw call).2.Named :=
  (session.stepEffect draw call).named (Shape.ofCallFaithful draw call) named

theorem stepCounted (session : Session MemoryStore) (draw : Draw) (call : Call) :
    (session.step draw call).2.store.saves = session.store.saves +
      if (session.step draw call).1.isOk && call.saves then 1 else 0 := by
  cases stepped : session.step draw call with
  | mk reply next =>
    cases reply with
    | error fault => rw [stepFailed stepped]; rfl
    | ok reply => exact stepSaved stepped

theorem laterTwins (session : Session MemoryStore) (draw drawn : Draw) (named : second.name? = some other)
    (differs : first.name? ≠ some other) :
    Twins other ((session.step draw first).2.step drawn second) (session.step drawn second) :=
  stepTwins (stepFrame differs) named

theorem stepsCommute (firstNamed : first.name? = some name) (secondNamed : second.name? = some other)
    (differs : name ≠ other) : ((session.step draw first).2.step drawn second).2 =
      ((session.step drawn second).2.step draw first).2 := by
  have ahead := Call.namesNoOther firstNamed differs.symm
  have behind := Call.namesNoOther secondNamed differs
  have later := session.laterTwins draw drawn secondNamed ahead
  have earlier := session.laterTwins drawn draw firstNamed behind
  -- Each call leaves in its own slot what it would leave there alone, and no third slot is touched.
  apply slotsSame
  · intro third
    by_cases left : third = name
    · rw [left, earlier.slot, stepFrame behind]
    · by_cases right : third = other
      · rw [right, later.slot, stepFrame ahead]
      · have apart := Call.namesNoOther firstNamed left
        have away := Call.namesNoOther secondNamed right
        rw [stepFrame away, stepFrame apart, stepFrame apart, stepFrame away]
  · rw [stepCounted, stepCounted, stepCounted, stepCounted, later.answer, earlier.answer]
    omega

end Session

inductive Incident where
  | call (draw : Draw) (call : Call)
  | damage (name : String) (record : Bytes)

namespace Session

def meet (session : Session MemoryStore) : Incident → Session MemoryStore
  | .call draw call => (session.step draw call).2
  | .damage name record => { session with store := session.store.put name record }

def endure (session : Session MemoryStore) (incidents : List Incident) : Session MemoryStore :=
  incidents.foldl meet session

theorem meetNamed {session : Session MemoryStore} (named : session.Named) (incident : Incident) :
    (session.meet incident).Named := by
  cases incident with
  | call draw call => exact stepNamed named draw call
  | damage name record => exact named

theorem endureNamed {session : Session MemoryStore} (named : session.Named) (incidents : List Incident) :
    (session.endure incidents).Named := by
  induction incidents generalizing session with
  | nil => exact named
  | cons incident rest ih => exact ih (meetNamed named incident)

theorem startNamed (store : MemoryStore) : (start store).Named := by
  intro name wallet loaded
  simp [start] at loaded

end Session

/-- Sessions over any records, with any damage between the calls, keep wallets of different names apart. What
is loaded under a name bears the name. A call changes at most the slot of its own name, and its reply and
what it leaves there and counts depend on that slot alone. So two calls on different names may change places. -/
theorem walletsIsolated :
    (∀ (store : MemoryStore) (incidents : List Incident) (name : String) (wallet : Wallet),
      ((Session.start store).endure incidents).loaded[name]? = some wallet → wallet.name = name) ∧
    (∀ (session : Session MemoryStore) (draw : Draw) (call : Call) (name : String), call.name? = some name →
      (∀ other, other ≠ name → (session.step draw call).2.slot other = session.slot other) ∧
      ∀ twin : Session MemoryStore, twin.slot name = session.slot name →
        (twin.step draw call).1 = (session.step draw call).1 ∧
        (twin.step draw call).2.slot name = (session.step draw call).2.slot name ∧
        (twin.step draw call).2.store.saves - twin.store.saves =
          (session.step draw call).2.store.saves - session.store.saves) ∧
    ∀ (session : Session MemoryStore) (draw drawn : Draw) (first second : Call) (name other : String),
      first.name? = some name → second.name? = some other → name ≠ other →
        ((session.step draw first).2.step drawn second).1 = (session.step drawn second).1 ∧
        ((session.step drawn second).2.step draw first).1 = (session.step draw first).1 ∧
        ((session.step draw first).2.step drawn second).2 = ((session.step drawn second).2.step draw first).2 := by
  refine ⟨fun store incidents => Session.endureNamed (Session.startNamed store) incidents, ?_, ?_⟩
  · intro session draw call name named
    refine ⟨fun other differs => Session.stepFrame (Call.namesNoOther named differs), fun twin same => ?_⟩
    have twins : Session.Twins name (twin.step draw call) (session.step draw call) := Session.stepTwins same named
    refine ⟨twins.answer, twins.slot, ?_⟩
    rw [Session.stepCounted, Session.stepCounted, twins.answer, Nat.add_sub_cancel_left, Nat.add_sub_cancel_left]
  · intro session draw drawn first second name other firstNamed secondNamed differs
    have later := session.laterTwins draw drawn secondNamed (Call.namesNoOther firstNamed differs.symm)
    have earlier := session.laterTwins drawn draw firstNamed (Call.namesNoOther secondNamed differs)
    exact ⟨later.answer, earlier.answer, Session.stepsCommute firstNamed secondNamed differs⟩

def unharmed : Session MemoryStore := .start .empty

def travelImport : Call := .importPhrase "travel" "open sesame" Wallet.samplePhrase

theorem damageIsolated : (∃ wallet,
    (unharmed.endure [.damage "savings" [0], .call sampleDraw travelImport]).loaded["travel"]? = some wallet ∧
      wallet.name = "travel") ∧
    damaged.slot "travel" = unharmed.slot "travel" ∧
    (damaged.step sampleDraw travelImport).1 = (unharmed.step sampleDraw travelImport).1 ∧
    ((damaged.step sampleDraw travelImport).2.step sampleDraw (.login "savings" "open sesame")).2 =
      ((damaged.step sampleDraw (.login "savings" "open sesame")).2.step sampleDraw travelImport).2 := by
  obtain ⟨bears, frames, commutes⟩ := walletsIsolated
  obtain ⟨node, made⟩ := Wallet.samplePhraseOk "travel"
  have imports := Session.importsFree (by decide) damagedElsewhere made "open sesame" sampleDraw
  have loaded : (unharmed.endure [.damage "savings" [0], .call sampleDraw travelImport]).loaded["travel"]? =
      some ⟨"travel", .derived node, .empty⟩ := by
    have harmed : unharmed.meet (.damage "savings" [0]) = damaged := rfl
    rw [Session.endure, List.foldl, harmed, List.foldl, List.foldl, Session.meet, travelImport, imports]
    exact Std.ExtTreeMap.getElem?_insert_self
  have empty : unharmed.store.record? "travel" = none := Std.ExtTreeMap.getElem?_empty
  have same : damaged.slot "travel" = unharmed.slot "travel" := Slot.ext (damagedElsewhere.trans empty.symm) rfl
  have alike := (frames unharmed sampleDraw travelImport "travel" rfl).2 damaged same
  obtain ⟨_, _, commute⟩ := commutes damaged sampleDraw sampleDraw travelImport (.login "savings" "open sesame")
    "travel" "savings" rfl rfl (by decide)
  exact ⟨⟨_, loaded, bears _ _ _ _ loaded⟩, same, alike.1, commute⟩

end WalletVault
