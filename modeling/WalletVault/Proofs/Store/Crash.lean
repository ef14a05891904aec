import Mathlib.Logic.Relation
import WalletVault.Proofs.Store.Folder

/-! Saves that a crash or a fault may stop at any step. A save is a list of steps on the folder; every state
that a run of them can reach is a state in which a crash may leave the folder. -/
namespace WalletVault

namespace Folder

structure Spares (name : Bytes) (before after : Folder) : Prop where
  others : ∀ other, other ≠ name → other ≠ temporaryName name → after.under? other = before.under? other
  temporary : after.under? (temporaryName name) = some .other → before.under? (temporaryName name) = some .other
  reach : after = before ∨ (before.isOpen ∧ after.isOpen)

theorem Spares.refl (name : Bytes) (folder : Folder) : Spares name folder folder :=
  ⟨fun _ _ _ => rfl, id, Or.inl rfl⟩

theorem Spares.run {name : Bytes} {before folder next : Folder} {step : FolderStep}
    (spares : Spares name before folder) (ran : step.run folder = .ok next)
    (others : ∀ other, other ≠ name → other ≠ temporaryName name → next.under? other = folder.under? other)
    (temporary : next.under? (temporaryName name) = some .other →
      folder.under? (temporaryName name) = some .other) : Spares name before next := by
  obtain ⟨opened, left⟩ := FolderStep.runOpen ran
  refine ⟨fun other differs apart => (others other differs apart).trans (spares.others other differs apart),
    fun taken => spares.temporary (temporary taken), Or.inr ?_⟩
  rcases spares.reach with rfl | ⟨start, _⟩
  · exact ⟨opened, left⟩
  · exact ⟨start, left⟩

end Folder

variable {ε : Type}

inductive Progress (ε : Type) where
  | writing (rest : List FolderStep)
  | cleaning (fault : ε)
  | returned (result : Except ε Unit)

/- A save in its folder. A crash leaves the folder of that moment. -/
structure Saving (ε : Type) where
  progress : Progress ε
  folder : Folder

namespace Saving
open Folder

/- What may happen next. A step is done as the file system does it, or fails for whatever reason. -/
inductive Next (name : Bytes) : Saving ε → Saving ε → Prop where
  | done {step : FolderStep} {rest : List FolderStep} {folder next : Folder} (ran : step.run folder = .ok next) :
      Next name ⟨.writing (step :: rest), folder⟩ ⟨.writing rest, next⟩
  | finished (folder : Folder) : Next name ⟨.writing [], folder⟩ ⟨.returned (.ok ()), folder⟩
  | unmade (rest : List FolderStep) (folder : Folder) (fault : ε) :
      Next name ⟨.writing (.makeFolder :: rest), folder⟩ ⟨.returned (.error fault), folder⟩
  | failed {step : FolderStep} (later : step ≠ .makeFolder) (rest : List FolderStep) (folder : Folder) (fault : ε) :
      Next name ⟨.writing (step :: rest), folder⟩ ⟨.cleaning fault, folder⟩
  | removed (folder : Folder) (fault : ε) :
      Next name ⟨.cleaning fault, folder⟩ ⟨.returned (.error fault), folder.discard (temporaryName name)⟩
  | leftBehind (folder : Folder) (fault : ε) :
      Next name ⟨.cleaning fault, folder⟩ ⟨.returned (.error fault), folder⟩

def Reaches (name : Bytes) (pieces : List Bytes) (folder : Folder) : Saving ε → Prop :=
  Relation.ReflTransGen (Next name) ⟨.writing (.makeFolder :: saveSteps name pieces), folder⟩

inductive Stage (name record : Bytes) (old : Option Entry) : Saving ε → Prop where
  | making {pieces : List Bytes} {folder : Folder} (whole : pieces.flatten = record)
      (kept : folder.under? name = old) :
      Stage name record old ⟨.writing (.makeFolder :: saveSteps name pieces), folder⟩
  | opening {pieces : List Bytes} {folder : Folder} (whole : pieces.flatten = record)
      (kept : folder.under? name = old) :
      Stage name record old ⟨.writing (saveSteps name pieces), folder⟩
  | filling {written : Bytes} {pieces : List Bytes} {rest : List FolderStep} {folder : Folder}
      (begun : folder.under? (temporaryName name) = some (.file written))
      (whole : written ++ pieces.flatten = record) (kept : folder.under? name = old)
      (course : closing name pieces = rest) : Stage name record old ⟨.writing rest, folder⟩
  | ready {folder : Folder} (written : folder.under? (temporaryName name) = some (.file record))
      (kept : folder.under? name = old) :
      Stage name record old ⟨.writing [.rename (temporaryName name) name], folder⟩
  | renamed {folder : Folder} (saved : folder.under? name = some (.file record))
      (short : name.length ≤ maxEntryName) : Stage name record old ⟨.writing [], folder⟩
  | cleaning {fault : ε} {folder : Folder} (kept : folder.under? name = old) :
      Stage name record old ⟨.cleaning fault, folder⟩
  | refused {fault : ε} {folder : Folder} (kept : folder.under? name = old) :
      Stage name record old ⟨.returned (.error fault), folder⟩
  | accepted {folder : Folder} (saved : folder.under? name = some (.file record))
      (short : name.length ≤ maxEntryName) : Stage name record old ⟨.returned (.ok ()), folder⟩

theorem discardRun (folder : Folder) (name : Bytes) :
    folder.discard name = folder ∨ (FolderStep.remove name).run folder = .ok (folder.discard name) := by
  unfold Folder.discard
  cases ran : (FolderStep.remove name).run folder with
  | error fault => exact Or.inl rfl
  | ok next => exact Or.inr rfl

theorem discardSpares {name : Bytes} {before folder : Folder} (spares : Spares name before folder) :
    Spares name before (folder.discard (temporaryName name)) := by
  rcases discardRun folder (temporaryName name) with same | ran
  · rw [same]
    exact spares
  · have entry := FolderStep.removeRun ran
    refine spares.run ran (fun other _ apart => ?_) fun taken => ?_
    · rw [entry, if_neg apart.symm]
    · rw [entry, if_pos rfl] at taken
      cases taken

theorem discardKeeps (folder : Folder) (name : Bytes) :
    (folder.discard (temporaryName name)).under? name = folder.under? name := by
  rcases discardRun folder (temporaryName name) with same | ran
  · rw [same]
  · rw [FolderStep.removeRun ran, if_neg (temporaryDiffers name)]

theorem stageFailed {name record : Bytes} {old : Option Entry} {step : FolderStep} {rest : List FolderStep}
    {folder : Folder} (stage : Stage name record old (⟨.writing (step :: rest), folder⟩ : Saving ε)) :
    folder.under? name = old := by
  cases stage with
  | making whole kept => exact kept
  | opening whole kept => exact kept
  | filling begun whole kept course => exact kept
  | ready written kept => exact kept

theorem stageDone {name record : Bytes} {old : Option Entry} {before folder next : Folder} {step : FolderStep}
    {rest : List FolderStep} (stage : Stage name record old (⟨.writing (step :: rest), folder⟩ : Saving ε))
    (spares : Spares name before folder) (ran : step.run folder = .ok next) :
    Stage name record old (⟨.writing rest, next⟩ : Saving ε) ∧ Spares name before next := by
  have differs := temporaryDiffers name
  cases stage with
  | making whole kept =>
    have entry := FolderStep.makeFolderRun ran
    refine ⟨.opening whole (by rw [entry, kept]), spares.run ran (fun other _ _ => entry other) ?_⟩
    rw [entry]
    exact id
  | opening whole kept =>
    obtain ⟨_, _, entry⟩ := FolderStep.truncateRun ran
    refine ⟨.filling (entry _ |>.trans (if_pos rfl)) whole ?_ rfl, spares.run ran (fun other _ apart => ?_) ?_⟩
    · rw [entry, if_neg differs, kept]
    · rw [entry, if_neg apart.symm]
    · rw [entry, if_pos rfl]
      nofun
  | @filling written pieces _ _ begun whole kept course =>
    cases pieces with
    | nil =>
      cases course
      cases FolderStep.flushRun ran
      rw [List.flatten_nil, List.append_nil] at whole
      exact ⟨.ready (whole ▸ begun) kept, spares⟩
    | cons piece pieces =>
      cases course
      obtain ⟨contents, found, entry⟩ := FolderStep.appendRun ran
      cases begun.symm.trans found
      rw [List.flatten_cons, ← List.append_assoc] at whole
      refine ⟨.filling (entry _ |>.trans (if_pos rfl)) whole ?_ rfl, spares.run ran (fun other _ apart => ?_) ?_⟩
      · rw [entry, if_neg differs, kept]
      · rw [entry, if_neg apart.symm]
      · rw [entry, if_pos rfl]
        nofun
  | ready written kept =>
    obtain ⟨short, _, contents, found, entry⟩ := FolderStep.renameRun ran
    cases written.symm.trans found
    refine ⟨.renamed (entry _ |>.trans (if_pos rfl)) short, spares.run ran (fun other apart aside => ?_) ?_⟩
    · rw [entry, if_neg apart.symm, if_neg aside.symm]
    · rw [entry, if_neg differs.symm, if_pos rfl]
      nofun

theorem stageNext {name record : Bytes} {old : Option Entry} {before : Folder} {saving next : Saving ε}
    (stage : Stage name record old saving) (spares : Spares name before saving.folder)
    (step : Next name saving next) : Stage name record old next ∧ Spares name before next.folder := by
  cases step with
  | done ran => exact stageDone stage spares ran
  | finished folder =>
    cases stage with
    | renamed saved short => exact ⟨.accepted saved short, spares⟩
    | @filling written pieces _ _ begun whole kept course =>
      have lengths := congrArg List.length course
      simp [closing] at lengths
  | unmade rest folder fault => exact ⟨.refused (stageFailed stage), spares⟩
  | failed later rest folder fault => exact ⟨.cleaning (stageFailed stage), spares⟩
  | removed folder fault =>
    cases stage with
    | cleaning kept =>
      exact ⟨.refused ((discardKeeps folder name).trans kept), discardSpares spares⟩
  | leftBehind folder fault =>
    cases stage with
    | cleaning kept => exact ⟨.refused kept, spares⟩

theorem reachesStage {name : Bytes} {pieces : List Bytes} {folder : Folder} {saving : Saving ε}
    (reaches : Reaches name pieces folder saving) :
    Stage name pieces.flatten (folder.under? name) saving ∧ Spares name folder saving.folder := by
  induction reaches with
  | refl => exact ⟨.making rfl rfl, Spares.refl name folder⟩
  | tail _ step ih => exact stageNext ih.1 ih.2 step

/-! What the store's own save does, and what a save can do where nothing fails. -/

theorem runAllDone (name : Bytes) {steps : List FolderStep} {folder next : Folder}
    (ran : FolderStep.runAll steps folder = (.ok (), next)) :
    Relation.ReflTransGen (Next name) (⟨.writing steps, folder⟩ : Saving ε) ⟨.writing [], next⟩ := by
  induction steps generalizing folder with
  | nil =>
    cases ran
    exact .refl
  | cons step rest ih =>
    unfold FolderStep.runAll at ran
    cases first : step.run folder with
    | error fault => simp [first] at ran
    | ok middle =>
      rw [first] at ran
      exact .head (.done first) (ih ran)

theorem runAllFailed (name : Bytes) {steps : List FolderStep} {folder next : Folder} {fault : FileFault}
    (later : ∀ step ∈ steps, step ≠ .makeFolder) (ran : FolderStep.runAll steps folder = (.error fault, next)) :
    Relation.ReflTransGen (Next name) ⟨.writing steps, folder⟩ ⟨.cleaning fault, next⟩ := by
  induction steps generalizing folder with
  | nil => cases ran
  | cons step rest ih =>
    unfold FolderStep.runAll at ran
    cases first : step.run folder with
    | error reason =>
      rw [first] at ran
      cases ran
      exact .single (.failed (later step (by simp)) rest _ fault)
    | ok middle =>
      rw [first] at ran
      exact .head (.done first) (ih (fun step member => later step (List.mem_cons_of_mem _ member)) ran)

theorem putReaches (folder : Folder) (name record : Bytes) :
    Reaches name [record] folder ⟨.returned (folder.put name record).1, (folder.put name record).2⟩ := by
  have later : ∀ step ∈ saveSteps name [record], step ≠ .makeFolder := by simp [saveSteps]
  cases made : FolderStep.makeFolder.run folder with
  | error fault =>
    have put : folder.put name record = (.error fault, folder) := by simp only [Folder.put, made]
    rw [put]
    exact .single (.unmade _ folder fault)
  | ok there =>
    refine .head (.done made) ?_
    cases ran : FolderStep.runAll (saveSteps name [record]) there with
    | mk result next =>
      cases result with
      | ok =>
        have put : folder.put name record = (.ok (), next) := by simp only [Folder.put, made, ran]
        rw [put]
        exact .tail (runAllDone name ran) (.finished next)
      | error fault =>
        have put : folder.put name record = (.error fault, next.discard (temporaryName name)) := by
          simp only [Folder.put, made, ran]
        rw [put]
        exact .tail (runAllFailed name later ran) (.removed next fault)

end Saving

namespace Folder

theorem Spares.accepts {name record : Bytes} {before after : Folder} (spares : Spares name before after)
    (whole : after.under? name = before.under? name ∨ after.under? name = some (.file record))
    (accepts : before.Accepts name) : after.Accepts name := by
  refine ⟨?_, accepts.short, ?_, fun taken => accepts.temporary (spares.temporary taken)⟩
  · rcases spares.reach with same | ⟨_, left⟩
    · rw [same]
      exact accepts.reach
    · exact left
  · rcases whole with same | saved
    · rw [same]
      exact accepts.free
    · rw [saved]
      nofun

theorem stepsWrite {folder next : Folder} {name : Bytes} {pieces : List Bytes}
    (ran : FolderStep.runAll (.makeFolder :: saveSteps name pieces) folder = (.ok (), next)) :
    next.under? name = some (.file pieces.flatten) := by
  have reaches : Saving.Reaches name pieces folder (⟨.returned (.ok ()), next⟩ : Saving FileFault) :=
    .tail (Saving.runAllDone name ran) (.finished next)
  cases (Saving.reachesStage reaches).1 with
  | accepted saved short => exact saved

theorem saveExact (folder : Folder) {wallet : Wallet} (valid : isWalletName wallet.name = true)
    (passphrase : String) (nonce : Block 12) :
    (folder.save wallet passphrase nonce).1 = .ok () ↔ folder.Accepts (Utf8.encode wallet.name) := by
  constructor
  · intro done
    exact (putSource ((saveOk valid).mp (Prod.ext done rfl))).accepted
  · intro accepts
    obtain ⟨next, put⟩ := putAccepted accepts (Sealed.ofWallet wallet passphrase nonce)
    rw [(saveOk valid).mpr put]

theorem acceptedSaves {folder : Folder} {wallet : Wallet} (valid : isWalletName wallet.name = true)
    (accepts : folder.Accepts (Utf8.encode wallet.name)) (passphrase : String) (nonce : Block 12) :
    ∃ next, folder.save wallet passphrase nonce = (.ok (), next) ∧
      next.under? (Utf8.encode wallet.name) = some (.file (Sealed.ofWallet wallet passphrase nonce)) := by
  obtain ⟨next, put⟩ := putAccepted accepts (Sealed.ofWallet wallet passphrase nonce)
  exact ⟨next, (saveOk valid).mpr put, ((putSource put).files _).trans (if_pos rfl)⟩

end Folder

namespace Saving
open Folder

structure Consistent (name : String) (record : Bytes) (before : Folder) (saving : Saving ε) : Prop where
  /-- Under the name are the old bytes, or nothing if there was nothing, or the whole record. -/
  whole : saving.folder.under? (Utf8.encode name) = before.under? (Utf8.encode name) ∨
    saving.folder.under? (Utf8.encode name) = some (.file record)
  others : ∀ other, isWalletName other = true → other ≠ name →
    saving.folder.under? (Utf8.encode other) = before.under? (Utf8.encode other)
  listed : saving.folder.names.map (·.filter (· ≠ name)) = before.names.map (·.filter (· ≠ name))
  refused : ∀ fault, saving.progress = .returned (.error fault) →
    saving.folder.under? (Utf8.encode name) = before.under? (Utf8.encode name)
  accepted : saving.progress = .returned (.ok ()) →
    saving.folder.under? (Utf8.encode name) = some (.file record)
  /-- What was left is in no way of a later save: where the file system had no reason to refuse a save of the
  name before, the store's save is accepted and leaves its whole record. -/
  again : before.Accepts (Utf8.encode name) → ∀ (later : Wallet) (passphrase : String) (nonce : Block 12),
    later.name = name → ∃ next, saving.folder.save later passphrase nonce = (.ok (), next) ∧
      next.under? (Utf8.encode name) = some (.file (Sealed.ofWallet later passphrase nonce))
  /-- The same in pieces: no step fails. -/
  possible : before.Accepts (Utf8.encode name) → ∀ pieces,
    ∃ next, FolderStep.runAll (.makeFolder :: saveSteps (Utf8.encode name) pieces) saving.folder = (.ok (), next)
  /-- A later save in pieces that no step of fails leaves its whole record. -/
  written : ∀ pieces next,
    FolderStep.runAll (.makeFolder :: saveSteps (Utf8.encode name) pieces) saving.folder = (.ok (), next) →
      next.under? (Utf8.encode name) = some (.file pieces.flatten)

theorem stageWhole {name record : Bytes} {old : Option Entry} {saving : Saving ε}
    (stage : Stage name record old saving) :
    saving.folder.under? name = old ∨ saving.folder.under? name = some (.file record) := by
  cases stage with
  | making whole kept => exact Or.inl kept
  | opening whole kept => exact Or.inl kept
  | filling begun whole kept course => exact Or.inl kept
  | ready written kept => exact Or.inl kept
  | renamed saved short => exact Or.inr saved
  | cleaning kept => exact Or.inl kept
  | refused kept => exact Or.inl kept
  | accepted saved short => exact Or.inr saved

theorem reachesConsistent {name : String} (valid : isWalletName name = true) {pieces : List Bytes}
    {folder : Folder} {saving : Saving ε} (reaches : Reaches (Utf8.encode name) pieces folder saving) :
    saving.Consistent name pieces.flatten folder := by
  obtain ⟨progress, left⟩ := saving
  obtain ⟨stage, spares⟩ := reachesStage reaches
  have whole := stageWhole stage
  have others : ∀ other, isWalletName other = true → other ≠ name →
      left.under? (Utf8.encode other) = folder.under? (Utf8.encode other) := fun other valid differs =>
    spares.others _ (fun same => differs (Utf8.encodeInjective same)) (temporaryApart valid name)
  refine ⟨whole, others, namesApart spares.reach others, ?_, ?_, ?_, ?_, fun _ _ => stepsWrite⟩
  · rintro fault rfl
    cases stage with
    | refused kept => exact kept
  · rintro rfl
    cases stage with
    | accepted saved short => exact saved
  · rintro accepts later passphrase nonce rfl
    exact acceptedSaves valid (spares.accepts whole accepts) passphrase nonce
  · exact fun accepts => acceptsRuns (spares.accepts whole accepts)

end Saving

namespace Folder

/-- The save of a store in a folder is one run of the steps of a save, and it is accepted exactly where the file
system has no reason of its own to refuse it. Wherever a run is stopped, by a crash or by a fault, the folder is
consistent: a record is old or new, never in between, and the next save of it is accepted. -/
theorem saveAtomic (folder : Folder) {wallet : Wallet} (valid : isWalletName wallet.name = true)
    (passphrase : String) (nonce : Block 12) :
    (∃ result, (folder.save wallet passphrase nonce).1 = result.mapError .inputOutput ∧
      Saving.Reaches (Utf8.encode wallet.name) [Sealed.ofWallet wallet passphrase nonce] folder
        ⟨.returned result, (folder.save wallet passphrase nonce).2⟩) ∧
    ((folder.save wallet passphrase nonce).1 = .ok () ↔ folder.Accepts (Utf8.encode wallet.name)) ∧
    ∀ (pieces : List Bytes) (saving : Saving ε), pieces.flatten = Sealed.ofWallet wallet passphrase nonce →
      Saving.Reaches (Utf8.encode wallet.name) pieces folder saving →
        saving.Consistent wallet.name (Sealed.ofWallet wallet passphrase nonce) folder := by
  refine ⟨?_, saveExact folder valid passphrase nonce, ?_⟩
  · rw [saveValid folder valid]
    exact ⟨_, rfl, Saving.putReaches folder _ _⟩
  · intro pieces saving whole reaches
    rw [← whole]
    exact Saving.reachesConsistent valid reaches

def littered : Entries :=
  ((∅ : Entries).insert (Utf8.encode "savings") (.file [1, 2, 3])).insert
    (temporaryName (Utf8.encode "savings")) (.file [9])

theorem litteredAccepts : (present littered).Accepts (Utf8.encode "savings") where
  reach := rfl
  short := by decide
  free := by
    rw [underPresent, littered, Std.ExtTreeMap.getElem?_insert,
      if_neg (by simpa using temporaryDiffers (Utf8.encode "savings")), Std.ExtTreeMap.getElem?_insert_self]
    nofun
  temporary := by simp [underPresent, littered]

def sampleRecord : Bytes := Sealed.ofWallet (.newLegacy "savings") "open sesame" ⟨List.replicate 12 1, rfl⟩

theorem tornConsistent : isWalletName (Wallet.newLegacy "savings").name = true ∧
    [sampleRecord.take 5, sampleRecord.drop 5].flatten = sampleRecord ∧
    ∃ stopped : Saving FileFault,
      Saving.Reaches (Utf8.encode "savings") [sampleRecord.take 5, sampleRecord.drop 5] (.present littered) stopped ∧
      stopped.folder.under? (temporaryName (Utf8.encode "savings")) = some (.file (sampleRecord.take 5)) ∧
      stopped.Consistent "savings" sampleRecord (.present littered) ∧
      ∃ next, stopped.folder.save (.newLegacy "savings") "open sesam" ⟨List.replicate 12 2, rfl⟩ = (.ok (), next) ∧
        next.under? (Utf8.encode "savings") =
          some (.file (Sealed.ofWallet (.newLegacy "savings") "open sesam" ⟨List.replicate 12 2, rfl⟩)) := by
  have valid : isWalletName (Wallet.newLegacy "savings").name = true := by decide
  have whole : [sampleRecord.take 5, sampleRecord.drop 5].flatten = sampleRecord := by simp
  have opened := FolderStep.truncatePossible litteredAccepts.short litteredAccepts.temporary
  have begun : (littered.insert (temporaryName (Utf8.encode "savings")) (.file []))[
      temporaryName (Utf8.encode "savings")]? = some (.file []) := Std.ExtTreeMap.getElem?_insert_self
  have grown := FolderStep.appendPossible begun (sampleRecord.take 5)
  have reaches : Saving.Reaches (Utf8.encode "savings") [sampleRecord.take 5, sampleRecord.drop 5]
      (.present littered) (⟨.writing (closing (Utf8.encode "savings") [sampleRecord.drop 5]), _⟩ : Saving FileFault) :=
    .head (.done rfl) (.head (.done opened) (.single (.done grown)))
  have consistent := (saveAtomic (.present littered) valid "open sesame" _).2.2 _ _ whole reaches
  exact ⟨valid, whole, _, reaches, Std.ExtTreeMap.getElem?_insert_self, consistent,
    consistent.again litteredAccepts (.newLegacy "savings") "open sesam" _ rfl⟩

end Folder

end WalletVault
