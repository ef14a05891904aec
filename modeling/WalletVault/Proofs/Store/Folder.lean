import WalletVault.Proofs.Fallible
import WalletVault.Proofs.Text.Utf8
import WalletVault.Proofs.Text.Order
import WalletVault.Store.Folder

/-! A folder of sealed records as what stands under each file name: what every single step changes there,
which file names are records, and how they are listed. -/
namespace WalletVault
open Fallible

namespace Folder

def under? (folder : Folder) (name : Bytes) : Option Entry := folder.entries?.bind fun entries => entries[name]?

theorem underPresent (entries : Entries) (name : Bytes) : (present entries).under? name = entries[name]? := rfl

def isOpen : Folder → Bool
  | blocked _ _ => false
  | _ => true

end Folder

namespace FolderStep
variable {folder next : Folder}

theorem makeFolderRun (ran : makeFolder.run folder = .ok next) (other : Bytes) :
    next.under? other = folder.under? other := by
  cases folder with
  | absent => cases ran; simp [Folder.under?, Folder.entries?]
  | blocked reading making => cases ran
  | present entries => cases ran; rfl

theorem runSource {step : FolderStep} (ran : step.run folder = .ok next) (later : step ≠ makeFolder) :
    ∃ entries after, folder = .present entries ∧ next = .present after ∧ runInside entries step = .ok after := by
  cases folder with
  | absent => simp [run, later] at ran
  | blocked reading making => simp [run] at ran
  | present entries =>
    obtain ⟨after, inside, rfl⟩ := mapOk.mp ran
    exact ⟨entries, after, rfl, rfl, inside⟩

theorem requireFileOk {entries : Entries} {name contents : Bytes} :
    requireFile entries name = .ok contents ↔ entries[name]? = some (.file contents) := by
  unfold requireFile
  split
  · rename_i found
    simp [found, eq_comm]
  · rename_i found
    simp [found]
  · rename_i found
    simp [found]

theorem requirePlaceOk {entries : Entries} {name : Bytes} :
    requirePlace entries name = .ok () ↔ name.length ≤ maxEntryName ∧ entries[name]? ≠ some .other := by
  unfold requirePlace
  split
  · rename_i long
    simp [Nat.not_le.mpr long]
  · rename_i short
    split
    · rename_i folder
      simp [folder]
    · rename_i free
      simp [free, Nat.not_lt.mp short]

theorem truncateRun {name : Bytes} (ran : (truncate name).run folder = .ok next) :
    name.length ≤ maxEntryName ∧ folder.under? name ≠ some .other ∧
      ∀ other, next.under? other = if name = other then some (.file []) else folder.under? other := by
  obtain ⟨entries, after, rfl, rfl, inside⟩ := runSource ran nofun
  obtain ⟨_, place, rfl⟩ := mapOk.mp inside
  obtain ⟨short, free⟩ := requirePlaceOk.mp place
  refine ⟨short, free, fun other => ?_⟩
  simp only [Folder.underPresent, Std.ExtTreeMap.getElem?_insert, Std.compare_eq_iff_eq]

theorem appendRun {name piece : Bytes} (ran : (append name piece).run folder = .ok next) :
    ∃ contents, folder.under? name = some (.file contents) ∧
      ∀ other, next.under? other = if name = other then some (.file (contents ++ piece)) else folder.under? other := by
  obtain ⟨entries, after, rfl, rfl, inside⟩ := runSource ran nofun
  obtain ⟨contents, found, rfl⟩ := mapOk.mp inside
  refine ⟨contents, requireFileOk.mp found, fun other => ?_⟩
  simp only [Folder.underPresent, Std.ExtTreeMap.getElem?_insert, Std.compare_eq_iff_eq]

theorem truncatePossible {entries : Entries} {name : Bytes} (short : name.length ≤ maxEntryName)
    (free : entries[name]? ≠ some .other) :
    (truncate name).run (.present entries) = .ok (.present (entries.insert name (.file []))) := by
  simp only [run, runInside, requirePlaceOk.mpr ⟨short, free⟩, Except.map]

theorem appendPossible {entries : Entries} {name contents : Bytes}
    (found : entries[name]? = some (.file contents)) (piece : Bytes) :
    (append name piece).run (.present entries) =
      .ok (.present (entries.insert name (.file (contents ++ piece)))) := by
  simp only [run, runInside, requireFileOk.mpr found, Except.map]

theorem flushRun {name : Bytes} (ran : (flush name).run folder = .ok next) : next = folder := by
  obtain ⟨entries, after, rfl, rfl, inside⟩ := runSource ran nofun
  obtain ⟨_, _, rfl⟩ := mapOk.mp inside
  rfl

theorem renameRun {source target : Bytes} (ran : (rename source target).run folder = .ok next) :
    target.length ≤ maxEntryName ∧ folder.under? target ≠ some .other ∧
      ∃ contents, folder.under? source = some (.file contents) ∧
        ∀ other, next.under? other = if target = other then some (.file contents)
          else if source = other then none else folder.under? other := by
  obtain ⟨entries, after, rfl, rfl, inside⟩ := runSource ran nofun
  obtain ⟨contents, found, inside⟩ := bindOk.mp inside
  obtain ⟨_, place, inside⟩ := bindOk.mp inside
  cases pureOk.mp inside
  obtain ⟨short, free⟩ := requirePlaceOk.mp place
  refine ⟨short, free, contents, requireFileOk.mp found, fun other => ?_⟩
  simp only [Folder.underPresent, Std.ExtTreeMap.getElem?_insert, Std.ExtTreeMap.getElem?_erase,
    Std.compare_eq_iff_eq]

theorem removeRun {name : Bytes} (ran : (remove name).run folder = .ok next) (other : Bytes) :
    next.under? other = if name = other then none else folder.under? other := by
  obtain ⟨entries, after, rfl, rfl, inside⟩ := runSource ran nofun
  obtain ⟨_, _, rfl⟩ := mapOk.mp inside
  simp only [Folder.underPresent, Std.ExtTreeMap.getElem?_erase, Std.compare_eq_iff_eq]

theorem runOpen {step : FolderStep} (ran : step.run folder = .ok next) :
    folder.isOpen ∧ next.isOpen := by
  by_cases first : step = makeFolder
  · subst first
    cases folder with
    | absent => cases ran; exact ⟨rfl, rfl⟩
    | blocked reading making => cases ran
    | present entries => cases ran; exact ⟨rfl, rfl⟩
  · obtain ⟨entries, after, rfl, rfl, _⟩ := runSource ran first
    exact ⟨rfl, rfl⟩

end FolderStep

namespace Folder

theorem readOk {folder : Folder} {name contents : Bytes} :
    folder.read name = .ok contents ↔
      name.length ≤ maxEntryName ∧ folder.under? name = some (.file contents) := by
  cases folder with
  | absent => simp [read, under?, entries?]
  | blocked reading making => simp [read, under?, entries?]
  | present entries =>
    rw [read, underPresent, ← FolderStep.requireFileOk]
    split
    · rename_i long
      simp [Nat.not_le.mpr long]
    · rename_i short
      simp [Nat.not_lt.mp short]

/-! File names. The file that a save writes first has the name of no wallet. -/

theorem temporaryDiffers (name : Bytes) : temporaryName name ≠ name := by
  intro same
  have lengths := congrArg List.length same
  simp only [temporaryName, List.cons_append, List.length_cons, List.length_append] at lengths
  omega

theorem temporaryText (name : String) :
    temporaryName (Utf8.encode name) = Utf8.encode ("." ++ name ++ ".tmp") := by
  have dot : Utf8.encode "." = [46] := rfl
  rw [Utf8.encodeAppend, Utf8.encodeAppend, dot]
  rfl

theorem temporaryApart {name : String} (valid : isWalletName name = true) (other : String) :
    Utf8.encode name ≠ temporaryName (Utf8.encode other) := by
  intro same
  rw [temporaryText] at same
  rw [Utf8.encodeInjective same] at valid
  simp [isWalletName, String.toList_append] at valid

theorem recordNameOk {entry : Bytes × Entry} {name : String} :
    recordName? entry = some name ↔
      isWalletName name = true ∧ ∃ contents, entry = (Utf8.encode name, .file contents) := by
  obtain ⟨file, there⟩ := entry
  cases there with
  | other => simp [recordName?]
  | file contents =>
    simp only [recordName?, Option.filter_eq_some_iff, Prod.mk.injEq]
    constructor
    · rintro ⟨read, valid⟩
      exact ⟨valid, contents, (Utf8.encodeDecoded read).symm, rfl⟩
    · rintro ⟨valid, _, rfl, _⟩
      exact ⟨Utf8.decodeEncoded name, valid⟩

def listing (entries : Entries) : List String := entries.toList.filterMap recordName?

theorem memberListing {entries : Entries} {name : String} :
    name ∈ listing entries ↔
      isWalletName name = true ∧ ∃ contents, entries[Utf8.encode name]? = some (.file contents) := by
  simp only [listing, List.mem_filterMap, recordNameOk]
  constructor
  · rintro ⟨entry, member, valid, contents, rfl⟩
    exact ⟨valid, contents, Std.ExtTreeMap.mem_toList_iff_getElem?_eq_some.mp member⟩
  · rintro ⟨valid, contents, found⟩
    exact ⟨_, Std.ExtTreeMap.mem_toList_iff_getElem?_eq_some.mpr found, valid, contents, rfl⟩

theorem listingAscends (entries : Entries) :
    (listing entries).Pairwise fun first second => compare (Utf8.encode first) (Utf8.encode second) = .lt := by
  rw [listing, List.pairwise_filterMap]
  refine Std.ExtTreeMap.ordered_keys_toList.imp fun {first second} below name read other later => ?_
  obtain ⟨_, _, rfl⟩ := recordNameOk.mp read
  obtain ⟨_, _, rfl⟩ := recordNameOk.mp later
  exact below

theorem ascendingSame {left right : List String}
    (first : left.Pairwise fun a b => compare (Utf8.encode a) (Utf8.encode b) = .lt)
    (second : right.Pairwise fun a b => compare (Utf8.encode a) (Utf8.encode b) = .lt)
    (same : ∀ name, name ∈ left ↔ name ∈ right) : left = right := by
  have distinct {a b : String} (below : compare (Utf8.encode a) (Utf8.encode b) = .lt) : a ≠ b := by
    rintro rfl
    simp at below
  have members := (List.perm_ext_iff_of_nodup (first.imp distinct) (second.imp distinct)).mpr same
  refine members.eq_of_pairwise ?_ first second
  intro a b _ _ below above
  rw [Std.OrientedCmp.gt_iff_lt.mpr above] at below
  cases below

theorem listed {folder : Folder} (reach : folder.isOpen) : ∃ entries : Entries,
    folder.names = .ok (listing entries) ∧ ∀ file, entries[file]? = folder.under? file := by
  cases folder with
  | absent => exact ⟨∅, by simp [names, listing], fun _ => by simp [under?, entries?]⟩
  | blocked reading making => cases reach
  | present entries => exact ⟨entries, rfl, fun _ => rfl⟩

theorem namesApart {before after : Folder} {name : String}
    (reach : after = before ∨ (before.isOpen ∧ after.isOpen))
    (others : ∀ other, isWalletName other = true → other ≠ name →
      after.under? (Utf8.encode other) = before.under? (Utf8.encode other)) :
    after.names.map (·.filter (· ≠ name)) = before.names.map (·.filter (· ≠ name)) := by
  rcases reach with rfl | ⟨start, left⟩
  · rfl
  · obtain ⟨old, oldNames, oldEntry⟩ := listed start
    obtain ⟨new, newNames, newEntry⟩ := listed left
    rw [oldNames, newNames]
    refine congrArg Except.ok (ascendingSame ((listingAscends new).filter _) ((listingAscends old).filter _) ?_)
    intro other
    simp only [List.mem_filter, memberListing, decide_eq_true_eq]
    refine and_congr_left fun differs => and_congr_right fun valid => ?_
    rw [newEntry, oldEntry, others other valid differs]

/-! A save of a name: what it needs of the folder, and what it leaves where no step of it fails. -/

/- The file system has no reason of its own to refuse a save of a name. -/
structure Accepts (folder : Folder) (name : Bytes) : Prop where
  reach : folder.isOpen
  short : (temporaryName name).length ≤ maxEntryName
  free : folder.under? name ≠ some .other
  temporary : folder.under? (temporaryName name) ≠ some .other

theorem runAllCons {step : FolderStep} {rest : List FolderStep} {folder next : Folder} :
    FolderStep.runAll (step :: rest) folder = (.ok (), next) ↔
      ∃ middle, step.run folder = .ok middle ∧ FolderStep.runAll rest middle = (.ok (), next) := by
  rw [FolderStep.runAll]
  cases step.run folder with
  | error fault => simp
  | ok middle => simp

theorem temporaryLonger (name : Bytes) : name.length ≤ (temporaryName name).length := by
  simp only [temporaryName, List.length_append, List.length_cons]
  omega

def closing (name : Bytes) (pieces : List Bytes) : List FolderStep :=
  pieces.map (.append (temporaryName name)) ++
    [.flush (temporaryName name), .rename (temporaryName name) name]

theorem closingRuns {name : Bytes} (short : (temporaryName name).length ≤ maxEntryName) (pieces : List Bytes)
    (entries : Entries) (written : Bytes) (begun : entries[temporaryName name]? = some (.file written))
    (free : entries[name]? ≠ some .other) :
    ∃ next, FolderStep.runAll (closing name pieces) (.present entries) = (.ok (), next) := by
  have differs := temporaryDiffers name
  have fits := Nat.le_trans (temporaryLonger name) short
  induction pieces generalizing entries written with
  | nil =>
    have found := FolderStep.requireFileOk.mpr begun
    have place := FolderStep.requirePlaceOk.mpr ⟨fits, free⟩
    refine ⟨.present ((entries.erase (temporaryName name)).insert name (.file written)), ?_⟩
    simp only [closing, List.map_nil, List.nil_append, FolderStep.runAll, FolderStep.run, FolderStep.runInside,
      found, place, Except.map, bind, Except.bind, pure, Except.pure]
  | cons piece pieces ih =>
    have grown := FolderStep.appendPossible begun piece
    obtain ⟨next, rest⟩ := ih _ (written ++ piece) Std.ExtTreeMap.getElem?_insert_self
      (by simpa [Std.ExtTreeMap.getElem?_insert, differs] using free)
    exact ⟨next, runAllCons.mpr ⟨_, grown, rest⟩⟩

theorem acceptsRuns {folder : Folder} {name : Bytes} (accepts : folder.Accepts name) (pieces : List Bytes) :
    ∃ next, FolderStep.runAll (.makeFolder :: saveSteps name pieces) folder = (.ok (), next) := by
  obtain ⟨entries, made⟩ : ∃ entries, FolderStep.makeFolder.run folder = .ok (.present entries) := by
    cases folder with
    | absent => exact ⟨∅, rfl⟩
    | blocked reading making => cases accepts.reach
    | present entries => exact ⟨entries, rfl⟩
  have entry : ∀ other, entries[other]? = folder.under? other := FolderStep.makeFolderRun made
  have opened := FolderStep.truncatePossible accepts.short ((entry _).trans_ne accepts.temporary)
  have free : (entries.insert (temporaryName name) (.file []))[name]? ≠ some .other := by
    simpa [Std.ExtTreeMap.getElem?_insert, temporaryDiffers, entry] using accepts.free
  obtain ⟨next, rest⟩ := closingRuns accepts.short pieces _ [] Std.ExtTreeMap.getElem?_insert_self free
  exact ⟨next, runAllCons.mpr ⟨_, made, runAllCons.mpr ⟨_, opened, rest⟩⟩⟩

theorem putOk {folder next : Folder} {name record : Bytes} : folder.put name record = (.ok (), next) ↔
    FolderStep.runAll (.makeFolder :: saveSteps name [record]) folder = (.ok (), next) := by
  rw [runAllCons, put]
  cases made : FolderStep.makeFolder.run folder with
  | error fault => simp
  | ok there =>
    cases ran : FolderStep.runAll (saveSteps name [record]) there with
    | mk result left =>
      cases result with
      | error fault => simp [ran]
      | ok => simp [ran]

theorem putAccepted {folder : Folder} {name : Bytes} (accepts : folder.Accepts name) (record : Bytes) :
    ∃ next, folder.put name record = (.ok (), next) := by
  obtain ⟨next, run⟩ := acceptsRuns accepts [record]
  exact ⟨next, putOk.mpr run⟩

structure Saved (name record : Bytes) (folder next : Folder) : Prop where
  accepted : folder.Accepts name
  reach : next.isOpen
  files : ∀ other, next.under? other =
    if name = other then some (.file record)
    else if temporaryName name = other then none else folder.under? other

theorem putSource {folder next : Folder} {name record : Bytes} (done : folder.put name record = (.ok (), next)) :
    Saved name record folder next := by
  obtain ⟨there, made, run⟩ := runAllCons.mp (putOk.mp done)
  obtain ⟨opened, truncated, run⟩ := runAllCons.mp run
  obtain ⟨filled, appended, run⟩ := runAllCons.mp run
  obtain ⟨flushed, stable, run⟩ := runAllCons.mp run
  obtain ⟨left, renamed, run⟩ := runAllCons.mp run
  cases run
  cases FolderStep.flushRun stable
  have madeAt := FolderStep.makeFolderRun made
  obtain ⟨short, temporary, openedAt⟩ := FolderStep.truncateRun truncated
  obtain ⟨contents, begun, filledAt⟩ := FolderStep.appendRun appended
  obtain ⟨_, free, whole, written, nextAt⟩ := FolderStep.renameRun renamed
  cases begun.symm.trans ((openedAt _).trans (if_pos rfl))
  cases written.symm.trans ((filledAt _).trans (if_pos rfl))
  have differs := temporaryDiffers name
  rw [filledAt, if_neg differs, openedAt, if_neg differs, madeAt] at free
  rw [madeAt] at temporary
  refine ⟨⟨(FolderStep.runOpen made).1, short, free, temporary⟩, (FolderStep.runOpen renamed).2, fun other => ?_⟩
  rw [nextAt, List.nil_append]
  split
  · rfl
  · split
    · rfl
    · rename_i apart
      rw [filledAt, if_neg apart, openedAt, if_neg apart, madeAt]

theorem saveValid (folder : Folder) {wallet : Wallet} (valid : isWalletName wallet.name = true)
    (passphrase : String) (nonce : Block 12) : folder.save wallet passphrase nonce =
      ((folder.put (Utf8.encode wallet.name) (Sealed.ofWallet wallet passphrase nonce)).1.mapError .inputOutput,
        (folder.put (Utf8.encode wallet.name) (Sealed.ofWallet wallet passphrase nonce)).2) := by
  simp only [save, requireName, if_pos valid]

theorem saveOk {folder next : Folder} {wallet : Wallet} (valid : isWalletName wallet.name = true)
    {passphrase : String} {nonce : Block 12} : folder.save wallet passphrase nonce = (.ok (), next) ↔
      folder.put (Utf8.encode wallet.name) (Sealed.ofWallet wallet passphrase nonce) = (.ok (), next) := by
  rw [saveValid folder valid, Prod.mk.injEq, mapErrorOk, Prod.ext_iff]

end Folder

end WalletVault
