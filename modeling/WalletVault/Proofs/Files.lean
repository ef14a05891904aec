import Std.Data.ExtTreeMap
import WalletVault.Files
import WalletVault.Proofs.Fallible

/-! Folders that stand. The entries of a folder are what stands one name further, and other entries change no other
place. A path that leads to a folder leads there as long as no folder is taken away, and making that folder changes
nothing. -/
namespace WalletVault
open Fallible

/-! A map filled from another one, whose keys are given other names on the way. -/

namespace Renamed
variable {κ ν α : Type} [Ord ν] [Std.TransOrd ν] [Std.LawfulEqOrd ν] {rename : κ → Option ν} {name : ν} {key : κ}

def fill (rename : κ → Option ν) (found : Std.ExtTreeMap ν α) (key : κ) (value : α) : Std.ExtTreeMap ν α :=
  match rename key with
  | some name => found.insert name value
  | none => found

theorem fillElsewhere {entries : List (κ × α)} {found : Std.ExtTreeMap ν α}
    (apart : ∀ entry ∈ entries, rename entry.1 ≠ some name) :
    (entries.foldl (fun found entry => fill rename found entry.1 entry.2) found)[name]? = found[name]? := by
  induction entries generalizing found with
  | nil => rfl
  | cons entry entries ih =>
    obtain ⟨here, later⟩ := List.forall_mem_cons.mp apart
    rw [List.foldl_cons, ih later, fill]
    split
    · rename_i other named
      have differs : other ≠ name := fun same => here (same ▸ named)
      rw [Std.ExtTreeMap.getElem?_insert, if_neg (by simpa using differs)]
    · rfl

theorem fillThere {entries : List (κ × α)} {found : Std.ExtTreeMap ν α} {value : α}
    (only : ∀ entry ∈ entries, rename entry.1 = some name → entry.2 = value)
    (there : (∃ entry ∈ entries, rename entry.1 = some name) ∨ found[name]? = some value) :
    (entries.foldl (fun found entry => fill rename found entry.1 entry.2) found)[name]? = some value := by
  induction entries generalizing found with
  | nil => simpa using there
  | cons entry entries ih =>
    obtain ⟨here, later⟩ := List.forall_mem_cons.mp only
    rw [List.foldl_cons]
    apply ih later
    by_cases named : rename entry.1 = some name
    · right
      simp only [fill, named, Std.ExtTreeMap.getElem?_insert_self, here named]
    · rcases there with ⟨other, member, found⟩ | before
      · rcases List.mem_cons.mp member with rfl | member
        · exact absurd found named
        · exact .inl ⟨other, member, found⟩
      · right
        rw [← before, fill]
        split
        · rename_i other same
          have differs : other ≠ name := fun equal => named (equal ▸ same)
          rw [Std.ExtTreeMap.getElem?_insert, if_neg (by simpa using differs)]
        · rfl

variable [Ord κ] [Std.TransOrd κ] [Std.LawfulEqOrd κ]

theorem filled (source : Std.ExtTreeMap κ α) (found : Std.ExtTreeMap ν α)
    (only : ∀ other, rename other = some name ↔ other = key) :
    (source.foldl (fill rename) found)[name]? = source[key]?.or found[name]? := by
  rw [Std.ExtTreeMap.foldl_eq_foldl_toList]
  cases stood : source[key]? with
  | none =>
    apply fillElsewhere
    rintro ⟨other, value⟩ member named
    rw [(only other).mp named, Std.ExtTreeMap.mem_toList_iff_getElem?_eq_some, stood] at member
    cases member
  | some value =>
    apply fillThere
    · rintro ⟨other, found⟩ member named
      rw [(only other).mp named, Std.ExtTreeMap.mem_toList_iff_getElem?_eq_some, stood] at member
      exact (Option.some.inj member).symm
    · exact .inl ⟨(key, value), Std.ExtTreeMap.mem_toList_iff_getElem?_eq_some.mpr stood, (only key).mpr rfl⟩

omit [Std.LawfulEqOrd κ] in
theorem unfilled (source : Std.ExtTreeMap κ α) (found : Std.ExtTreeMap ν α)
    (apart : ∀ other, rename other ≠ some name) :
    (source.foldl (fill rename) found)[name]? = found[name]? := by
  rw [Std.ExtTreeMap.foldl_eq_foldl_toList]
  exact fillElsewhere fun entry _ => apart entry.1

end Renamed

namespace FileTree
variable {tree next : FileTree} {folder place : Place} {name text : Bytes} {pieces : List Piece}

theorem nameInOk : nameIn? folder place = some name ↔ place = folder ++ [name] := by
  unfold nameIn?
  constructor
  · intro inside
    split at inside
    · rename_i last outwards split
      split at inside <;> cases inside
      rename_i same
      rw [← same, ← List.reverse_cons, ← split, List.reverse_reverse]
    · cases inside
  · rintro rfl
    simp

theorem entryIn (tree : FileTree) (folder : Place) (name : Bytes) :
    (tree.entriesIn folder)[name]? = tree.entries[folder ++ [name]]? := by
  have filled : tree.entriesIn folder = tree.entries.foldl (Renamed.fill (nameIn? folder)) ∅ := by
    unfold entriesIn
    congr
    funext found place entry
    unfold Renamed.fill
    cases nameIn? folder place <;> rfl
  rw [filled, Renamed.filled tree.entries ∅ fun _ => nameInOk]
  simp

theorem entryWith (tree : FileTree) (folder : Place) (entries : Entries) (name : Bytes) :
    (tree.withEntries folder entries).entries[folder ++ [name]]? =
      entries[name]?.or (tree.entries[folder ++ [name]]?.filter (· = .other)) := by
  have only (other : Bytes) : some (folder ++ [other]) = some (folder ++ [name]) ↔ other = name := by simp
  have inside : nameIn? folder (folder ++ [name]) = some name := nameInOk.mpr rfl
  refine (Renamed.filled entries _ only).trans ?_
  simp [inside]

theorem entryApart (tree : FileTree) {folder place : Place} (entries : Entries)
    (apart : nameIn? folder place = none) :
    (tree.withEntries folder entries).entries[place]? = tree.entries[place]? := by
  have never (other : Bytes) : some (folder ++ [other]) ≠ some place := by
    intro same
    rw [nameInOk.mpr (Option.some.inj same).symm] at apart
    cases apart
  refine (Renamed.unfilled entries _ never).trans ?_
  cases stood : tree.entries[place]? <;> simp [apart, stood]

theorem lookUpOk {entry : Option Entry} : tree.lookUp folder name = .ok entry ↔
    name.length ≤ maxEntryName ∧ tree.entries[folder ++ [name]]? = entry := by
  unfold lookUp
  split
  · rename_i long
    simp [Nat.not_le.mpr long]
  · rename_i short
    simp [Nat.not_lt.mp short]

theorem enterName {inner : Place} : tree.enter folder (.name name) = .ok inner ↔
    tree.lookUp folder name = .ok (some .other) ∧ inner = folder ++ [name] := by
  simp only [enter]
  split
  · rename_i looked
    simp [looked]
  · rename_i looked
    simp [looked]
  · rename_i looked
    simp [looked]
  · rename_i looked
    simp [looked, eq_comm]

theorem followFolder {piece : Piece} : tree.follow folder (piece :: pieces) = .ok (place, some .other) ↔
    ∃ inner, tree.enter folder piece = .ok inner ∧ tree.follow inner pieces = .ok (place, some .other) := by
  rw [follow.eq_def]
  split
  · rename_i absurd
    cases absurd
  · rename_i name last
    cases last
    rw [mapOk]
    constructor
    · rintro ⟨entry, looked, same⟩
      cases same
      exact ⟨_, enterName.mpr ⟨looked, rfl⟩, rfl⟩
    · rintro ⟨inner, entered, ends⟩
      obtain ⟨looked, rfl⟩ := enterName.mp entered
      cases ends
      exact ⟨_, looked, rfl⟩
  · rename_i first rest _ same
    cases same
    exact bindOk

def Keeps (tree next : FileTree) : Prop :=
  ∀ folder name, tree.lookUp folder name = .ok (some .other) → next.lookUp folder name = .ok (some .other)

theorem enterKept (keeps : tree.Keeps next) {piece : Piece} {inner : Place}
    (entered : tree.enter folder piece = .ok inner) : next.enter folder piece = .ok inner := by
  cases piece with
  | name name =>
    obtain ⟨looked, rfl⟩ := enterName.mp entered
    exact enterName.mpr ⟨keeps _ _ looked, rfl⟩
  | _ => exact entered

theorem followKept (keeps : tree.Keeps next) (leads : tree.follow folder pieces = .ok (place, some .other)) :
    next.follow folder pieces = .ok (place, some .other) := by
  induction pieces generalizing folder with
  | nil => exact leads
  | cons piece pieces ih =>
    obtain ⟨inner, entered, later⟩ := followFolder.mp leads
    exact followFolder.mpr ⟨inner, enterKept keeps entered, ih later⟩

theorem alongStanding (leads : tree.follow folder pieces = .ok (place, some .other)) :
    tree.makeAlong folder pieces = (.ok (), tree) := by
  induction pieces generalizing folder with
  | nil => rfl
  | cons piece pieces ih =>
    obtain ⟨inner, entered, later⟩ := followFolder.mp leads
    cases piece with
    | name name =>
      obtain ⟨looked, rfl⟩ := enterName.mp entered
      simp only [makeAlong, looked, ih later]
    | _ =>
      cases entered
      exact ih later

theorem folderAtOk : tree.folderAt text = .ok place ↔
    ∃ path, Path.ofText text = .ok path ∧ tree.follow path.start path.pieces = .ok (place, some .other) := by
  constructor
  · intro leads
    obtain ⟨⟨found, entry⟩, located, leads⟩ := bindOk.mp leads
    obtain ⟨path, read, followed⟩ := bindOk.mp located
    split at leads <;> cases leads
    rename_i same
    cases same
    exact ⟨path, read, followed⟩
  · rintro ⟨path, read, followed⟩
    exact bindOk.mpr ⟨_, bindOk.mpr ⟨path, read, followed⟩, rfl⟩

theorem folderAtKept (keeps : tree.Keeps next) (leads : tree.folderAt text = .ok place) :
    next.folderAt text = .ok place := by
  obtain ⟨path, read, followed⟩ := folderAtOk.mp leads
  exact folderAtOk.mpr ⟨path, read, followKept keeps followed⟩

theorem makeStanding (leads : tree.folderAt text = .ok place) : tree.makeFolder text = (.ok (), tree) := by
  obtain ⟨path, read, followed⟩ := folderAtOk.mp leads
  simp only [makeFolder, read, followed, alongStanding followed]

theorem withEntriesKeeps {entries : Entries}
    (kept : ∀ name : Bytes, (tree.entriesIn folder)[name]? = some .other → entries[name]? = some .other) :
    tree.Keeps (tree.withEntries folder entries) := by
  intro other file looked
  obtain ⟨short, stood⟩ := lookUpOk.mp looked
  refine lookUpOk.mpr ⟨short, ?_⟩
  cases inside : nameIn? folder (other ++ [file]) with
  | none => rw [entryApart tree entries inside, stood]
  | some name =>
    rw [nameInOk.mp inside] at stood ⊢
    rw [← entryIn] at stood
    rw [entryWith, kept name stood]
    rfl

theorem entriesWith {entries : Entries}
    (kept : ∀ name : Bytes, (tree.entriesIn folder)[name]? = some .other → entries[name]? = some .other) :
    (tree.withEntries folder entries).entriesIn folder = entries := by
  apply Std.ExtTreeMap.ext_getElem?
  intro name
  rw [entryIn, entryWith]
  cases found : entries[name]? with
  | some entry => rfl
  | none =>
    rw [Option.none_or, Option.filter_eq_none_iff]
    intro entry stood folder
    rw [of_decide_eq_true folder, ← entryIn] at stood
    rw [kept name stood] at found
    cases found

end FileTree

end WalletVault
