import Std.Data.ExtTreeMap
import WalletVault.Bytes

/-! The files that a run of the program can meet. A path is followed piece by piece, and every piece but the last has
to lead to a folder that is there. Nothing is cancelled in the text of a path: two dots after a name lead back only if
the name leads to a folder, so a path can be followed only among the files themselves. -/
namespace WalletVault

inductive FileFault where
  | missing
  | alreadyThere
  | belowFile
  | isFolder
  | nameTooLong
  | nulInName
  | notText
  deriving DecidableEq, Repr

def FileFault.message : FileFault → String
  | missing => "No such file or directory (os error 2)"
  | alreadyThere => "File exists (os error 17)"
  | belowFile => "Not a directory (os error 20)"
  | isFolder => "Is a directory (os error 21)"
  | nameTooLong => "File name too long (os error 36)"
  | nulInName => "file name contained an unexpected NUL byte"
  | notText => "stream did not contain valid UTF-8"

inductive Piece where
  | blank
  | here
  | out
  | name (bytes : Bytes)
  deriving DecidableEq, Repr

namespace Piece

def ofBytes : Bytes → Piece
  | [] => blank
  | [46] => here
  | [46, 46] => out
  | bytes => name bytes

def stays (piece : Piece) : Bool := piece = blank || piece = here

end Piece

structure Path where
  fromTop : Bool
  pieces : List Piece
  deriving DecidableEq, Repr

namespace Path

def slash : UInt8 := 47

def maxText : Nat := 4095

def split : Bytes → List Bytes
  | [] => [[]]
  | b :: rest =>
    if b = slash then [] :: split rest
    else
      match split rest with
      | [] => [[b]]
      | part :: parts => (b :: part) :: parts

def ofText (text : Bytes) : Except FileFault Path :=
  if 0 ∈ text then .error .nulInName
  else if maxText < text.length then .error .nameTooLong
  else if text = [] then .error .missing
  else .ok ⟨text.head? = some slash, (split text).map Piece.ofBytes⟩

def join (folder rest : Bytes) : Bytes :=
  if rest.head? = some slash then rest
  else if folder = [] ∨ folder.getLast? = some slash then folder ++ rest
  else folder ++ slash :: rest

end Path

inductive Entry where
  | file (contents : Bytes)
  | other
  deriving DecidableEq

abbrev Entries := Std.ExtTreeMap Bytes Entry

def maxEntryName : Nat := 255

/-- Where an entry stands: the names on the way to it from the working directory. The folders around the
working directory begin with what no entry is named: two dots for each step out, or a slash for the top. -/
abbrev Place := List Bytes

namespace Place

def top : Place := [[Path.slash]]

def dots : Bytes := [46, 46]

def isGiven (place : Place) : Bool := place = top || place.all (· = dots)

def around (place : Place) : Place :=
  if place = top then top
  else if place.isGiven then place ++ [dots]
  else place.dropLast

def isInside (place : Place) : Bool := place.head? ≠ some [Path.slash] ∧ place.head? ≠ some dots

end Place

def Path.start (path : Path) : Place := if path.fromTop then Place.top else []

/-- All files and folders, by their places; a folder is an entry that is no file. -/
structure FileTree where
  entries : Std.ExtTreeMap Place Entry

namespace FileTree

def empty : FileTree := ⟨∅⟩

def lookUp (tree : FileTree) (folder : Place) (name : Bytes) : Except FileFault (Option Entry) :=
  if maxEntryName < name.length then .error .nameTooLong else .ok tree.entries[folder ++ [name]]?

def enter (tree : FileTree) (folder : Place) : Piece → Except FileFault Place
  | .blank | .here => .ok folder
  | .out => .ok folder.around
  | .name name =>
    match tree.lookUp folder name with
    | .error fault => .error fault
    | .ok none => .error .missing
    | .ok (some (.file _)) => .error .belowFile
    | .ok (some .other) => .ok (folder ++ [name])

def follow (tree : FileTree) (folder : Place) : List Piece → Except FileFault (Place × Option Entry)
  | [] => .ok (folder, some .other)
  | [.name name] => (tree.lookUp folder name).map fun entry => (folder ++ [name], entry)
  | piece :: rest => do tree.follow (← tree.enter folder piece) rest

def locate (tree : FileTree) (text : Bytes) : Except FileFault (Place × Option Entry) := do
  let path ← Path.ofText text
  tree.follow path.start path.pieces

def read (tree : FileTree) (text : Bytes) : Except FileFault Bytes := do
  match ← tree.locate text with
  | (_, some (.file contents)) => pure contents
  | (_, some .other) => throw .isFolder
  | (_, none) => throw .missing

def folderAt (tree : FileTree) (text : Bytes) : Except FileFault Place := do
  match ← tree.locate text with
  | (place, some .other) => pure place
  | (_, some (.file _)) => throw .belowFile
  | (_, none) => throw .missing

/-- Follows pieces and makes each folder that is not there. What was made stays if a later piece fails. A
dot at the end is no name to make a folder under, so the folder before it has to be there. -/
def makeAlong (tree : FileTree) (folder : Place) : List Piece → Except FileFault Unit × FileTree
  | [] => (.ok (), tree)
  | .blank :: rest | .here :: rest => tree.makeAlong folder rest
  | .out :: rest => tree.makeAlong folder.around rest
  | .name name :: rest =>
    match tree.lookUp folder name with
    | .error fault => (.error fault, tree)
    | .ok (some (.file _)) => (.error .alreadyThere, tree)
    | .ok (some .other) => tree.makeAlong (folder ++ [name]) rest
    | .ok none =>
      if .here ∈ rest ∧ rest.all Piece.stays then (.error .missing, tree)
      else makeAlong ⟨tree.entries.insert (folder ++ [name]) .other⟩ (folder ++ [name]) rest

/-- Makes a folder with all folders around it, where they are not there yet. Whatever else keeps the path
from being followed is found before any folder is made. -/
def makeFolder (tree : FileTree) (text : Bytes) : Except FileFault Unit × FileTree :=
  match Path.ofText text with
  | .error fault => (.error fault, tree)
  | .ok path =>
    match tree.follow path.start path.pieces with
    | .ok _ | .error .missing => tree.makeAlong path.start path.pieces
    | .error fault => (.error fault, tree)

def write (tree : FileTree) (text contents : Bytes) : Except FileFault FileTree := do
  match ← tree.locate text with
  | (_, some .other) => throw .isFolder
  | (place, _) => pure ⟨tree.entries.insert place (.file contents)⟩

def put (tree : FileTree) (text contents : Bytes) : FileTree :=
  match Path.ofText text with
  | .error _ => tree
  | .ok path =>
    let made := (tree.makeAlong path.start path.pieces.dropLast).2
    (made.write text contents).toOption.getD made

/-- The files of a bare system: nothing in the working directory, and at the top the folder of temporary
files and the null device, which reads as an empty file. -/
def bare : FileTree := (empty.makeFolder (Utf8.encode "/tmp")).2.put (Utf8.encode "/dev/null") []

def remove (tree : FileTree) (text : Bytes) : Except FileFault FileTree := do
  match ← tree.locate text with
  | (place, some (.file _)) => pure ⟨tree.entries.erase place⟩
  | (_, some .other) => throw .isFolder
  | (_, none) => throw .missing

def nameIn? (folder place : Place) : Option Bytes :=
  match place.reverse with
  | name :: outwards => if outwards.reverse = folder then some name else none
  | [] => none

def entriesIn (tree : FileTree) (folder : Place) : Entries :=
  tree.entries.foldl (fun found place entry =>
    match nameIn? folder place with
    | some name => found.insert name entry
    | none => found) ∅

def withEntries (tree : FileTree) (folder : Place) (entries : Entries) : FileTree :=
  let others := tree.entries.filter fun place entry => (nameIn? folder place).isNone || entry = .other
  ⟨entries.foldl (fun found name entry => found.insert (folder ++ [name]) entry) others⟩

def files (tree : FileTree) : List String :=
  (tree.entries.toList.filterMap fun (place, entry) =>
    match entry with
    | .file _ => if place.isInside then some ("/".intercalate (place.map Utf8.repaired)) else none
    | .other => none).mergeSort fun a b => a ≤ b

end FileTree

end WalletVault
