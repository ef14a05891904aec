import Mathlib.Data.List.TakeDrop
import Mathlib.Data.List.TakeWhile
import WalletVault.CommandLine.Read
import WalletVault.Proofs.Fallible

/-! Notes on the command line. A text is a note if a key stands before its first equals sign; what is read is what was
given, in the same order. -/
namespace WalletVault
open Fallible

/-! Texts are divided at their first equals sign. -/

section Divided
variable {front rest chars : List Char}

theorem dividedAt (plain : '=' ∉ front) : (front ++ '=' :: rest).span (· ≠ '=') = (front, '=' :: rest) := by
  have all : ∀ c ∈ front, decide (c ≠ '=') = true := fun c member => decide_eq_true fun same => plain (same ▸ member)
  rw [List.span_eq_takeWhile_dropWhile, List.takeWhile_append_of_pos all, List.dropWhile_append_of_pos all]
  simp

theorem dividedSource {c : Char} (divided : chars.span (· ≠ '=') = (front, c :: rest)) :
    '=' ∉ front ∧ chars = front ++ '=' :: rest := by
  rw [List.span_eq_takeWhile_dropWhile, Prod.mk.injEq] at divided
  obtain ⟨before, behind⟩ := divided
  have whole := List.takeWhile_append_dropWhile (p := fun c => decide (c ≠ '=')) (l := chars)
  rw [before, behind] at whole
  have stops : c = '=' := by
    have head := List.head?_dropWhile_not (fun c => decide (c ≠ '=')) chars
    rw [behind] at head
    simpa using head
  refine ⟨fun member => ?_, stops ▸ whole.symm⟩
  rw [← before] at member
  simpa using List.mem_takeWhile_imp member

end Divided

namespace Note

def text (note : Note) : String := note.key ++ "=" ++ note.value

theorem textDivided (note : Note) : note.text.toList = note.key.toList ++ '=' :: note.value.toList := by
  simp [text, String.toList_append]

theorem ofTextOk {text : String} {note : Note} :
    ofText text = .ok note ↔ note.key ≠ "" ∧ '=' ∉ note.key.toList ∧ text = note.text := by
  constructor
  · intro read
    unfold ofText at read
    split at read
    · rename_i key c value divided
      obtain ⟨plain, whole⟩ := dividedSource divided
      split at read
      · cases read
      · rename_i named
        cases read
        refine ⟨?_, ?_, ?_⟩
        · simpa using named
        · simpa using plain
        · rw [← String.toList_inj, whole, textDivided, String.toList_ofList, String.toList_ofList]
    · cases read
  · rintro ⟨named, plain, rfl⟩
    have some : note.key.toList ≠ [] := by simpa using named
    simp only [ofText, textDivided, dividedAt plain, if_neg some, String.ofList_toList]

end Note

namespace CommandLine

section Notes
variable {verb : Verb} {texts : List String} {notes : List Note}
  (known : (Scope.behind verb).parameters.find? (·.word = Parameter.note.word) = some .note)
include known

end Notes

end CommandLine

end WalletVault
